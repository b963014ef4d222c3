import Reckon.Calculate
import Reckon.Proofs.Number.Literal
import Reckon.Proofs.Parse.Numbers
import Reckon.Proofs.Parse.StackHeight
import Reckon.Proofs.Token.Cutting

set_option autoImplicit false

namespace Reckon

open Number (Format findFormat)

def firstIllegible (tokens : List Token) : Option Span :=
  (numberSpans tokens).find? fun span => ¬ Legible span.chars

def ParseError.Possible (options : Options) : ParseError → Prop
  | .noFinish => False
  | .unexpected .. => True
  | .tooDeep limit => options.maxDepth = .quantity limit
  | .incomparable limit => options.maxDepth = limit ∧ ∀ quantity, limit ≠ .quantity quantity
  | .outOfFrames => True

theorem fault_possible {options : Options} {token : Token} {error : ParseError}
    (fault : options.rules.Faults token error) : error.Possible options := by
  cases fault with
  | unexpected expected => trivial
  | refused level refusal =>
      rcases refusal_cases refusal with ⟨limit, isLimit, rfl | rfl⟩ | ⟨noQuantity, rfl⟩
      · exact isLimit
      · trivial
      · exact ⟨rfl, noQuantity⟩

theorem parse_error_possible {options : Options} {tokens : List Token} {error : ParseError}
    (ends : endsWithFinish tokens = true) (failed : parse options tokens = .error error) :
    error.Possible options := by
  obtain ⟨before, token, rest, written, last, -, -, stopped⟩ := parse_failed ends failed
  exact fault_possible (step_fault options.rules last token error stopped)

structure Scanned (source : String) (tokens : List Token) : Prop where
  scanned : scan source = .ok tokens
  ended : ∃ word finish, tokens = word ++ [finish] ∧ finish.kind = .finish ∧
    ∀ token ∈ word, token.kind ≠ .finish
  numeric : ∀ span ∈ numberSpans tokens, ∀ c ∈ span.chars, isNumberChar c = true

theorem scanned_known {source : String}
    (known : ∀ c ∈ source.toList.take (sourceEnd source.toList), c ∈ alphabet) :
    ∃ tokens, Scanned source tokens := by
  obtain ⟨body, scanned, lexemes⟩ := scan_valid source known
  refine ⟨_, scanned, ⟨body, _, rfl, rfl, fun token member => (lexemes.each token member).1.unfinished⟩, ?_⟩
  rw [number_spans_append, number_spans_symbol _ (by simp [finishToken]), List.append_nil]
  intro span member
  obtain ⟨token, among, rfl⟩ := List.mem_map.mp member
  obtain ⟨inBody, isNumber⟩ := List.mem_filter.mp among
  exact lexeme_digits (lexemes.each token inBody).1 (of_decide_eq_true isNumber)

theorem scanned_or_stopped (source : String) :
    ((∀ c ∈ source.toList.take (sourceEnd source.toList), c ∈ alphabet) ∧ ∃ tokens, Scanned source tokens) ∨
      ∃ error, scan source = .error error := by
  by_cases known : ∀ c ∈ source.toList.take (sourceEnd source.toList), c ∈ alphabet
  · exact .inl ⟨known, scanned_known known⟩
  · simp only [not_forall] at known
    obtain ⟨c, member, unknown⟩ := known
    obtain ⟨index, d, -, -, -, -, stopped⟩ := scan_invalid source c member unknown
    exact .inr ⟨_, stopped⟩

theorem leaf_spans_items (tree : Tree) : leafSpans tree.items = tree.leaves := by
  induction tree with
  | leaf span => rfl
  | negate operand ih =>
      rw [Tree.items, leaf_spans_append, ih]
      exact List.append_nil _
  | operation op left right leftIh rightIh =>
      rw [Tree.items, leaf_spans_append, leaf_spans_append, leftIh, rightIh]
      exact List.append_nil _

variable {options : Options} {source : String} {tokens : List Token} {items : List Item}

theorem scanned_numbers (text : Scanned source tokens) : numberSpans (beforeFinish tokens) = numberSpans tokens := by
  obtain ⟨word, finish, rfl, isFinish, free⟩ := text.ended
  rw [before_finish_append word finish [] free isFinish, number_spans_append,
    number_spans_symbol finish (by simp [isFinish]), List.append_nil]

theorem scanned_ends (text : Scanned source tokens) : endsWithFinish tokens = true := by
  obtain ⟨word, finish, rfl, isFinish, -⟩ := text.ended
  exact ends_with_finish word finish isFinish

theorem first_illegible_none (tokens : List Token) :
    firstIllegible tokens = none ↔ ∀ span ∈ numberSpans tokens, Legible span.chars := by
  simp [firstIllegible, List.find?_eq_none]

theorem evaluate_scanned (text : Scanned source tokens) (parsed : parse options tokens = .ok items)
    (format : Format) :
    match firstIllegible tokens with
    | some span => evaluateIn format items = .error (.malformed span)
    | none => ∃ value, evaluateIn format items = .ok value := by
  obtain ⟨ends, ran⟩ := parse_ran parsed
  obtain ⟨tree, rfl⟩ := phrase_tree ((run_ok_iff options.rules tokens items ends).mp ran)
  have leaves : tree.leaves = numberSpans tokens := by
    rw [← leaf_spans_items, run_spans ran, scanned_numbers text]
  have first : tree.firstMalformed format = firstIllegible tokens := by
    rw [Tree.firstMalformed, leaves, firstIllegible, ← List.head?_filter, ← List.head?_filter]
    refine congrArg List.head? (List.filter_congr fun span member => ?_)
    rw [Bool.eq_iff_iff, Option.isNone_iff_eq_none, decide_eq_true_eq]
    exact read_legible_iff format (text.numeric span member)
  rw [evaluate_items, ← first]
  exact evaluate_first_malformed format tree

theorem calculate_unscanned {error : ScanError} (failed : scan source = .error error) :
    calculate options source = .error (.scan error) := by
  exact calculate_failed (rpn_unscanned failed)

theorem rpn_scanned (text : Scanned source tokens) (parsed : parse options tokens = .ok items) :
    rpnOf options source = .ok items := by
  exact rpn_parsed text.scanned parsed

def Decided (options : Options) (tokens : List Token) (outcome : Except Failure Answer) : Prop :=
  match parse options tokens with
  | .error error => error.Possible options ∧ outcome = .error (.parse error)
  | .ok items =>
      match findFormat options.request with
      | .error error => outcome = .error (.eval (.format error))
      | .ok chosen =>
          match firstIllegible tokens with
          | some span => outcome = .error (.eval (.malformed span))
          | none =>
              ∃ value, evaluateIn chosen items = .ok value ∧ outcome = .ok ⟨⟨chosen, value⟩, format items⟩

theorem calculate_decided (options : Options) (text : Scanned source tokens) :
    Decided options tokens (calculate options source) := by
  unfold Decided
  cases parsed : parse options tokens with
  | error error =>
      exact ⟨parse_error_possible (scanned_ends text) parsed, calculate_failed (rpn_unparsed text.scanned parsed)⟩
  | ok items =>
      have done := rpn_scanned text parsed
      cases found : findFormat options.request with
      | error error => exact calculate_unevaluated done (by simp only [evaluate, found])
      | ok chosen =>
          have outcome := evaluate_scanned text parsed chosen
          cases first : firstIllegible tokens with
          | some span =>
              rw [first] at outcome
              exact calculate_unevaluated done (by simp only [evaluate, found, outcome])
          | none =>
              rw [first] at outcome
              obtain ⟨value, evaluated⟩ := outcome
              exact ⟨value, evaluated, calculate_evaluated done (by simp only [evaluate, found, evaluated])⟩

end Reckon
