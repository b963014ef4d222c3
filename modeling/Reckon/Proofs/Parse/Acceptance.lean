import Mathlib.Data.List.TakeWhile
import Reckon.Options
import Reckon.Proofs.Parse.Splitting

set_option autoImplicit false

namespace Reckon

def beforeFinish (tokens : List Token) : List Token := tokens.takeWhile (·.kind ≠ .finish)

theorem signs_unfinished {plus : Bool} {signs : List Token} (signed : ∀ sign ∈ signs, sign.kind.isSign plus = true) :
    ∀ sign ∈ signs, sign.kind ≠ .finish := by
  intro sign member same
  have isSign := signed sign member
  simp [same, Kind.isSign] at isSign

theorem phrase_without_finish {allowed : Path → Prop} {plus : Bool} {level : Nat} {path : Path}
    {word : List Token} {items : List Item} (phrase : Phrase allowed plus level path word items) :
    ∀ token ∈ word, token.kind ≠ .finish := by
  induction phrase with
  | tighter _ ih => exact ih
  | @chain level path op left joint right first second atLevel joined _ _ beforeIh afterIh =>
      have jointFree : ∀ token ∈ joint, token.kind ≠ .finish := by
        cases joined with
        | implied => simp
        | sign known =>
            intro token member same
            simp_all [Kind.chained]
      simp only [List.mem_append, or_imp, forall_and]
      exact ⟨⟨beforeIh, jointFree⟩, afterIh⟩
  | power caret fits _ _ beforeIh afterIh =>
      simp only [List.mem_append, List.mem_cons, or_imp, forall_and, forall_eq]
      exact ⟨beforeIh, by simp [caret], afterIh⟩
  | number signed isNumber =>
      simp only [List.mem_append, List.mem_singleton, or_imp, forall_and, forall_eq]
      exact ⟨signs_unfinished signed, by simp [isNumber]⟩
  | group signed opens closes fits _ ih =>
      simp only [List.mem_append, List.mem_cons, List.not_mem_nil, or_false, or_imp, forall_and, forall_eq]
      exact ⟨signs_unfinished signed, by simp [opens], ih, by simp [closes]⟩

theorem before_finish_empty (finish : Token) (rest : List Token) (isFinish : finish.kind = .finish) :
    beforeFinish (finish :: rest) = [] :=
  List.takeWhile_cons_of_neg (by simp [isFinish])

theorem before_finish_append (word : List Token) (finish : Token) (rest : List Token)
    (free : ∀ token ∈ word, token.kind ≠ .finish) (isFinish : finish.kind = .finish) :
    beforeFinish (word ++ finish :: rest) = word := by
  rw [beforeFinish, List.takeWhile_append_of_pos fun token member => by simpa using free token member]
  change word ++ beforeFinish (finish :: rest) = word
  rw [before_finish_empty finish rest isFinish, List.append_nil]

theorem before_finish_cons (token : Token) (rest : List Token) (unfinished : token.kind ≠ .finish) :
    beforeFinish (token :: rest) = token :: beforeFinish rest :=
  List.takeWhile_cons_of_pos (by simpa using unfinished)

theorem first_finish (tokens : List Token) (ends : endsWithFinish tokens = true) :
    ∃ finish rest, tokens = beforeFinish tokens ++ finish :: rest ∧ finish.kind = .finish := by
  cases rest : tokens.dropWhile (·.kind ≠ .finish) with
  | nil =>
      have none : ∀ token ∈ tokens, token.kind ≠ .finish := by simpa using List.dropWhile_eq_nil_iff.mp rest
      cases last : tokens.getLast? with
      | none => simp [endsWithFinish, last] at ends
      | some token =>
          have finish : token.kind = .finish := by simpa [endsWithFinish, last] using ends
          exact absurd finish (none token (List.mem_of_getLast? last))
  | cons finish tail =>
      refine ⟨finish, tail, ?_, ?_⟩
      · rw [← rest]
        exact (List.takeWhile_append_dropWhile).symm
      · have stopped := List.head?_dropWhile_not (fun token : Token => decide (token.kind ≠ .finish)) tokens
        rw [rest] at stopped
        simpa using stopped

theorem has_finish {tokens : List Token} (ends : endsWithFinish tokens = true) :
    ∃ token ∈ tokens, token.kind = .finish := by
  obtain ⟨finish, rest, cut, isFinish⟩ := first_finish tokens ends
  exact ⟨finish, by rw [cut]; simp, isFinish⟩

theorem run_start_ok_iff (rules : Rules) (word rest : List Token) (finish : Token) (items : List Item)
    (free : ∀ token ∈ word, token.kind ≠ .finish) (isFinish : finish.kind = .finish) :
    rules.run .start (word ++ finish :: rest) = .ok items ↔
      Phrase rules.Admits rules.unaryPlus 0 .root word items := by
  have finished : rules.run ⟨.operator, []⟩ (finish :: rest) = .ok [] := by
    simp [Rules.run, Rules.step, Rules.operatorStep, isFinish, finishStep, unwind]
  constructor
  · intro ran
    generalize tokensEq : word ++ finish :: rest = tokens at ran
    cases run_split rules 0 [] tokens items (Nat.zero_le 3) trivial ran with
    | @phrase read after first second phrase goesOn ends =>
        cases after with
        | nil => cases goesOn
        | cons token tail =>
            cases kind : token.kind with
            | finish =>
                have done : second = [] := by
                  simpa [Rules.run, Rules.step, Rules.operatorStep, kind, finishStep, unwind] using goesOn
                have same : word = read := by
                  have cut := congrArg beforeFinish tokensEq
                  rwa [before_finish_append word finish rest free isFinish,
                    before_finish_append read token tail (phrase_without_finish phrase) kind] at cut
                rw [done, List.append_nil, same]
                exact phrase
            | closing =>
                simp [Rules.run, Rules.step, Rules.operatorStep, kind, closingStep, unwind] at goesOn
            | _ => simp [nextBinding, kind, Kind.binding] at ends
  · intro phrase
    have done : Completes 0 (finish :: rest) := fun op _ => by simp [nextBinding, isFinish, Kind.binding]
    have ran := run_phrase phrase [] (finish :: rest) rfl trivial done
    rw [finished] at ran
    simpa [Except.map, State.start] using ran

theorem run_ok_iff (rules : Rules) (tokens : List Token) (items : List Item) (ends : endsWithFinish tokens = true) :
    rules.run .start tokens = .ok items ↔
      Phrase rules.Admits rules.unaryPlus 0 .root (beforeFinish tokens) items := by
  obtain ⟨finish, rest, cut, isFinish⟩ := first_finish tokens ends
  have free : ∀ token ∈ beforeFinish tokens, token.kind ≠ .finish := by
    intro token member
    simpa using List.mem_takeWhile_imp member
  generalize beforeFinish tokens = word at cut free ⊢
  rw [cut]
  exact run_start_ok_iff rules word rest finish items free isFinish

theorem parse_ok_iff (options : Options) (tokens : List Token) (items : List Item)
    (ends : endsWithFinish tokens = true) :
    parse options tokens = .ok items ↔
      Phrase options.rules.Admits options.rules.unaryPlus 0 .root (beforeFinish tokens) items := by
  rw [parse, Rules.parse, if_pos ends]
  exact run_ok_iff options.rules tokens items ends

theorem parse_ran {options : Options} {tokens : List Token} {items : List Item}
    (parsed : parse options tokens = .ok items) :
    endsWithFinish tokens = true ∧ options.rules.run .start tokens = .ok items := by
  by_cases ends : endsWithFinish tokens = true
  · rw [parse, Rules.parse, if_pos ends] at parsed
    exact ⟨ends, parsed⟩
  · rw [parse, Rules.parse, if_neg ends] at parsed
    cases parsed

theorem ends_with_finish (word : List Token) (finish : Token) (isFinish : finish.kind = .finish) :
    endsWithFinish (word ++ [finish]) = true := by
  simp [endsWithFinish, isFinish]

theorem parse_word_ok_iff (options : Options) (word : List Token) (finish : Token) (items : List Item)
    (free : ∀ token ∈ word, token.kind ≠ .finish) (isFinish : finish.kind = .finish) :
    parse options (word ++ [finish]) = .ok items ↔
      Phrase options.rules.Admits options.rules.unaryPlus 0 .root word items := by
  rw [parse_ok_iff options _ items (ends_with_finish word finish isFinish),
    before_finish_append word finish [] free isFinish]

def spelled (kinds : List Kind) : List Token :=
  kinds.zipIdx.map fun placed => ⟨placed.1, ⟨[], placed.2, placed.2 + 1⟩⟩

end Reckon
