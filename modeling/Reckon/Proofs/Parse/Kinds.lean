import Mathlib.Data.List.Forall2
import Reckon.Proofs.Parse.Numbers
import Reckon.Proofs.Parse.Spans
import Reckon.Proofs.Parse.Unexpected

set_option autoImplicit false

namespace Reckon

def Item.Alike : Item → Item → Prop
  | .number _, .number _ => True
  | .negate, .negate => True
  | .operation first, .operation second => first = second
  | _, _ => False

theorem respan_alike (move also : Span → Span) (item : Item) : (item.respan move).Alike (item.respan also) := by
  cases item with
  | number span => trivial
  | negate => trivial
  | operation op => rfl

theorem respans_alike (move also : Span → Span) (items : List Item) :
    List.Forall₂ Item.Alike (items.map (Item.respan move)) (items.map (Item.respan also)) := by
  rw [List.forall₂_map_left_iff, List.forall₂_map_right_iff]
  exact List.forall₂_same.mpr fun item _ => respan_alike move also item

def spanAt (tokens : List Token) (place : Span) : Span :=
  (tokens[place.start.toNat]?.map Token.span).getD place

theorem spelled_at (kinds : List Kind) (index : Nat) :
    (spelled kinds)[index]? = kinds[index]?.map fun kind => ⟨kind, ⟨[], index, index + 1⟩⟩ := by
  rw [spelled, List.getElem?_map, List.getElem?_zipIdx]
  cases kinds[index]? with
  | none => rfl
  | some kind => simp

-- The tokens spelled by the kinds of a sequence are the sequence, up to their spans.
theorem spelled_respan (tokens : List Token) :
    (spelled (tokens.map Token.kind)).map (Token.respan (spanAt tokens)) = tokens := by
  apply List.ext_getElem?
  intro index
  rw [List.getElem?_map, spelled_at, List.getElem?_map]
  cases found : tokens[index]? with
  | none => rfl
  | some token => simp [Token.respan, spanAt, found]

theorem taken_respan (move : Span → Span) (rules : Rules) (state : State) (tokens : List Token) :
    rules.taken state (tokens.map (Token.respan move)) = rules.taken state tokens := by
  induction tokens generalizing state with
  | nil => rfl
  | cons token rest ih =>
      rw [List.map_cons, Rules.taken, Rules.taken, step_respan]
      cases rules.step state token with
      | next written after => exact congrArg (· + 1) (ih after)
      | done written => rfl
      | failed error => rfl

def ParseError.Silent (error : ParseError) : Prop := ∀ token expected, error ≠ .unexpected token expected

theorem silent_respan {error : ParseError} (silent : error.Silent) (move : Span → Span) :
    error.respan move = error := by
  cases error with
  | unexpected token expected => exact absurd rfl (silent token expected)
  | _ => rfl

theorem report_respan {options : Options} {tokens labels : List Token} {move : Span → Span} {token : Token}
    {expected : Expected} (moved : labels.map (Token.respan move) = tokens)
    (failed : parse options labels = .error (.unexpected token expected)) :
    options.rules.taken .start tokens = options.rules.taken .start labels ∧
      tokens[options.rules.taken .start labels]? = some (token.respan move) ∧
      parse options tokens = .error (.unexpected (token.respan move) expected) := by
  obtain ⟨found, -⟩ := unexpected_cases failed
  rw [← moved, taken_respan, parse_respan, failed, List.getElem?_map, found]
  exact ⟨rfl, rfl, rfl⟩

theorem kinds_decide_parse (options : Options) (first second : List Token)
    (same : first.map Token.kind = second.map Token.kind) :
    (∃ items others, parse options first = .ok items ∧ parse options second = .ok others ∧
        List.Forall₂ Item.Alike items others ∧
        leafSpans items = numberSpans (beforeFinish first) ∧
        leafSpans others = numberSpans (beforeFinish second)) ∨
      (∃ error, error.Silent ∧ parse options first = .error error ∧ parse options second = .error error) ∨
      ∃ index token other expected,
        (options.rules.taken .start first = index ∧ options.rules.taken .start second = index) ∧
        (first[index]? = some token ∧ second[index]? = some other) ∧
        parse options first = .error (.unexpected token expected) ∧
        parse options second = .error (.unexpected other expected) := by
  let labels := spelled (first.map Token.kind)
  have moved : labels.map (Token.respan (spanAt first)) = first := spelled_respan first
  have alsoMoved : labels.map (Token.respan (spanAt second)) = second := by
    have spelledBack := spelled_respan second
    rwa [← same] at spelledBack
  have parsed := parse_respan (spanAt first) options labels
  have alsoParsed := parse_respan (spanAt second) options labels
  rw [moved] at parsed
  rw [alsoMoved] at alsoParsed
  cases outcome : parse options labels with
  | ok items =>
      rw [outcome] at parsed alsoParsed
      refine .inl ⟨_, _, parsed, alsoParsed, respans_alike _ _ items, ?_, ?_⟩
      · exact run_spans (parse_ran parsed).2
      · exact run_spans (parse_ran alsoParsed).2
  | error error =>
      rw [outcome] at parsed alsoParsed
      by_cases silent : error.Silent
      · refine .inr (.inl ⟨error, silent, ?_, ?_⟩)
        · rw [parsed, respanOutcome, silent_respan silent]
        · rw [alsoParsed, respanOutcome, silent_respan silent]
      · simp only [ParseError.Silent, not_forall, Decidable.not_not] at silent
        obtain ⟨token, expected, rfl⟩ := silent
        obtain ⟨taken, found, failed⟩ := report_respan moved outcome
        obtain ⟨alsoTaken, alsoFound, alsoFailed⟩ := report_respan alsoMoved outcome
        exact .inr (.inr ⟨_, _, _, expected, ⟨taken, alsoTaken⟩, ⟨found, alsoFound⟩, failed, alsoFailed⟩)

theorem one_place_for_all_tokens :
    let place : Span := ⟨"7".toList, 0, 1⟩
    let whole := [Kind.minus, .number, .caret, .opening, .number, .number, .closing, .finish]
    let broken := [Kind.minus, .number, .caret, .opening, .number, .star, .finish]
    let stacked (kinds : List Kind) : List Token := kinds.map (⟨·, place⟩)
    (∃ items others, parse {} (spelled whole) = .ok items ∧ parse {} (stacked whole) = .ok others ∧
        List.Forall₂ Item.Alike items others ∧ leafSpans others = [place, place, place]) ∧
      parse {} (spelled broken) = .error (.unexpected ⟨.finish, ⟨[], 6, 7⟩⟩ .operand) ∧
      parse {} (stacked broken) = .error (.unexpected ⟨.finish, place⟩ .operand) := by
  intro place whole broken stacked
  have failed : parse {} (spelled broken) = .error (.unexpected ⟨.finish, ⟨[], 6, 7⟩⟩ .operand) := rfl
  obtain ⟨written, parsed⟩ : ∃ items, parse {} (spelled whole) = .ok items := ⟨_, rfl⟩
  refine ⟨?_, failed, ?_⟩
  · rcases kinds_decide_parse {} (spelled whole) (stacked whole) rfl with
      ⟨items, others, ok, alsoOk, alike, -, numbers⟩ | ⟨error, -, stopped, -⟩ | ⟨_, _, _, _, -, -, stopped, -⟩
    · exact ⟨items, others, ok, alsoOk, alike, numbers⟩
    · cases parsed.symm.trans stopped
    · cases parsed.symm.trans stopped
  · rcases kinds_decide_parse {} (spelled broken) (stacked broken) rfl with
      ⟨_, _, ok, -⟩ | ⟨error, silent, stopped, -⟩ | ⟨index, _, other, _, ⟨-, taken⟩, ⟨-, found⟩, stopped, alsoStopped⟩
    · cases failed.symm.trans ok
    · cases failed.symm.trans stopped
      exact absurd rfl (silent _ _)
    · cases failed.symm.trans stopped
      subst taken
      cases found
      exact alsoStopped

end Reckon
