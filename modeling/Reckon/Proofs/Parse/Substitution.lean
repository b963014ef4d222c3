import Reckon.Proofs.Parse.Limits
import Reckon.Proofs.Parse.Numbers

set_option autoImplicit false

namespace Reckon

-- What a state makes of an operand that comes next: the items that it writes before those of the operand,
-- whether the signs read so far negate the operand, and the parts that are pending around it.
def State.leading (state : State) : List Item :=
  match state.place with
  | .operand _ => []
  | .operator => (unwind BinaryOp.mul.level state.pending).1

def State.negated (state : State) : Bool :=
  match state.place with
  | .operand negated => negated
  | .operator => false

def State.around (state : State) : List Pending :=
  match state.place with
  | .operand _ => state.pending
  | .operator => awaiting .mul state.pending

theorem leading_spans (state : State) : leafSpans state.leading = [] := by
  obtain ⟨place, pending⟩ := state
  cases place with
  | operand negated => rfl
  | operator => exact leaf_spans_unwind BinaryOp.mul.level pending

theorem step_operand (rules : Rules) (state : State) (token : Token) (starts : token.kind.startsOperand = true) :
    rules.step state token = (rules.operandStep state.negated state.around token).after state.leading := by
  obtain ⟨place, pending⟩ := state
  cases place with
  | operand negated => exact (after_nothing _).symm
  | operator =>
      cases kind : token.kind <;> simp [kind, Kind.startsOperand] at starts <;>
        simp only [Rules.step, Rules.operatorStep, kind] <;> rfl

theorem run_number (rules : Rules) (state : State) (number : Token) (rest : List Token)
    (isNumber : number.kind = .number) :
    rules.run state (number :: rest) =
      (rules.run ⟨.operator, state.around⟩ rest).map
        (state.leading ++ [.number number.span] ++ negation state.negated ++ ·) := by
  have starts : number.kind.startsOperand = true := congrArg Kind.startsOperand isNumber
  simp only [Rules.run, step_operand rules state number starts, Rules.operandStep, isNumber, Step.after,
    List.append_assoc, List.singleton_append]

theorem run_group (rules : Rules) (state : State) {word : List Token} {items : List Item} {opening closing : Token}
    (rest : List Token) (opens : opening.kind = .opening) (closes : closing.kind = .closing)
    (fits : rules.Admits (pathOf state.around).inGroup)
    (inside : Phrase rules.Admits rules.unaryPlus 0 (pathOf state.around).inGroup word items) :
    rules.run state (opening :: (word ++ closing :: rest)) =
      (rules.run ⟨.operator, state.around⟩ rest).map
        (state.leading ++ items ++ negation state.negated ++ ·) := by
  have starts : opening.kind.startsOperand = true := congrArg Kind.startsOperand opens
  have place := path_of_group state.negated state.around
  have entered := enter_admitted rules (.group state.negated :: state.around) (place ▸ fits)
  have done : Completes 0 (closing :: rest) := fun op _ => by simp [nextBinding, closes, Kind.binding]
  have read := run_phrase inside _ (closing :: rest) place (ready_group _ _ _) done
  simp only [Rules.run, step_operand rules state opening starts, Rules.operandStep, opens, entered, Step.after,
    List.append_nil]
  rw [read]
  simp only [Rules.run, Rules.step, Rules.operatorStep, closes, closingStep, unwind, List.nil_append, map_written]
  simp only [List.append_assoc]

theorem phrase_anywhere {allowed : Path → Prop} {plus : Bool} {level : Nat} {path : Path} {word : List Token}
    {items : List Item} (phrase : Phrase allowed plus level path word items) (place : Path) :
    Phrase (Rules.unlimited plus).Admits plus level place word items := by
  induction phrase generalizing place with
  | tighter _ ih => exact .tighter (ih place)
  | chain atLevel joined _ _ beforeIh afterIh => exact .chain atLevel joined (beforeIh place) (afterIh place)
  | power sign fits _ _ beforeIh afterIh =>
      exact .power sign (unlimited_admits plus _) (beforeIh place) (afterIh place.inPower)
  | number signed isNumber => exact .number signed isNumber
  | group signed opens closes fits _ ih =>
      exact .group signed opens closes (unlimited_admits plus _) (ih place.inGroup)

theorem reaches_or_fails (rules : Rules) (state : State) (word : List Token)
    (free : ∀ token ∈ word, token.kind ≠ .finish) :
    (∃ written last, rules.Reaches state word written last) ∨
      ∃ error, ∀ rest, rules.run state (word ++ rest) = .error error := by
  induction word generalizing state with
  | nil => exact .inl ⟨[], state, .here⟩
  | cons token word ih =>
      cases step : rules.step state token with
      | failed error => exact .inr ⟨error, fun rest => by simp only [List.cons_append, Rules.run, step]⟩
      | done written => exact absurd (step_done_finish step).1 (free token List.mem_cons_self)
      | next written after =>
          rcases ih after fun other member => free other (List.mem_cons_of_mem _ member) with
            ⟨more, last, reached⟩ | ⟨error, failed⟩
          · exact .inl ⟨written ++ more, last, .next step reached⟩
          · exact .inr ⟨error, fun rest => by simp only [List.cons_append, Rules.run, step, failed, Except.map]⟩

theorem unlimited_substituted {plus : Bool} {before inside : List Token} {opening closing number : Token}
    {items : List Item} (rest : List Token) (free : ∀ token ∈ before, token.kind ≠ .finish)
    (opens : opening.kind = .opening) (closes : closing.kind = .closing) (isNumber : number.kind = .number)
    (read : ∀ path, Phrase (Rules.unlimited plus).Admits plus 0 path inside items) :
    (∃ error, (Rules.unlimited plus).run .start (before ++ number :: rest) = .error error ∧
        (Rules.unlimited plus).run .start (before ++ opening :: (inside ++ closing :: rest)) = .error error) ∨
      ∃ first last, leafSpans first = numberSpans before ∧
        (Rules.unlimited plus).run .start (before ++ number :: rest) =
          .ok (first ++ .number number.span :: last) ∧
        (Rules.unlimited plus).run .start (before ++ opening :: (inside ++ closing :: rest)) =
          .ok (first ++ items ++ last) := by
  rcases reaches_or_fails (Rules.unlimited plus) .start before free with
    ⟨written, state, reached⟩ | ⟨error, failed⟩
  · have group := run_group (Rules.unlimited plus) state rest opens closes (unlimited_admits plus _) (read _)
    rw [run_reached reached, run_reached reached, run_number _ state number rest isNumber, group]
    cases (Rules.unlimited plus).run ⟨.operator, state.around⟩ rest with
    | error error => exact .inl ⟨error, rfl, rfl⟩
    | ok last =>
        refine .inr ⟨written ++ state.leading, negation state.negated ++ last, ?_, ?_, ?_⟩
        · rw [leaf_spans_append, reached_spans reached, leading_spans, List.append_nil]
        · simp [Except.map]
        · simp [Except.map]
  · exact .inl ⟨error, failed _, failed _⟩

theorem group_in_place_of_number (options : Options) (before inside after : List Token)
    (opening closing number finish : Token) (items : List Item) (beforeFree : ∀ token ∈ before, token.kind ≠ .finish)
    (insideFree : ∀ token ∈ inside, token.kind ≠ .finish) (opens : opening.kind = .opening)
    (closes : closing.kind = .closing) (isNumber : number.kind = .number) (isFinish : finish.kind = .finish)
    (parsed : parse options (inside ++ [finish]) = .ok items)
    (numberRoom : ¬ Refused (parse options (before ++ [number] ++ after ++ [finish])))
    (groupRoom : ¬ Refused (parse options (before ++ [opening] ++ inside ++ [closing] ++ after ++ [finish]))) :
    ((∃ whole, parse options (before ++ [opening] ++ inside ++ [closing] ++ after ++ [finish]) = .ok whole) ↔
        ∃ whole, parse options (before ++ [number] ++ after ++ [finish]) = .ok whole) ∧
      ∀ whole, parse options (before ++ [number] ++ after ++ [finish]) = .ok whole →
        ∃ first last, whole = first ++ [.number number.span] ++ last ∧
          (leafSpans first).length = before.countP (·.kind = .number) ∧
          parse options (before ++ [opening] ++ inside ++ [closing] ++ after ++ [finish]) =
            .ok (first ++ items ++ last) := by
  have phrase := (parse_word_ok_iff options inside finish items insideFree isFinish).mp parsed
  have outcome := unlimited_substituted (after ++ [finish]) beforeFree opens closes isNumber
    (phrase_anywhere phrase)
  rw [parse_freely numberRoom, parse_freely groupRoom, Rules.parse, Rules.parse,
    if_pos (ends_with_finish _ finish isFinish), if_pos (ends_with_finish _ finish isFinish)]
  simp only [List.append_assoc, List.cons_append, List.nil_append] at outcome ⊢
  rcases outcome with ⟨error, numberFails, groupFails⟩ | ⟨first, last, spans, numberRuns, groupRuns⟩
  · rw [numberFails, groupFails]
    refine ⟨Iff.rfl, fun whole same => ?_⟩
    cases same
  · rw [numberRuns, groupRuns]
    refine ⟨⟨fun _ => ⟨_, rfl⟩, fun _ => ⟨_, rfl⟩⟩, ?_⟩
    rintro whole ⟨rfl⟩
    exact ⟨first, last, rfl, by rw [spans, number_spans_length], rfl⟩

-- The number 7 of `2^-7 5`, and the group of `2^-(1+3*4)5` in its place: under a sign, in an exponent, and next
-- to a number that it is multiplied by.
theorem group_in_exponent_replaces_number :
    let symbol (kind : Kind) (text : String) : Token := ⟨kind, Span.whole text⟩
    let before := [symbol .number "2", symbol .caret "^", symbol .minus "-"]
    let inside := [symbol .number "1", symbol .plus "+", symbol .number "3", symbol .star "*", symbol .number "4"]
    let after := [symbol .number "5"]
    ∃ items first last, parse {} (inside ++ [inputEnd]) = .ok items ∧
      parse {} (before ++ [symbol .number "7"] ++ after ++ [inputEnd]) =
        .ok (first ++ [.number (Span.whole "7")] ++ last) ∧ (leafSpans first).length = 1 ∧
      parse {} (before ++ [symbol .opening "("] ++ inside ++ [symbol .closing ")"] ++ after ++ [inputEnd]) =
        .ok (first ++ items ++ last) := by
  intro symbol before inside after
  obtain ⟨items, parsed⟩ : ∃ items, parse {} (inside ++ [inputEnd]) = .ok items := ⟨_, rfl⟩
  obtain ⟨whole, read⟩ : ∃ whole, parse {} (before ++ [symbol .number "7"] ++ after ++ [inputEnd]) = .ok whole :=
    ⟨_, rfl⟩
  obtain ⟨first, last, rfl, position, replaced⟩ :=
    (group_in_place_of_number {} before inside after (symbol .opening "(") (symbol .closing ")")
      (symbol .number "7") inputEnd items (by decide) (by decide) rfl rfl rfl rfl parsed
      (by rintro ⟨error, failed, -⟩; cases failed) (by rintro ⟨error, failed, -⟩; cases failed)).2 whole read
  exact ⟨items, first, last, parsed, read, position, replaced⟩

end Reckon
