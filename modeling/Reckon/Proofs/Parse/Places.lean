import Reckon.Proofs.Parse.OpenLevels
import Reckon.Proofs.Parse.Substitution

set_option autoImplicit false

namespace Reckon

theorem move_place {rules : Rules} {state after : State} {token : Token} {written : List Item}
    (move : rules.Move token state written after) : after.afterOperand = token.kind.endsOperand := by
  induction move with
  | number kind | minus kind | plus kind _ | group kind _ | power kind _ | closing kind _ =>
      rw [kind]
      rfl
  | operation sign =>
      obtain ⟨-, -, -, unended, -⟩ := chained_flat sign
      exact unended.symm
  | product _ _ ih => exact ih

theorem step_place {rules : Rules} {state after : State} {token : Token} {written : List Item}
    (step : rules.step state token = .next written after) : after.afterOperand = token.kind.endsOperand :=
  move_place (step_next_iff.mp step)

theorem reached_place {rules : Rules} {state last : State} {word : List Token} {written : List Item}
    (reached : rules.Reaches state word written last) :
    last.afterOperand = operandAfter state.afterOperand word := by
  induction reached with
  | here => rfl
  | next step _ ih => rw [ih, step_place step, operandAfter]

theorem ends_after_free (before rest : List Token) (free : ∀ token ∈ before, token.kind ≠ .finish) :
    endsWithFinish (before ++ rest) = endsWithFinish rest := by
  simp only [endsWithFinish, List.getLast?_append]
  cases rest.getLast? with
  | some last => rfl
  | none =>
      cases last : before.getLast? with
      | none => rfl
      | some token => simp [free token (List.mem_of_getLast? last)]

-- Two continuations that every state of the place takes alike are alike after any tokens that lead there, also
-- where those tokens are at fault themselves.
theorem parse_continued (options : Options) {before first second : List Token}
    (free : ∀ token ∈ before, token.kind ≠ .finish) (ends : endsWithFinish first = endsWithFinish second)
    (alike : ∀ state : State, state.afterOperand = operandAfter false before →
      options.rules.run state first = options.rules.run state second) :
    parse options (before ++ first) = parse options (before ++ second) := by
  rw [parse, parse, Rules.parse, Rules.parse, ends_after_free before first free, ends_after_free before second free,
    ends]
  rcases reaches_or_fails options.rules .start before free with ⟨written, last, reached⟩ | ⟨error, failed⟩
  · rw [run_reached reached, run_reached reached, alike last (reached_place reached)]
  · rw [failed, failed]

theorem run_product_sign (rules : Rules) (pending : List Pending) (star next : Token) (rest : List Token)
    (isStar : star.kind = .star) (starts : next.kind.startsOperand = true) :
    rules.run ⟨.operator, pending⟩ (star :: next :: rest) = rules.run ⟨.operator, pending⟩ (next :: rest) := by
  have implied := run_after rules ⟨.operator, pending⟩ ⟨.operand false, awaiting .mul pending⟩ next rest _
    (step_operand rules ⟨.operator, pending⟩ next starts)
  have signed : rules.step ⟨.operator, pending⟩ star = operationStep .mul pending := by
    simp only [Rules.step, Rules.operatorStep, isStar]
  rw [implied, Rules.run, signed]
  rfl

theorem product_sign_optional (options : Options) (before rest : List Token) (last star next : Token)
    (free : ∀ token ∈ before, token.kind ≠ .finish) (ends : last.kind.endsOperand = true)
    (isStar : star.kind = .star) (starts : next.kind.startsOperand = true) :
    parse options (before ++ [last] ++ star :: next :: rest) = parse options (before ++ [last] ++ next :: rest) := by
  have unfinished : ∀ token ∈ before ++ [last], token.kind ≠ .finish := by
    intro token member
    rcases List.mem_append.mp member with among | final
    · exact free token among
    · rw [List.mem_singleton.mp final]
      intro same
      rw [same] at ends
      cases ends
  have place : operandAfter false (before ++ [last]) = true := by rwa [operand_after_append]
  have sameEnd := ends_after_free [star] (next :: rest) (by simp [isStar])
  refine parse_continued options unfinished sameEnd fun state here => ?_
  obtain ⟨⟨negated⟩ | ⟨⟩, pending⟩ := state
  · rw [place] at here
    cases here
  · exact run_product_sign options.rules pending star next rest isStar starts

-- `2^(3)*4` and `2^(3)4`, and both before `^(5^6`, which opens a level too many: the product comes after a group
-- in an exponent.
theorem product_after_exponent :
    let symbol (kind : Kind) (text : String) : Token := ⟨kind, Span.whole text⟩
    let before := [symbol .number "2", symbol .caret "^", symbol .opening "(", symbol .number "3"]
    let deeper := [symbol .caret "^", symbol .opening "(", symbol .number "5", symbol .caret "^", symbol .number "6"]
    let options : Options := { maxDepth := .quantity (.whole 2) }
    ∃ items,
      parse options (before ++ [symbol .closing ")"] ++ symbol .number "4" :: [inputEnd]) = .ok items ∧
      parse options (before ++ [symbol .closing ")"] ++ symbol .star "*" :: symbol .number "4" :: [inputEnd]) =
        .ok items ∧
      parse options (before ++ [symbol .closing ")"] ++ symbol .star "*" :: symbol .number "4" ::
        (deeper ++ [inputEnd])) = .error (.tooDeep (.whole 2)) := by
  intro symbol before deeper options
  have optional (rest : List Token) := product_sign_optional options before rest (symbol .closing ")")
    (symbol .star "*") (symbol .number "4") (by decide) rfl rfl rfl
  obtain ⟨items, parsed⟩ :
      ∃ items, parse options (before ++ [symbol .closing ")"] ++ symbol .number "4" :: [inputEnd]) = .ok items :=
    ⟨_, rfl⟩
  exact ⟨items, parsed, (optional [inputEnd]).trans parsed, (optional (deeper ++ [inputEnd])).trans rfl⟩

theorem signs_exchanged (options : Options) {before rest signs others : List Token}
    (free : ∀ token ∈ before, token.kind ≠ .finish) (bare : operandAfter false before = false)
    (signed : ∀ sign ∈ signs, sign.kind.isSign options.rules.unaryPlus = true)
    (alsoSigned : ∀ sign ∈ others, sign.kind.isSign options.rules.unaryPlus = true)
    (parity : negates signs = negates others) :
    parse options (before ++ (signs ++ rest)) = parse options (before ++ (others ++ rest)) := by
  have sameEnd : endsWithFinish (signs ++ rest) = endsWithFinish (others ++ rest) := by
    rw [ends_after_free signs rest (signs_unfinished signed), ends_after_free others rest (signs_unfinished alsoSigned)]
  refine parse_continued options free sameEnd fun state here => ?_
  obtain ⟨⟨negated⟩ | ⟨⟩, pending⟩ := state
  · rw [run_signs _ negated pending signs rest signed, run_signs _ negated pending others rest alsoSigned, parity]
  · rw [bare] at here
    cases here

theorem signs_count_by_parity (options : Options) (before rest : List Token)
    (free : ∀ token ∈ before, token.kind ≠ .finish) (bare : operandAfter false before = false) :
    (∀ first second : Token, first.kind = .minus → second.kind = .minus →
        parse options (before ++ first :: second :: rest) = parse options (before ++ rest)) ∧
      (options.unaryPlus.isTrue = true → ∀ plus : Token, plus.kind = .plus →
        parse options (before ++ plus :: rest) = parse options (before ++ rest)) := by
  constructor
  · intro first second isMinus alsoMinus
    have signed : ∀ sign ∈ [first, second], sign.kind.isSign options.rules.unaryPlus = true := by
      simp [isMinus, alsoMinus, Kind.isSign]
    have cancel : negates [first, second] = negates [] := by simp [negates, isMinus, alsoMinus]
    exact signs_exchanged options free bare signed (by simp) cancel
  · intro allowed plus isPlus
    have signed : ∀ sign ∈ [plus], sign.kind.isSign options.rules.unaryPlus = true := by
      intro sign member
      rw [List.mem_singleton.mp member, isPlus]
      exact allowed
    have nothing : negates [plus] = negates [] := by simp [negates, isPlus]
    exact signs_exchanged options free bare signed (by simp) nothing

theorem signs_in_exponent_cancel :
    let symbol (kind : Kind) (text : String) : Token := ⟨kind, Span.whole text⟩
    let base := [symbol .number "2", symbol .caret "^"]
    let group := [symbol .opening "(", symbol .number "3", inputEnd]
    parse {} (base ++ symbol .minus "-" :: group) = .error (.unexpected inputEnd .closing) ∧
      parse {} (base ++ symbol .minus "-" :: symbol .minus "-" :: symbol .minus "-" :: group) =
        .error (.unexpected inputEnd .closing) ∧
      parse {} (base ++ [symbol .minus "-"] ++ symbol .plus "+" :: group) =
        .error (.unexpected inputEnd .closing) := by
  intro symbol base group
  have failed : parse {} (base ++ symbol .minus "-" :: group) = .error (.unexpected inputEnd .closing) := rfl
  obtain ⟨cancel, -⟩ := signs_count_by_parity {} base (symbol .minus "-" :: group) (by decide) rfl
  obtain ⟨-, nothing⟩ := signs_count_by_parity {} (base ++ [symbol .minus "-"]) group (by decide) rfl
  exact ⟨failed, (cancel _ _ rfl rfl).trans failed, (nothing rfl _ rfl).trans failed⟩

end Reckon
