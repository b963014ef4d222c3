import Reckon.Proofs.Parse.Extent
import Reckon.Proofs.Parse.OpenGroups
import Reckon.Proofs.Parse.Places

set_option autoImplicit false

namespace Reckon

theorem outside_iff (pending : List Pending) : (unwind 0 pending).2 = [] ↔ groups pending = 0 := by
  rw [← groups_unwind 0 pending]
  rcases unwind_all pending with outside | ⟨negated, outer, inside⟩
  · simp [outside, groups]
  · simp [inside, groups]

theorem step_unexpected {rules : Rules} {state : State} {token reported : Token} {expected : Expected}
    (failed : rules.step state token = .failed (.unexpected reported expected)) :
    reported = token ∧
      (state.afterOperand = false ∧ expected = .operand ∧
          (token.kind ∈ strayKinds ∨ token.kind = .plus ∧ rules.unaryPlus = false) ∨
        state.afterOperand = true ∧ token.kind = .closing ∧ expected = .finish ∧ groups state.pending = 0 ∨
        state.afterOperand = true ∧ token.kind = .finish ∧ expected = .closing ∧ 0 < groups state.pending) := by
  cases step_failed_iff.mp failed with
  | stray stray => exact ⟨rfl, .inl ⟨rfl, rfl, stray⟩⟩
  | group _ refused => exact (refusal_of_limit refused).elim
  | power _ refused => exact (refusal_of_limit refused).elim
  | product starts operand =>
      cases operand with
      | stray stray =>
          rcases stray with among | ⟨isPlus, -⟩
          · cases kind : token.kind <;> simp [kind, Kind.startsOperand, strayKinds] at starts among
          · simp [isPlus, Kind.startsOperand] at starts
      | group _ refused => exact (refusal_of_limit refused).elim
  | unopened closes outside => exact ⟨rfl, .inr (.inl ⟨rfl, closes, rfl, (outside_iff _).mp outside⟩)⟩
  | unclosed isFinish inside =>
      refine ⟨rfl, .inr (.inr ⟨rfl, isFinish, rfl, Nat.pos_of_ne_zero fun outside => ?_⟩)⟩
      rw [(outside_iff _).mpr outside] at inside
      cases inside

theorem closing_never_taken (options : Options) {before : List Token} {closing : Token} (rest : List Token)
    (free : ∀ token ∈ before, token.kind ≠ .finish) (operand : operandAfter false before = true)
    (balanced : nesting before = 0) (closes : closing.kind = .closing) (items : List Item) :
    parse options (before ++ closing :: rest) ≠ .ok items := by
  intro parsed
  obtain ⟨-, ran⟩ := parse_ran parsed
  rcases reaches_or_fails options.rules .start before free with ⟨written, last, reached⟩ | ⟨error, failed⟩
  · have place := (reached_place reached).trans operand
    have outside : groups last.pending = 0 := by
      have counted := reached_groups reached
      omega
    obtain ⟨⟨negated⟩ | ⟨⟩, pending⟩ := last
    · cases place
    · have step : options.rules.step ⟨.operator, pending⟩ closing = .failed (.unexpected closing .finish) :=
        step_failed_iff.mpr (.unopened closes ((outside_iff pending).mpr outside))
      rw [run_reached reached, Rules.run, step] at ran
      cases ran
  · rw [failed] at ran
    cases ran

theorem operand_after_last (operand : Bool) (word : List Token) :
    operandAfter operand word = (word.getLast?.map (·.kind.endsOperand)).getD operand := by
  induction word generalizing operand with
  | nil => rfl
  | cons token rest ih =>
      rw [operandAfter, ih, List.getLast?_cons]
      cases rest.getLast? <;> rfl

theorem operand_after_iff (word : List Token) :
    operandAfter false word = true ↔
      ∃ previous, word.getLast? = some previous ∧ previous.kind ∈ [Kind.number, .closing] := by
  rw [operand_after_last]
  cases word.getLast? with
  | none => simp
  | some previous => cases kind : previous.kind <;> simp [kind, Kind.endsOperand]

theorem expected_text_injective {expected wanted : Expected} (same : expected.text = wanted.text) :
    expected = wanted := by
  revert same
  cases expected <;> cases wanted <;> decide

theorem report_ends_iff (token : Token) (expected wanted : Expected) :
    (ParseError.unexpected token expected).message =
        "unexpected " ++ token.shown ++ " at position " ++ toString token.span.start ++ ": " ++ wanted.text ↔
      expected = wanted := by
  constructor
  · intro same
    exact expected_text_injective ((String.append_right_inj _).mp same)
  · rintro rfl
    rfl

theorem unexpected_cases {options : Options} {tokens : List Token} {token : Token} {expected : Expected}
    (failed : parse options tokens = .error (.unexpected token expected)) :
    let before := tokens.take (options.rules.taken .start tokens)
    tokens[options.rules.taken .start tokens]? = some token ∧ (∀ other ∈ before, other.kind ≠ .finish) ∧
      (operandAfter false before = false ∧ expected = .operand ∧
          (token.kind ∈ strayKinds ∨ token.kind = .plus ∧ options.unaryPlus.isTrue = false) ∨
        operandAfter false before = true ∧ token.kind = .closing ∧ expected = .finish ∧ nesting before = 0 ∨
        operandAfter false before = true ∧ token.kind = .finish ∧ expected = .closing ∧ 0 < nesting before) := by
  intro before
  have ends := failed_ends failed (by simp)
  rw [parse, Rules.parse, if_pos ends] at failed
  obtain ⟨halt, written, last, halts⟩ := run_halts options.rules .start tokens (has_finish ends)
  obtain ⟨more, -, ran⟩ | ⟨error, step, stopped⟩ := halts_run halts
  · rw [ran] at failed
    cases failed
  · rw [stopped] at failed
    cases failed
    have place : last.afterOperand = operandAfter false before := reached_place halts.reached
    have counted : (groups last.pending : Int) = nesting before := reached_groups halts.reached
    obtain ⟨rfl, explained⟩ := step_unexpected step
    refine ⟨halts.found, reached_unfinished halts.reached, ?_⟩
    rw [← place, ← counted]
    rcases explained with bare | ⟨after, closes, wanted, outside⟩ | ⟨after, isEnd, wanted, inside⟩
    · exact .inl bare
    · exact .inr (.inl ⟨after, closes, wanted, by omega⟩)
    · exact .inr (.inr ⟨after, isEnd, wanted, by omega⟩)

-- The last words of a report tell a closing outside all groups from an end of input inside one, and both from a token
-- that comes where an operand is expected.
theorem unexpected_token_explained (options : Options) (tokens : List Token) (token : Token) (expected : Expected)
    (failed : parse options tokens = .error (.unexpected token expected)) :
    let index := options.rules.taken .start tokens
    let before := tokens.take index
    let operand := ∃ previous, before.getLast? = some previous ∧ previous.kind ∈ [Kind.number, .closing]
    let tells (text : String) : Prop :=
      (ParseError.unexpected token expected).message =
        "unexpected " ++ token.shown ++ " at position " ++ toString token.span.start ++ ": " ++ text
    tokens[index]? = some token ∧
      (tells "expected end of input" ↔ token.kind = .closing ∧ operand) ∧
      (tells "expected ')'" ↔ token.kind = .finish ∧ operand) ∧
      (tells "expected end of input" →
        before.countP (·.kind = .opening) = before.countP (·.kind = .closing) ∧
          ∀ other rest items, parse other (before ++ token :: rest) ≠ .ok items) ∧
      (tells "expected ')'" → before.countP (·.kind = .closing) < before.countP (·.kind = .opening)) ∧
      (¬ tells "expected end of input" → ¬ tells "expected ')'" →
        tells "expected a number or '('" ∧ ¬ operand ∧
          (token.kind ∈ [.finish, .star, .slash, .caret, .closing] ∨
            token.kind = .plus ∧ options.unaryPlus.isTrue = false)) := by
  intro index before operand tells
  have tellsFinish : tells "expected end of input" ↔ expected = .finish := report_ends_iff token expected .finish
  have tellsClosing : tells "expected ')'" ↔ expected = .closing := report_ends_iff token expected .closing
  have tellsOperand : tells "expected a number or '('" ↔ expected = .operand := report_ends_iff token expected .operand
  have isOperand : operandAfter false before = true ↔ operand := operand_after_iff before
  rw [tellsFinish, tellsClosing, tellsOperand, ← isOperand]
  have counts : nesting before + before.countP (·.kind = .closing) = before.countP (·.kind = .opening) :=
    nesting_counts before
  obtain ⟨found, free, explained⟩ := unexpected_cases failed
  refine ⟨found, ?_⟩
  rcases explained with ⟨bare, rfl, stray⟩ | ⟨after, closes, rfl, outside⟩ | ⟨after, isEnd, rfl, inside⟩
  · have noOperand : ¬ operandAfter false before = true := Bool.eq_false_iff.mp bare
    exact ⟨iff_of_false nofun fun both => noOperand both.2, iff_of_false nofun fun both => noOperand both.2,
      nofun, nofun, fun _ _ => ⟨rfl, noOperand, stray⟩⟩
  · have otherKind : token.kind ≠ .finish := by simp [closes]
    have balanced : nesting before = 0 := outside
    refine ⟨iff_of_true rfl ⟨closes, after⟩, iff_of_false nofun fun both => otherKind both.1,
      fun _ => ⟨by omega, fun other rest items => ?_⟩, nofun, fun wanted => absurd rfl wanted⟩
    exact closing_never_taken other rest free after balanced closes items
  · have otherKind : token.kind ≠ .closing := by simp [isEnd]
    have unclosed : 0 < nesting before := inside
    exact ⟨iff_of_false nofun fun both => otherKind both.1, iff_of_true rfl ⟨isEnd, after⟩, nofun,
      fun _ => by omega, fun _ wanted => absurd rfl wanted⟩

-- The tokens of `(2)^-(3)) 4`, of `(2)^-(3(4)` and of `(2)^-*3`: a closing too many, one too few, and a sign of
-- multiplication where the exponent is expected.
theorem three_reports_explained :
    let base := [Kind.opening, .number, .closing, .caret, .minus]
    let many := spelled (base ++ [.opening, .number, .closing, .closing, .number, .finish])
    let few := spelled (base ++ [.opening, .number, .opening, .number, .closing, .finish])
    let stray := spelled (base ++ [.star, .number, .finish])
    let token (kind : Kind) (index : Nat) : Token := ⟨kind, ⟨[], index, index + 1⟩⟩
    parse {} many = .error (.unexpected (token .closing 8) .finish) ∧
      (∀ other rest items, parse other (many.take 8 ++ token .closing 8 :: rest) ≠ .ok items) ∧
      parse {} few = .error (.unexpected (token .finish 10) .closing) ∧
      (few.take 10).countP (·.kind = .closing) < (few.take 10).countP (·.kind = .opening) ∧
      parse {} stray = .error (.unexpected (token .star 5) .operand) ∧
      ¬ ∃ previous, (stray.take 5).getLast? = some previous ∧ previous.kind ∈ [Kind.number, .closing] := by
  intro base many few stray token
  have tooMany : parse {} many = .error (.unexpected (token .closing 8) .finish) := rfl
  have tooFew : parse {} few = .error (.unexpected (token .finish 10) .closing) := rfl
  have misplaced : parse {} stray = .error (.unexpected (token .star 5) .operand) := rfl
  obtain ⟨-, -, -, closings, -⟩ := unexpected_token_explained {} many _ _ tooMany
  obtain ⟨-, -, -, -, openings, -⟩ := unexpected_token_explained {} few _ _ tooFew
  obtain ⟨-, -, -, -, -, operands⟩ := unexpected_token_explained {} stray _ _ misplaced
  exact ⟨tooMany, (closings rfl).2, tooFew, openings rfl, misplaced, (operands (by decide) (by decide)).2.1⟩

end Reckon
