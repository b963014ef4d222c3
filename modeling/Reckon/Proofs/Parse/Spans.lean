import Reckon.Proofs.Parse.Limits
import Reckon.Proofs.Token.Spelling

set_option autoImplicit false

namespace Reckon

def Item.respan (move : Span → Span) : Item → Item
  | .number span => .number (move span)
  | .negate => .negate
  | .operation op => .operation op

def ParseError.respan (move : Span → Span) : ParseError → ParseError
  | .unexpected token expected => .unexpected (token.respan move) expected
  | other => other

def Step.respan (move : Span → Span) : Step → Step
  | .next written state => .next (written.map (Item.respan move)) state
  | .done written => .done (written.map (Item.respan move))
  | .failed error => .failed (error.respan move)

def respanOutcome (move : Span → Span) : Except ParseError (List Item) → Except ParseError (List Item)
  | .ok items => .ok (items.map (Item.respan move))
  | .error error => .error (error.respan move)

variable (move : Span → Span)

theorem unwind_respan (level : Nat) (pending : List Pending) :
    (unwind level pending).1.map (Item.respan move) = (unwind level pending).1 := by
  refine (List.map_congr_left fun item member => ?_).trans (List.map_id _)
  obtain ⟨op, rfl⟩ := unwind_items member
  rfl

theorem negation_respan (negated : Bool) : (negation negated).map (Item.respan move) = negation negated := by
  cases negated <;> rfl

theorem limit_respan {error : ParseError} (ofLimit : error.OfLimit) : error.respan move = error := by
  cases error with
  | unexpected token expected => exact ofLimit.elim
  | _ => rfl

variable {rules : Rules} {token : Token} {state after : State} {written : List Item} {error : ParseError}

theorem move_respan (goesOn : rules.Move token state written after) :
    rules.Move (token.respan move) state (written.map (Item.respan move)) after := by
  induction goesOn with
  | number isNumber =>
      rw [List.map_cons, negation_respan]
      exact .number isNumber
  | minus isMinus => exact .minus isMinus
  | plus isPlus allowed => exact .plus isPlus allowed
  | group opens admitted => exact .group opens admitted
  | power isCaret admitted => exact .power isCaret admitted
  | operation sign =>
      rw [unwind_respan]
      exact .operation sign
  | product starts _ ih =>
      rw [List.map_append, unwind_respan]
      exact .product starts ih
  | closing closes innermost =>
      rw [List.map_append, unwind_respan, negation_respan]
      exact .closing closes innermost

theorem ends_at_respan (ends : Rules.Ends token state written) :
    Rules.Ends (token.respan move) state (written.map (Item.respan move)) := by
  obtain ⟨isFinish, place, left⟩ := ends
  have kept := unwind_respan move 0 state.pending
  rw [left] at kept
  exact ⟨isFinish, place, by rw [left, kept]⟩

theorem stop_respan (stop : rules.Stop token state error) :
    rules.Stop (token.respan move) state (error.respan move) := by
  induction stop with
  | stray stray => exact .stray stray
  | group opens refused =>
      rw [limit_respan move (refusal_of_limit refused)]
      exact .group opens refused
  | power isCaret refused =>
      rw [limit_respan move (refusal_of_limit refused)]
      exact .power isCaret refused
  | product starts _ ih => exact .product starts ih
  | unopened closes outside => exact .unopened closes outside
  | unclosed isFinish inside => exact .unclosed isFinish inside

theorem step_respan (rules : Rules) (state : State) (token : Token) :
    rules.step state (token.respan move) = (rules.step state token).respan move := by
  cases step : rules.step state token with
  | next written after => exact step_next_iff.mpr (move_respan move (step_next_iff.mp step))
  | done written => exact step_done_iff.mpr (ends_at_respan move (step_done_iff.mp step))
  | failed error => exact step_failed_iff.mpr (stop_respan move (step_failed_iff.mp step))

theorem map_respan (written : List Item) (outcome : Except ParseError (List Item)) :
    respanOutcome move (outcome.map (written ++ ·)) =
      (respanOutcome move outcome).map (written.map (Item.respan move) ++ ·) := by
  cases outcome <;> simp [respanOutcome, Except.map]

theorem run_respan (rules : Rules) (state : State) (tokens : List Token) :
    rules.run state (tokens.map (Token.respan move)) = respanOutcome move (rules.run state tokens) := by
  induction tokens generalizing state with
  | nil => rfl
  | cons token rest ih =>
      rw [List.map_cons, Rules.run, Rules.run, step_respan]
      cases rules.step state token with
      | next written after =>
          simp only [Step.respan]
          rw [ih, map_respan]
      | done written => rfl
      | failed error => rfl

theorem ends_respan (tokens : List Token) :
    endsWithFinish (tokens.map (Token.respan move)) = endsWithFinish tokens := by
  rw [endsWithFinish, endsWithFinish, List.getLast?_map]
  cases tokens.getLast? <;> rfl

theorem parse_respan (options : Options) (tokens : List Token) :
    parse options (tokens.map (Token.respan move)) = respanOutcome move (parse options tokens) := by
  rw [parse, Rules.parse, parse, Rules.parse, ends_respan, run_respan]
  split <;> rfl

end Reckon
