import Reckon.Proofs.Parse.Nesting
import Reckon.Proofs.Parse.ViablePrefix

set_option autoImplicit false

namespace Reckon

def ParseError.OfLimit : ParseError → Prop
  | .noFinish => False
  | .unexpected .. => False
  | .tooDeep _ => True
  | .incomparable _ => True
  | .outOfFrames => True

def Refused (outcome : Except ParseError (List Item)) : Prop := ∃ error, outcome = .error error ∧ error.OfLimit

theorem refusal_of_limit {rules : Rules} {pending : List Pending} {error : ParseError}
    (refused : rules.refusal pending = some error) : error.OfLimit := by
  rcases refusal_cases refused with ⟨limit, -, rfl | rfl⟩ | ⟨-, rfl⟩ <;> trivial

-- What limits make of a step that there is without limits: they keep it, or they refuse the level that it opens.
inductive Rules.Checks (rules : Rules) : Step → Step → Prop
  | kept (step : Step) : Rules.Checks rules step step
  | refused {written : List Item} {after : State} {error : ParseError} (deeper : 0 < levels after.pending)
      (refusal : rules.refusal after.pending = some error) :
      Rules.Checks rules (.next written after) (.failed error)

theorem entered_checked {rules : Rules} {token : Token} {state : State} {pending : List Pending}
    (deeper : 0 < levels pending)
    (entered : rules.refusal pending = none → rules.Move token state [] ⟨.operand false, pending⟩)
    (refused : ∀ error, rules.refusal pending = some error → rules.Stop token state error) :
    rules.Checks (.next [] ⟨.operand false, pending⟩) (rules.step state token) := by
  cases refusal : rules.refusal pending with
  | none =>
      rw [step_next_iff.mpr (entered refusal)]
      exact .kept _
  | some error =>
      rw [step_failed_iff.mpr (refused error refusal)]
      exact .refused deeper refusal

theorem after_checked {rules : Rules} {free step : Step} (checks : rules.Checks free step) (written : List Item) :
    rules.Checks (free.after written) (step.after written) := by
  cases checks with
  | kept => exact .kept _
  | refused deeper refusal => exact .refused deeper refusal

theorem move_checked {rules : Rules} {state after : State} {token : Token} {written : List Item}
    (move : (Rules.unlimited rules.unaryPlus).Move token state written after) :
    rules.Checks (.next written after) (rules.step state token) := by
  have kept {state after : State} {written : List Item} (also : rules.Move token state written after) :
      rules.Checks (.next written after) (rules.step state token) := by
    rw [step_next_iff.mpr also]
    exact .kept _
  induction move with
  | number isNumber => exact kept (.number isNumber)
  | minus isMinus => exact kept (.minus isMinus)
  | plus isPlus allowed => exact kept (.plus isPlus allowed)
  | group opens _ => exact entered_checked (Nat.lt_add_right _ Nat.one_pos) (.group opens) fun _ => .group opens
  | power isCaret _ => exact entered_checked (Nat.lt_add_right _ Nat.one_pos) (.power isCaret) fun _ => .power isCaret
  | operation sign => exact kept (.operation sign)
  | product starts _ ih =>
      rw [step_product rules _ starts]
      exact after_checked ih _
  | closing closes innermost => exact kept (.closing closes innermost)

theorem unlimited_refuses_nothing {plus : Bool} {pending : List Pending} {error : ParseError} :
    (Rules.unlimited plus).refusal pending ≠ some error := by
  intro refused
  rw [(refusal_none_iff _ pending).mpr (unlimited_admits plus _)] at refused
  cases refused

theorem stop_checked {rules : Rules} {state : State} {token : Token} {error : ParseError}
    (stop : (Rules.unlimited rules.unaryPlus).Stop token state error) : rules.Stop token state error := by
  induction stop with
  | stray stray => exact .stray stray
  | group _ refused => exact absurd refused unlimited_refuses_nothing
  | power _ refused => exact absurd refused unlimited_refuses_nothing
  | product starts _ ih => exact .product starts ih
  | unopened closes outside => exact .unopened closes outside
  | unclosed isFinish inside => exact .unclosed isFinish inside

theorem step_checked (rules : Rules) (state : State) (token : Token) :
    rules.Checks ((Rules.unlimited rules.unaryPlus).step state token) (rules.step state token) := by
  cases free : (Rules.unlimited rules.unaryPlus).step state token with
  | next written after => exact move_checked (step_next_iff.mp free)
  | done written =>
      rw [step_done free rules]
      exact .kept _
  | failed error =>
      rw [step_failed_iff.mpr (stop_checked (step_failed_iff.mp free))]
      exact .kept _

theorem step_limited (rules : Rules) (state : State) (token : Token) :
    rules.step state token = (Rules.unlimited rules.unaryPlus).step state token ∨
      ∃ written after error, (Rules.unlimited rules.unaryPlus).step state token = .next written after ∧
        0 < levels after.pending ∧ rules.refusal after.pending = some error ∧
        rules.step state token = .failed error := by
  have checks := step_checked rules state token
  generalize rules.step state token = step at checks ⊢
  generalize (Rules.unlimited rules.unaryPlus).step state token = free at checks ⊢
  cases checks with
  | kept => exact .inl rfl
  | refused deeper refusal => exact .inr ⟨_, _, _, rfl, deeper, refusal, rfl⟩

theorem run_freely (rules : Rules) (state : State) (tokens : List Token) :
    Refused (rules.run state tokens) ∨
      rules.run state tokens = (Rules.unlimited rules.unaryPlus).run state tokens := by
  induction tokens generalizing state with
  | nil => exact .inr rfl
  | cons token rest ih =>
      rcases step_limited rules state token with same | ⟨_, _, error, -, -, refusal, failed⟩
      · simp only [Rules.run, ← same]
        cases step : rules.step state token with
        | failed error => exact .inr rfl
        | done written => exact .inr rfl
        | next written after =>
            rcases ih after with ⟨error, failed, ofLimit⟩ | goesOn
            · exact .inl ⟨error, by simp only [failed, Except.map], ofLimit⟩
            · exact .inr (by simp only [goesOn])
      · exact .inl ⟨error, by simp only [Rules.run, failed], refusal_of_limit refusal⟩

theorem parse_freely {options : Options} {tokens : List Token} (room : ¬ Refused (parse options tokens)) :
    parse options tokens = (Rules.unlimited options.rules.unaryPlus).parse tokens := by
  unfold parse Rules.parse at room ⊢
  split
  · rename_i ends
    rw [if_pos ends] at room
    exact (run_freely options.rules .start tokens).resolve_left room
  · rfl

end Reckon
