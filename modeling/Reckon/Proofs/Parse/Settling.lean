import Reckon.Parse.Step
import Reckon.Proofs.Grammar.Phrase

set_option autoImplicit false

namespace Reckon

def nextBinding : List Token → Nat
  | [] => 0
  | token :: _ => token.kind.binding

def BinaryOp.rightLevel : BinaryOp → Nat
  | .add => 1
  | .sub => 1
  | .mul => 2
  | .div => 2
  | .pow => 2

-- Nothing pending would be completed by an operation of the level. A power is read from the right, and
-- what its own level completes does not matter.
def Ready (level : Nat) : List Pending → Prop
  | .operation op :: _ => op.level < level ∨ 2 ≤ level
  | _ => True

theorem unwind_ready (level : Nat) (pending : List Pending) (ready : Ready level pending) (low : level < 2) :
    unwind level pending = ([], pending) := by
  cases pending with
  | nil => rfl
  | cons part outer =>
      cases part with
      | group negated => rfl
      | operation op =>
          have loose : ¬ level ≤ op.level := by
            simp only [Ready] at ready
            omega
          simp only [unwind, if_neg loose]

theorem ready_tighter (level : Nat) (pending : List Pending) (ready : Ready level pending) :
    Ready (level + 1) pending := by
  cases pending with
  | nil => trivial
  | cons part outer =>
      cases part with
      | group negated => trivial
      | operation op =>
          simp only [Ready] at ready ⊢
          omega

theorem ready_group (negated : Bool) (outer : List Pending) (level : Nat) :
    Ready level (.group negated :: outer) := trivial

theorem after_nothing (step : Step) : step.after [] = step := by
  cases step <;> rfl

theorem after_after (first second : List Item) (step : Step) :
    (step.after second).after first = step.after (first ++ second) := by
  cases step <;> simp [Step.after]

theorem unwind_operation (level : Nat) (op : BinaryOp) (outer : List Pending) (tight : level ≤ op.level) :
    unwind level (.operation op :: outer) =
      (.operation op :: (unwind level outer).1, (unwind level outer).2) := by
  rw [unwind, if_pos tight]

theorem awaiting_settled (next op : BinaryOp) (pending : List Pending) (tight : next.level ≤ op.level) :
    awaiting next (.operation op :: pending) = awaiting next pending := by
  simp only [awaiting, unwind_operation _ _ _ tight]

theorem operation_step_settled (next op : BinaryOp) (pending : List Pending) (tight : next.level ≤ op.level) :
    operationStep next (.operation op :: pending) = (operationStep next pending).after [.operation op] := by
  rw [operationStep, awaiting_settled next op pending tight, unwind_operation _ _ _ tight]
  rfl

theorem closing_step_settled (op : BinaryOp) (pending : List Pending) (token : Token) :
    closingStep (.operation op :: pending) token = (closingStep pending token).after [.operation op] := by
  simp only [closingStep, unwind_operation 0 op pending (Nat.zero_le _)]
  rcases (unwind 0 pending).2 with _ | ⟨part, outer⟩
  · rfl
  · cases part <;> rfl

theorem finish_step_settled (op : BinaryOp) (pending : List Pending) (token : Token) :
    finishStep (.operation op :: pending) token = (finishStep pending token).after [.operation op] := by
  simp only [finishStep, unwind_operation 0 op pending (Nat.zero_le _)]
  rcases (unwind 0 pending).2 with _ | ⟨part, outer⟩ <;> rfl

theorem operand_step_settled (rules : Rules) (op : BinaryOp) (pending : List Pending) (token : Token)
    (tight : BinaryOp.mul.level ≤ op.level) :
    (rules.operandStep false (awaiting .mul (.operation op :: pending)) token).after
        (unwind BinaryOp.mul.level (.operation op :: pending)).1
      = ((rules.operandStep false (awaiting .mul pending) token).after
          (unwind BinaryOp.mul.level pending).1).after [.operation op] := by
  rw [awaiting_settled .mul op pending tight, unwind_operation _ _ _ tight, after_after]
  rfl

theorem product_level (op : BinaryOp) (tight : 2 ≤ op.rightLevel) : 1 ≤ op.level := by
  cases op <;> simp_all [BinaryOp.rightLevel, BinaryOp.level]

theorem operator_step_settled (rules : Rules) (op : BinaryOp) (pending : List Pending) (token : Token)
    (loose : token.kind.binding ≤ op.rightLevel) :
    rules.operatorStep (.operation op :: pending) token
      = (rules.operatorStep pending token).after [.operation op] := by
  simp only [Rules.operatorStep]
  cases kind : token.kind with
  | finish => exact finish_step_settled op pending token
  | closing => exact closing_step_settled op pending token
  | plus => exact operation_step_settled .add op pending (Nat.zero_le _)
  | minus => exact operation_step_settled .sub op pending (Nat.zero_le _)
  | star => exact operation_step_settled .mul op pending (product_level op (by rwa [kind] at loose))
  | slash => exact operation_step_settled .div op pending (product_level op (by rwa [kind] at loose))
  | opening => exact operand_step_settled rules op pending token (product_level op (by rwa [kind] at loose))
  | number => exact operand_step_settled rules op pending token (product_level op (by rwa [kind] at loose))
  | caret => cases op <;> simp [kind, Kind.binding, BinaryOp.rightLevel] at loose

theorem map_written (result : Except ParseError (List Item)) (first second : List Item) :
    (result.map (second ++ ·)).map (first ++ ·) = result.map (first ++ second ++ ·) := by
  cases result <;> simp [Except.map]

theorem map_nothing (result : Except ParseError (List Item)) : result.map ([] ++ ·) = result := by
  cases result <;> rfl

theorem run_after (rules : Rules) (state other : State) (token : Token) (rest : List Token)
    (written : List Item) (step : rules.step state token = (rules.step other token).after written) :
    rules.run state (token :: rest) = (rules.run other (token :: rest)).map (written ++ ·) := by
  simp only [Rules.run, step]
  cases rules.step other token with
  | next more after => exact (map_written _ written more).symm
  | done more => rfl
  | failed error => rfl

theorem run_settled (rules : Rules) (op : BinaryOp) (pending : List Pending) (tokens : List Token)
    (loose : nextBinding tokens ≤ op.rightLevel) :
    rules.run ⟨.operator, .operation op :: pending⟩ tokens
      = (rules.run ⟨.operator, pending⟩ tokens).map ([.operation op] ++ ·) := by
  cases tokens with
  | nil => rfl
  | cons token rest =>
      exact run_after rules _ _ token rest _ (operator_step_settled rules op pending token loose)

end Reckon
