import Reckon.Rpn.Depth
import Reckon.Rpn.Machine

set_option autoImplicit false

namespace Reckon

open Number (Format Value)

inductive Tree where
  | leaf (span : Span)
  | negate (operand : Tree)
  | operation (op : BinaryOp) (left right : Tree)
deriving DecidableEq, Repr

def Tree.items : Tree → List Item
  | .leaf span => [.number span]
  | .negate operand => operand.items ++ [.negate]
  | .operation op left right => left.items ++ right.items ++ [.operation op]

def Tree.evaluate (format : Format) : Tree → Except EvalError Value
  | .leaf span =>
      match format.read span.chars with
      | none => .error (.malformed span)
      | some value => .ok value
  | .negate operand =>
      match operand.evaluate format with
      | .error error => .error error
      | .ok value => .ok value.negate
  | .operation op left right =>
      match left.evaluate format with
      | .error error => .error error
      | .ok first =>
          match right.evaluate format with
          | .error error => .error error
          | .ok second => .ok (op.apply format first second)

theorem perform_all_append (format : Format) (stack : List Value) (first second : List Item) :
    performAll format stack (first ++ second)
      = (performAll format stack first).bind (performAll format · second) := by
  unfold performAll
  rw [List.foldlM_append]
  rfl

theorem perform_all_single (format : Format) (stack : List Value) (item : Item) :
    performAll format stack [item] = perform format stack item := by
  unfold performAll
  rw [List.foldlM_cons]
  cases perform format stack item <;> rfl

theorem perform_all_items (format : Format) (tree : Tree) (stack : List Value) :
    performAll format stack tree.items = (tree.evaluate format).map (· :: stack) := by
  induction tree generalizing stack with
  | leaf span =>
      rw [Tree.items, perform_all_single]
      simp only [perform, Tree.evaluate]
      cases format.read span.chars <;> rfl
  | negate operand ih =>
      rw [Tree.items, perform_all_append, ih]
      simp only [Tree.evaluate]
      cases operand.evaluate format with
      | error error => rfl
      | ok value => exact perform_all_single format (value :: stack) .negate
  | operation op left right leftIh rightIh =>
      rw [Tree.items, perform_all_append, perform_all_append, leftIh]
      simp only [Tree.evaluate]
      cases left.evaluate format with
      | error error => rfl
      | ok first =>
          change Except.bind (performAll format (first :: stack) right.items) _ = _
          rw [rightIh]
          cases right.evaluate format with
          | error error => rfl
          | ok second => exact perform_all_single format (second :: first :: stack) (.operation op)

theorem evaluate_items (format : Format) (tree : Tree) :
    evaluateIn format tree.items = tree.evaluate format := by
  unfold evaluateIn
  rw [perform_all_items]
  cases tree.evaluate format <;> rfl

theorem effects_items (tree : Tree) : effects tree.items = 1 := by
  induction tree with
  | leaf span => rfl
  | negate operand ih => simp [Tree.items, effects_append, effects, Item.effect, ih]
  | operation op left right leftIh rightIh =>
      simp [Tree.items, effects_append, effects, Item.effect, leftIh, rightIh]

theorem depths_items_above (tree : Tree) (depth : Int) :
    ∀ reached ∈ depthsFrom depth tree.items, depth + 1 ≤ reached := by
  induction tree generalizing depth with
  | leaf span =>
      intro reached member
      simp [Tree.items, depthsFrom, Item.effect] at member
      omega
  | negate operand ih =>
      intro reached member
      rw [Tree.items, depths_append, effects_items] at member
      rcases List.mem_append.mp member with inside | last
      · exact ih depth reached inside
      · simp [depthsFrom, Item.effect] at last
        omega
  | operation op left right leftIh rightIh =>
      intro reached member
      rw [Tree.items, depths_append, depths_append, effects_append, effects_items, effects_items] at member
      rcases List.mem_append.mp member with operands | last
      · rcases List.mem_append.mp operands with first | second
        · exact leftIh depth reached first
        · have bound := rightIh (depth + 1) reached second
          omega
      · simp [depthsFrom, Item.effect] at last
        omega

end Reckon
