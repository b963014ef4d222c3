import Mathlib.Logic.ExistsUnique
import Reckon.Tree.Basic

set_option autoImplicit false

namespace Reckon

open Number (Format Scalar TypeRequest Value findFormat)

def postorders : List Tree → List Item
  | [] => []
  | tree :: below => postorders below ++ tree.items

def Tree.leaves : Tree → List Span
  | .leaf span => [span]
  | .negate operand => operand.leaves
  | .operation _ left right => left.leaves ++ right.leaves

def Tree.firstMalformed (format : Format) (tree : Tree) : Option Span :=
  tree.leaves.find? fun span => (format.read span.chars).isNone

theorem depths_last (depth : Int) (items : List Item) (nonempty : items ≠ []) :
    (depthsFrom depth items).getLast? = some (depth + effects items) := by
  induction items generalizing depth with
  | nil => exact absurd rfl nonempty
  | cons item rest ih =>
      cases rest with
      | nil => simp [depthsFrom, effects]
      | cons next rest =>
          have last := ih (depth + item.effect) (List.cons_ne_nil next rest)
          rw [depthsFrom, depthsFrom, List.getLast?_cons_cons, ← depthsFrom, last]
          simp only [effects, Int.add_assoc]

def Tree.root : Tree → Item
  | .leaf span => .number span
  | .negate _ => .negate
  | .operation op _ _ => .operation op

theorem items_last (tree : Tree) : tree.items.getLast? = some tree.root := by
  cases tree <;> simp [Tree.items, Tree.root]

theorem roots_equal (first second : Tree) (before other : List Item)
    (same : before ++ first.items = other ++ second.items) : first.root = second.root := by
  have last := congrArg List.getLast? same
  rw [List.getLast?_append, List.getLast?_append, items_last, items_last] at last
  simpa using last

theorem items_end_unique (first second : Tree) (before other : List Item)
    (same : before ++ first.items = other ++ second.items) : before = other ∧ first = second := by
  have roots := roots_equal first second before other same
  induction first generalizing second before other with
  | leaf span =>
      cases second with
      | leaf other =>
          obtain rfl : span = other := by simpa [Tree.root] using roots
          exact ⟨List.append_cancel_right same, rfl⟩
      | _ => simp [Tree.root] at roots
  | negate operand ih =>
      cases second with
      | negate negated =>
          simp only [Tree.items, ← List.append_assoc] at same
          have operands := List.append_cancel_right same
          obtain ⟨rest, rfl⟩ := ih negated before other operands (roots_equal _ _ _ _ operands)
          exact ⟨rest, rfl⟩
      | _ => simp [Tree.root] at roots
  | operation op left right leftIh rightIh =>
      cases second with
      | operation op' left' right' =>
          obtain rfl : op = op' := by simpa [Tree.root] using roots
          simp only [Tree.items, ← List.append_assoc] at same
          have operands := List.append_cancel_right same
          obtain ⟨lefts, rfl⟩ := rightIh right' _ _ operands (roots_equal _ _ _ _ operands)
          obtain ⟨rest, rfl⟩ := leftIh left' before other lefts (roots_equal _ _ _ _ lefts)
          exact ⟨rest, rfl⟩
      | _ => simp [Tree.root] at roots

theorem items_injective (first second : Tree) (same : first.items = second.items) : first = second :=
  (items_end_unique first second [] [] same).2

-- Items that never take more than there is gather the stack into a new stack of trees.
theorem items_gathered (items : List Item) (stack : List Tree)
    (enough : ∀ reached ∈ depthsFrom stack.length items, 1 ≤ reached) :
    ∃ gathered : List Tree, (gathered.length : Int) = stack.length + effects items ∧
      postorders gathered = postorders stack ++ items := by
  induction items generalizing stack with
  | nil => exact ⟨stack, by simp [effects], by simp⟩
  | cons item rest ih =>
      have step (next : List Tree) (length : (next.length : Int) = stack.length + item.effect)
          (spelled : postorders next = postorders stack ++ [item]) :
          ∃ gathered : List Tree, (gathered.length : Int) = stack.length + effects (item :: rest) ∧
            postorders gathered = postorders stack ++ item :: rest := by
        obtain ⟨gathered, size, order⟩ := ih next fun reached member =>
          enough reached (by rw [depthsFrom, ← length]; exact List.mem_cons_of_mem _ member)
        refine ⟨gathered, ?_, ?_⟩
        · rw [size, length, effects, Int.add_assoc]
        · rw [order, spelled, List.append_assoc, List.singleton_append]
      have left := enough _ (by rw [depthsFrom]; exact List.mem_cons_self)
      cases item with
      | number span => exact step (.leaf span :: stack) (by simp [Item.effect]) rfl
      | negate =>
          cases stack with
          | nil => simp [Item.effect] at left
          | cons operand below =>
              refine step (.negate operand :: below) (by simp [Item.effect]) ?_
              simp [postorders, Tree.items]
      | operation op =>
          rcases stack with _ | ⟨second, _ | ⟨first, below⟩⟩
          · simp [Item.effect] at left
          · simp [Item.effect] at left
          · refine step (.operation op first second :: below) ?_ ?_
            · simp only [List.length_cons, Item.effect]
              omega
            · simp [postorders, Tree.items]

theorem well_formed_iff (items : List Item) :
    wellFormed items = true ↔ (∀ reached ∈ depths items, 1 ≤ reached) ∧ items ≠ [] ∧ effects items = 1 := by
  by_cases empty : items = []
  · subst empty
    simp [wellFormed, depths, depthsFrom]
  · rw [wellFormed, depths, depths_last 0 items empty]
    simp [empty]

theorem items_well_formed (tree : Tree) : wellFormed tree.items = true := by
  refine (well_formed_iff _).mpr ⟨?_, ?_, effects_items tree⟩
  · intro reached member
    exact depths_items_above tree 0 reached member
  · cases tree <;> simp [Tree.items]

theorem well_formed_tree (items : List Item) (formed : wellFormed items = true) :
    ∃ tree : Tree, tree.items = items := by
  obtain ⟨enough, -, single⟩ := (well_formed_iff items).mp formed
  obtain ⟨gathered, length, order⟩ := items_gathered items [] enough
  rw [single] at length
  match gathered, length with
  | [tree], _ => exact ⟨tree, by simpa [postorders] using order⟩
  | [], length => simp at length
  | _ :: _ :: _, length => simp at length; omega

theorem evaluate_first_malformed (format : Format) (tree : Tree) :
    match tree.firstMalformed format with
    | some span => tree.evaluate format = .error (.malformed span)
    | none => ∃ value, tree.evaluate format = .ok value := by
  induction tree with
  | leaf span =>
      cases read : format.read span.chars <;> simp [Tree.firstMalformed, Tree.leaves, Tree.evaluate, read]
  | negate operand ih =>
      change match operand.firstMalformed format with | some _ => _ | none => _
      cases malformed : operand.firstMalformed format with
      | some span =>
          rw [malformed] at ih
          simp [Tree.evaluate, ih]
      | none =>
          rw [malformed] at ih
          obtain ⟨value, evaluated⟩ := ih
          exact ⟨value.negate, by simp [Tree.evaluate, evaluated]⟩
  | operation op left right leftIh rightIh =>
      have either : (Tree.operation op left right).firstMalformed format
          = (left.firstMalformed format).or (right.firstMalformed format) := List.find?_append
      rw [either]
      cases malformed : left.firstMalformed format with
      | some span =>
          rw [malformed] at leftIh
          simp [Tree.evaluate, leftIh]
      | none =>
          rw [malformed] at leftIh
          obtain ⟨first, evaluated⟩ := leftIh
          rw [Option.none_or]
          cases malformedRight : right.firstMalformed format with
          | some span =>
              rw [malformedRight] at rightIh
              simp [Tree.evaluate, evaluated, rightIh]
          | none =>
              rw [malformedRight] at rightIh
              obtain ⟨second, evaluatedRight⟩ := rightIh
              exact ⟨op.apply format first second, by simp [Tree.evaluate, evaluated, evaluatedRight]⟩

theorem well_formed_unique_tree_evaluated :
    (∀ items : List Item, wellFormed items = true → ∃! tree : Tree, tree.items = items) ∧
      (∀ tree : Tree, wellFormed tree.items = true) ∧
      ∀ (tree : Tree) (request : TypeRequest) (format : Format), findFormat request = .ok format →
        match tree.firstMalformed format with
        | some span =>
            tree.evaluate format = .error (.malformed span) ∧
              evaluate request tree.items = .error (.malformed span)
        | none =>
            ∃ value, tree.evaluate format = .ok value ∧ evaluate request tree.items = .ok ⟨format, value⟩ := by
  refine ⟨?_, items_well_formed, ?_⟩
  · intro items formed
    obtain ⟨tree, rfl⟩ := well_formed_tree items formed
    exact ⟨tree, rfl, fun other same => items_injective other tree same⟩
  · intro tree request format found
    have outcome := evaluate_first_malformed format tree
    cases malformed : tree.firstMalformed format with
    | some span =>
        rw [malformed] at outcome
        exact ⟨outcome, by simp [evaluate, found, evaluate_items, outcome]⟩
    | none =>
        rw [malformed] at outcome
        obtain ⟨value, evaluated⟩ := outcome
        exact ⟨value, evaluated, by simp [evaluate, found, evaluate_items, evaluated]⟩

theorem leftmost_malformed_stops_the_machine :
    ∃ tree : Tree, tree.items = [.number (Span.whole "7"), .negate, .number (Span.whole "1.2.3"),
        .number (Span.whole "."), .operation .pow, .operation .add] ∧
      wellFormed tree.items = true ∧ findFormat (.floating .single) = .ok .single ∧
      (∃! other : Tree, other.items = tree.items) ∧
      evaluate (.floating .single) tree.items = .error (.malformed (Span.whole "1.2.3")) := by
  let tree : Tree := .operation .add (.negate (.leaf (Span.whole "7")))
    (.operation .pow (.leaf (Span.whole "1.2.3")) (.leaf (Span.whole ".")))
  have malformed : tree.firstMalformed .single = some (Span.whole "1.2.3") := by decide +kernel
  have formed : wellFormed tree.items = true := by decide
  have outcome := well_formed_unique_tree_evaluated.2.2 tree (.floating .single) .single rfl
  rw [malformed] at outcome
  exact ⟨tree, rfl, formed, rfl, well_formed_unique_tree_evaluated.1 tree.items formed, outcome.2⟩

end Reckon
