import Reckon.Proofs.Rpn.StaticCheck

set_option autoImplicit false

namespace Reckon

open Number (Format Scalar TypeRequest Value findFormat)

variable {items part other : List Item}

theorem perform_all_operand (format : Format) (stack : List Value) (formed : wellFormed part = true) :
    performAll format stack part = (evaluateIn format part).map (· :: stack) := by
  obtain ⟨tree, rfl⟩ := well_formed_tree part formed
  rw [perform_all_items, evaluate_items]

theorem perform_all_exchanged (format : Format) (stack : List Value) (before after : List Item)
    (formed : wellFormed part = true) (alsoFormed : wellFormed other = true)
    (same : evaluateIn format part = evaluateIn format other) :
    performAll format stack (before ++ part ++ after) = performAll format stack (before ++ other ++ after) := by
  have exchanged (reached : List Value) : performAll format reached part = performAll format reached other := by
    rw [perform_all_operand format reached formed, perform_all_operand format reached alsoFormed, same]
  simp only [perform_all_append, exchanged]

theorem evaluate_ok {request : TypeRequest} {scalar : Scalar} (evaluated : evaluate request items = .ok scalar) :
    findFormat request = .ok scalar.format ∧ evaluateIn scalar.format items = .ok scalar.value := by
  rw [evaluate] at evaluated
  split at evaluated
  · cases evaluated
  · rename_i format found
    split at evaluated
    · cases evaluated
    · rename_i value result
      cases evaluated
      exact ⟨found, result⟩

theorem evaluate_exchanged {request : TypeRequest} {scalar : Scalar} (before after : List Item)
    (formed : wellFormed part = true) (alsoFormed : wellFormed other = true)
    (evaluated : evaluate request part = .ok scalar) (also : evaluate request other = .ok scalar) :
    evaluate request (before ++ part ++ after) = evaluate request (before ++ other ++ after) := by
  obtain ⟨found, value⟩ := evaluate_ok evaluated
  have same := value.trans (evaluate_ok also).2.symm
  simp only [evaluate, found, evaluateIn,
    perform_all_exchanged scalar.format [] before after formed alsoFormed same]

theorem take_slice {α : Type} (xs : List α) {start stop : Nat} (forward : start ≤ stop) (within : stop ≤ xs.length) :
    xs.take start ++ slice xs start stop = xs.take stop := by
  have head : xs.take start = (xs.take stop).take start := by rw [List.take_take, Nat.min_eq_left forward]
  rw [slice, cut_point_inside _ _ (Nat.le_trans forward within), cut_point_inside _ _ within, ← List.drop_take, head,
    List.take_append_drop]

theorem operand_end_unique {before rest : List Item} (formed : wellFormed part = true)
    (alsoFormed : wellFormed other = true) (same : before ++ part = rest ++ other) : before = rest := by
  obtain ⟨tree, rfl⟩ := well_formed_tree part formed
  obtain ⟨second, rfl⟩ := well_formed_tree other alsoFormed
  exact (items_end_unique tree second before rest same).1

def OperandAt (items : List Item) (start stop : Nat) : Prop :=
  start < stop ∧ wellFormed (slice items start stop) = true

variable {start begun stop : Nat}

theorem operand_unique (within : stop ≤ items.length) (operand : OperandAt items start stop)
    (also : OperandAt items begun stop) : start = begun := by
  have whole := take_slice items (Nat.le_of_lt operand.1) within
  have same := whole.trans (take_slice items (Nat.le_of_lt also.1) within).symm
  have lengths := congrArg List.length (operand_end_unique operand.2 also.2 same)
  have earlier := operand.1
  have alsoEarlier := also.1
  rw [List.length_take, List.length_take] at lengths
  omega

theorem split_operand_at {before : List Item} {tree : Tree} (within : stop ≤ items.length)
    (cut : items.take stop = before ++ tree.items) : OperandAt items before.length stop := by
  have size := congrArg List.length cut
  have formed := items_well_formed tree
  have nonempty := List.length_pos_iff.mpr ((well_formed_iff _).mp formed).2.1
  rw [List.length_take, Nat.min_eq_left within, List.length_append] at size
  have forward : before.length < stop := by omega
  have head : items.take before.length = before := by
    rw [← Nat.min_eq_left (Nat.le_of_lt forward), ← List.take_take, cut, List.take_left]
  have whole := (take_slice items (Nat.le_of_lt forward) within).trans cut
  rw [head] at whole
  refine ⟨forward, ?_⟩
  rw [List.append_cancel_left whole]
  exact formed

theorem taken_ends_tree (formed : wellFormed items = true) (positive : 0 < stop) (within : stop ≤ items.length) :
    ∃ (before : List Item) (tree : Tree), items.take stop = before ++ tree.items := by
  have enough : ∀ reached ∈ depthsFrom 0 (items.take stop), 1 ≤ reached := by
    intro reached member
    refine ((well_formed_iff items).mp formed).1 reached ?_
    rw [depths, ← List.take_append_drop stop items, depths_append]
    exact List.mem_append_left _ member
  obtain ⟨gathered, -, order⟩ := items_gathered (items.take stop) [] enough
  cases gathered with
  | nil =>
      have length := congrArg List.length order
      simp only [postorders, List.nil_append, List.length_nil, List.length_take] at length
      omega
  | cons tree below => exact ⟨postorders below, tree, order.symm⟩

theorem operand_exists (formed : wellFormed items = true) (positive : 0 < stop) (within : stop ≤ items.length) :
    ∃ start, OperandAt items start stop := by
  obtain ⟨before, tree, cut⟩ := taken_ends_tree formed positive within
  exact ⟨before.length, split_operand_at within cut⟩

theorem operator_ends_tree (formed : wellFormed items = true) {index : Nat} {item : Item}
    (found : items[index]? = some item) :
    ∃ (before : List Item) (tree : Tree), tree.root = item ∧ items.take index ++ [item] = before ++ tree.items := by
  obtain ⟨within, -⟩ := List.getElem?_eq_some_iff.mp found
  obtain ⟨before, tree, cut⟩ := taken_ends_tree formed (Nat.succ_pos index) within
  rw [List.take_add_one, found, Option.toList_some] at cut
  have last := congrArg List.getLast? cut
  rw [List.getLast?_append, List.getLast?_append, items_last] at last
  exact ⟨before, tree, (Option.some.inj last).symm, cut⟩

theorem negated_operand (formed : wellFormed items = true) {index : Nat} (found : items[index]? = some .negate) :
    ∃ start, OperandAt items start index := by
  obtain ⟨within, -⟩ := List.getElem?_eq_some_iff.mp found
  obtain ⟨before, tree, root, cut⟩ := operator_ends_tree formed found
  cases tree with
  | negate operand =>
      rw [Tree.items, ← List.append_assoc] at cut
      exact ⟨before.length, split_operand_at (Nat.le_of_lt within) (List.append_cancel_right cut)⟩
  | _ => cases root

theorem both_operands (formed : wellFormed items = true) {index : Nat} {op : BinaryOp}
    (found : items[index]? = some (.operation op)) :
    ∃ first second, OperandAt items first second ∧ OperandAt items second index := by
  obtain ⟨within, -⟩ := List.getElem?_eq_some_iff.mp found
  obtain ⟨before, tree, root, cut⟩ := operator_ends_tree formed found
  cases tree with
  | operation made left right =>
      cases root
      simp only [Tree.items, ← List.append_assoc] at cut
      have operands := List.append_cancel_right cut
      have second := split_operand_at (Nat.le_of_lt within) operands
      have early := Nat.le_of_lt second.1
      have first : items.take (before ++ left.items).length = before ++ left.items := by
        rw [← Nat.min_eq_left early, ← List.take_take, operands, List.take_left]
      exact ⟨_, _, split_operand_at (Nat.le_trans early (Nat.le_of_lt within)) first, second⟩
  | _ => cases root

theorem operand_on_top {format : Format} {stack : List Value} (within : stop ≤ items.length)
    (operand : OperandAt items start stop) (performed : performAll format [] (items.take stop) = .ok stack) :
    ∃ value below, stack = value :: below ∧ evaluateIn format (slice items start stop) = .ok value ∧
      performAll format [] (items.take start) = .ok below := by
  rw [← take_slice items (Nat.le_of_lt operand.1) within, perform_all_append] at performed
  cases reached : performAll format [] (items.take start) with
  | error error =>
      rw [reached] at performed
      cases performed
  | ok below =>
      rw [reached] at performed
      change performAll format below (slice items start stop) = .ok stack at performed
      rw [perform_all_operand format below operand.2] at performed
      cases result : evaluateIn format (slice items start stop) with
      | error error =>
          rw [result] at performed
          cases performed
      | ok value =>
          rw [result] at performed
          cases performed
          exact ⟨value, below, rfl, rfl, rfl⟩

-- Just one operand ends at every item of a well-formed sequence, so the operands of an operator are parts of the
-- sequence that nothing else can be. They may be exchanged in ill-formed sequences too.
theorem equal_operands_exchanged :
    (∀ (request : TypeRequest) (before part other after : List Item) (scalar : Scalar),
        wellFormed part = true → wellFormed other = true →
        evaluate request part = .ok scalar → evaluate request other = .ok scalar →
        evaluate request (before ++ part ++ after) = evaluate request (before ++ other ++ after)) ∧
      ∀ items : List Item, wellFormed items = true →
        (∀ index < items.length,
          ∃! start : Nat, start ≤ index ∧ wellFormed (slice items start (index + 1 : Nat)) = true) ∧
        (∀ index, items[index]? = some .negate →
          ∃ start, OperandAt items start index ∧ (∀ other, OperandAt items other index → other = start) ∧
            ∀ format stack, performAll format [] (items.take index) = .ok stack →
              ∃ value below, stack = value :: below ∧ evaluateIn format (slice items start index) = .ok value) ∧
        ∀ index op, items[index]? = some (.operation op) →
          ∃ first second, (OperandAt items first second ∧ OperandAt items second index) ∧
            (∀ begun middle, OperandAt items begun middle → OperandAt items middle index →
              begun = first ∧ middle = second) ∧
            ∀ format stack, performAll format [] (items.take index) = .ok stack →
              ∃ left right below, stack = right :: left :: below ∧
                evaluateIn format (slice items first second) = .ok left ∧
                evaluateIn format (slice items second index) = .ok right := by
  refine ⟨?_, fun items formed => ⟨?_, ?_, ?_⟩⟩
  · intro request before part other after scalar formed alsoFormed evaluated also
    exact evaluate_exchanged before after formed alsoFormed evaluated also
  · intro index within
    obtain ⟨start, operand⟩ := operand_exists formed (Nat.succ_pos index) within
    refine ⟨start, ⟨Nat.le_of_lt_succ operand.1, operand.2⟩, fun other also => ?_⟩
    exact operand_unique within ⟨Nat.lt_succ_of_le also.1, also.2⟩ operand
  · intro index found
    have within := Nat.le_of_lt (List.getElem?_eq_some_iff.mp found).1
    obtain ⟨start, operand⟩ := negated_operand formed found
    refine ⟨start, operand, fun other also => operand_unique within also operand, fun format stack performed => ?_⟩
    obtain ⟨value, below, top, result, -⟩ := operand_on_top within operand performed
    exact ⟨value, below, top, result⟩
  · intro index op found
    have within := Nat.le_of_lt (List.getElem?_eq_some_iff.mp found).1
    obtain ⟨first, second, left, right⟩ := both_operands formed found
    have inner := Nat.le_trans (Nat.le_of_lt right.1) within
    refine ⟨first, second, ⟨left, right⟩, fun begun middle begins ends => ?_, fun format stack performed => ?_⟩
    · obtain rfl := operand_unique within ends right
      exact ⟨operand_unique inner begins left, rfl⟩
    · obtain ⟨second, rest, top, secondResult, reached⟩ := operand_on_top within right performed
      obtain ⟨first, below, under, firstResult, -⟩ := operand_on_top inner left reached
      exact ⟨first, second, below, by rw [top, under], firstResult, secondResult⟩

-- The operand `2 3 ^` and the number 8 in `1 2 3 ^ - +`, where the last operator finds one value only; and the operands
-- of the operator at the end of `1 2 3 ^ -`.
theorem power_exchanged_for_its_value :
    let number (text : String) := Item.number (Span.whole text)
    let power := [number "2", number "3", .operation .pow]
    let after := [Item.operation .sub, .operation .add]
    let difference := [number "1", number "2", number "3", .operation .pow, .operation .sub]
    (∃ scalar, evaluate (.floating .half) power = .ok scalar ∧ evaluate (.floating .half) [number "8"] = .ok scalar) ∧
      evaluate (.floating .half) ([number "1"] ++ power ++ after) = .error (.underflow (.operation .add)) ∧
      evaluate (.floating .half) ([number "1"] ++ [number "8"] ++ after) = .error (.underflow (.operation .add)) ∧
      wellFormed difference = true ∧ (OperandAt difference 0 1 ∧ OperandAt difference 1 4) ∧
      ∀ begun middle, OperandAt difference begun middle → OperandAt difference middle 4 → begun = 0 ∧ middle = 1 := by
  intro number power after difference
  obtain ⟨exchanged, operands⟩ := equal_operands_exchanged
  obtain ⟨scalar, evaluated⟩ : ∃ scalar, evaluate (.floating .half) power = .ok scalar := ⟨_, rfl⟩
  have also : evaluate (.floating .half) [number "8"] = .ok scalar := by
    cases evaluated
    decide +kernel
  have same := exchanged (.floating .half) [number "1"] power [number "8"] after scalar rfl rfl evaluated also
  have failed : evaluate (.floating .half) ([number "1"] ++ [number "8"] ++ after) =
      .error (.underflow (.operation .add)) := by
    decide +kernel
  have formed : wellFormed difference = true := rfl
  have found : OperandAt difference 0 1 ∧ OperandAt difference 1 4 := ⟨⟨by decide, rfl⟩, by decide, rfl⟩
  obtain ⟨-, -, binary⟩ := operands difference formed
  obtain ⟨first, second, -, unique, -⟩ := binary 4 .sub rfl
  refine ⟨⟨scalar, evaluated, also⟩, same.trans failed, failed, formed, found, fun begun middle begins ends => ?_⟩
  obtain ⟨rfl, rfl⟩ := unique 0 1 found.1 found.2
  exact unique begun middle begins ends

end Reckon
