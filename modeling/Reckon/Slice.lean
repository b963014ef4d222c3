set_option autoImplicit false

namespace Reckon

-- A negative bound counts from the end of the list, and one outside the list is moved to its nearer end.
def cutPoint (size : Nat) (bound : Int) : Nat :=
  if bound < 0 then min (bound + size).toNat size else min bound.toNat size

def slice {α : Type} (xs : List α) (start stop : Int) : List α :=
  (xs.drop (cutPoint xs.length start)).take (cutPoint xs.length stop - cutPoint xs.length start)

def openSlice {α : Type} (xs : List α) (start stop : Option Int) : List α :=
  slice xs (start.getD 0) (stop.getD xs.length)

theorem cut_point_inside (size index : Nat) (inside : index ≤ size) : cutPoint size index = index := by
  unfold cutPoint
  split <;> omega

theorem slice_middle {α : Type} (before middle after : List α) :
    slice (before ++ middle ++ after) before.length (before.length + middle.length : Nat) = middle := by
  have first : cutPoint (before ++ middle ++ after).length before.length = before.length :=
    cut_point_inside _ _ (by simp)
  have last : cutPoint (before ++ middle ++ after).length (before.length + middle.length : Nat)
      = before.length + middle.length :=
    cut_point_inside _ _ (by simp)
  unfold slice
  rw [first, last]
  simp [List.append_assoc]

theorem cut_at {α : Type} {xs : List α} {index : Nat} {x : α} (found : xs[index]? = some x) :
    xs.take index ++ x :: xs.drop (index + 1) = xs := by
  obtain ⟨within, same⟩ := List.getElem?_eq_some_iff.mp found
  rw [← same, ← List.drop_eq_getElem_cons within, List.take_append_drop]

theorem split_at {α : Type} {xs : List α} {index : Nat} {x : α} (found : xs[index]? = some x) :
    ∃ before after, xs = before ++ x :: after ∧ before.length = index := by
  obtain ⟨within, -⟩ := List.getElem?_eq_some_iff.mp found
  exact ⟨_, _, (cut_at found).symm, List.length_take_of_le (Nat.le_of_lt within)⟩

theorem slice_holds {α : Type} {xs : List α} {start stop : Int} {x : α} (positive : 0 ≤ start)
    (forward : start ≤ stop) (within : stop ≤ xs.length) (member : x ∈ slice xs start stop) :
    ∃ index : Nat, start ≤ index ∧ (index : Int) < stop ∧ xs[index]? = some x := by
  obtain ⟨first, rfl⟩ := Int.eq_ofNat_of_zero_le positive
  obtain ⟨last, rfl⟩ := Int.eq_ofNat_of_zero_le (Int.le_trans positive forward)
  rw [slice, cut_point_inside _ _ (by omega), cut_point_inside _ _ (by omega)] at member
  obtain ⟨offset, found⟩ := List.mem_iff_getElem?.mp member
  by_cases early : offset < last - first
  · rw [List.getElem?_take_of_lt early, List.getElem?_drop] at found
    exact ⟨first + offset, by omega, by omega, found⟩
  · rw [List.getElem?_eq_none (by rw [List.length_take]; omega)] at found
    cases found

end Reckon
