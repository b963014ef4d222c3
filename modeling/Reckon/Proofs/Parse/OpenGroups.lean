import Reckon.Proofs.Parse.OpenLevels

set_option autoImplicit false

namespace Reckon

def groups : List Pending → Nat
  | [] => 0
  | .group _ :: outer => groups outer + 1
  | .operation _ :: outer => groups outer

def openGroups (word : List Token) : Nat := (nesting word).toNat

def openLinks (word : List Token) : Nat := openLevels word - openGroups word

-- A group takes six frames, a power link two.
def openFrames (word : List Token) : Nat := 6 * openGroups word + 2 * openLinks word

theorem nesting_counts (word : List Token) :
    nesting word + word.countP (·.kind = .closing) = word.countP (·.kind = .opening) := by
  induction word with
  | nil => rfl
  | cons token rest ih =>
      simp only [nesting, List.countP_cons]
      cases kind : token.kind <;> simp [Kind.nesting] <;> omega

theorem groups_unwind (level : Nat) (pending : List Pending) : groups (unwind level pending).2 = groups pending :=
  unwind_ignored level groups (fun _ _ => rfl) pending

theorem groups_awaiting (op : BinaryOp) (pending : List Pending) : groups (awaiting op pending) = groups pending :=
  groups_unwind op.level pending

theorem move_groups {rules : Rules} {state after : State} {token : Token} {written : List Item}
    (move : rules.Move token state written after) :
    (groups after.pending : Int) = groups state.pending + token.kind.nesting := by
  induction move with
  | number kind | minus kind | plus kind _ | group kind _ | power kind _ =>
      rw [kind]
      rfl
  | operation sign =>
      obtain ⟨-, -, flat, -⟩ := chained_flat sign
      rw [flat, groups_awaiting, Int.add_zero]
  | product _ _ ih => rw [ih, groups_awaiting]
  | @closing negated pending outer closes innermost =>
      have unwound := groups_unwind 0 pending
      rw [innermost, groups] at unwound
      simp only [closes, Kind.nesting, ← unwound]
      omega

theorem step_groups {rules : Rules} {state after : State} {token : Token} {written : List Item}
    (step : rules.step state token = .next written after) :
    (groups after.pending : Int) = groups state.pending + token.kind.nesting :=
  move_groups (step_next_iff.mp step)

theorem reached_nesting {rules : Rules} {state last : State} {word : List Token} {written : List Item}
    (reached : rules.Reaches state word written last) :
    (groups last.pending : Int) = groups state.pending + nesting word := by
  induction reached with
  | here => exact (Int.add_zero _).symm
  | next step _ ih => rw [ih, step_groups step, nesting, Int.add_assoc]

theorem reached_groups {rules : Rules} {last : State} {word : List Token} {written : List Item}
    (reached : rules.Reaches .start word written last) : (groups last.pending : Int) = nesting word := by
  rw [reached_nesting reached]
  exact Int.zero_add _

theorem groups_within (pending : List Pending) : groups pending ≤ levels pending := by
  induction pending with
  | nil => exact Nat.le_refl 0
  | cons part outer ih => cases part <;> simp only [groups, levels, Pending.levels] <;> omega

theorem frames_counted (pending : List Pending) :
    frames pending = 6 * groups pending + 2 * (levels pending - groups pending) := by
  induction pending with
  | nil => rfl
  | cons part outer ih =>
      have within := groups_within outer
      cases part with
      | group negated =>
          simp only [frames, groups, levels, Pending.frames, Pending.levels, ih]
          omega
      | operation op =>
          cases op <;> simp only [frames, groups, levels, Pending.frames, Pending.levels, ih] <;> omega

theorem reached_path {rules : Rules} {last : State} {word : List Token} {written : List Item}
    (reached : rules.Reaches .start word written last) : pathOf last.pending = ⟨openLevels word, openFrames word⟩ := by
  have counted : groups last.pending = openGroups word := by
    rw [openGroups, ← reached_groups reached]
    rfl
  rw [pathOf, frames_counted, reached_levels reached, counted]
  rfl

end Reckon
