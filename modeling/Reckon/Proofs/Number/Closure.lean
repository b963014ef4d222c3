import Reckon.Proofs.Number.Rounding
import Reckon.Proofs.Rpn.StaticCheck

set_option autoImplicit false

namespace Reckon.Number

variable {grid : Grid}

theorem round_scaled_held (sound : grid.Sound) (negative : Bool) (significand : Nat) (exponent : Int) :
    grid.Holds (grid.roundScaled negative significand exponent) :=
  round_held sound negative _ (two_to_pos _)

theorem convert_held (sound : grid.Sound) (value : Value) : grid.Holds (grid.convert value) := by
  cases value with
  | nan => trivial
  | infinite negative => trivial
  | finite negative significand exponent => exact round_scaled_held sound negative significand exponent

theorem add_held (sound : grid.Sound) (left right : Value) : grid.Holds (grid.add left right) := by
  cases left with
  | nan => trivial
  | infinite leftSign =>
      cases right with
      | nan => trivial
      | infinite rightSign =>
          simp only [Grid.add]
          split <;> trivial
      | finite => trivial
  | finite leftSign left leftExponent =>
      cases right with
      | nan => trivial
      | infinite rightSign => trivial
      | finite rightSign right rightExponent =>
          simp only [Grid.add]
          split
          · exact zero_held sound
          · exact round_scaled_held sound _ _ _

theorem mul_held (sound : grid.Sound) (left right : Value) : grid.Holds (grid.mul left right) := by
  cases left with
  | nan => trivial
  | infinite leftSign =>
      cases right with
      | nan => trivial
      | infinite rightSign => trivial
      | finite rightSign right rightExponent =>
          simp only [Grid.mul]
          split <;> trivial
  | finite leftSign left leftExponent =>
      cases right with
      | nan => trivial
      | infinite rightSign =>
          simp only [Grid.mul]
          split <;> trivial
      | finite rightSign right rightExponent => exact round_scaled_held sound _ _ _

theorem div_held (sound : grid.Sound) (left right : Value) : grid.Holds (grid.div left right) := by
  cases left with
  | nan => trivial
  | infinite leftSign => cases right <;> trivial
  | finite leftSign left leftExponent =>
      cases right with
      | nan => trivial
      | infinite rightSign => exact zero_held sound
      | finite rightSign right rightExponent =>
          simp only [Grid.div]
          split
          · split <;> trivial
          · exact round_held sound _ _ (Nat.mul_pos (by omega) (two_to_pos _))

theorem extreme_power_held (sound : grid.Sound) (baseIsZero negativeBase negativePower : Bool) (kind : Parity) :
    grid.Holds (grid.extremePower baseIsZero negativeBase negativePower kind) := by
  simp only [Grid.extremePower]
  split
  · trivial
  · exact zero_held sound

theorem infinite_power_held (sound : grid.Sound) (side : Ordering) (negativePower : Bool) :
    grid.Holds (grid.infinitePower side negativePower) := by
  cases side with
  | eq => exact round_scaled_held sound false 1 0
  | lt =>
      simp only [Grid.infinitePower]
      split
      · trivial
      · exact zero_held sound
  | gt =>
      simp only [Grid.infinitePower]
      split
      · exact zero_held sound
      · trivial

theorem positive_power_held (sound : grid.Sound) (negative : Bool) (base : Nat)
    (baseExponent power powerExponent : Int) :
    grid.Holds (grid.positivePower negative base baseExponent power powerExponent) := by
  simp only [Grid.positivePower]
  split
  · trivial
  · split
    · exact zero_held sound
    · exact round_scaled_held sound _ _ _

theorem finite_power_held (sound : grid.Sound) (base : Value) (negativePower : Bool) (power : Nat)
    (powerExponent : Int) : grid.Holds (grid.finitePower base negativePower power powerExponent) := by
  cases base with
  | nan => trivial
  | infinite negative => exact extreme_power_held sound _ _ _ _
  | finite negative significand exponent =>
      simp only [Grid.finitePower]
      split
      · exact extreme_power_held sound _ _ _ _
      · split
        · trivial
        · exact positive_power_held sound _ _ _ _ _

theorem pow_held (sound : grid.Sound) (base power : Value) : grid.Holds (grid.pow base power) := by
  cases power with
  | nan =>
      simp only [Grid.pow]
      split
      · split
        · exact round_scaled_held sound false 1 0
        · trivial
      · trivial
  | infinite negative =>
      cases base with
      | nan => trivial
      | infinite => exact infinite_power_held sound .gt negative
      | finite _ significand exponent => exact infinite_power_held sound (compareOne significand exponent) negative
  | finite negative power exponent =>
      simp only [Grid.pow]
      split
      · exact round_scaled_held sound false 1 0
      · exact finite_power_held sound _ _ _ _

theorem pow_or_root_held (sound : grid.Sound) (base power : Value) : grid.Holds (grid.powOrRoot base power) := by
  unfold Grid.powOrRoot
  split
  · split
    · trivial
    · exact zero_held sound
    · exact pow_held sound base power
  · exact pow_held sound base power

theorem round_numeral_held (sound : grid.Sound) (numeral : Numeral) : grid.Holds (grid.roundNumeral numeral) := by
  cases numeral with
  | nan => trivial
  | infinite negative => trivial
  | decimal negative digits exponent =>
      simp only [Grid.roundNumeral, Grid.roundDecimal]
      split_ifs
      · exact zero_held sound
      · trivial
      · exact zero_held sound
      · exact round_held sound _ _ (ten_to_pos _)
  | binary negative digits exponent =>
      simp only [Grid.roundNumeral, Grid.roundBinary]
      split_ifs
      · exact zero_held sound
      · trivial
      · exact zero_held sound
      · exact round_scaled_held sound _ _ _

variable (format : Format)

theorem format_pow_held (base power : Value) : format.grid.Holds (format.pow base power) := by
  cases format with
  | half => exact convert_held (format_grid_sound .half) _
  | single => exact pow_or_root_held (format_grid_sound .single) base power
  | double => exact pow_or_root_held (format_grid_sound .double) base power
  | extended => exact pow_held (format_grid_sound .extended) base power

theorem of_numeral_held (numeral : Numeral) : format.grid.Holds (format.ofNumeral numeral) := by
  cases format with
  | half => exact convert_held (format_grid_sound .half) _
  | single => exact convert_held (format_grid_sound .single) _
  | double => exact round_numeral_held (format_grid_sound .double) numeral
  | extended => exact round_numeral_held (format_grid_sound .extended) numeral

theorem read_held {chars : List Char} {value : Value} (read : format.read chars = some value) :
    format.grid.Holds value := by
  obtain ⟨numeral, -, same⟩ := Option.map_eq_some_iff.mp read
  exact same ▸ of_numeral_held format numeral

end Reckon.Number

namespace Reckon

open Number (Format Value)

theorem apply_held (op : BinaryOp) (format : Format) (left right : Value) :
    format.grid.Holds (op.apply format left right) := by
  have sound := Number.format_grid_sound format
  cases op with
  | add => exact Number.add_held sound left right
  | sub => exact Number.add_held sound left right.negate
  | mul => exact Number.mul_held sound left right
  | div => exact Number.div_held sound left right
  | pow => exact Number.format_pow_held format left right

variable {format : Format} {stack after : List Value} {items : List Item}

theorem perform_held {item : Item} (held : ∀ value ∈ stack, format.grid.Holds value)
    (performed : perform format stack item = .ok after) : ∀ value ∈ after, format.grid.Holds value := by
  cases perform_ok_iff.mp performed with
  | number read => exact List.forall_mem_cons.mpr ⟨Number.read_held format read, held⟩
  | @negate value rest =>
      obtain ⟨top, others⟩ := List.forall_mem_cons.mp held
      exact List.forall_mem_cons.mpr ⟨(Number.negate_held format.grid value).mpr top, others⟩
  | @operation op left right rest =>
      obtain ⟨-, others⟩ := List.forall_mem_cons.mp held
      exact List.forall_mem_cons.mpr ⟨apply_held op format left right, (List.forall_mem_cons.mp others).2⟩

theorem perform_all_held (held : ∀ value ∈ stack, format.grid.Holds value)
    (performed : performAll format stack items = .ok after) : ∀ value ∈ after, format.grid.Holds value := by
  induction items generalizing stack with
  | nil =>
      cases performed
      exact held
  | cons item rest ih =>
      obtain ⟨middle, step, goesOn⟩ := perform_all_cons_ok performed
      exact ih (perform_held held step) goesOn

theorem evaluate_held {value : Value} (evaluated : evaluateIn format items = .ok value) :
    format.grid.Holds value := by
  unfold evaluateIn at evaluated
  split at evaluated
  · cases evaluated
  · rename_i single performed
    cases evaluated
    exact perform_all_held (List.forall_mem_nil _) performed value List.mem_cons_self
  · cases evaluated

end Reckon
