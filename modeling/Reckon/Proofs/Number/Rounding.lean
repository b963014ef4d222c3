import Mathlib.Tactic.Ring
import Reckon.Number.Format
import Reckon.Number.Shortest
import Reckon.Proofs.Number.Nearest

set_option autoImplicit false

namespace Reckon.Number

structure Grid.Sound (grid : Grid) : Prop where
  precise : 0 < grid.precision
  ordered : grid.minExponent ≤ grid.maxExponent

theorem format_grid_sound (format : Format) : format.grid.Sound := by
  cases format <;> exact ⟨by decide, by decide⟩

variable {grid : Grid} {negative : Bool} {significand numerator denominator : Nat} {exponent : Int}

theorem zero_held (sound : grid.Sound) : grid.Holds (grid.zero negative) :=
  ⟨two_to_pos _, le_refl _, sound.ordered, .inl rfl⟩

theorem half_precision (sound : grid.Sound) : twoTo grid.precision = 2 * twoTo (grid.precision - 1) := by
  have precise := sound.precise
  rw [Nat.mul_comm]
  exact (pow_sub_one_mul (by omega) 2).symm

theorem settle_held (sound : grid.Sound) (within : significand ≤ twoTo grid.precision)
    (least : grid.minExponent ≤ exponent)
    (full : exponent = grid.minExponent ∨ twoTo (grid.precision - 1) ≤ significand) :
    grid.Holds (grid.settle negative significand exponent) := by
  have half := half_precision sound
  have positive := two_to_pos (grid.precision - 1)
  unfold Grid.settle
  split
  · split
    · trivial
    · exact ⟨by omega, by omega, by omega, .inr (Nat.le_refl _)⟩
  · split
    · trivial
    · exact ⟨by omega, least, by omega, full⟩

theorem place_of_part (grid : Grid) (someNumerator : 0 < numerator) (someDenominator : 0 < denominator)
    (exponent : Int) :
    grid.placeOf numerator denominator =
      max grid.minExponent
        (Int.log 2 ((numerator : ℚ) / denominator / 2 ^ exponent) + exponent - grid.precision + 1) := by
  have positive := ratio_pos someNumerator someDenominator
  have unit : (0 : ℚ) < 2 ^ exponent := by positivity
  rw [Grid.placeOf, binary_exponent_log someNumerator someDenominator, ← log_scaled (div_pos positive unit),
    div_mul_cancel₀ _ unit.ne']

theorem round_positive (someNumerator : 0 < numerator) :
    grid.round negative numerator denominator =
      grid.settle negative (nearest (numerator * twoTo (-grid.placeOf numerator denominator).toNat)
        (denominator * twoTo (grid.placeOf numerator denominator).toNat))
        (grid.placeOf numerator denominator) :=
  if_neg (Nat.pos_iff_ne_zero.mp someNumerator)

theorem round_held (sound : grid.Sound) (negative : Bool) (numerator : Nat) (someDenominator : 0 < denominator) :
    grid.Holds (grid.round negative numerator denominator) := by
  rcases Nat.eq_zero_or_pos numerator with nothing | someNumerator
  · rw [Grid.round, if_pos nothing]
    exact zero_held sound
  · have positive := ratio_pos someNumerator someDenominator
    have place := place_of_part grid someNumerator someDenominator (grid.placeOf numerator denominator)
    rw [round_positive someNumerator]
    generalize grid.placeOf numerator denominator = exponent at place ⊢
    have somePart : 0 < (numerator : ℚ) / denominator / 2 ^ exponent := div_pos positive (by positivity)
    have below := Nat.mul_pos someDenominator (two_to_pos exponent.toNat)
    refine settle_held sound (nearest_le below ?_) (by omega) ?_
    · rw [place_ratio, two_to_power]
      exact ((log_two_lt_iff somePart _).mp (by omega)).le
    · by_cases lowest : exponent = grid.minExponent
      · exact .inl lowest
      · right
        have precise := sound.precise
        apply le_nearest below
        rw [place_ratio, two_to_power]
        exact (le_log_two_iff somePart _).mp (by omega)

-- The numbers around a value up to the middle to the next value on each side, measured in quarters of its last
-- place. The middles themselves belong to it if its significand is even.
structure Grid.Near (grid : Grid) (significand : Nat) (exponent : Int) (x : ℚ) : Prop where
  low : ((grid.interval significand exponent).low : ℚ) ≤ x / 2 ^ (exponent - 2)
  high : x / 2 ^ (exponent - 2) ≤ (grid.interval significand exponent).high
  inside : significand % 2 = 1 → ((grid.interval significand exponent).low : ℚ) < x / 2 ^ (exponent - 2) ∧
    x / 2 ^ (exponent - 2) < (grid.interval significand exponent).high

def Grid.Narrow (grid : Grid) (significand : Nat) (exponent : Int) : Prop :=
  significand = twoTo (grid.precision - 1) ∧ grid.minExponent < exponent

theorem quarters (x : ℚ) (exponent : Int) : x / 2 ^ (exponent - 2) = 4 * (x / 2 ^ exponent) := by
  rw [zpow_sub₀ two_ne_zero]
  norm_num
  ring

theorem interval_high : ((grid.interval significand exponent).high : ℚ) = 4 * significand + 2 := by
  simp [Grid.interval]

theorem interval_low_wide (grid : Grid) (exponent : Int) (positive : 0 < significand) :
    (4 : ℚ) * significand - 2 ≤ (grid.interval significand exponent).low := by
  have bound : 4 * significand ≤ (grid.interval significand exponent).low + 2 := by
    simp only [Grid.interval]
    split <;> omega
  have cast : (4 : ℚ) * significand ≤ (grid.interval significand exponent).low + 2 := by exact_mod_cast bound
  linarith

theorem interval_low_narrow (positive : 0 < significand) (narrow : grid.Narrow significand exponent) :
    (4 : ℚ) * significand - 1 ≤ (grid.interval significand exponent).low := by
  have bound : 4 * significand ≤ (grid.interval significand exponent).low + 1 := by
    unfold Grid.Narrow at narrow
    simp only [Grid.interval, if_pos narrow]
    omega
  have cast : (4 : ℚ) * significand ≤ (grid.interval significand exponent).low + 1 := by exact_mod_cast bound
  linarith

section Near

variable {x : ℚ}

theorem near_low (near : grid.Near significand exponent x) (positive : 0 < significand) :
    (significand : ℚ) - 1 / 2 ≤ x / 2 ^ exponent := by
  have low := near.low
  have wide := interval_low_wide grid exponent positive
  rw [quarters] at low
  linarith

theorem near_high (near : grid.Near significand exponent x) : x / 2 ^ exponent ≤ significand + 1 / 2 := by
  have high := near.high
  rw [quarters, interval_high] at high
  linarith

theorem near_inside (near : grid.Near significand exponent x) (positive : 0 < significand)
    (odd : significand % 2 = 1) :
    (significand : ℚ) - 1 / 2 < x / 2 ^ exponent ∧ x / 2 ^ exponent < significand + 1 / 2 := by
  obtain ⟨low, high⟩ := near.inside odd
  have wide := interval_low_wide grid exponent positive
  rw [quarters] at low high
  rw [interval_high] at high
  constructor <;> linarith

theorem near_narrow (near : grid.Near significand exponent x) (positive : 0 < significand)
    (narrow : grid.Narrow significand exponent) : (significand : ℚ) - 1 / 4 ≤ x / 2 ^ exponent := by
  have low := near.low
  have close := interval_low_narrow positive narrow
  rw [quarters] at low
  linarith

theorem near_positive (near : grid.Near significand exponent x) (positive : 0 < significand) :
    0 < x / 2 ^ exponent := by
  have low := near_low near positive
  have one : (1 : ℚ) ≤ significand := by exact_mod_cast positive
  linarith

end Near

theorem round_at (someNumerator : 0 < numerator) (someDenominator : 0 < denominator)
    (place : grid.placeOf numerator denominator = exponent)
    (low : (significand : ℚ) - 1 / 2 ≤ (numerator : ℚ) / denominator / 2 ^ exponent)
    (high : (numerator : ℚ) / denominator / 2 ^ exponent ≤ significand + 1 / 2)
    (inside : significand % 2 = 1 → (significand : ℚ) - 1 / 2 < (numerator : ℚ) / denominator / 2 ^ exponent ∧
      (numerator : ℚ) / denominator / 2 ^ exponent < significand + 1 / 2) :
    grid.round negative numerator denominator = grid.settle negative significand exponent := by
  have below : 0 < denominator * twoTo exponent.toNat := Nat.mul_pos someDenominator (two_to_pos _)
  rw [round_positive someNumerator, place, nearest_ratio below (place_ratio exponent) low high inside]

theorem near_short {x : ℚ} (near : grid.Near significand exponent x) (positive : 0 < significand)
    (short : significand < twoTo grid.precision) : Int.log 2 (x / 2 ^ exponent) < grid.precision := by
  have high := near_high near
  have bound : (significand : ℚ) + 1 ≤ twoTo grid.precision := by exact_mod_cast short
  rw [log_two_lt_iff (near_positive near positive), ← two_to_power]
  linarith

-- Just below a power of two a ratio has one place more, in which it is rounded up to the power.
theorem round_up_to_power (sound : grid.Sound) (someNumerator : 0 < numerator) (someDenominator : 0 < denominator)
    (above : grid.minExponent < exponent) (within : exponent ≤ grid.maxExponent)
    (low : (twoTo (grid.precision - 1) : ℚ) - 1 / 4 ≤ (numerator : ℚ) / denominator / 2 ^ exponent)
    (high : (numerator : ℚ) / denominator / 2 ^ exponent < twoTo (grid.precision - 1)) :
    grid.round negative numerator denominator = .finite negative (twoTo (grid.precision - 1)) exponent := by
  have precise := sound.precise
  have half := half_precision sound
  have place := place_of_part grid someNumerator someDenominator exponent
  have one : (1 : ℚ) ≤ twoTo (grid.precision - 1) := by exact_mod_cast two_to_pos (grid.precision - 1)
  have twice : (numerator : ℚ) / denominator / 2 ^ (exponent - 1) =
      2 * ((numerator : ℚ) / denominator / 2 ^ exponent) := by
    rw [zpow_sub₀ two_ne_zero]
    norm_num
    ring
  have doubled : (twoTo grid.precision : ℚ) = 2 * twoTo (grid.precision - 1) := by exact_mod_cast half
  have log : Int.log 2 ((numerator : ℚ) / denominator / 2 ^ exponent) = grid.precision - 2 := by
    apply log_of_two_bounds
    · have split : (twoTo (grid.precision - 1) : ℚ) = 2 ^ ((grid.precision : Int) - 2) * 2 := by
        rw [two_to_power, ← zpow_add_one₀ two_ne_zero]
        congr 1
        omega
      linarith
    · rw [two_to_power] at high
      convert high using 2
      omega
  have here : grid.placeOf numerator denominator = exponent - 1 := by omega
  have rounded : grid.round negative numerator denominator =
      grid.settle negative (twoTo grid.precision) (exponent - 1) := by
    apply round_at someNumerator someDenominator here
    · rw [twice, doubled]
      linarith
    · rw [twice, doubled]
      linarith
    · omega
  rw [rounded, Grid.settle, if_pos rfl, if_neg (by omega), sub_add_cancel]

theorem round_near (sound : grid.Sound) (held : grid.Holds (.finite negative significand exponent))
    (positive : 0 < significand) (someDenominator : 0 < denominator)
    (near : grid.Near significand exponent ((numerator : ℚ) / denominator)) :
    grid.round negative numerator denominator = .finite negative significand exponent := by
  obtain ⟨short, least, most, full⟩ := held
  have somePart := near_positive near positive
  have someNumerator : 0 < numerator := by
    by_contra nothing
    obtain rfl : numerator = 0 := by omega
    simp at somePart
  have place := place_of_part grid someNumerator someDenominator exponent
  have shortLog := near_short near positive short
  have low := near_low near positive
  have high := near_high near
  by_cases long : (twoTo (grid.precision - 1) : ℚ) ≤ (numerator : ℚ) / denominator / 2 ^ exponent ∨
      exponent = grid.minExponent
  · have here : grid.placeOf numerator denominator = exponent := by
      rcases long with long | lowest
      · rw [two_to_power, ← le_log_two_iff somePart] at long
        omega
      · omega
    rw [round_at someNumerator someDenominator here low high (near_inside near positive), Grid.settle,
      if_neg (by omega), if_neg (by omega)]
  · rw [not_or, not_le] at long
    obtain ⟨belowPower, above⟩ := long
    have isPower : significand = twoTo (grid.precision - 1) := by
      have close : (significand : ℚ) < twoTo (grid.precision - 1) + 1 := by linarith
      have bound : significand < twoTo (grid.precision - 1) + 1 := by exact_mod_cast close
      omega
    have close := near_narrow near positive ⟨isPower, by omega⟩
    rw [isPower] at close ⊢
    exact round_up_to_power sound someNumerator someDenominator (by omega) most close belowPower

end Reckon.Number
