import Mathlib.Algebra.Order.Field.Power
import Mathlib.Algebra.Order.Field.Rat
import Mathlib.Data.Int.Log
import Mathlib.Data.Rat.Floor
import Mathlib.Tactic.FieldSimp
import Mathlib.Tactic.Linarith
import Mathlib.Tactic.NormNum
import Mathlib.Tactic.Positivity
import Reckon.Number.Rounding

set_option autoImplicit false

namespace Reckon.Number

theorem power_split (base : Nat) (positive : 0 < base) (exponent : Int) :
    ((base ^ exponent.toNat : Nat) : ℚ) / (base ^ (-exponent).toNat : Nat) = (base : ℚ) ^ exponent := by
  have nonzero : (base : ℚ) ≠ 0 := by exact_mod_cast positive.ne'
  have whole : exponent = (exponent.toNat : Int) - ((-exponent).toNat : Int) := by omega
  rw [Nat.cast_pow, Nat.cast_pow, ← zpow_natCast, ← zpow_natCast, ← zpow_sub₀ nonzero, ← whole]

theorem two_to_power (power : Nat) : (twoTo power : ℚ) = 2 ^ (power : Int) := by
  rw [zpow_natCast]
  simp [twoTo]

theorem two_to_split (exponent : Int) : (twoTo exponent.toNat : ℚ) / twoTo (-exponent).toNat = 2 ^ exponent :=
  power_split 2 (by decide) exponent

theorem ten_to_split (exponent : Int) : (tenTo exponent.toNat : ℚ) / tenTo (-exponent).toNat = 10 ^ exponent :=
  power_split 10 (by decide) exponent

section Nearest

variable {numerator denominator whole : Nat}

theorem nearest_split (below rest : Nat) (small : rest < denominator) :
    nearest (below * denominator + rest) denominator =
      if 2 * rest < denominator then below
      else if denominator < 2 * rest then below + 1
      else if below % 2 = 0 then below
      else below + 1 := by
  have quotient : (below * denominator + rest) / denominator = below := by
    rw [Nat.mul_comm, Nat.mul_add_div (by omega), Nat.div_eq_of_lt small, Nat.add_zero]
  have remainder : (below * denominator + rest) % denominator = rest := by
    rw [Nat.mul_comm, Nat.mul_add_mod, Nat.mod_eq_of_lt small]
  simp only [nearest, quotient, remainder]

theorem parts_of (numerator : Nat) (positive : 0 < denominator) :
    ∃ below rest, numerator = below * denominator + rest ∧ rest < denominator :=
  ⟨numerator / denominator, numerator % denominator, (Nat.div_add_mod' numerator denominator).symm,
    Nat.mod_lt numerator positive⟩

theorem nearest_eq (positive : 0 < denominator) (low : 2 * (whole * denominator) ≤ 2 * numerator + denominator)
    (high : 2 * numerator ≤ 2 * (whole * denominator) + denominator)
    (inside : whole % 2 = 1 → 2 * (whole * denominator) < 2 * numerator + denominator ∧
      2 * numerator < 2 * (whole * denominator) + denominator) : nearest numerator denominator = whole := by
  obtain ⟨below, rest, rfl, small⟩ := parts_of numerator positive
  have least : below ≤ whole := by
    by_contra less
    have product := Nat.mul_le_mul_right denominator (Nat.lt_of_not_le less)
    rw [Nat.succ_mul] at product
    omega
  have most : whole ≤ below + 1 := by
    by_contra more
    have product := Nat.mul_le_mul_right denominator (Nat.lt_of_not_le more)
    rw [Nat.succ_mul, Nat.succ_mul] at product
    omega
  rw [nearest_split below rest small]
  rcases Nat.le_iff_lt_or_eq.mp least with less | same
  · obtain rfl : whole = below + 1 := by omega
    rw [Nat.succ_mul below denominator] at low high inside
    split
    · omega
    · split
      · rfl
      · split <;> omega
  · subst same
    split
    · rfl
    · split
      · omega
      · split <;> omega

theorem nearest_ratio {x : ℚ} (positive : 0 < denominator) (ratio : (numerator : ℚ) / denominator = x)
    (low : (whole : ℚ) - 1 / 2 ≤ x) (high : x ≤ whole + 1 / 2)
    (inside : whole % 2 = 1 → (whole : ℚ) - 1 / 2 < x ∧ x < whole + 1 / 2) :
    nearest numerator denominator = whole := by
  have below : (0 : ℚ) < denominator := by exact_mod_cast positive
  have scaled : (numerator : ℚ) = x * denominator := (div_eq_iff below.ne').mp ratio
  refine nearest_eq positive ?_ ?_ fun odd => ⟨?_, ?_⟩
  · have bound := mul_le_mul_of_nonneg_right low below.le
    exact_mod_cast (by linarith : 2 * ((whole : ℚ) * denominator) ≤ 2 * numerator + denominator)
  · have bound := mul_le_mul_of_nonneg_right high below.le
    exact_mod_cast (by linarith : 2 * (numerator : ℚ) ≤ 2 * (whole * denominator) + denominator)
  · have bound := mul_lt_mul_of_pos_right (inside odd).1 below
    exact_mod_cast (by linarith : 2 * ((whole : ℚ) * denominator) < 2 * numerator + denominator)
  · have bound := mul_lt_mul_of_pos_right (inside odd).2 below
    exact_mod_cast (by linarith : 2 * (numerator : ℚ) < 2 * (whole * denominator) + denominator)

theorem le_nearest (positive : 0 < denominator) (low : (whole : ℚ) ≤ (numerator : ℚ) / denominator) :
    whole ≤ nearest numerator denominator := by
  have divisor : (0 : ℚ) < denominator := by exact_mod_cast positive
  rw [le_div_iff₀ divisor] at low
  have product : whole * denominator ≤ numerator := by exact_mod_cast low
  obtain ⟨below, rest, rfl, small⟩ := parts_of numerator positive
  have least : whole ≤ below := by
    by_contra more
    have next := Nat.mul_le_mul_right denominator (Nat.lt_of_not_le more)
    rw [Nat.succ_mul] at next
    omega
  rw [nearest_split below rest small]
  split_ifs <;> omega

theorem nearest_le (positive : 0 < denominator) (high : (numerator : ℚ) / denominator ≤ whole) :
    nearest numerator denominator ≤ whole := by
  have divisor : (0 : ℚ) < denominator := by exact_mod_cast positive
  rw [div_le_iff₀ divisor] at high
  have product : numerator ≤ whole * denominator := by exact_mod_cast high
  obtain ⟨below, rest, rfl, small⟩ := parts_of numerator positive
  by_cases exact : rest = 0
  · subst exact
    rw [Nat.add_zero, nearest_exact below denominator positive]
    exact Nat.le_of_mul_le_mul_right product positive
  · have most : below < whole := by
      by_contra less
      have next := Nat.mul_le_mul_right denominator (Nat.le_of_not_lt less)
      omega
    rw [nearest_split below rest small]
    split_ifs <;> omega

end Nearest

section Places

variable {numerator denominator : Nat}

theorem ratio_pos (someNumerator : 0 < numerator) (someDenominator : 0 < denominator) :
    (0 : ℚ) < (numerator : ℚ) / denominator := by positivity

theorem scaled_le_iff (positive : 0 < denominator) (exponent : Int) :
    denominator * twoTo exponent.toNat ≤ numerator * twoTo (-exponent).toNat ↔
      (2 : ℚ) ^ exponent ≤ (numerator : ℚ) / denominator := by
  have below : (0 : ℚ) < denominator := by exact_mod_cast positive
  have unit : (0 : ℚ) < twoTo (-exponent).toNat := by exact_mod_cast two_to_pos _
  rw [← two_to_split, div_le_div_iff₀ unit below, mul_comm]
  norm_cast

theorem log_two_lt_iff {x : ℚ} (positive : 0 < x) (exponent : Int) :
    Int.log 2 x < exponent ↔ x < 2 ^ exponent := by
  have known : x < ((2 : Nat) : ℚ) ^ exponent ↔ Int.log 2 x < exponent :=
    Int.lt_zpow_iff_log_lt (by decide) positive
  rw [← known, Nat.cast_ofNat]

theorem le_log_two_iff {x : ℚ} (positive : 0 < x) (exponent : Int) :
    exponent ≤ Int.log 2 x ↔ 2 ^ exponent ≤ x := by
  rw [← not_lt, log_two_lt_iff positive, not_lt]

theorem log_of_two_bounds {x : ℚ} {exponent : Int} (low : 2 ^ exponent ≤ x) (high : x < 2 ^ (exponent + 1)) :
    Int.log 2 x = exponent := by
  have positive : 0 < x := lt_of_lt_of_le (by positivity) low
  have least := (le_log_two_iff positive exponent).mpr low
  have most := (log_two_lt_iff positive (exponent + 1)).mpr high
  omega

theorem length_bounds (someNumber : 0 < numerator) :
    (2 : ℚ) ^ (numerator.log2 : Int) ≤ numerator ∧ (numerator : ℚ) < 2 ^ ((numerator.log2 : Int) + 1) := by
  constructor
  · have low := Nat.log2_self_le (by omega : numerator ≠ 0)
    exact_mod_cast low
  · have high := Nat.lt_log2_self (n := numerator)
    exact_mod_cast high

theorem binary_exponent_log (someNumerator : 0 < numerator) (someDenominator : 0 < denominator) :
    binaryExponent numerator denominator = Int.log 2 ((numerator : ℚ) / denominator) := by
  obtain ⟨numeratorLow, numeratorHigh⟩ := length_bounds someNumerator
  obtain ⟨denominatorLow, denominatorHigh⟩ := length_bounds someDenominator
  have below : (0 : ℚ) < denominator := by exact_mod_cast someDenominator
  have nonzero : (2 : ℚ) ≠ 0 := two_ne_zero
  unfold binaryExponent
  dsimp only
  set guess : Int := (numerator.log2 : Int) - (denominator.log2 : Int) with guessed
  have high : (numerator : ℚ) / denominator < 2 ^ (guess + 1) := by
    rw [div_lt_iff₀ below]
    calc (numerator : ℚ) < 2 ^ ((numerator.log2 : Int) + 1) := numeratorHigh
      _ = 2 ^ (guess + 1) * 2 ^ (denominator.log2 : Int) := by
          rw [← zpow_add₀ nonzero]
          congr 1
          omega
      _ ≤ 2 ^ (guess + 1) * denominator := mul_le_mul_of_nonneg_left denominatorLow (by positivity)
  have low : 2 ^ (guess - 1) ≤ (numerator : ℚ) / denominator := by
    rw [le_div_iff₀ below]
    calc (2 : ℚ) ^ (guess - 1) * denominator
        ≤ 2 ^ (guess - 1) * 2 ^ ((denominator.log2 : Int) + 1) :=
          mul_le_mul_of_nonneg_left denominatorHigh.le (by positivity)
      _ = 2 ^ (numerator.log2 : Int) := by
          rw [← zpow_add₀ nonzero]
          congr 1
          omega
      _ ≤ numerator := numeratorLow
  by_cases reached : denominator * twoTo guess.toNat ≤ numerator * twoTo (-guess).toNat
  · rw [if_pos reached]
    exact (log_of_two_bounds ((scaled_le_iff someDenominator guess).mp reached) high).symm
  · rw [if_neg reached]
    have short := lt_of_not_ge (mt (scaled_le_iff someDenominator guess).mpr reached)
    refine (log_of_two_bounds low ?_).symm
    rwa [sub_add_cancel]

theorem log_scaled {x : ℚ} (positive : 0 < x) (exponent : Int) :
    Int.log 2 (x * 2 ^ exponent) = Int.log 2 x + exponent := by
  have unit : (0 : ℚ) < 2 ^ exponent := by positivity
  have nonzero : (2 : ℚ) ≠ 0 := two_ne_zero
  have low := (le_log_two_iff positive _).mp (le_refl (Int.log 2 x))
  have high := (log_two_lt_iff positive _).mp (Int.lt_add_one_of_le (le_refl (Int.log 2 x)))
  apply log_of_two_bounds
  · rw [zpow_add₀ nonzero]
    exact mul_le_mul_of_nonneg_right low unit.le
  · rw [add_right_comm, zpow_add₀ nonzero]
    exact mul_lt_mul_of_pos_right high unit

theorem place_ratio (exponent : Int) :
    ((numerator * twoTo (-exponent).toNat : Nat) : ℚ) / (denominator * twoTo exponent.toNat : Nat) =
      (numerator : ℚ) / denominator / 2 ^ exponent := by
  rw [← two_to_split, Nat.cast_mul, Nat.cast_mul, div_div_eq_mul_div, ← div_mul_eq_mul_div, ← div_mul_eq_mul_div,
    div_div]

end Places

end Reckon.Number
