import Mathlib.Data.Nat.Cast.Order.Field
import Reckon.Proofs.Number.Rounding

/-!
The shortest decimal of a value is one of the numbers that round to it. The search tries one decimal grid after the
other and takes no decimal outside the interval of the value. It comes upon one inside it in time: the first grid
is no finer than the leading digit, each next one ten times as fine, and on a grid finer than a quarter of the last
place the decimal just below the value is inside.
-/

set_option autoImplicit false

namespace Reckon.Number

def Decimal.amount (decimal : Decimal) : ℚ := decimal.digits * 10 ^ decimal.exponent

variable {grid : Grid} {significand : Nat} {exponent : Int} {decimal below above : Decimal}

theorem unit_pos (place : Int) : 0 < (grid.interval significand exponent).unit place :=
  Nat.mul_pos (two_to_pos _) (ten_to_pos _)

theorem denominator_pos : 0 < (grid.interval significand exponent).denominator := two_to_pos _

theorem quarter_ratio (grid : Grid) (significand : Nat) (exponent : Int) :
    ((grid.interval significand exponent).numerator : ℚ) /
    (grid.interval significand exponent).denominator = 2 ^ (exponent - 2) := by
  have split := two_to_split (exponent - 2)
  rwa [neg_sub] at split

theorem scaled_unit_ratio (grid : Grid) (significand : Nat) (exponent : Int) (decimal : Decimal) :
    ((grid.interval significand exponent).scaled decimal : ℚ) /
    (grid.interval significand exponent).unit decimal.exponent = decimal.amount / 2 ^ (exponent - 2) := by
  rw [← quarter_ratio grid significand, Decimal.amount, ← ten_to_split, Interval.scaled,
    Interval.unit]
  push_cast
  field_simp

theorem low_unit_le_iff (bound : Nat) :
    bound * (grid.interval significand exponent).unit decimal.exponent ≤
        (grid.interval significand exponent).scaled decimal ↔
      (bound : ℚ) ≤ decimal.amount / 2 ^ (exponent - 2) := by
  have unit : (0 : ℚ) < (grid.interval significand exponent).unit decimal.exponent := by
    exact_mod_cast unit_pos decimal.exponent
  rw [← scaled_unit_ratio grid significand, le_div_iff₀ unit]
  norm_cast

theorem le_high_unit_iff (bound : Nat) :
    (grid.interval significand exponent).scaled decimal ≤
        bound * (grid.interval significand exponent).unit decimal.exponent ↔
      decimal.amount / 2 ^ (exponent - 2) ≤ bound := by
  have unit : (0 : ℚ) < (grid.interval significand exponent).unit decimal.exponent := by
    exact_mod_cast unit_pos decimal.exponent
  rw [← scaled_unit_ratio grid significand, div_le_iff₀ unit]
  norm_cast

theorem contains_iff :
    (grid.interval significand exponent).contains decimal = true ↔ grid.Near significand exponent decimal.amount := by
  unfold Interval.contains
  by_cases even : significand % 2 = 0
  · have closed : (grid.interval significand exponent).closed = true := decide_eq_true even
    simp only [closed, if_true, Bool.and_eq_true, decide_eq_true_eq, low_unit_le_iff, le_high_unit_iff]
    constructor
    · intro inside
      exact ⟨inside.1, inside.2, by omega⟩
    · intro near
      exact ⟨near.low, near.high⟩
  · have opened : (grid.interval significand exponent).closed = false := decide_eq_false even
    simp only [opened, Bool.false_eq_true, if_false, Bool.and_eq_true, decide_eq_true_eq]
    rw [← not_le, ← not_le, low_unit_le_iff, le_high_unit_iff, not_le, not_le]
    constructor
    · intro inside
      exact ⟨inside.1.le, inside.2.le, fun _ => inside⟩
    · intro near
      exact near.inside (by omega)

theorem choose_near (chosen : (grid.interval significand exponent).choose below above = some decimal) :
    grid.Near significand exponent decimal.amount := by
  rw [← contains_iff]
  simp only [Interval.choose] at chosen
  split_ifs at chosen <;> cases chosen <;> assumption

theorem interval_low_below (grid : Grid) (exponent : Int) (positive : 0 < significand) :
    ((grid.interval significand exponent).low : ℚ) ≤ 4 * significand - 1 := by
  have bound : (grid.interval significand exponent).low + 1 ≤ 4 * significand := by
    simp only [Grid.interval]
    split <;> omega
  have cast : ((grid.interval significand exponent).low : ℚ) + 1 ≤ 4 * significand := by exact_mod_cast bound
  linarith

theorem four_quarters : (2 : ℚ) ^ exponent = 4 * 2 ^ (exponent - 2) := by
  rw [zpow_sub₀ two_ne_zero]
  norm_num
  ring

theorem below_bounds (grid : Grid) (significand : Nat) (exponent place : Int) :
    ((grid.interval significand exponent).below place : ℚ) * 10 ^ place ≤ significand * 2 ^ exponent ∧
      (significand : ℚ) * 2 ^ exponent < ((grid.interval significand exponent).below place + 1) * 10 ^ place := by
  set interval := grid.interval significand exponent with isInterval
  have tens : 0 < tenTo place.toNat * interval.denominator := Nat.mul_pos (ten_to_pos _) denominator_pos
  have tensRational : (0 : ℚ) < (tenTo place.toNat * interval.denominator : Nat) := by exact_mod_cast tens
  have unit : (0 : ℚ) < 10 ^ place := by positivity
  have ratio : ((interval.middle * interval.unit place : Nat) : ℚ) / (tenTo place.toNat * interval.denominator : Nat) =
      significand * 2 ^ exponent / 10 ^ place := by
    rw [four_quarters, ← quarter_ratio grid significand, ← ten_to_split, Interval.unit]
    simp only [isInterval, Grid.interval]
    push_cast
    field_simp
  constructor
  · rw [← le_div_iff₀ unit, ← ratio, le_div_iff₀ tensRational]
    have product := Nat.div_mul_le_self (interval.middle * interval.unit place)
      (tenTo place.toNat * interval.denominator)
    exact_mod_cast product
  · rw [← div_lt_iff₀ unit, ← ratio, div_lt_iff₀ tensRational]
    have product := (Nat.div_lt_iff_lt_mul tens).mp
      (Nat.lt_add_one (interval.middle * interval.unit place / (tenTo place.toNat * interval.denominator)))
    exact_mod_cast product

theorem below_near (positive : 0 < significand) {place : Int} (fine : (10 : ℚ) ^ place ≤ 2 ^ (exponent - 2)) :
    grid.Near significand exponent
      (Decimal.amount ⟨(grid.interval significand exponent).below place, place⟩) := by
  obtain ⟨least, most⟩ := below_bounds grid significand exponent place
  have quarter : (0 : ℚ) < 2 ^ (exponent - 2) := by positivity
  have low := interval_low_below grid exponent positive
  have inside : ((grid.interval significand exponent).low : ℚ) <
        Decimal.amount ⟨(grid.interval significand exponent).below place, place⟩ / 2 ^ (exponent - 2) ∧
      Decimal.amount ⟨(grid.interval significand exponent).below place, place⟩ / 2 ^ (exponent - 2) <
        (grid.interval significand exponent).high := by
    constructor
    · rw [lt_div_iff₀ quarter, Decimal.amount]
      have scaled := mul_le_mul_of_nonneg_right low quarter.le
      rw [four_quarters] at most
      linarith
    · rw [div_lt_iff₀ quarter, interval_high, Decimal.amount]
      rw [four_quarters] at least
      linarith
  exact ⟨inside.1.le, inside.2.le, fun _ => inside⟩

theorem search_near (positive : 0 < significand) (fuel : Nat) (place : Int)
    (fine : (10 : ℚ) ^ (place - fuel) ≤ 2 ^ (exponent - 2)) :
    grid.Near significand exponent ((grid.interval significand exponent).search fuel place).amount := by
  induction fuel generalizing place with
  | zero => exact below_near positive (by simpa using fine)
  | succ fuel ih =>
      have finer : (10 : ℚ) ^ (place - 1 - fuel) ≤ 2 ^ (exponent - 2) := by
        convert fine using 2
        push_cast
        ring
      simp only [Interval.search]
      cases chosen : (grid.interval significand exponent).choose
          ⟨(grid.interval significand exponent).below place, place⟩
          ⟨(grid.interval significand exponent).below place + 1, place⟩ with
      | none => exact ih (place - 1) finer
      | some decimal => exact choose_near chosen

theorem decimal_length_low {n : Nat} (positive : 0 < n) : 10 ^ (decimalLength n - 1) ≤ n := by
  by_contra less
  have bound : 0 < decimalLength n - 1 := by
    by_contra nothing
    obtain none : decimalLength n - 1 = 0 := by omega
    rw [none] at less
    omega
  have short := (Nat.length_toDigits_le_iff (by decide : 1 < 10) bound).mpr (Nat.lt_of_not_le less)
  unfold decimalLength at *
  omega

theorem decimal_length_high (n : Nat) : n < 10 ^ decimalLength n :=
  (Nat.length_toDigits_le_iff (by decide : 1 < 10) Nat.length_toDigits_pos).mp (Nat.le_refl _)

theorem decimal_exponent_low {numerator denominator : Nat} (someNumerator : 0 < numerator)
    (someDenominator : 0 < denominator) :
    (10 : ℚ) ^ decimalExponent numerator denominator ≤ (numerator : ℚ) / denominator := by
  have below : (0 : ℚ) < denominator := by exact_mod_cast someDenominator
  by_cases atLeast : denominator ≤ numerator
  · rw [decimalExponent, if_pos atLeast]
    have whole : 0 < numerator / denominator := Nat.div_pos atLeast someDenominator
    have low := decimal_length_low whole
    have cast : (10 : ℚ) ^ (decimalLength (numerator / denominator) - 1) ≤ (numerator / denominator : Nat) := by
      exact_mod_cast low
    have length : 0 < decimalLength (numerator / denominator) := Nat.length_toDigits_pos
    rw [← Nat.cast_pred length, zpow_natCast]
    exact le_trans cast Nat.cast_div_le
  · rw [decimalExponent, if_neg atLeast]
    have high := decimal_length_high ((denominator - 1) / numerator)
    rw [Nat.div_lt_iff_lt_mul someNumerator] at high
    have product : denominator ≤ 10 ^ decimalLength ((denominator - 1) / numerator) * numerator := by omega
    have cast : (denominator : ℚ) ≤ 10 ^ decimalLength ((denominator - 1) / numerator) * numerator := by
      exact_mod_cast product
    rw [zpow_neg, zpow_natCast, inv_eq_one_div, div_le_div_iff₀ (by positivity) below]
    linarith

theorem strip_zeros_amount (digits : Nat) (exponent : Int) :
    (stripZeros digits exponent).amount = digits * 10 ^ exponent := by
  fun_induction stripZeros digits exponent with
  | case1 digits exponent ends ih =>
      have product : (digits : ℚ) = (digits / 10 : Nat) * 10 := by
        have exact : digits = digits / 10 * 10 := by omega
        exact_mod_cast exact
      rw [ih, zpow_add_one₀ (by norm_num), product]
      ring
  | case2 digits exponent ends => rfl

theorem shortest_near (exponent : Int) (positive : 0 < significand) (short : significand < twoTo grid.precision) :
    grid.Near significand exponent (grid.shortest significand exponent).amount := by
  set interval := grid.interval significand exponent with isInterval
  set first := decimalExponent (interval.middle * interval.numerator) interval.denominator with isFirst
  have quarter : (0 : ℚ) < 2 ^ (exponent - 2) := by positivity
  have ten : (10 : ℚ) ≠ 0 := by norm_num
  have someNumerator : 0 < interval.middle * interval.numerator :=
    Nat.mul_pos (Nat.mul_pos (by decide) positive) (two_to_pos _)
  have middle : ((interval.middle * interval.numerator : Nat) : ℚ) / interval.denominator =
      4 * significand * 2 ^ (exponent - 2) := by
    rw [← quarter_ratio grid significand, Nat.cast_mul, mul_div_assoc]
    simp [isInterval, Grid.interval]
  have bits : (4 : ℚ) * significand ≤ 10 ^ (grid.precision + 2) := by
    have cast : (significand : ℚ) ≤ 2 ^ grid.precision := by
      have bound : significand ≤ 2 ^ grid.precision := short.le
      exact_mod_cast bound
    calc (4 : ℚ) * significand ≤ 4 * 2 ^ grid.precision := mul_le_mul_of_nonneg_left cast (by norm_num)
      _ = 2 ^ (grid.precision + 2) := by ring
      _ ≤ 10 ^ (grid.precision + 2) := pow_le_pow_left₀ (by norm_num) (by norm_num) _
  have fine : (10 : ℚ) ^ (first - (grid.precision + 2 : Nat)) ≤ 2 ^ (exponent - 2) := by
    have someDenominator : 0 < interval.denominator := denominator_pos
    have low := decimal_exponent_low someNumerator someDenominator
    rw [middle] at low
    rw [zpow_sub₀ ten, zpow_natCast, div_le_iff₀ (by positivity)]
    calc (10 : ℚ) ^ first ≤ 4 * significand * 2 ^ (exponent - 2) := low
      _ ≤ 10 ^ (grid.precision + 2) * 2 ^ (exponent - 2) := mul_le_mul_of_nonneg_right bits quarter.le
      _ = 2 ^ (exponent - 2) * 10 ^ (grid.precision + 2) := mul_comm _ _
  rw [Grid.shortest, strip_zeros_amount]
  exact search_near positive (grid.precision + 2) first fine

end Reckon.Number
