import Reckon.Proofs.Number.Literal
import Reckon.Proofs.Number.Shortest

set_option autoImplicit false

namespace Reckon.Number

-- A grid whose values, and the half of the least one, lie between the powers of ten that are not computed.
structure Grid.InReach (grid : Grid) : Prop where
  sound : grid.Sound
  largest : grid.precision + grid.maxExponent ≤ 3 * decimalReach
  least : -(3 * decimalReach) ≤ grid.minExponent - 1

theorem format_grid_in_reach (format : Format) : format.grid.InReach := by
  cases format <;> exact ⟨format_grid_sound _, by decide, by decide⟩

theorem eight_below_ten (power : Nat) : (2 : ℚ) ^ (3 * (power : Int)) ≤ 10 ^ (power : Int) := by
  rw [zpow_mul, zpow_natCast, zpow_natCast]
  exact pow_le_pow_left₀ (by norm_num) (by norm_num) power

variable {grid : Grid} {negative : Bool} {significand : Nat} {exponent : Int} {decimal : Decimal}

theorem near_amount_bounds (reach : grid.InReach) (held : grid.Holds (.finite negative significand exponent))
    (positive : 0 < significand) (near : grid.Near significand exponent decimal.amount) :
    (10 : ℚ) ^ (-(decimalReach : Int)) ≤ decimal.amount ∧ decimal.amount < 10 ^ (decimalReach : Int) := by
  obtain ⟨short, least, most, -⟩ := held
  have unit : (0 : ℚ) < 2 ^ exponent := by positivity
  have high := near_short near positive short
  rw [log_two_lt_iff (near_positive near positive), div_lt_iff₀ unit, ← zpow_add₀ two_ne_zero] at high
  have low := near_low near positive
  rw [le_div_iff₀ unit] at low
  have one : (1 : ℚ) ≤ significand := by exact_mod_cast positive
  have powers := eight_below_ten decimalReach
  constructor
  · calc (10 : ℚ) ^ (-(decimalReach : Int)) ≤ 2 ^ (-(3 * (decimalReach : Int))) := by
          rw [zpow_neg, zpow_neg]
          exact inv_anti₀ (by positivity) powers
      _ ≤ 2 ^ (exponent - 1) := zpow_le_zpow_right₀ one_le_two (by linarith [reach.least])
      _ = 1 / 2 * 2 ^ exponent := by
          rw [zpow_sub_one₀ two_ne_zero]
          ring
      _ ≤ ((significand : ℚ) - 1 / 2) * 2 ^ exponent :=
          mul_le_mul_of_nonneg_right (by linarith) unit.le
      _ ≤ decimal.amount := low
  · calc decimal.amount < 2 ^ ((grid.precision : Int) + exponent) := high
      _ ≤ 2 ^ (3 * (decimalReach : Int)) := zpow_le_zpow_right₀ one_le_two (by linarith [reach.largest])
      _ ≤ 10 ^ (decimalReach : Int) := powers

theorem amount_between (someDigits : 0 < decimal.digits) :
    (10 : ℚ) ^ decimal.exponent ≤ decimal.amount ∧
      decimal.amount < 10 ^ (decimal.exponent + decimal.digits.log2 + 1) := by
  have unit : (0 : ℚ) < 10 ^ decimal.exponent := by positivity
  have ten : (10 : ℚ) ≠ 0 := by norm_num
  constructor
  · have one : (1 : ℚ) ≤ decimal.digits := by exact_mod_cast someDigits
    calc (10 : ℚ) ^ decimal.exponent = 1 * 10 ^ decimal.exponent := (one_mul _).symm
      _ ≤ decimal.digits * 10 ^ decimal.exponent := mul_le_mul_of_nonneg_right one unit.le
  · have short : (decimal.digits : ℚ) < 10 ^ ((decimal.digits.log2 : Int) + 1) :=
      calc (decimal.digits : ℚ) < 2 ^ ((decimal.digits.log2 : Int) + 1) := (length_bounds someDigits).2
        _ ≤ 10 ^ ((decimal.digits.log2 : Int) + 1) := zpow_le_zpow_left₀ (by omega) (by norm_num) (by norm_num)
    calc decimal.digits * (10 : ℚ) ^ decimal.exponent
        < 10 ^ ((decimal.digits.log2 : Int) + 1) * 10 ^ decimal.exponent := mul_lt_mul_of_pos_right short unit
      _ = 10 ^ (decimal.exponent + decimal.digits.log2 + 1) := by
          rw [← zpow_add₀ ten]
          congr 1
          ring

theorem round_decimal_near (negative : Bool) (reach : grid.InReach)
    (held : grid.Holds (.finite negative significand exponent))
    (positive : 0 < significand) (near : grid.Near significand exponent decimal.amount) :
    grid.roundDecimal negative decimal.digits decimal.exponent = .finite negative significand exponent := by
  obtain ⟨low, high⟩ := near_amount_bounds reach held positive near
  have someDigits : 0 < decimal.digits := by
    by_contra nothing
    obtain none : decimal.digits = 0 := by omega
    have small : (0 : ℚ) < 10 ^ (-(decimalReach : Int)) := by positivity
    simp only [Decimal.amount, none, Nat.cast_zero, zero_mul] at low
    linarith
  obtain ⟨least, most⟩ := amount_between someDigits
  have below : decimal.exponent < decimalReach :=
    (zpow_lt_zpow_iff_right₀ (by norm_num : (1 : ℚ) < 10)).mp (lt_of_le_of_lt least high)
  have above : -(decimalReach : Int) < decimal.exponent + decimal.digits.log2 + 1 :=
    (zpow_lt_zpow_iff_right₀ (by norm_num : (1 : ℚ) < 10)).mp (lt_of_le_of_lt low most)
  rw [Grid.roundDecimal, if_neg (by omega), if_neg (by omega), if_neg (by omega)]
  apply round_near reach.sound held positive (ten_to_pos _)
  rwa [Nat.cast_mul, mul_div_assoc, ten_to_split]

section Digits

variable {whole fraction : List Char}

theorem digits_value_append (whole fraction : List Char) :
    digitsValue (whole ++ fraction) = digitsValue whole * 10 ^ fraction.length + digitsValue fraction := by
  rw [digitsValue, Nat.ofDigitChars_append, Nat.ofDigitChars_eq_ofDigitChars_zero, Nat.mul_comm]
  rfl

theorem digits_are_numbers (digits : List Char) (all : ∀ c ∈ digits, c.isDigit = true) :
    ∀ c ∈ digits, isNumberChar c = true := by
  intro c member
  rw [isNumberChar, all c member]
  rfl

theorem point_is_numeric (wholeDigits : ∀ c ∈ whole, c.isDigit = true)
    (fractionDigits : ∀ c ∈ fraction, c.isDigit = true) :
    ∀ c ∈ whole ++ '.' :: fraction, isNumberChar c = true :=
  List.forall_mem_append.mpr ⟨digits_are_numbers whole wholeDigits,
    List.forall_mem_cons.mpr ⟨rfl, digits_are_numbers fraction fractionDigits⟩⟩

theorem read_whole (wholeDigits : ∀ c ∈ whole, c.isDigit = true) (nonempty : whole ≠ []) :
    readNumeral whole = some (.decimal false (digitsValue whole) 0) := by
  have taken := take_digits_append whole [] wholeDigits nofun
  rw [List.append_nil] at taken
  rw [read_run_decimal (digits_are_numbers whole wholeDigits)]
  simp [readDecimal, taken, takeFraction, readExponent, nonempty]

theorem read_point (wholeDigits : ∀ c ∈ whole, c.isDigit = true)
    (fractionDigits : ∀ c ∈ fraction, c.isDigit = true) (nonempty : whole ≠ []) :
    readNumeral (whole ++ '.' :: fraction) =
      some (.decimal false (digitsValue (whole ++ fraction)) (-(fraction.length : Int))) := by
  have first := take_digits_append whole ('.' :: fraction) wholeDigits (by
    intro c head
    cases head
    rfl)
  have second := take_digits_append fraction [] fractionDigits nofun
  rw [List.append_nil] at second
  rw [read_run_decimal (point_is_numeric wholeDigits fractionDigits)]
  simp [readDecimal, first, takeFraction, second, readExponent, nonempty]

end Digits

end Reckon.Number
