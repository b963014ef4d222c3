import Reckon.Number.Text
import Reckon.Proofs.Number.ReadBack

set_option autoImplicit false

namespace Reckon.Number

structure Decimal.Points (decimal : Decimal) (whole fraction : List Char) : Prop where
  wholeDigits : ∀ c ∈ whole, c.isDigit = true
  fractionDigits : ∀ c ∈ fraction, c.isDigit = true
  someWhole : whole ≠ []
  someFraction : fraction ≠ []
  same : Decimal.amount ⟨digitsValue (whole ++ fraction), -(fraction.length : Int)⟩ = decimal.amount

theorem digits_value_zeros (count : Nat) : digitsValue (zeros count) = 0 := by
  rw [digitsValue, zeros, Nat.ofDigitChars_replicate_zero, Nat.mul_zero]

theorem digits_value_zero : digitsValue ['0'] = 0 := by decide

theorem digits_value_to_digits (n : Nat) : digitsValue (Nat.toDigits 10 n) = n := Nat.ofDigitChars_ten_toDigits

theorem zeros_digits (count : Nat) : ∀ c ∈ zeros count, c.isDigit = true := by
  intro c member
  rw [List.eq_of_mem_replicate member]
  rfl

theorem to_digits_digits (n : Nat) : ∀ c ∈ Nat.toDigits 10 n, c.isDigit = true :=
  fun _ member => Nat.isDigit_of_mem_toDigits (by decide) (by decide) member

theorem points_of_digits {decimal : Decimal} {whole fraction : List Char}
    (allDigits : ∀ c ∈ whole ++ fraction, c.isDigit = true) (someWhole : whole ≠ [])
    (value : digitsValue (whole ++ fraction) = decimal.digits) (negative : decimal.exponent < 0)
    (length : (fraction.length : Int) = -decimal.exponent) : decimal.Points whole fraction := by
  obtain ⟨wholeDigits, fractionDigits⟩ := List.forall_mem_append.mp allDigits
  refine ⟨wholeDigits, fractionDigits, someWhole, ?_, ?_⟩
  · apply List.ne_nil_of_length_pos
    omega
  · rw [value, length, neg_neg]

theorem positional_points (decimal : Decimal) :
    ∃ whole fraction, positional decimal = whole ++ '.' :: fraction ∧ decimal.Points whole fraction := by
  have digits := to_digits_digits decimal.digits
  have someDigits : Nat.toDigits 10 decimal.digits ≠ [] := Nat.toDigits_ne_nil
  have value := digits_value_to_digits decimal.digits
  by_cases whole : 0 ≤ decimal.exponent
  · refine ⟨Nat.toDigits 10 decimal.digits ++ zeros decimal.exponent.toNat, ['0'], if_pos whole, ?_, ?_, ?_, ?_, ?_⟩
    · exact List.forall_mem_append.mpr ⟨digits, zeros_digits _⟩
    · exact zeros_digits 1
    · simp [someDigits]
    · decide
    · have scaled : digitsValue (Nat.toDigits 10 decimal.digits ++ zeros decimal.exponent.toNat ++ ['0']) =
          decimal.digits * 10 ^ decimal.exponent.toNat * 10 := by
        rw [digits_value_append, digits_value_append, value, digits_value_zeros, digits_value_zero]
        simp [zeros]
      have power : (10 : ℚ) ^ decimal.exponent = 10 ^ decimal.exponent.toNat := by
        rw [← zpow_natCast, Int.toNat_of_nonneg whole]
      rw [Decimal.amount, scaled, Decimal.amount, power]
      push_cast
      simp
  · by_cases inside : 0 < (Nat.toDigits 10 decimal.digits).length + decimal.exponent
    · refine ⟨_, _, (if_neg whole).trans (if_pos inside), points_of_digits ?_ ?_ ?_ (by omega) ?_⟩
      · rw [List.take_append_drop]
        exact digits
      · apply List.ne_nil_of_length_pos
        rw [List.length_take]
        omega
      · rw [List.take_append_drop, value]
      · rw [List.length_drop]
        omega
    · refine ⟨['0'], zeros (-((Nat.toDigits 10 decimal.digits).length + decimal.exponent)).toNat ++
        Nat.toDigits 10 decimal.digits, (if_neg whole).trans (if_neg inside),
        points_of_digits ?_ (by decide) ?_ (by omega) ?_⟩
      · exact List.forall_mem_append.mpr ⟨zeros_digits 1, List.forall_mem_append.mpr ⟨zeros_digits _, digits⟩⟩
      · rw [digits_value_append, digits_value_append, digits_value_zeros, digits_value_zero, value]
        simp
      · rw [List.length_append, zeros, List.length_replicate]
        omega

theorem drop_point_zero_whole (whole : List Char) : dropPointZero (whole ++ ['.', '0']) = whole := by
  simp [dropPointZero]

theorem drop_point_zero_other (whole fraction : List Char) (fractionDigits : ∀ c ∈ fraction, c.isDigit = true)
    (someFraction : fraction ≠ []) (other : fraction ≠ ['0']) :
    dropPointZero (whole ++ '.' :: fraction) = whole ++ '.' :: fraction := by
  unfold dropPointZero
  split
  · rename_i rest ends
    rw [List.reverse_append, List.reverse_cons, List.append_assoc] at ends
    -- The last character but one is a digit, or else the fraction is one digit other than zero.
    cases backwards : fraction.reverse with
    | nil => exact absurd (List.reverse_eq_nil_iff.mp backwards) someFraction
    | cons last before =>
        rw [backwards, List.cons_append, List.cons.injEq] at ends
        cases before with
        | nil =>
            rw [List.reverse_eq_iff, ends.1] at backwards
            exact absurd backwards other
        | cons digit before =>
            have isDigit := fractionDigits digit (List.mem_reverse.mp (by rw [backwards]; simp))
            rw [List.cons_append, List.cons.injEq] at ends
            rw [ends.2.1] at isDigit
            cases isDigit
  · rfl

structure ReadsAs (run : List Char) (amount : ℚ) : Prop where
  someChars : run ≠ []
  numeric : ∀ c ∈ run, isNumberChar c = true
  read : ∃ decimal : Decimal, decimal.amount = amount ∧
    readNumeral run = some (.decimal false decimal.digits decimal.exponent)

variable {decimal : Decimal}

theorem points_read {whole fraction : List Char} (points : decimal.Points whole fraction) :
    ReadsAs (whole ++ '.' :: fraction) decimal.amount := by
  refine ⟨by simp, point_is_numeric points.wholeDigits points.fractionDigits, _, points.same, ?_⟩
  exact read_point points.wholeDigits points.fractionDigits points.someWhole

theorem whole_read {whole : List Char} (points : decimal.Points whole ['0']) : ReadsAs whole decimal.amount := by
  refine ⟨points.someWhole, digits_are_numbers whole points.wholeDigits, ⟨digitsValue whole, 0⟩, ?_, ?_⟩
  · rw [← points.same, digits_value_append, digits_value_zero]
    simp [Decimal.amount]
  · exact read_whole points.wholeDigits points.someWhole

theorem brief_positional (negative : Bool) (decimal : Decimal) :
    ∃ run, dropPointZero (signed negative (positional decimal)) = signed negative run ∧
      ReadsAs run decimal.amount := by
  obtain ⟨whole, fraction, text, points⟩ := positional_points decimal
  have front : signed negative (positional decimal) = signed negative whole ++ '.' :: fraction := by
    rw [text]
    cases negative <;> rfl
  by_cases zero : fraction = ['0']
  · subst zero
    exact ⟨whole, by rw [front, drop_point_zero_whole], whole_read points⟩
  · refine ⟨whole ++ '.' :: fraction, ?_, points_read points⟩
    rw [front, drop_point_zero_other _ fraction points.fractionDigits points.someFraction zero, ← front, text]

end Reckon.Number
