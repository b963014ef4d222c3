import Reckon.Proofs.Number.Positional

set_option autoImplicit false

namespace Reckon.Number

def Value.Plain : Value → Prop
  | .nan => False
  | .infinite _ => False
  | .finite _ significand exponent =>
      significand = 0 ∨
        1 / 10 ^ 4 ≤ (significand : ℚ) * 2 ^ exponent ∧ (significand : ℚ) * 2 ^ exponent < 10 ^ 16

variable {significand : Nat} {exponent : Int}

theorem power_above_lowest {lowest : Int} (above : lowest ≤ exponent) :
    (2 : ℚ) ^ exponent = twoTo (exponent - lowest).toNat * 2 ^ lowest := by
  rw [two_to_power, ← zpow_add₀ two_ne_zero]
  congr 1
  omega

theorem reaches_iff (negative : Bool) (other : Nat) (otherExponent : Int) :
    reaches significand exponent (.finite negative other otherExponent) = true ↔
      (other : ℚ) * 2 ^ otherExponent ≤ significand * 2 ^ exponent := by
  have unit : (0 : ℚ) < 2 ^ min exponent otherExponent := by positivity
  rw [reaches, decide_eq_true_eq, power_above_lowest (min_le_left exponent otherExponent),
    power_above_lowest (min_le_right exponent otherExponent), ← mul_assoc, ← mul_assoc,
    mul_le_mul_iff_left₀ unit]
  norm_cast

theorem below_limit_iff (digits : Nat) :
    significand * twoTo exponent.toNat < tenTo digits * twoTo (-exponent).toNat ↔
      (significand : ℚ) * 2 ^ exponent < 10 ^ digits := by
  have unit : (0 : ℚ) < twoTo (-exponent).toNat := by exact_mod_cast two_to_pos _
  have tens : (tenTo digits : ℚ) = 10 ^ digits := by simp [tenTo]
  rw [← two_to_split, ← mul_div_assoc, div_lt_iff₀ unit, ← tens]
  norm_cast

-- The limit in force is the least value of the double format that is not below `1e-4`.
theorem double_limit : Format.double.positionalStart = .finite false 7378697629483821 (-66) := rfl

theorem at_least_limit_iff (short : significand < twoTo 53) :
    (7378697629483821 : ℚ) * 2 ^ (-66 : Int) ≤ significand * 2 ^ exponent ↔
      1 / 10 ^ 4 ≤ (significand : ℚ) * 2 ^ exponent := by
  constructor
  · intro atLeast
    refine le_trans ?_ atLeast
    norm_num
  · intro atLeast
    have coarse : -66 ≤ exponent := by
      by_contra fine
      have bound : (significand : ℚ) ≤ 2 ^ 53 := by exact_mod_cast short.le
      have power : (2 : ℚ) ^ exponent ≤ 2 ^ (-67 : Int) := zpow_le_zpow_right₀ one_le_two (by omega)
      have product : (significand : ℚ) * 2 ^ exponent ≤ 2 ^ 53 * 2 ^ (-67 : Int) :=
        mul_le_mul bound power (by positivity) (by positivity)
      norm_num at product atLeast
      linarith
    rw [power_above_lowest coarse, ← mul_assoc] at atLeast ⊢
    have unit : (0 : ℚ) < 2 ^ (-66 : Int) := by positivity
    rw [mul_le_mul_iff_left₀ unit]
    rw [← div_le_iff₀ unit] at atLeast
    have least : 7378697629483820 < significand * twoTo (exponent - -66).toNat := by
      have cast : (7378697629483820 : ℚ) < significand * twoTo (exponent - -66).toNat := by
        refine lt_of_lt_of_le ?_ atLeast
        norm_num
      exact_mod_cast cast
    exact_mod_cast least

theorem double_positional_iff (short : significand < twoTo 53) :
    Format.double.isPositional significand exponent = true ↔
      1 / 10 ^ 4 ≤ (significand : ℚ) * 2 ^ exponent ∧ (significand : ℚ) * 2 ^ exponent < 10 ^ 16 := by
  rw [Format.isPositional, Bool.and_eq_true, double_limit, reaches_iff, decide_eq_true_eq, below_limit_iff]
  exact and_congr (at_least_limit_iff short) Iff.rfl

variable {value : Value}

theorem plain_read_back (held : Format.double.grid.Holds value) (plain : value.Plain) :
    ∃ negative run magnitude, dropPointZero (Format.double.chars value) = signed negative run ∧ run ≠ [] ∧
      (∀ c ∈ run, isNumberChar c = true) ∧ Format.double.read run = some magnitude ∧
      value = if negative then magnitude.negate else magnitude := by
  cases value with
  | nan => exact plain.elim
  | infinite negative => exact plain.elim
  | finite negative significand exponent =>
      have signs : Value.finite negative significand exponent =
          if negative then (Value.finite false significand exponent).negate
          else .finite false significand exponent := by
        cases negative <;> rfl
      rcases Nat.eq_zero_or_pos significand with zero | positive
      · subst zero
        obtain ⟨-, -, -, lowest | full⟩ := held
        · refine ⟨negative, ['0'], .finite false 0 exponent, ?_, by decide, List.all_eq_true.mp rfl, ?_, signs⟩
          · cases negative <;> rfl
          · rw [lowest]
            rfl
        · exact absurd full (Nat.not_le.mpr (two_to_pos _))
      · have sized : 1 / 10 ^ 4 ≤ (significand : ℚ) * 2 ^ exponent ∧ (significand : ℚ) * 2 ^ exponent < 10 ^ 16 :=
          plain.resolve_left (Nat.pos_iff_ne_zero.mp positive)
        have pointed := (double_positional_iff held.1).mpr sized
        have magnitude : Format.double.magnitude significand exponent =
            positional (Format.double.grid.shortest significand exponent) := by
          simp only [Format.magnitude, if_neg (Nat.pos_iff_ne_zero.mp positive), if_pos pointed]
        obtain ⟨run, text, someChars, numeric, decimal, same, read⟩ :=
          brief_positional negative (Format.double.grid.shortest significand exponent)
        have near := shortest_near exponent positive held.1
        rw [← same] at near
        have rounded := round_decimal_near false (format_grid_in_reach .double) held positive near
        refine ⟨negative, run, .finite false significand exponent, ?_, someChars, numeric, ?_, signs⟩
        · rw [Format.chars, magnitude, text]
        · rw [Format.read, Format.numeral, read]
          exact congrArg some rounded

def valueChars : List Char := ['.', '-', '+', 'e', 'n', 'a', 'i', 'f']

def Writes (cs : List Char) : Prop := ∀ c ∈ cs, c.isDigit = true ∨ c ∈ valueChars

theorem writes_known (cs : List Char) (known : cs.all (fun c => c.isDigit || c ∈ valueChars) = true) :
    Writes cs := by
  intro c member
  simpa using List.all_eq_true.mp known c member

theorem writes_digits (digits : List Char) (all : ∀ c ∈ digits, c.isDigit = true) : Writes digits :=
  fun c member => .inl (all c member)

theorem writes_append {first second : List Char} (before : Writes first) (after : Writes second) :
    Writes (first ++ second) := List.forall_mem_append.mpr ⟨before, after⟩

theorem writes_cons {c : Char} {rest : List Char} (known : c ∈ valueChars) (after : Writes rest) :
    Writes (c :: rest) := List.forall_mem_cons.mpr ⟨.inr known, after⟩

theorem writes_exponent (exponent : Int) : Writes (exponentText exponent) := by
  have digits : Writes (zeros (2 - (Nat.toDigits 10 exponent.natAbs).length) ++ Nat.toDigits 10 exponent.natAbs) :=
    writes_append (writes_digits _ (zeros_digits _)) (writes_digits _ (to_digits_digits _))
  unfold exponentText
  dsimp only
  split
  · exact writes_cons (by decide) digits
  · exact writes_cons (by decide) digits

theorem writes_scientific (decimal : Decimal) : Writes (scientific decimal) := by
  have digits := to_digits_digits decimal.digits
  have front := writes_digits _ fun c member => digits c (List.mem_of_mem_take (i := 1) member)
  have fraction := writes_digits _ fun c member => digits c (List.mem_of_mem_drop (i := 1) member)
  have power := writes_cons (c := 'e') (by decide) (writes_exponent (decimal.exponent +
    ((Nat.toDigits 10 decimal.digits).drop 1).length))
  unfold scientific
  dsimp only
  split
  · exact writes_append (writes_append front (List.forall_mem_nil _)) power
  · exact writes_append (writes_append front (writes_cons (by decide) fraction)) power

theorem writes_positional (decimal : Decimal) : Writes (positional decimal) := by
  obtain ⟨whole, fraction, text, points⟩ := positional_points decimal
  rw [text]
  exact writes_append (writes_digits whole points.wholeDigits)
    (writes_cons (by decide) (writes_digits fraction points.fractionDigits))

theorem writes_signed (negative : Bool) {cs : List Char} (written : Writes cs) : Writes (signed negative cs) := by
  cases negative with
  | false => exact written
  | true => exact writes_cons (by decide) written

theorem writes_value (format : Format) (value : Value) : Writes (format.chars value) := by
  cases value with
  | nan => exact writes_known ['n', 'a', 'n'] (by decide)
  | infinite negative => exact writes_signed negative (writes_known ['i', 'n', 'f'] (by decide))
  | finite negative significand exponent =>
      apply writes_signed
      unfold Format.magnitude
      dsimp only
      split
      · exact writes_known ['0', '.', '0'] (by decide)
      · split
        · exact writes_positional _
        · exact writes_scientific _

theorem drop_point_zero_cut (cs : List Char) : cs = dropPointZero cs ∨ cs = dropPointZero cs ++ ['.', '0'] := by
  unfold dropPointZero
  split
  · rename_i rest ends
    right
    rw [List.reverse_eq_iff.mp ends]
    simp
  · exact .inl rfl

theorem drop_point_zero_mem {cs : List Char} {c : Char} (member : c ∈ dropPointZero cs) : c ∈ cs := by
  rcases drop_point_zero_cut cs with same | cut
  · exact same ▸ member
  · rw [cut]
    exact List.mem_append_left _ member

theorem drop_point_zero_keeps {cs : List Char} {c : Char} (member : c ∈ cs) (other : c ∉ ['.', '0']) :
    c ∈ dropPointZero cs := by
  rcases drop_point_zero_cut cs with same | cut
  · exact same ▸ member
  · rw [cut] at member
    exact (List.mem_append.mp member).resolve_right other

theorem signed_mem (negative : Bool) {cs : List Char} {c : Char} (member : c ∈ cs) : c ∈ signed negative cs := by
  cases negative with
  | false => exact member
  | true => exact List.mem_cons_of_mem _ member

def letters : List Char := ['n', 'i', 'e']

theorem letters_differ (others : List Char) (differ : letters.all (fun c => c ∉ others) = true) :
    ∀ c ∈ letters, c ∉ others := by
  intro c member
  simpa using List.all_eq_true.mp differ c member

theorem not_plain_letter (held : Format.double.grid.Holds value) (notPlain : ¬ value.Plain) :
    ∃ c ∈ Format.double.chars value, c ∈ letters := by
  cases value with
  | nan => exact ⟨'n', by decide, by decide⟩
  | infinite negative => exact ⟨'i', signed_mem negative (by decide), by decide⟩
  | finite negative significand exponent =>
      refine ⟨'e', signed_mem negative ?_, by decide⟩
      have nonzero : significand ≠ 0 := fun zero => notPlain (.inl zero)
      have notPointed : ¬ Format.double.isPositional significand exponent = true :=
        fun pointed => notPlain (.inr ((double_positional_iff held.1).mp pointed))
      simp [Format.magnitude, nonzero, notPointed, scientific]

theorem not_plain_brief (held : Format.double.grid.Holds value) (notPlain : ¬ value.Plain) :
    ∃ c ∈ dropPointZero (Format.double.chars value), c ∈ letters := by
  obtain ⟨c, member, letter⟩ := not_plain_letter held notPlain
  exact ⟨c, drop_point_zero_keeps member (letters_differ ['.', '0'] rfl c letter), letter⟩

theorem writes_brief (format : Format) (value : Value) : Writes (dropPointZero (format.chars value)) :=
  fun c member => writes_value format value c (drop_point_zero_mem member)

end Reckon.Number
