import Reckon.Number.Format
import Reckon.Proofs.Token.Spelling

set_option autoImplicit false

namespace Reckon

open Number

def Legible (chars : List Char) : Prop := (∃ c ∈ chars, c.isDigit = true) ∧ chars.count '.' ≤ 1

instance (chars : List Char) : Decidable (Legible chars) :=
  decidable_of_iff (chars.any Char.isDigit = true ∧ chars.count '.' ≤ 1) (by rw [List.any_eq_true, Legible])

theorem number_char_passes (test : Char → Bool) (passes : alphabet.all (fun c => !isNumberChar c || test c) = true)
    (c : Char) (number : isNumberChar c = true) : test c = true := by
  have known := (alphabet_classes c).mpr (.inl number)
  have found := List.all_eq_true.mp passes c known
  simpa [number] using found

theorem number_char_not_blank (c : Char) (number : isNumberChar c = true) : Text.blank c = false := by
  have passed := number_char_passes (fun c => !Text.blank c) (by decide) c number
  simpa using passed

theorem number_char_plain (c : Char) (number : isNumberChar c = true) : Text.plainDigit c = c := by
  have passed := number_char_passes (fun c => Text.plainDigit c == c) (by decide) c number
  simpa using passed

theorem number_char_lower (c : Char) (number : isNumberChar c = true) : c.toLower = c := by
  have passed := number_char_passes (fun c => c.toLower == c) (by decide) c number
  simpa using passed

theorem number_char_differs (c other : Char) (number : isNumberChar c = true)
    (foreign : isNumberChar other = false) : c ≠ other := by
  rintro rfl
  rw [number] at foreign
  cases foreign

theorem number_char_digit_or_dot (c : Char) (number : isNumberChar c = true) (noDigit : c.isDigit = false) :
    c = '.' := by
  simpa [isNumberChar, noDigit] using number

variable {chars : List Char}

theorem no_underscores (afterDigit : Bool) (numbers : ∀ c ∈ chars, isNumberChar c = true) :
    dropUnderscores afterDigit false chars = some chars := by
  induction chars generalizing afterDigit with
  | nil => rfl
  | cons c rest ih =>
      have noUnderscore := number_char_differs c '_' (numbers c List.mem_cons_self) rfl
      have tail := ih c.isDigit fun d member => numbers d (List.mem_cons_of_mem _ member)
      simp [dropUnderscores, noUnderscore, tail]

theorem starts_otherwise (numbers : ∀ c ∈ chars, isNumberChar c = true) (other : Char)
    (foreign : isNumberChar other = false) (rest : List Char) : chars ≠ other :: rest := by
  rintro rfl
  exact number_char_differs other other (numbers other List.mem_cons_self) foreign rfl

theorem no_sign (numbers : ∀ c ∈ chars, isNumberChar c = true) : takeSign chars = (false, chars) := by
  unfold takeSign
  split
  · exact absurd rfl (starts_otherwise numbers '-' rfl _)
  · exact absurd rfl (starts_otherwise numbers '+' rfl _)
  · rfl

theorem map_same {f : Char → Char} (same : ∀ c ∈ chars, f c = c) : chars.map f = chars := by
  rw [List.map_congr_left same, List.map_id']

theorem no_name (numbers : ∀ c ∈ chars, isNumberChar c = true) (negative : Bool) :
    readUnsigned negative chars = readDecimal negative chars := by
  have lower : chars.map Char.toLower = chars :=
    map_same fun c member => number_char_lower c (numbers c member)
  simp only [readUnsigned, lower, starts_otherwise numbers 'n' rfl, starts_otherwise numbers 'i' rfl, if_false,
    or_self]

theorem read_run_decimal (numbers : ∀ c ∈ chars, isNumberChar c = true) :
    readNumeral chars = readDecimal false chars := by
  have trimmed : Text.trim chars = chars :=
    Text.trim_without_blanks chars fun c member => number_char_not_blank c (numbers c member)
  have plain : chars.map Text.plainDigit = chars :=
    map_same fun c member => number_char_plain c (numbers c member)
  simp only [readNumeral, trimmed, plain, no_underscores false numbers, no_sign numbers, no_name numbers]

theorem take_digits_append (digits rest : List Char) (all : ∀ c ∈ digits, c.isDigit = true)
    (ends : ∀ c ∈ rest.head?, c.isDigit = false) : takeDigits (digits ++ rest) = (digits, rest) := by
  rw [takeDigits, List.takeWhile_append_of_pos all, List.dropWhile_append_of_pos all]
  cases rest with
  | nil => simp
  | cons c rest => simp [ends c rfl]

theorem digits_split (chars : List Char) : ∃ digits rest, chars = digits ++ rest ∧
    (∀ c ∈ digits, c.isDigit = true) ∧ ∀ c ∈ rest.head?, c.isDigit = false := by
  refine ⟨chars.takeWhile Char.isDigit, chars.dropWhile Char.isDigit, ?_, ?_, ?_⟩
  · exact List.takeWhile_append_dropWhile.symm
  · exact fun c member => List.mem_takeWhile_imp member
  · intro c head
    have stopped := List.head?_dropWhile_not Char.isDigit chars
    rw [Option.mem_def.mp head] at stopped
    simpa using stopped

theorem digits_without_dot (digits : List Char) (all : ∀ c ∈ digits, c.isDigit = true) : digits.count '.' = 0 := by
  refine List.count_eq_zero.mpr fun member => ?_
  have digit := all '.' member
  revert digit
  decide

theorem read_decimal_whole (digits : List Char) (all : ∀ c ∈ digits, c.isDigit = true) :
    readDecimal false digits ≠ none ↔ Legible digits := by
  have taken := take_digits_append digits [] all nofun
  rw [List.append_nil] at taken
  have dots := digits_without_dot digits all
  simp only [readDecimal, taken, takeFraction, readExponent, Legible, dots]
  cases digits with
  | nil => simp
  | cons c rest => simp [all c List.mem_cons_self]

-- After the first dot and the digits behind it, only a second dot can come, and a numeral has none.
theorem read_decimal_point (whole fraction rest : List Char) (wholeDigits : ∀ c ∈ whole, c.isDigit = true)
    (fractionDigits : ∀ c ∈ fraction, c.isDigit = true) (ends : ∀ c ∈ rest.head?, c = '.') :
    readDecimal false (whole ++ '.' :: (fraction ++ rest)) ≠ none ↔
      Legible (whole ++ '.' :: (fraction ++ rest)) := by
  have first := take_digits_append whole ('.' :: (fraction ++ rest)) wholeDigits (by rintro c ⟨rfl⟩; rfl)
  have second := take_digits_append fraction rest fractionDigits fun c head => by rw [ends c head]; rfl
  have dots : (whole ++ '.' :: (fraction ++ rest)).count '.' = 1 + rest.count '.' := by
    simp [digits_without_dot whole wholeDigits, digits_without_dot fraction fractionDigits, Nat.add_comm]
  simp only [readDecimal, first, takeFraction, second, Legible, dots]
  cases rest with
  | nil =>
      have digit : (∃ c ∈ whole ++ '.' :: (fraction ++ []), c.isDigit = true) ↔ ¬ (whole = [] ∧ fraction = []) := by
        cases whole <;> cases fraction <;> simp_all
      rw [digit]
      cases whole <;> cases fraction <;> simp [readExponent]
  | cons c rest =>
      obtain rfl := ends c rfl
      simp [readExponent]

theorem read_run_iff (numbers : ∀ c ∈ chars, isNumberChar c = true) :
    readNumeral chars ≠ none ↔ Legible chars := by
  rw [read_run_decimal numbers]
  obtain ⟨whole, rest, rfl, wholeDigits, ends⟩ := digits_split chars
  have dot (c : Char) (part : List Char) (within : ∀ d ∈ part, d ∈ whole ++ rest)
      (ends : ∀ d ∈ part.head?, d.isDigit = false) (head : c ∈ part.head?) : c = '.' := by
    refine number_char_digit_or_dot c (numbers c (within c ?_)) (ends c head)
    exact List.mem_of_head? head
  cases rest with
  | nil =>
      rw [List.append_nil]
      exact read_decimal_whole whole wholeDigits
  | cons c rest =>
      obtain rfl := dot c (c :: rest) (fun d member => List.mem_append_right whole member) ends rfl
      obtain ⟨fraction, tail, rfl, fractionDigits, tailEnds⟩ := digits_split rest
      refine read_decimal_point whole fraction tail wholeDigits fractionDigits fun d head => ?_
      exact dot d tail (fun e member => by simp [member]) tailEnds head

theorem number_char_bare (c : Char) (number : isNumberChar c = true) :
    (c = ' ' || '\t' ≤ c && c ≤ '\r') = false := by
  have passed := number_char_passes (fun c => !(c = ' ' || '\t' ≤ c && c ≤ '\r')) (by decide) c number
  exact (Bool.not_eq_true' _).mp passed

theorem read_run_long (numbers : ∀ c ∈ chars, isNumberChar c = true) : readLongNumeral chars = readNumeral chars := by
  have whole : chars.takeWhile (· ≠ '\x00') = chars := by
    refine List.takeWhile_eq_self_iff.mpr fun c member => ?_
    exact decide_eq_true (number_char_differs c '\x00' (numbers c member) rfl)
  have bare : chars.dropWhile (fun c => c = ' ' || '\t' ≤ c && c ≤ '\r') = chars :=
    Text.drop_while_none fun c member => number_char_bare c (numbers c member)
  have lower : chars.map Char.toLower = chars :=
    map_same fun c member => number_char_lower c (numbers c member)
  rw [read_run_decimal numbers, ← no_name numbers]
  simp only [readLongNumeral, whole, bare, no_sign numbers, readUnsignedLong, lower]
  split
  · exact absurd (numbers 'x' (by simp)) (by decide)
  · exact absurd rfl (starts_otherwise numbers 'n' rfl _)
  · rfl

theorem read_legible_iff (format : Format) (numbers : ∀ c ∈ chars, isNumberChar c = true) :
    format.read chars = none ↔ ¬ Legible chars := by
  have same : format.numeral chars = readNumeral chars := by
    cases format with
    | extended => exact read_run_long numbers
    | _ => rfl
  rw [← read_run_iff numbers, Format.read, same, Option.map_eq_none_iff, ne_eq, Decidable.not_not]

end Reckon
