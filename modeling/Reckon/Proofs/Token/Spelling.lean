import Mathlib.Data.List.Basic
import Mathlib.Data.List.TakeWhile
import Reckon.Token.Scan

set_option autoImplicit false

namespace Reckon

def alphabet : List Char :=
  ['0', '1', '2', '3', '4', '5', '6', '7', '8', '9', '.', '+', '-', '*', '/', '^', '(', ')', ' ', '\t', '\r', '\n']

def Kind.symbol : Kind → Option Char
  | .plus => some '+'
  | .minus => some '-'
  | .star => some '*'
  | .slash => some '/'
  | .caret => some '^'
  | .opening => some '('
  | .closing => some ')'
  | .number => none
  | .finish => none

def sourceEnd (source : List Char) : Nat := source.idxOf '\x00'

def Token.written (token : Token) : Kind × List Char := (token.kind, token.span.chars)

inductive Spells : List Char → List (Kind × List Char) → Prop
  | done : Spells [] []
  | blank {c : Char} {text : List Char} {written : List (Kind × List Char)} (space : isSpace c = true)
      (rest : Spells text written) : Spells (c :: text) written
  | symbol {c : Char} {kind : Kind} {text : List Char} {written : List (Kind × List Char)}
      (known : kindOf c = some kind) (rest : Spells text written) : Spells (c :: text) ((kind, [c]) :: written)
  | number {digits text : List Char} {written : List (Kind × List Char)} (nonempty : digits ≠ [])
      (numbers : ∀ c ∈ digits, isNumberChar c = true) (ends : ∀ c ∈ text.head?, isNumberChar c = false)
      (rest : Spells text written) : Spells (digits ++ text) ((.number, digits) :: written)

theorem source_end_cons (c : Char) (rest : List Char) (notEnd : c ≠ '\x00') :
    sourceEnd (c :: rest) = sourceEnd rest + 1 := List.idxOf_cons_ne rest notEnd

theorem kind_of_iff (c : Char) (kind : Kind) : kindOf c = some kind ↔ kind.symbol = some c := by
  constructor
  · intro known
    unfold kindOf at known
    split at known <;> simp at known <;> subst known <;> rfl
  · intro written
    cases kind <;> simp [Kind.symbol] at written <;> subst written <;> rfl

theorem number_char_alone (c : Char) (number : isNumberChar c = true) :
    c ≠ '\x00' ∧ isSpace c = false ∧ kindOf c = none := by
  refine ⟨?_, ?_, ?_⟩
  · rintro rfl
    simp [isNumberChar] at number
  · by_contra space
    simp only [isSpace, Bool.or_eq_true, decide_eq_true_eq, Bool.not_eq_false] at space
    rcases space with ((rfl | rfl) | rfl) | rfl <;> revert number <;> decide
  · cases known : kindOf c with
    | none => rfl
    | some kind =>
        have written := (kind_of_iff c kind).mp known
        cases kind <;> simp [Kind.symbol] at written <;> subst written <;> revert number <;> decide

theorem space_alone (c : Char) (space : isSpace c = true) : c ≠ '\x00' ∧ isNumberChar c = false := by
  simp only [isSpace, Bool.or_eq_true, decide_eq_true_eq] at space
  rcases space with ((rfl | rfl) | rfl) | rfl <;> decide

theorem symbol_alone (c : Char) (kind : Kind) (known : kindOf c = some kind) :
    c ≠ '\x00' ∧ isNumberChar c = false ∧ isSpace c = false := by
  have written := (kind_of_iff c kind).mp known
  cases kind <;> simp [Kind.symbol] at written <;> subst written <;> decide

theorem alphabet_classes (c : Char) :
    c ∈ alphabet ↔ isNumberChar c = true ∨ isSpace c = true ∨ ∃ kind, kindOf c = some kind := by
  constructor
  · have classes : alphabet.all (fun d => isNumberChar d || (isSpace d || (kindOf d).isSome)) = true := by decide
    intro member
    have found := List.all_eq_true.mp classes c member
    simpa only [Bool.or_eq_true, Option.isSome_iff_exists] using found
  · rintro (number | space | ⟨kind, known⟩)
    · simp only [isNumberChar, Bool.or_eq_true, decide_eq_true_eq] at number
      rcases number with digit | rfl
      · have digits : ∀ value < 10, Char.ofNat (48 + value) ∈ alphabet := by decide
        simp only [Char.isDigit, Bool.and_eq_true, decide_eq_true_eq, ge_iff_le, UInt32.le_iff_toNat_le] at digit
        obtain ⟨low, high⟩ := digit
        change 48 ≤ c.toNat at low
        change c.toNat ≤ 57 at high
        have written := digits (c.toNat - 48) (by omega)
        rwa [Nat.add_sub_cancel' low, Char.ofNat_toNat] at written
      · decide
    · simp only [isSpace, Bool.or_eq_true, decide_eq_true_eq] at space
      rcases space with ((rfl | rfl) | rfl) | rfl <;> decide
    · have written := (kind_of_iff c kind).mp known
      cases kind <;> simp [Kind.symbol] at written <;> subst written <;> decide

theorem spells_known : ∀ text : List Char, (∀ c ∈ text, c ∈ alphabet) → ∃ written, Spells text written
  | [], _ => ⟨[], .done⟩
  | c :: text, known => by
      have tailKnown : ∀ d ∈ text, d ∈ alphabet := fun d member => known d (List.mem_cons_of_mem _ member)
      rcases (alphabet_classes c).mp (known c List.mem_cons_self) with number | space | ⟨kind, symbol⟩
      · have shorter : (text.dropWhile isNumberChar).length ≤ text.length := (List.dropWhile_suffix _).length_le
        have numbers : ∀ d ∈ c :: text.takeWhile isNumberChar, isNumberChar d = true := by
          intro d member
          rcases List.mem_cons.mp member with rfl | member
          · exact number
          · exact List.mem_takeWhile_imp member
        have ends : ∀ d ∈ (text.dropWhile isNumberChar).head?, isNumberChar d = false := by
          intro d head
          have stopped := List.head?_dropWhile_not isNumberChar text
          rw [Option.mem_def.mp head] at stopped
          simpa using stopped
        obtain ⟨written, rest⟩ := spells_known (text.dropWhile isNumberChar) fun d member =>
          tailKnown d ((List.dropWhile_suffix _).mem member)
        have spelled := Spells.number (List.cons_ne_nil _ _) numbers ends rest
        rw [List.cons_append, List.takeWhile_append_dropWhile] at spelled
        exact ⟨_, spelled⟩
      · obtain ⟨written, rest⟩ := spells_known text tailKnown
        exact ⟨written, .blank space rest⟩
      · obtain ⟨written, rest⟩ := spells_known text tailKnown
        exact ⟨_, .symbol symbol rest⟩
termination_by text => text.length
decreasing_by all_goals simp only [List.length_cons]; omega

variable {source : List Char} {run : Option Nat} {position : Nat}

theorem scan_from_number_char (c : Char) (rest : List Char) (number : isNumberChar c = true) :
    scanFrom source run position (c :: rest) = scanFrom source (some (run.getD position)) (position + 1) rest := by
  rw [scanFrom, if_neg (number_char_alone c number).1, if_pos number]

theorem scan_from_space (c : Char) (rest : List Char) (space : isSpace c = true) :
    scanFrom source run position (c :: rest) =
      (scanFrom source none (position + 1) rest).map (runToken source run position ++ ·) := by
  obtain ⟨notEnd, noNumber⟩ := space_alone c space
  rw [scanFrom, if_neg notEnd, if_neg (by simp [noNumber]), if_pos space]

theorem scan_from_symbol (c : Char) (rest : List Char) (kind : Kind) (known : kindOf c = some kind) :
    scanFrom source run position (c :: rest) =
      (scanFrom source none (position + 1) rest).map
        (runToken source run position ++ symbolToken source kind position :: ·) := by
  obtain ⟨notEnd, noNumber, noSpace⟩ := symbol_alone c kind known
  rw [scanFrom, if_neg notEnd, if_neg (by simp [noNumber]), if_neg (by simp [noSpace]), known]

theorem scan_from_invalid (good tail : List Char) (c : Char) (known : ∀ d ∈ good, d ∈ alphabet)
    (unknown : c ∉ alphabet) (notEnd : c ≠ '\x00') :
    scanFrom source run position (good ++ c :: tail) = .error ⟨c, position + good.length⟩ := by
  induction good generalizing run position with
  | nil =>
      have classes := mt (alphabet_classes c).mpr unknown
      simp only [not_or, not_exists] at classes
      obtain ⟨noNumber, noSpace, noSymbol⟩ := classes
      have noKind : kindOf c = none := Option.eq_none_iff_forall_ne_some.mpr noSymbol
      rw [List.nil_append, scanFrom, if_neg notEnd, if_neg noNumber, if_neg noSpace, noKind]
      rfl
  | cons d good ih =>
      have tailKnown : ∀ other ∈ good, other ∈ alphabet :=
        fun other member => known other (List.mem_cons_of_mem _ member)
      have place : position + 1 + good.length = position + (d :: good).length := by
        rw [List.length_cons]
        omega
      rw [List.cons_append]
      rcases (alphabet_classes d).mp (known d List.mem_cons_self) with number | space | ⟨kind, symbol⟩
      · rw [scan_from_number_char d _ number, ih tailKnown, place]
      · rw [scan_from_space d _ space, ih tailKnown, place]
        rfl
      · rw [scan_from_symbol d _ kind symbol, ih tailKnown, place]
        rfl

-- Whatever ends a number, the number comes first and the rest is scanned as if it had not been there.
theorem scan_from_run_ends (start : Nat) (rest : List Char) (ends : ∀ c ∈ rest.head?, isNumberChar c = false) :
    scanFrom source (some start) position rest =
      (scanFrom source none position rest).map (runToken source (some start) position ++ ·) := by
  cases rest with
  | nil => rfl
  | cons c rest =>
      have noNumber : isNumberChar c = false := ends c rfl
      by_cases last : c = '\x00'
      · simp [scanFrom, last, runToken, Except.map]
      · by_cases space : isSpace c = true
        · rw [scan_from_space c rest space, scan_from_space c rest space]
          cases scanFrom source none (position + 1) rest <;> simp [Except.map, runToken]
        · cases known : kindOf c with
          | none => simp [scanFrom, last, noNumber, space, known, Except.map]
          | some kind =>
              rw [scan_from_symbol c rest kind known, scan_from_symbol c rest kind known]
              cases scanFrom source none (position + 1) rest <;> simp [Except.map, runToken]

theorem scan_from_digits (digits rest : List Char) (start : Nat) (numbers : ∀ c ∈ digits, isNumberChar c = true) :
    scanFrom source (some start) position (digits ++ rest) =
      scanFrom source (some start) (position + digits.length) rest := by
  induction digits generalizing position with
  | nil => rfl
  | cons c digits ih =>
      have place : position + 1 + digits.length = position + (c :: digits).length := by
        rw [List.length_cons]
        omega
      rw [List.cons_append, scan_from_number_char c _ (numbers c List.mem_cons_self), Option.getD_some,
        ih fun d member => numbers d (List.mem_cons_of_mem _ member), place]

theorem scan_from_number (digits rest : List Char) (nonempty : digits ≠ [])
    (numbers : ∀ c ∈ digits, isNumberChar c = true) (ends : ∀ c ∈ rest.head?, isNumberChar c = false) :
    scanFrom source none position (digits ++ rest) =
      (scanFrom source none (position + digits.length) rest).map
        (⟨.number, ⟨source, position, (position + digits.length : Nat)⟩⟩ :: ·) := by
  cases digits with
  | nil => exact absurd rfl nonempty
  | cons c digits =>
      have place : position + 1 + digits.length = position + (c :: digits).length := by
        rw [List.length_cons]
        omega
      rw [List.cons_append, scan_from_number_char c _ (numbers c List.mem_cons_self), Option.getD_none,
        scan_from_digits digits rest position fun d member => numbers d (List.mem_cons_of_mem _ member), place,
        scan_from_run_ends position rest ends]
      rfl

theorem scan_from_until_end (rest : List Char) :
    scanFrom source run position (rest.take (sourceEnd rest)) = scanFrom source run position rest := by
  induction rest generalizing run position with
  | nil => rfl
  | cons c rest ih =>
      by_cases last : c = '\x00'
      · subst last
        rfl
      · rw [source_end_cons c rest last, List.take_succ_cons]
        simp only [scanFrom, ih]

def Token.respan (move : Span → Span) (token : Token) : Token := ⟨token.kind, move token.span⟩

def Token.movedTo (source : List Char) (token : Token) : Token :=
  ⟨token.kind, ⟨source, token.span.start, token.span.stop⟩⟩

theorem run_token_moved (source other : List Char) :
    runToken other run position = (runToken source run position).map (Token.movedTo other) := by
  cases run <;> rfl

theorem scan_from_moved (other rest : List Char) :
    scanFrom other run position rest = (scanFrom source run position rest).map (List.map (Token.movedTo other)) := by
  induction rest generalizing run position with
  | nil =>
      rw [scanFrom, scanFrom, run_token_moved source other, Except.map, List.map_append]
      rfl
  | cons c rest ih =>
      have pass (before : List Token) :
          ((scanFrom source none (position + 1) rest).map (List.map (Token.movedTo other))).map
              (before.map (Token.movedTo other) ++ ·) =
            ((scanFrom source none (position + 1) rest).map (before ++ ·)).map (List.map (Token.movedTo other)) := by
        cases scanFrom source none (position + 1) rest <;> simp [Except.map]
      simp only [scanFrom, run_token_moved source other, ih]
      by_cases last : c = '\x00'
      · rw [if_pos last, if_pos last, Except.map, List.map_append]
        rfl
      · rw [if_neg last, if_neg last]
        by_cases number : isNumberChar c = true
        · rw [if_pos number, if_pos number]
        · rw [if_neg number, if_neg number]
          by_cases space : isSpace c = true
          · rw [if_pos space, if_pos space]
            exact pass (runToken source run position)
          · rw [if_neg space, if_neg space]
            cases kindOf c with
            | none => rfl
            | some kind =>
                have passed := pass (runToken source run position ++ [symbolToken source kind position])
                simp only [List.map_append, List.append_assoc] at passed
                exact passed

end Reckon
