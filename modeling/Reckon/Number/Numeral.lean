import Reckon.Number.Rounding

set_option autoImplicit false

namespace Reckon.Text

-- The blanks that may surround a numeral: those of ASCII, without the separators U+001C to U+001F, and the white
-- space of Unicode from U+0080 up.
def blankPoints : List Nat :=
  [0x9, 0xA, 0xB, 0xC, 0xD, 0x20, 0x85, 0xA0, 0x1680, 0x2000, 0x2001, 0x2002, 0x2003, 0x2004, 0x2005,
  0x2006, 0x2007, 0x2008, 0x2009, 0x200A, 0x2028, 0x2029, 0x202F, 0x205F, 0x3000]

def blank (c : Char) : Bool := blankPoints.contains c.toNat

def trim (cs : List Char) : List Char :=
  ((cs.dropWhile blank).reverse.dropWhile blank).reverse

theorem drop_while_none {test : Char → Bool} {cs : List Char} (none : ∀ c ∈ cs, test c = false) :
    cs.dropWhile test = cs := by
  cases cs with
  | nil => rfl
  | cons c rest => exact List.dropWhile_cons_of_neg (by simp [none c List.mem_cons_self])

theorem trim_without_blanks (cs : List Char) (absent : ∀ c ∈ cs, blank c = false) : trim cs = cs := by
  rw [trim, drop_while_none absent, drop_while_none (by simpa using absent), List.reverse_reverse]

-- The zeros of all scripts (Unicode category Nd, version 14), each the first of ten consecutive digits.
def zeroPoints : List Nat :=
  [48, 1632, 1776, 1984, 2406, 2534, 2662, 2790, 2918, 3046, 3174, 3302, 3430, 3558, 3664, 3792, 3872,
  4160, 4240, 6112, 6160, 6470, 6608, 6784, 6800, 6992, 7088, 7232, 7248, 42528, 43216, 43264, 43472,
  43504, 43600, 44016, 65296, 66720, 68912, 69734, 69872, 69942, 70096, 70384, 70736, 70864, 71248,
  71360, 71472, 71904, 72016, 72784, 73040, 73120, 92768, 92864, 93008, 120782, 120792, 120802, 120812,
  120822, 123200, 123632, 125264, 130032]

def digitAfter (point : Nat) : List Nat → Option Nat
  | [] => none
  | first :: rest =>
      if point < first then none
      else if point < first + 10 then some (point - first)
      else digitAfter point rest

def digitValue (c : Char) : Option Nat := digitAfter c.toNat zeroPoints

def plainDigit (c : Char) : Char :=
  match digitValue c with
  | some n => Nat.digitChar n
  | none => c

end Reckon.Text

namespace Reckon.Number

-- A decimal is `digits * 10 ^ exponent` with a sign, and a binary numeral `digits * 2 ^ exponent`.
inductive Numeral where
  | nan
  | infinite (negative : Bool)
  | decimal (negative : Bool) (digits : Nat) (exponent : Int)
  | binary (negative : Bool) (digits : Nat) (exponent : Int)
deriving DecidableEq, Repr

-- One underscore may stand between two digits.
def dropUnderscores (afterDigit afterUnderscore : Bool) : List Char → Option (List Char)
  | [] => if afterUnderscore then none else some []
  | c :: rest =>
      if c = '_' then
        if afterDigit then dropUnderscores false true rest else none
      else if afterUnderscore && !c.isDigit then none
      else (dropUnderscores c.isDigit false rest).map (c :: ·)

def takeSign : List Char → Bool × List Char
  | '-' :: rest => (true, rest)
  | '+' :: rest => (false, rest)
  | cs => (false, cs)

def digitsValue (cs : List Char) : Nat := Nat.ofDigitChars 10 cs 0

def takeDigits (cs : List Char) : List Char × List Char :=
  (cs.takeWhile Char.isDigit, cs.dropWhile Char.isDigit)

def takeFraction : List Char → List Char × List Char
  | '.' :: rest => takeDigits rest
  | cs => ([], cs)

def readExponent : List Char → Option Int
  | [] => some 0
  | mark :: rest =>
      if mark = 'e' ∨ mark = 'E' then
        let signed := takeSign rest
        if signed.2.isEmpty || !signed.2.all Char.isDigit then none
        else if signed.1 then some (-(digitsValue signed.2 : Int))
        else some (digitsValue signed.2 : Int)
      else none

def readDecimal (negative : Bool) (cs : List Char) : Option Numeral :=
  let whole := takeDigits cs
  let fraction := takeFraction whole.2
  if whole.1.isEmpty && fraction.1.isEmpty then none
  else
    match readExponent fraction.2 with
    | none => none
    | some exponent =>
        some (.decimal negative (digitsValue (whole.1 ++ fraction.1)) (exponent - fraction.1.length))

def readUnsigned (negative : Bool) (cs : List Char) : Option Numeral :=
  let lower := cs.map Char.toLower
  if lower = ['n', 'a', 'n'] then some .nan
  else if lower = ['i', 'n', 'f'] ∨ lower = ['i', 'n', 'f', 'i', 'n', 'i', 't', 'y'] then
    some (.infinite negative)
  else readDecimal negative cs

def readNumeral (cs : List Char) : Option Numeral :=
  match dropUnderscores false false ((Text.trim cs).map Text.plainDigit) with
  | none => none
  | some plain => readUnsigned (takeSign plain).1 (takeSign plain).2

def isHexDigit (c : Char) : Bool := c.isDigit || 'a' ≤ c && c ≤ 'f'

def hexValue (cs : List Char) : Nat :=
  cs.foldl (fun value c => 16 * value + if c.isDigit then c.toNat - '0'.toNat else c.toNat - 'a'.toNat + 10) 0

def readHexExponent : List Char → Option Int
  | [] => some 0
  | 'p' :: rest => readExponent ('e' :: rest)
  | _ => none

def readHexadecimal (negative : Bool) (cs : List Char) : Option Numeral :=
  let whole := cs.takeWhile isHexDigit
  let rest := cs.dropWhile isHexDigit
  let fraction := match rest with
    | '.' :: more => more.takeWhile isHexDigit
    | _ => []
  let last := match rest with
    | '.' :: more => more.dropWhile isHexDigit
    | other => other
  if whole.isEmpty && fraction.isEmpty then none
  else
    (readHexExponent last).map fun exponent =>
      .binary negative (hexValue (whole ++ fraction)) (exponent - 4 * fraction.length)

def isNote (cs : List Char) : Bool :=
  match cs.reverse with
  | ')' :: note => note.all fun c => c.isAlphanum || c = '_'
  | _ => false

def readUnsignedLong (negative : Bool) (cs : List Char) : Option Numeral :=
  match cs.map Char.toLower with
  | '0' :: 'x' :: rest => readHexadecimal negative rest
  | 'n' :: 'a' :: 'n' :: '(' :: rest => if isNote rest then some .nan else none
  | _ => readUnsigned negative cs

-- The extended format reads its numerals in another way: up to the first NUL, after blanks of ASCII but before none,
-- with plain digits only, and in hexadecimal too.
def readLongNumeral (cs : List Char) : Option Numeral :=
  let text := (cs.takeWhile (· ≠ '\x00')).dropWhile fun c => c = ' ' || '\t' ≤ c && c ≤ '\r'
  readUnsignedLong (takeSign text).1 (takeSign text).2

-- No grid in use has a value from `10 ^ decimalReach` on, or a half of its least one below the inverse.
def decimalReach : Nat := 6000

def Grid.roundDecimal (grid : Grid) (negative : Bool) (digits : Nat) (exponent : Int) : Value :=
  if digits = 0 then grid.zero negative
  else if (decimalReach : Int) < exponent then .infinite negative
  else if exponent + digits.log2 + 1 < -(decimalReach : Int) then grid.zero negative
  else grid.round negative (digits * tenTo exponent.toNat) (tenTo (-exponent).toNat)

def Grid.roundBinary (grid : Grid) (negative : Bool) (digits : Nat) (exponent : Int) : Value :=
  if digits = 0 then grid.zero negative
  else if (4 * decimalReach : Int) < exponent then .infinite negative
  else if exponent + digits.log2 + 1 < -(4 * decimalReach : Int) then grid.zero negative
  else grid.roundScaled negative digits exponent

def Grid.roundNumeral (grid : Grid) : Numeral → Value
  | .nan => .nan
  | .infinite negative => .infinite negative
  | .decimal negative digits exponent => grid.roundDecimal negative digits exponent
  | .binary negative digits exponent => grid.roundBinary negative digits exponent

end Reckon.Number
