import Reckon.Number.Format
import Reckon.Number.Shortest

set_option autoImplicit false

namespace Reckon.Number

def Format.positionalDigits : Format → Nat
  | .half => 3
  | .single => 6
  | .double => 16
  | .extended => 16

-- So are magnitudes below `1e-4` as the double format has it, or as the extended one for its own values.
def Format.positionalStart : Format → Value
  | .half => Format.double.grid.roundDecimal false 1 (-4)
  | .single => Format.double.grid.roundDecimal false 1 (-4)
  | .double => Format.double.grid.roundDecimal false 1 (-4)
  | .extended => Format.extended.grid.roundDecimal false 1 (-4)

def reaches (significand : Nat) (exponent : Int) : Value → Bool
  | .finite _ other otherExponent =>
      let lowest := min exponent otherExponent
      other * twoTo (otherExponent - lowest).toNat ≤ significand * twoTo (exponent - lowest).toNat
  | .infinite _ => false
  | .nan => false

def Format.isPositional (format : Format) (significand : Nat) (exponent : Int) : Bool :=
  reaches significand exponent format.positionalStart
    && significand * twoTo exponent.toNat < tenTo format.positionalDigits * twoTo (-exponent).toNat

def zeros (count : Nat) : List Char := List.replicate count '0'

def positional (decimal : Decimal) : List Char :=
  let digits := Nat.toDigits 10 decimal.digits
  let point := digits.length + decimal.exponent
  if 0 ≤ decimal.exponent then digits ++ zeros decimal.exponent.toNat ++ ['.', '0']
  else if 0 < point then digits.take point.toNat ++ '.' :: digits.drop point.toNat
  else '0' :: '.' :: zeros (-point).toNat ++ digits

def exponentText (exponent : Int) : List Char :=
  let digits := Nat.toDigits 10 exponent.natAbs
  (if exponent < 0 then '-' else '+') :: zeros (2 - digits.length) ++ digits

def scientific (decimal : Decimal) : List Char :=
  let digits := Nat.toDigits 10 decimal.digits
  let fraction := digits.drop 1
  digits.take 1 ++ (if fraction.isEmpty then [] else '.' :: fraction)
    ++ 'e' :: exponentText (decimal.exponent + fraction.length)

def signed (negative : Bool) (cs : List Char) : List Char :=
  if negative then '-' :: cs else cs

def Format.magnitude (format : Format) (significand : Nat) (exponent : Int) : List Char :=
  if significand = 0 then ['0', '.', '0']
  else
    let decimal := format.grid.shortest significand exponent
    if format.isPositional significand exponent then positional decimal else scientific decimal

def Format.chars (format : Format) : Value → List Char
  | .nan => ['n', 'a', 'n']
  | .infinite negative => signed negative ['i', 'n', 'f']
  | .finite negative significand exponent => signed negative (format.magnitude significand exponent)

def dropPointZero (cs : List Char) : List Char :=
  match cs.reverse with
  | '0' :: '.' :: rest => rest.reverse
  | _ => cs

end Reckon.Number
