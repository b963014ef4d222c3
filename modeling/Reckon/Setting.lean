import Reckon.Number.Text

set_option autoImplicit false

namespace Reckon

open Number (Format TypeRequest Value twoTo)

-- What a number of levels can be compared with.
inductive Quantity where
  | flag (value : Bool)
  | whole (value : Int)
  | real (value : Value)
deriving DecidableEq, Repr

inductive Setting where
  | null
  | quantity (value : Quantity)
  | text (value : String)
  | sequence (length : Nat)
  | table (size : Nat)
deriving DecidableEq, Repr

-- A value that an option is given: as a limit or a switch, and as a request for a number type.
structure Given where
  setting : Setting
  request : TypeRequest
deriving DecidableEq, Repr

-- A count exceeds a finite value when the two, cross multiplied, are in that order.
def exceedsFinite (count : Nat) (negative : Bool) (significand : Nat) (exponent : Int) : Bool :=
  if negative then significand ≠ 0 || count ≠ 0
  else significand * twoTo exponent.toNat < count * twoTo (-exponent).toNat

def Quantity.exceededBy (count : Nat) : Quantity → Bool
  | .flag value => value.toNat < count
  | .whole value => value < count
  | .real .nan => false
  | .real (.infinite negative) => negative
  | .real (.finite negative significand exponent) => exceedsFinite count negative significand exponent

def Quantity.shown : Quantity → String
  | .flag true => "True"
  | .flag false => "False"
  | .whole value => toString value
  | .real value => String.ofList (Format.double.chars value)

def Quantity.isTrue : Quantity → Bool
  | .flag value => value
  | .whole value => value ≠ 0
  | .real (.finite _ significand _) => significand ≠ 0
  | .real _ => true

def Setting.isTrue : Setting → Bool
  | .null => false
  | .quantity value => value.isTrue
  | .text value => !value.isEmpty
  | .sequence length => length ≠ 0
  | .table size => size ≠ 0

def Setting.typeName : Setting → String
  | .null => "NoneType"
  | .quantity (.flag _) => "bool"
  | .quantity (.whole _) => "int"
  | .quantity (.real _) => "float"
  | .text _ => "str"
  | .sequence _ => "list"
  | .table _ => "dict"

end Reckon
