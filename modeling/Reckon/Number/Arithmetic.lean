import Reckon.Number.Rounding

set_option autoImplicit false

namespace Reckon.Number

def signedAt (lowest : Int) (negative : Bool) (significand : Nat) (exponent : Int) : Int :=
  let magnitude : Int := significand * twoTo (exponent - lowest).toNat
  if negative then -magnitude else magnitude

-- A sum that is zero is positive, unless both terms are negative.
def Grid.add (grid : Grid) : Value → Value → Value
  | .nan, _ => .nan
  | _, .nan => .nan
  | .infinite left, .infinite right => if left = right then .infinite left else .nan
  | .infinite left, .finite .. => .infinite left
  | .finite .., .infinite right => .infinite right
  | .finite leftSign left leftExponent, .finite rightSign right rightExponent =>
      let lowest := min leftExponent rightExponent
      let sum := signedAt lowest leftSign left leftExponent
        + signedAt lowest rightSign right rightExponent
      if sum = 0 then grid.zero (leftSign && rightSign)
      else grid.roundScaled (decide (sum < 0)) sum.natAbs lowest

def Grid.sub (grid : Grid) (left right : Value) : Value := grid.add left right.negate

def Grid.mul (grid : Grid) : Value → Value → Value
  | .nan, _ => .nan
  | _, .nan => .nan
  | .infinite left, .infinite right => .infinite (left != right)
  | .infinite left, .finite right significand _ =>
      if significand = 0 then .nan else .infinite (left != right)
  | .finite left significand _, .infinite right =>
      if significand = 0 then .nan else .infinite (left != right)
  | .finite leftSign left leftExponent, .finite rightSign right rightExponent =>
      grid.roundScaled (leftSign != rightSign) (left * right) (leftExponent + rightExponent)

def Grid.div (grid : Grid) : Value → Value → Value
  | .nan, _ => .nan
  | _, .nan => .nan
  | .infinite _, .infinite _ => .nan
  | .infinite left, .finite right _ _ => .infinite (left != right)
  | .finite left _ _, .infinite right => grid.zero (left != right)
  | .finite leftSign left leftExponent, .finite rightSign right rightExponent =>
      if right = 0 then
        if left = 0 then .nan else .infinite (leftSign != rightSign)
      else
        let exponent := leftExponent - rightExponent
        grid.round (leftSign != rightSign) (left * twoTo exponent.toNat) (right * twoTo (-exponent).toNat)

end Reckon.Number
