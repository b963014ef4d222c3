import Reckon.Number.Value

set_option autoImplicit false

namespace Reckon.Number

def nearest (numerator denominator : Nat) : Nat :=
  let whole := numerator / denominator
  let twice := 2 * (numerator % denominator)
  if twice < denominator then whole
  else if denominator < twice then whole + 1
  else if whole % 2 = 0 then whole
  else whole + 1

-- The exponent of the power of two at or below a positive ratio. The lengths of the two numbers leave
-- only two candidates.
def binaryExponent (numerator denominator : Nat) : Int :=
  let guess : Int := (numerator.log2 : Int) - (denominator.log2 : Int)
  if denominator * twoTo guess.toNat ≤ numerator * twoTo (-guess).toNat then guess else guess - 1

def Grid.placeOf (grid : Grid) (numerator denominator : Nat) : Int :=
  max grid.minExponent (binaryExponent numerator denominator - grid.precision + 1)

-- Rounding up may have reached `2 ^ precision`, which has its form one exponent higher.
def Grid.settle (grid : Grid) (negative : Bool) (significand : Nat) (exponent : Int) : Value :=
  if significand = twoTo grid.precision then
    if grid.maxExponent < exponent + 1 then .infinite negative
    else .finite negative (twoTo (grid.precision - 1)) (exponent + 1)
  else if grid.maxExponent < exponent then .infinite negative
  else .finite negative significand exponent

def Grid.zero (grid : Grid) (negative : Bool) : Value := .finite negative 0 grid.minExponent

/-- The value of the grid that is nearest to a ratio. -/
def Grid.round (grid : Grid) (negative : Bool) (numerator denominator : Nat) : Value :=
  if numerator = 0 then grid.zero negative
  else
    let exponent := grid.placeOf numerator denominator
    grid.settle negative
      (nearest (numerator * twoTo (-exponent).toNat) (denominator * twoTo exponent.toNat)) exponent

def Grid.roundScaled (grid : Grid) (negative : Bool) (significand : Nat) (exponent : Int) : Value :=
  grid.round negative (significand * twoTo exponent.toNat) (twoTo (-exponent).toNat)

def Grid.convert (grid : Grid) : Value → Value
  | .nan => .nan
  | .infinite negative => .infinite negative
  | .finite negative significand exponent => grid.roundScaled negative significand exponent

theorem nearest_exact (whole denominator : Nat) (positive : 0 < denominator) :
    nearest (whole * denominator) denominator = whole := by
  simp [nearest, Nat.mul_div_cancel whole positive, positive]

end Reckon.Number
