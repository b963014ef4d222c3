import Reckon.Number.Arithmetic

/-!
Powers. The special cases come first: a power with exponent zero, or with base one, is one even of not-a-number; a
negative base needs an integral exponent, which is odd or even. What is left is the power of a positive finite base,
found as `2 ^ (exponent * log2 base)` in fixed-point arithmetic whose error is far below the last place of every grid
in use. So powers are rounded correctly, where the mathematical library of a machine may be off in the last place.
-/

set_option autoImplicit false

namespace Reckon.Number

def workBits : Nat := 448

-- A computed power is first rounded to this many bits, so that one with a short exact value, or in the
-- middle between two values of a grid, is not pushed off it by the error of the computation.
def keptBits : Nat := 256

def seriesSum (next part : Nat → Nat → Nat) : Nat → Nat → Nat → Nat
  | 0, _, _ => 0
  | fuel + 1, index, term =>
      if term = 0 then 0
      else part index term + seriesSum next part fuel (index + 1) (next index term)

def areaTangent (numerator denominator : Nat) : Nat :=
  let ratio := numerator * twoTo workBits / denominator
  let square := ratio * ratio / twoTo workBits
  seriesSum (fun _ term => term * square / twoTo workBits) (fun index term => term / (2 * index + 1))
    workBits 0 ratio

def logTwo : Nat := 2 * areaTangent 1 3

-- The logarithm of a significand scaled down to between one and two is twice the area tangent of its
-- distance from one over its sum with one.
def binaryLog (significand : Nat) (exponent : Int) : Int :=
  let length := significand.log2
  let one := twoTo length
  let fraction := 2 * areaTangent (significand - one) (significand + one) * twoTo workBits / logTwo
  (exponent + length) * twoTo workBits + fraction

def powerOfTwo (fraction : Nat) : Nat :=
  let argument := fraction * logTwo / twoTo workBits
  seriesSum (fun index term => term * argument / ((index + 1) * twoTo workBits)) (fun _ term => term)
    workBits 0 (twoTo workBits)

def scaleFixed (fixed : Int) (significand : Int) (exponent : Int) : Int :=
  (fixed * significand * twoTo exponent.toNat).fdiv (twoTo (-exponent).toNat)

def binaryReach : Nat := 40000

def Grid.positivePower (grid : Grid) (negative : Bool) (base : Nat) (baseExponent : Int)
    (power : Int) (powerExponent : Int) : Value :=
  let logarithm := scaleFixed (binaryLog base baseExponent) power powerExponent
  let whole := logarithm.fdiv (twoTo workBits)
  if (binaryReach : Int) < whole then .infinite negative
  else if whole < -(binaryReach : Int) then grid.zero negative
  else
    let mantissa := powerOfTwo (logarithm.fmod (twoTo workBits)).toNat
    grid.roundScaled negative (nearest mantissa (twoTo (workBits - keptBits))) (whole - keptBits)

inductive Parity where
  | even
  | odd
  | fractional
deriving DecidableEq, Repr

def parity (significand : Nat) (exponent : Int) : Parity :=
  if 0 < exponent then .even
  else
    let unit := twoTo (-exponent).toNat
    if significand % unit ≠ 0 then .fractional
    else if significand / unit % 2 = 0 then .even
    else .odd

def compareOne (significand : Nat) (exponent : Int) : Ordering :=
  compare (significand * twoTo exponent.toNat) (twoTo (-exponent).toNat)

def Grid.one (grid : Grid) : Value := grid.roundScaled false 1 0

def Grid.extremePower (grid : Grid) (baseIsZero negativeBase negativePower : Bool) (kind : Parity) :
    Value :=
  let negative := negativeBase && kind = .odd
  if baseIsZero = negativePower then .infinite negative else grid.zero negative

def Grid.infinitePower (grid : Grid) (side : Ordering) (negativePower : Bool) : Value :=
  match side with
  | .eq => grid.one
  | .gt => if negativePower then grid.zero false else .infinite false
  | .lt => if negativePower then .infinite false else grid.zero false

def Grid.finitePower (grid : Grid) (base : Value) (negativePower : Bool) (power : Nat)
    (powerExponent : Int) : Value :=
  let kind := parity power powerExponent
  match base with
  | .nan => .nan
  | .infinite negative => grid.extremePower false negative negativePower kind
  | .finite negative significand exponent =>
      if significand = 0 then grid.extremePower true negative negativePower kind
      else if negative && kind = .fractional then .nan
      else
        grid.positivePower (negative && kind = .odd) significand exponent
          (if negativePower then -(power : Int) else power) powerExponent

def Grid.pow (grid : Grid) (base : Value) : Value → Value
  | .finite negative power exponent =>
      if power = 0 then grid.one else grid.finitePower base negative power exponent
  | .infinite negative =>
      match base with
      | .nan => .nan
      | .infinite _ => grid.infinitePower .gt negative
      | .finite _ significand exponent => grid.infinitePower (compareOne significand exponent) negative
  | .nan =>
      match base with
      | .finite false significand exponent =>
          if compareOne significand exponent = .eq then grid.one else .nan
      | _ => .nan

def isHalf : Value → Bool
  | .finite false significand exponent => compareOne significand (exponent + 1) = .eq
  | _ => false

-- Read as a square root, a power with exponent one half is minus zero for minus zero, and minus
-- infinity has none. All else is as for powers.
def Grid.powOrRoot (grid : Grid) (base power : Value) : Value :=
  if isHalf power then
    match base with
    | .infinite true => .nan
    | .finite true 0 _ => grid.zero true
    | _ => grid.pow base power
  else grid.pow base power

end Reckon.Number
