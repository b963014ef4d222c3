import Reckon.Number.Rounding

/-!
The shortest decimal of a value: the fewest digits that round to it, and of those the nearest. The
decimals that round to a value form an interval around it, whose ends belong to it when the
significand is even. Below a power of two the interval is narrower.
-/

set_option autoImplicit false

namespace Reckon.Number

-- The value is `middle` units, the ends of its interval `low` and `high` units, and a unit is
-- `numerator / denominator`: a quarter of the last place.
structure Interval where
  low : Nat
  middle : Nat
  high : Nat
  closed : Bool
  numerator : Nat
  denominator : Nat
deriving DecidableEq, Repr

def Grid.interval (grid : Grid) (significand : Nat) (exponent : Int) : Interval :=
  let narrow := significand = twoTo (grid.precision - 1) ∧ grid.minExponent < exponent
  { low := if narrow then 4 * significand - 1 else 4 * significand - 2
    middle := 4 * significand
    high := 4 * significand + 2
    closed := significand % 2 = 0
    numerator := twoTo (exponent - 2).toNat
    denominator := twoTo (2 - exponent).toNat }

structure Decimal where
  digits : Nat
  exponent : Int
deriving DecidableEq, Repr

def Interval.scaled (interval : Interval) (decimal : Decimal) : Nat :=
  decimal.digits * tenTo decimal.exponent.toNat * interval.denominator

def Interval.unit (interval : Interval) (exponent : Int) : Nat :=
  interval.numerator * tenTo (-exponent).toNat

def Interval.contains (interval : Interval) (decimal : Decimal) : Bool :=
  let point := interval.scaled decimal
  let unit := interval.unit decimal.exponent
  if interval.closed then interval.low * unit ≤ point && point ≤ interval.high * unit
  else interval.low * unit < point && point < interval.high * unit

def decimalLength (n : Nat) : Nat := (Nat.toDigits 10 n).length

def decimalExponent (numerator denominator : Nat) : Int :=
  if denominator ≤ numerator then (decimalLength (numerator / denominator) : Int) - 1
  else -(decimalLength ((denominator - 1) / numerator) : Int)

def Interval.choose (interval : Interval) (below above : Decimal) : Option Decimal :=
  if interval.contains below then
    if interval.contains above then
      let middle := 2 * (interval.middle * interval.unit below.exponent)
      let sum := interval.scaled below + interval.scaled above
      if middle < sum then some below
      else if sum < middle then some above
      else if below.digits % 2 = 0 then some below
      else some above
    else some below
  else if interval.contains above then some above
  else none

def Interval.below (interval : Interval) (exponent : Int) : Nat :=
  interval.middle * interval.unit exponent / (tenTo exponent.toNat * interval.denominator)

-- The decimal grids are tried from the coarsest down. If any of a grid's decimals is in the interval,
-- one of the value's two neighbours is.
def Interval.search (interval : Interval) : Nat → Int → Decimal
  | 0, exponent => ⟨interval.below exponent, exponent⟩
  | fuel + 1, exponent =>
      let digits := interval.below exponent
      match interval.choose ⟨digits, exponent⟩ ⟨digits + 1, exponent⟩ with
      | some decimal => decimal
      | none => interval.search fuel (exponent - 1)

def stripZeros (digits : Nat) (exponent : Int) : Decimal :=
  if digits ≠ 0 ∧ digits % 10 = 0 then stripZeros (digits / 10) (exponent + 1)
  else ⟨digits, exponent⟩
termination_by digits
decreasing_by omega

-- A grid of `precision + 2` digits is finer than the interval is wide, so the search finds one.
def Grid.shortest (grid : Grid) (significand : Nat) (exponent : Int) : Decimal :=
  let interval := grid.interval significand exponent
  let found := interval.search (grid.precision + 2)
    (decimalExponent (interval.middle * interval.numerator) interval.denominator)
  stripZeros found.digits found.exponent

end Reckon.Number
