set_option autoImplicit false

namespace Reckon.Number

def twoTo (n : Nat) : Nat := Nat.pow 2 n

def tenTo (n : Nat) : Nat := Nat.pow 10 n

theorem two_to_pos (n : Nat) : 0 < twoTo n := Nat.pow_pos (by decide)

theorem ten_to_pos (n : Nat) : 0 < tenTo n := Nat.pow_pos (by decide)

-- Significands below `2 ^ precision` and exponents between two bounds. Each finite value has one form: the exponent
-- is the least one unless the significand has all its bits.
structure Grid where
  precision : Nat
  minExponent : Int
  maxExponent : Int
deriving DecidableEq, Repr

inductive Value where
  | nan
  | infinite (negative : Bool)
  | finite (negative : Bool) (significand : Nat) (exponent : Int)
deriving DecidableEq, Repr

def Grid.Holds (grid : Grid) : Value → Prop
  | .nan => True
  | .infinite _ => True
  | .finite _ significand exponent =>
      significand < twoTo grid.precision ∧ grid.minExponent ≤ exponent ∧ exponent ≤ grid.maxExponent ∧
        (exponent = grid.minExponent ∨ twoTo (grid.precision - 1) ≤ significand)

def Value.negate : Value → Value
  | .nan => .nan
  | .infinite negative => .infinite (!negative)
  | .finite negative significand exponent => .finite (!negative) significand exponent

theorem negate_negate (value : Value) : value.negate.negate = value := by
  cases value <;> simp [Value.negate]

theorem negate_held (grid : Grid) (value : Value) : grid.Holds value.negate ↔ grid.Holds value := by
  cases value <;> simp [Value.negate, Grid.Holds]

end Reckon.Number
