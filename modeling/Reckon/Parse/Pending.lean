import Reckon.Parse.Error
import Reckon.Rpn.Basic

set_option autoImplicit false

namespace Reckon

inductive Pending where
  | group (negated : Bool)
  | operation (op : BinaryOp)
deriving DecidableEq, Repr

def Pending.levels : Pending → Nat
  | .group _ => 1
  | .operation .pow => 1
  | .operation _ => 0

def Pending.frames : Pending → Nat
  | .group _ => 6
  | .operation .pow => 2
  | .operation _ => 0

def levels : List Pending → Nat
  | [] => 0
  | part :: outer => part.levels + levels outer

def frames : List Pending → Nat
  | [] => 0
  | part :: outer => part.frames + frames outer

-- The operations that are complete once an operation of some level follows: those that bind at least
-- as tightly, up to the innermost group. They are performed innermost first.
def unwind (level : Nat) : List Pending → List Item × List Pending
  | [] => ([], [])
  | .group negated :: outer => ([], .group negated :: outer)
  | .operation op :: outer =>
      if level ≤ op.level then
        (.operation op :: (unwind level outer).1, (unwind level outer).2)
      else ([], .operation op :: outer)

structure Rules where
  maxDepth : Setting
  frameBound : Option Nat
  unaryPlus : Bool
deriving DecidableEq, Repr

def Rules.unlimited (unaryPlus : Bool) : Rules :=
  ⟨.quantity (.real (.infinite false)), none, unaryPlus⟩

def Rules.lacksFrames (rules : Rules) (pending : List Pending) : Bool :=
  match rules.frameBound with
  | none => false
  | some bound => bound ≤ frames pending

/-- Why a new innermost level is refused, if it is. The limit on levels is looked at first. -/
def Rules.refusal (rules : Rules) (pending : List Pending) : Option ParseError :=
  match rules.maxDepth with
  | .quantity limit =>
      if limit.exceededBy (levels pending) then some (.tooDeep limit)
      else if rules.lacksFrames pending then some .outOfFrames
      else none
  | other => some (.incomparable other)

end Reckon
