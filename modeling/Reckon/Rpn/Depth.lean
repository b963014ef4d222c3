import Reckon.Rpn.Basic

set_option autoImplicit false

namespace Reckon

def Item.effect : Item → Int
  | .number _ => 1
  | .negate => 0
  | .operation _ => -1

-- Nothing stops the count where an operand is missing; it goes on below zero.
def depthsFrom (depth : Int) : List Item → List Int
  | [] => []
  | item :: rest => (depth + item.effect) :: depthsFrom (depth + item.effect) rest

def depths (items : List Item) : List Int := depthsFrom 0 items

def wellFormed (items : List Item) : Bool :=
  (depths items).all (1 ≤ ·) && (depths items).getLast? == some 1

def effects : List Item → Int
  | [] => 0
  | item :: rest => item.effect + effects rest

theorem effects_append (left right : List Item) : effects (left ++ right) = effects left + effects right := by
  induction left with
  | nil => simp [effects]
  | cons item rest ih => simp [effects, ih, Int.add_assoc]

theorem depths_append (depth : Int) (left right : List Item) :
    depthsFrom depth (left ++ right)
      = depthsFrom depth left ++ depthsFrom (depth + effects left) right := by
  induction left generalizing depth with
  | nil => simp [depthsFrom, effects]
  | cons item rest ih => simp [depthsFrom, effects, ih, Int.add_assoc]

end Reckon
