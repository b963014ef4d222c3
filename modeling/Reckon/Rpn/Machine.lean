import Reckon.Rpn.Basic
import Reckon.Number.Scalar

set_option autoImplicit false

namespace Reckon

open Number (Format FormatError Scalar TypeRequest Value findFormat)

inductive EvalError where
  | format (error : FormatError)
  | malformed (span : Span)
  | underflow (item : Item)
  | leftover (count : Nat)
deriving DecidableEq, Repr

def EvalError.message : EvalError → String
  | .format error => error.message
  | .malformed span =>
      "malformed number " ++ Text.quoted span.text ++ " at position " ++ toString span.start
  | .underflow item => "stack underflow at '" ++ item.text ++ "'"
  | .leftover count => "expected 1 value after evaluation, found " ++ toString count

def BinaryOp.apply (op : BinaryOp) (format : Format) (left right : Value) : Value :=
  match op with
  | .add => format.grid.add left right
  | .sub => format.grid.sub left right
  | .mul => format.grid.mul left right
  | .div => format.grid.div left right
  | .pow => format.pow left right

def perform (format : Format) (stack : List Value) : Item → Except EvalError (List Value)
  | .number span =>
      match format.read span.chars with
      | none => .error (.malformed span)
      | some value => .ok (value :: stack)
  | .negate =>
      match stack with
      | value :: rest => .ok (value.negate :: rest)
      | [] => .error (.underflow .negate)
  | .operation op =>
      match stack with
      | right :: left :: rest => .ok (op.apply format left right :: rest)
      | _ => .error (.underflow (.operation op))

def performAll (format : Format) (stack : List Value) (items : List Item) :
    Except EvalError (List Value) :=
  items.foldlM (perform format) stack

/-- The value of a postfix sequence in a format. -/
def evaluateIn (format : Format) (items : List Item) : Except EvalError Value :=
  match performAll format [] items with
  | .error error => .error error
  | .ok [value] => .ok value
  | .ok stack => .error (.leftover stack.length)

-- The format is found first, even for a sequence that is malformed or empty.
def evaluate (request : TypeRequest) (items : List Item) : Except EvalError Scalar :=
  match findFormat request with
  | .error error => .error (.format error)
  | .ok format =>
      match evaluateIn format items with
      | .error error => .error error
      | .ok value => .ok ⟨format, value⟩

end Reckon
