import Reckon.Digest.Sha256
import Reckon.Token.Basic

set_option autoImplicit false

namespace Reckon

inductive BinaryOp where
  | add
  | sub
  | mul
  | div
  | pow
deriving DecidableEq, Repr

def BinaryOp.sign : BinaryOp → String
  | .add => "+"
  | .sub => "-"
  | .mul => "*"
  | .div => "/"
  | .pow => "^"

def BinaryOp.level : BinaryOp → Nat
  | .add => 0
  | .sub => 0
  | .mul => 1
  | .div => 1
  | .pow => 2

inductive Item where
  | number (span : Span)
  | negate
  | operation (op : BinaryOp)
deriving DecidableEq, Repr

inductive ItemError where
  | noSpan
deriving DecidableEq, Repr

def ItemError.message : ItemError → String
  | .noSpan => "number RPN token requires a span"

def Item.numberAt : Option Span → Except ItemError Item
  | none => .error .noSpan
  | some span => .ok (.number span)

def Item.text : Item → String
  | .number span => span.text
  | .negate => "neg"
  | .operation op => op.sign

def pieces (items : List Item) : List String := (items.map Item.text).intersperse " "

def format (items : List Item) : String := String.join (pieces items)

def digest (items : List Item) : String := Digest.sha256Text (format items)

theorem pieces_length (items : List Item) : (pieces items).length = 2 * items.length - 1 := by
  simp [pieces, List.length_intersperse]

end Reckon
