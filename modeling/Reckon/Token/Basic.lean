import Reckon.Slice
import Reckon.Text.Quoted

set_option autoImplicit false

namespace Reckon

structure Span where
  source : List Char
  start : Int
  stop : Int
deriving DecidableEq, Repr

def Span.chars (span : Span) : List Char := slice span.source span.start span.stop

def Span.text (span : Span) : String := String.ofList span.chars

def Span.whole (text : String) : Span := ⟨text.toList, 0, text.length⟩

inductive Kind where
  | finish
  | plus
  | minus
  | star
  | slash
  | caret
  | opening
  | closing
  | number
deriving DecidableEq, Repr

-- Nothing ties the kind to the text of the span, so a token can also be built by hand.
structure Token where
  kind : Kind
  span : Span
deriving DecidableEq, Repr

def kindOf : Char → Option Kind
  | '+' => some .plus
  | '-' => some .minus
  | '*' => some .star
  | '/' => some .slash
  | '^' => some .caret
  | '(' => some .opening
  | ')' => some .closing
  | _ => none

def Token.shown (token : Token) : String :=
  match token.kind with
  | .finish => "end of input"
  | .plus => "'+'"
  | .minus => "'-'"
  | .star => "'*'"
  | .slash => "'/'"
  | .caret => "'^'"
  | .opening => "'('"
  | .closing => "')'"
  | .number => Text.quoted token.span.text

end Reckon
