import Reckon.Setting
import Reckon.Token.Basic

set_option autoImplicit false

namespace Reckon

inductive Expected where
  | operand
  | closing
  | finish
deriving DecidableEq, Repr

def Expected.text : Expected → String
  | .operand => "expected a number or '('"
  | .closing => "expected ')'"
  | .finish => "expected end of input"

inductive ParseError where
  | noFinish
  | unexpected (token : Token) (expected : Expected)
  | tooDeep (limit : Quantity)
  | incomparable (limit : Setting)
  | outOfFrames
deriving DecidableEq, Repr

def ParseError.message : ParseError → String
  | .noFinish => "token sequence must end with an EOF token"
  | .unexpected token expected =>
      "unexpected " ++ token.shown ++ " at position " ++ toString token.span.start ++ ": "
        ++ expected.text
  | .tooDeep limit => "max nesting depth of " ++ limit.shown ++ " exceeded"
  | .incomparable limit =>
      "'>' not supported between instances of 'int' and '" ++ limit.typeName ++ "'"
  | .outOfFrames => "nesting exceeds the interpreter recursion limit"

theorem unexpected_message (token : Token) (expected : Expected) :
    (ParseError.unexpected token expected).message =
      "unexpected " ++ token.shown ++ " at position " ++ toString token.span.start ++ ": " ++ expected.text := rfl

end Reckon
