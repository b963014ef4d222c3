import Reckon.Number.Text
import Reckon.Text.Quoted

set_option autoImplicit false

namespace Reckon.Number

structure Scalar where
  format : Format
  value : Value
deriving DecidableEq, Repr

def Scalar.text (scalar : Scalar) : String := String.ofList (scalar.format.chars scalar.value)

def Scalar.brief (scalar : Scalar) : String :=
  String.ofList (dropPointZero (scalar.format.chars scalar.value))

inductive ScalarError where
  | format (error : FormatError)
  | noNumeral (text : String)
deriving DecidableEq, Repr

def ScalarError.message : ScalarError → String
  | .format error => error.message
  | .noNumeral text => "could not convert string to float: " ++ Text.quoted text

def readScalar (request : TypeRequest) (text : String) : Except ScalarError Scalar :=
  match findFormat request with
  | .error error => .error (.format error)
  | .ok format =>
      match format.read text.toList with
      | none => .error (.noNumeral text)
      | some value => .ok ⟨format, value⟩

end Reckon.Number
