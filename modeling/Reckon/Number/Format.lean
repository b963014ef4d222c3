import Reckon.Number.Numeral
import Reckon.Number.Power

set_option autoImplicit false

namespace Reckon.Number

inductive Format where
  | half
  | single
  | double
  | extended
deriving DecidableEq, Repr

def Format.grid : Format → Grid
  | .half => ⟨11, -24, 5⟩
  | .single => ⟨24, -149, 104⟩
  | .double => ⟨53, -1074, 971⟩
  | .extended => ⟨64, -16445, 16320⟩

def Format.name : Format → String
  | .half => "float16"
  | .single => "float32"
  | .double => "float64"
  | .extended => "longdouble"

-- What looking up the requested number type comes to: floating-point numbers of a format, a type that holds others,
-- or a refusal with its reason. Which spellings and objects name which type is for the one who asks to say.
inductive TypeRequest where
  | floating (format : Format)
  | other (name : String)
  | refused (reason : String)
deriving DecidableEq, Repr

inductive FormatError where
  | notFloating (name : String)
  | refused (reason : String)
deriving DecidableEq, Repr

def FormatError.message : FormatError → String
  | .notFloating name => "dtype must be a floating type, got " ++ name
  | .refused reason => reason

def findFormat : TypeRequest → Except FormatError Format
  | .floating format => .ok format
  | .other name => .error (.notFloating name)
  | .refused reason => .error (.refused reason)

-- The two short formats round a numeral to the double format first, and then once more.
def Format.ofNumeral (format : Format) (numeral : Numeral) : Value :=
  match format with
  | .half => format.grid.convert (Format.double.grid.roundNumeral numeral)
  | .single => format.grid.convert (Format.double.grid.roundNumeral numeral)
  | .double => format.grid.roundNumeral numeral
  | .extended => format.grid.roundNumeral numeral

def Format.numeral (format : Format) (cs : List Char) : Option Numeral :=
  match format with
  | .half => readNumeral cs
  | .single => readNumeral cs
  | .double => readNumeral cs
  | .extended => readLongNumeral cs

def Format.read (format : Format) (cs : List Char) : Option Value :=
  (format.numeral cs).map format.ofNumeral

-- The half format has no powers of its own and borrows those of the single format, rounded once more.
-- The single and the double format have a square root.
def Format.pow (format : Format) (base power : Value) : Value :=
  match format with
  | .half => format.grid.convert (Format.single.grid.pow base power)
  | .single => format.grid.powOrRoot base power
  | .double => format.grid.powOrRoot base power
  | .extended => format.grid.pow base power

end Reckon.Number
