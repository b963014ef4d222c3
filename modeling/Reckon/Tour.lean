import Reckon.Calculate

set_option autoImplicit false

namespace Reckon.Tour

open Number (Format Scalar)

def source : String := "5+-+1.7^+12-+4*++--(+-+-+3)-+++-3/+-14.2"

def padded (width : Nat) (text : String) : String :=
  text ++ String.ofList (List.replicate (width - text.length) ' ')

def kindName : Failure → String
  | .scan _ => "InvalidToken"
  | .parse _ => "UnexpectedToken"
  | .eval _ => "MalformedNumber"

-- Values are shown in the double format, single ones too.
def shownValue : Except EvalError Scalar → String
  | .ok scalar => String.ofList (Format.double.chars (Format.double.grid.convert scalar.value))
  | .error error => error.message

def stages (tokens : List Token) (items : List Item) : List String :=
  ["1. Input: " ++ source,
  "   Tokens: " ++ toString tokens.length ++ " (last is EOF)",
  "",
  "2. RPN: " ++ format items,
  "   Digest: " ++ String.ofList ((digest items).toList.take 16) ++ "...",
  "",
  "3. Output: " ++ shownValue (evaluate (.floating .double) items),
  "   Output (float32): " ++ shownValue (evaluate (.floating .single) items),
  ""]

def stageLines : List String :=
  match scan source with
  | .error error => [error.message]
  | .ok tokens =>
      match parse {} tokens with
      | .error error => [error.message]
      | .ok items => stages tokens items

def exampleLine (text : String) : String :=
  match calculate {} text with
  | .ok answer =>
      "   " ++ padded 8 text ++ " -> " ++ padded 12 answer.text ++ " = "
        ++ answer.scalar.text
  | .error failure => "   " ++ padded 8 text ++ " -> " ++ kindName failure ++ ": " ++ failure.message

def lines : List String :=
  ["=== rpnexpr E2E Demo ===", ""]
    ++ stageLines
    ++ "4. Grammar" :: ["2+3*4", "2^3^2", "2(3)", "---5", "1/0"].map exampleLine
    ++ "" :: "5. Errors" :: ["1+$2", "(1+2", "1.2.3"].map exampleLine
    ++ ["", "=== Done ==="]

def transcript : String := String.join (lines.map (· ++ "\n"))

end Reckon.Tour
