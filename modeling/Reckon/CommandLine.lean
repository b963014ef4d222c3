import Reckon.Calculate

set_option autoImplicit false

namespace Reckon

open Number (Scalar)

structure Outcome where
  status : Nat
  stdout : String
  stderr : String
deriving DecidableEq, Repr

def asksForLog : List String → Bool
  | first :: _ => first = "-v" || first = "--verbose"
  | [] => false

def usage : String := "Usage: python -m rpnexpr [-v] <expression>\n"

def answerText (source : String) (answer : Answer) : String :=
  "Input: " ++ source ++ "\nRPN: " ++ answer.text ++ "\nOutput: "
    ++ answer.scalar.brief ++ "\n"

def report (log : String) (source : String) : Outcome :=
  match calculate {} source with
  | .ok answer => ⟨0, answerText source answer, log⟩
  | .error failure =>
      if failure.inExpression then ⟨2, "", log ++ "error: " ++ failure.message ++ "\n"⟩
      else ⟨1, "", log ++ failure.message ++ "\n"⟩

def commandLine (args : List String) : Outcome :=
  let verbose := asksForLog args
  let words := if verbose then args.drop 1 else args
  if words.isEmpty then ⟨1, "", usage⟩
  else
    let source := String.intercalate " " words
    report (if verbose then String.join (logLines {} source) else "") source

end Reckon
