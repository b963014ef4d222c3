import Reckon.CommandLine

set_option autoImplicit false

def main (args : List String) : IO UInt32 := do
  let outcome := Reckon.commandLine args
  let out ← IO.getStdout
  let err ← IO.getStderr
  out.putStr outcome.stdout
  err.putStr outcome.stderr
  return outcome.status.toUInt32
