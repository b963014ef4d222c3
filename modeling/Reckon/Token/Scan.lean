import Reckon.Token.Basic

set_option autoImplicit false

namespace Reckon

def isSpace (c : Char) : Bool := c = ' ' || c = '\t' || c = '\r' || c = '\n'

def isNumberChar (c : Char) : Bool := c.isDigit || c = '.'

structure ScanError where
  char : Char
  position : Nat
deriving DecidableEq, Repr

def ScanError.message (error : ScanError) : String :=
  "invalid character " ++ Text.quoted (String.singleton error.char) ++ " at position "
    ++ toString error.position

def finishToken (source : List Char) (position : Nat) : Token :=
  ⟨.finish, ⟨source, position, position⟩⟩

def symbolToken (source : List Char) (kind : Kind) (position : Nat) : Token :=
  ⟨kind, ⟨source, position, position + 1⟩⟩

def runToken (source : List Char) (run : Option Nat) (position : Nat) : List Token :=
  match run with
  | none => []
  | some start => [⟨.number, ⟨source, start, position⟩⟩]

-- `run` is where a number began that is not over yet at `position`.
def scanFrom (source : List Char) (run : Option Nat) (position : Nat) :
    List Char → Except ScanError (List Token)
  | [] => .ok (runToken source run position ++ [finishToken source position])
  | c :: rest =>
      if c = '\x00' then .ok (runToken source run position ++ [finishToken source position])
      else if isNumberChar c then scanFrom source (some (run.getD position)) (position + 1) rest
      else if isSpace c then
        (scanFrom source none (position + 1) rest).map (runToken source run position ++ ·)
      else
        match kindOf c with
        | none => .error ⟨c, position⟩
        | some kind =>
            (scanFrom source none (position + 1) rest).map
              (runToken source run position ++ symbolToken source kind position :: ·)

def scan (text : String) : Except ScanError (List Token) :=
  scanFrom text.toList none 0 text.toList

end Reckon
