import Reckon.Parse.Step

set_option autoImplicit false

namespace Reckon

open Number (TypeRequest)

structure Options where
  request : TypeRequest := .floating .double
  maxDepth : Setting := .quantity (.whole 64)
  unaryPlus : Setting := .quantity (.flag true)
deriving DecidableEq, Repr

-- Nested levels take up fewer frames than this together.
def frameBound : Nat := 988

def Options.rules (options : Options) : Rules :=
  ⟨options.maxDepth, some frameBound, options.unaryPlus.isTrue⟩

inductive OptionsError where
  | unknownKey (key : String)
deriving DecidableEq, Repr

def OptionsError.message : OptionsError → String
  | .unknownKey key => "Options.__init__() got an unexpected keyword argument '" ++ key ++ "'"

def optionKeys : List String := ["dtype", "max_depth", "allow_unary_plus"]

def findSetting (settings : List (String × Given)) (key : String) : Option Given :=
  settings.reverse.lookup key

def Options.lenient (settings : List (String × Given)) : Options :=
  { request := ((findSetting settings "dtype").map Given.request).getD (.floating .double)
    maxDepth := ((findSetting settings "max_depth").map Given.setting).getD (.quantity (.whole 64))
    unaryPlus := ((findSetting settings "allow_unary_plus").map Given.setting).getD (.quantity (.flag true)) }

def Options.strict (settings : List (String × Given)) : Except OptionsError Options :=
  match settings.find? fun setting => !optionKeys.contains setting.1 with
  | some setting => .error (.unknownKey setting.1)
  | none => .ok (Options.lenient settings)

/-- The postfix form of a token sequence. -/
def parse (options : Options) (tokens : List Token) : Except ParseError (List Item) :=
  options.rules.parse tokens

end Reckon
