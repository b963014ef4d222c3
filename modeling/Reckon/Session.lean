import Reckon.Calculate

set_option autoImplicit false

namespace Reckon

open Number (Scalar TypeRequest)

structure Session where
  tokens : List Token := []
  items : List Item := []
deriving DecidableEq, Repr

structure Report where
  text : String
  writes : Nat
  digest : String
  depths : List Int
  wellFormed : Bool
deriving DecidableEq, Repr

def reportOn (items : List Item) : Report :=
  ⟨format items, (pieces items).length, digest items, depths items, wellFormed items⟩

inductive SessionError where
  | options (error : OptionsError)
  | item (error : ItemError)
  | stage (failure : Failure)
deriving DecidableEq, Repr

def SessionError.message : SessionError → String
  | .options error => error.message
  | .item error => error.message
  | .stage failure => failure.message

inductive Request where
  | scan (source : String)
  | scanMore (source : String)
  | cutTokens (start stop : Option Int)
  | cutItems (start stop : Option Int)
  | parse (settings : List (String × Given))
  | append (source : String) (settings : List (String × Given))
  | push (items : Except ItemError (List Item))
  | evaluate (request : TypeRequest)
  | report

inductive Reply where
  | length (count : Nat)
  | value (scalar : Scalar)
  | report (report : Report)
  | refused (error : SessionError)
deriving DecidableEq, Repr

def Session.setTokens (session : Session) (tokens : List Token) : Session × Reply :=
  ({ session with tokens := tokens }, .length tokens.length)

def Session.setItems (session : Session) (items : List Item) : Session × Reply :=
  ({ session with items := items }, .length items.length)

def Session.refuse (session : Session) (error : SessionError) : Session × Reply :=
  (session, .refused error)

def readWith (settings : List (String × Given)) (read : Options → Except Failure (List Item)) :
    Except SessionError (List Item) :=
  match Options.strict settings with
  | .error error => .error (.options error)
  | .ok options => (read options).mapError .stage

def Session.answer (session : Session) : Request → Session × Reply
  | .scan source =>
      match Reckon.scan source with
      | .ok tokens => session.setTokens tokens
      | .error error => session.refuse (.stage (.scan error))
  | .scanMore source =>
      match Reckon.scan source with
      | .ok tokens => session.setTokens (session.tokens ++ tokens)
      | .error error => session.refuse (.stage (.scan error))
  | .cutTokens start stop => session.setTokens (openSlice session.tokens start stop)
  | .cutItems start stop => session.setItems (openSlice session.items start stop)
  | .parse settings =>
      match readWith settings fun options => (Reckon.parse options session.tokens).mapError .parse with
      | .ok items => session.setItems items
      | .error error => session.refuse error
  | .append source settings =>
      match readWith settings fun options => rpnOf options source with
      | .ok items => session.setItems (session.items ++ items)
      | .error error => session.refuse error
  | .push pushed =>
      match pushed with
      | .ok items => session.setItems (session.items ++ items)
      | .error error => session.refuse (.item error)
  | .evaluate request =>
      match Reckon.evaluate request session.items with
      | .ok scalar => (session, .value scalar)
      | .error error => session.refuse (.stage (.eval error))
  | .report => (session, .report (reportOn session.items))

def Session.trace (session : Session) : List Request → List (Session × Reply)
  | [] => []
  | request :: rest => session.answer request :: (session.answer request).1.trace rest

def Session.shownTokens (session : Session) : String :=
  String.intercalate " " (session.tokens.map Token.shown)

end Reckon
