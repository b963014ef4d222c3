import Reckon.Parse.Pending

set_option autoImplicit false

namespace Reckon

-- Where the parser stands: before an operand, with the signs read so far, or after one.
inductive Place where
  | operand (negated : Bool)
  | operator
deriving DecidableEq, Repr

structure State where
  place : Place
  pending : List Pending
deriving DecidableEq, Repr

def State.start : State := ⟨.operand false, []⟩

inductive Step where
  | next (written : List Item) (state : State)
  | done (written : List Item)
  | failed (error : ParseError)
deriving DecidableEq, Repr

def Step.after (written : List Item) : Step → Step
  | .next more state => .next (written ++ more) state
  | .done more => .done (written ++ more)
  | .failed error => .failed error

def negation (negated : Bool) : List Item := if negated then [.negate] else []

def Rules.enter (rules : Rules) (pending : List Pending) : Step :=
  match rules.refusal pending with
  | some error => .failed error
  | none => .next [] ⟨.operand false, pending⟩

def Rules.operandStep (rules : Rules) (negated : Bool) (pending : List Pending) (token : Token) : Step :=
  match token.kind with
  | .number => .next (.number token.span :: negation negated) ⟨.operator, pending⟩
  | .opening => rules.enter (.group negated :: pending)
  | .minus => .next [] ⟨.operand (!negated), pending⟩
  | .plus =>
      if rules.unaryPlus then .next [] ⟨.operand negated, pending⟩
      else .failed (.unexpected token .operand)
  | .star => .failed (.unexpected token .operand)
  | .slash => .failed (.unexpected token .operand)
  | .caret => .failed (.unexpected token .operand)
  | .closing => .failed (.unexpected token .operand)
  | .finish => .failed (.unexpected token .operand)

def awaiting (op : BinaryOp) (pending : List Pending) : List Pending :=
  .operation op :: (unwind op.level pending).2

def operationStep (op : BinaryOp) (pending : List Pending) : Step :=
  .next (unwind op.level pending).1 ⟨.operand false, awaiting op pending⟩

def closingStep (pending : List Pending) (token : Token) : Step :=
  match (unwind 0 pending).2 with
  | .group negated :: outer => .next ((unwind 0 pending).1 ++ negation negated) ⟨.operator, outer⟩
  | _ => .failed (.unexpected token .finish)

def finishStep (pending : List Pending) (token : Token) : Step :=
  match (unwind 0 pending).2 with
  | [] => .done (unwind 0 pending).1
  | _ => .failed (.unexpected token .closing)

def Rules.operatorStep (rules : Rules) (pending : List Pending) (token : Token) : Step :=
  match token.kind with
  | .caret => rules.enter (.operation .pow :: pending)
  | .star => operationStep .mul pending
  | .slash => operationStep .div pending
  | .plus => operationStep .add pending
  | .minus => operationStep .sub pending
  | .number =>
      (rules.operandStep false (awaiting .mul pending) token).after (unwind BinaryOp.mul.level pending).1
  | .opening =>
      (rules.operandStep false (awaiting .mul pending) token).after (unwind BinaryOp.mul.level pending).1
  | .closing => closingStep pending token
  | .finish => finishStep pending token

def Rules.step (rules : Rules) (state : State) (token : Token) : Step :=
  match state.place with
  | .operand negated => rules.operandStep negated state.pending token
  | .operator => rules.operatorStep state.pending token

def Rules.run (rules : Rules) (state : State) : List Token → Except ParseError (List Item)
  | [] => .error .noFinish
  | token :: rest =>
      match rules.step state token with
      | .next written after => (rules.run after rest).map (written ++ ·)
      | .done written => .ok written
      | .failed error => .error error

-- The sequence must end with an end of input, even if another one comes before it.
def endsWithFinish (tokens : List Token) : Bool :=
  match tokens.getLast? with
  | some token => token.kind = .finish
  | none => false

def Rules.parse (rules : Rules) (tokens : List Token) : Except ParseError (List Item) :=
  if endsWithFinish tokens then rules.run .start tokens else .error .noFinish

end Reckon
