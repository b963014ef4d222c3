import Reckon.Options
import Reckon.Rpn.Depth
import Reckon.Rpn.Machine
import Reckon.Token.Scan

set_option autoImplicit false

namespace Reckon

open Number (Scalar TypeRequest)

inductive Failure where
  | scan (error : ScanError)
  | parse (error : ParseError)
  | eval (error : EvalError)
deriving DecidableEq, Repr

def Failure.message : Failure → String
  | .scan error => error.message
  | .parse error => error.message
  | .eval error => error.message

-- Whether the expression is at fault, and not the request: a sequence built by hand, an option.
def Failure.inExpression : Failure → Bool
  | .scan _ => true
  | .parse (.unexpected ..) => true
  | .parse (.tooDeep _) => true
  | .parse .outOfFrames => true
  | .parse .noFinish => false
  | .parse (.incomparable _) => false
  | .eval (.format _) => false
  | .eval (.malformed _) => true
  | .eval (.underflow _) => true
  | .eval (.leftover _) => true

structure Stage (α : Type) where
  lines : List String
  outcome : Except Failure α

def Stage.of {α ε : Type} (fault : ε → Failure) (lines : α → List String) : Except ε α → Stage α
  | .error error => ⟨[], .error (fault error)⟩
  | .ok value => ⟨lines value, .ok value⟩

def Stage.andThen {α β : Type} (first : Stage α) (next : α → Stage β) : Stage β :=
  match first.outcome with
  | .error failure => ⟨first.lines, .error failure⟩
  | .ok value => ⟨first.lines ++ (next value).lines, (next value).outcome⟩

def parsedLine (tokens : List Token) (items : List Item) : String :=
  "DEBUG rpnexpr.parser: parsed " ++ toString tokens.length ++ " tokens into "
    ++ toString items.length ++ " RPN tokens\n"

def evaluatedLine (items : List Item) (scalar : Scalar) : String :=
  "DEBUG rpnexpr.evaluator: evaluated " ++ toString items.length ++ " RPN tokens as "
    ++ scalar.format.name ++ ": " ++ scalar.text ++ "\n"

structure Answer where
  scalar : Scalar
  text : String
deriving DecidableEq, Repr

def scanStage (source : String) : Stage (List Token) :=
  .of .scan (fun _ => []) (scan source)

def parseStage (options : Options) (tokens : List Token) : Stage (List Item) :=
  .of .parse (fun items => [parsedLine tokens items]) (parse options tokens)

def evaluateStage (request : TypeRequest) (items : List Item) : Stage Answer :=
  .of .eval (fun answer => [evaluatedLine items answer.scalar])
    ((evaluate request items).map fun scalar => ⟨scalar, format items⟩)

def rpnStages (options : Options) (source : String) : Stage (List Item) :=
  (scanStage source).andThen (parseStage options)

def calculateStages (options : Options) (source : String) : Stage Answer :=
  (rpnStages options source).andThen (evaluateStage options.request)

/-- The postfix form of a text. -/
def rpnOf (options : Options) (source : String) : Except Failure (List Item) :=
  (rpnStages options source).outcome

def calculate (options : Options) (source : String) : Except Failure Answer :=
  (calculateStages options source).outcome

def logLines (options : Options) (source : String) : List String :=
  (calculateStages options source).lines

section Stages

variable {options : Options} {source : String} {tokens : List Token} {items : List Item}

theorem rpn_stages_unscanned {error : ScanError} (stopped : scan source = .error error) :
    rpnStages options source = ⟨[], .error (.scan error)⟩ := by
  simp only [rpnStages, scanStage, stopped, Stage.of, Stage.andThen]

theorem rpn_stages_unparsed {error : ParseError} (scanned : scan source = .ok tokens)
    (failed : parse options tokens = .error error) :
    rpnStages options source = ⟨[], .error (.parse error)⟩ := by
  simp only [rpnStages, scanStage, scanned, parseStage, failed, Stage.of, Stage.andThen, List.append_nil]

theorem rpn_stages_parsed (scanned : scan source = .ok tokens) (parsed : parse options tokens = .ok items) :
    rpnStages options source = ⟨[parsedLine tokens items], .ok items⟩ := by
  simp only [rpnStages, scanStage, scanned, parseStage, parsed, Stage.of, Stage.andThen, List.nil_append]

theorem rpn_stages_failed {failure : Failure} (failed : rpnOf options source = .error failure) :
    rpnStages options source = ⟨[], .error failure⟩ := by
  cases scanned : scan source with
  | error error =>
      have stages : rpnStages options source = _ := rpn_stages_unscanned scanned
      rw [rpnOf, stages] at failed
      cases failed
      exact stages
  | ok tokens =>
      cases parsed : parse options tokens with
      | error error =>
          have stages := rpn_stages_unparsed scanned parsed
          rw [rpnOf, stages] at failed
          cases failed
          exact stages
      | ok items =>
          rw [rpnOf, rpn_stages_parsed scanned parsed] at failed
          cases failed

theorem rpn_stages_done (done : rpnOf options source = .ok items) :
    ∃ tokens, scan source = .ok tokens ∧ parse options tokens = .ok items := by
  cases scanned : scan source with
  | error error =>
      rw [rpnOf, rpn_stages_unscanned scanned] at done
      cases done
  | ok tokens =>
      cases parsed : parse options tokens with
      | error error =>
          rw [rpnOf, rpn_stages_unparsed scanned parsed] at done
          cases done
      | ok read =>
          rw [rpnOf, rpn_stages_parsed scanned parsed] at done
          cases done
          exact ⟨tokens, rfl, parsed⟩

theorem rpn_unscanned {error : ScanError} (stopped : scan source = .error error) :
    rpnOf options source = .error (.scan error) :=
  congrArg Stage.outcome (rpn_stages_unscanned stopped)

theorem rpn_unparsed {error : ParseError} (scanned : scan source = .ok tokens)
    (failed : parse options tokens = .error error) : rpnOf options source = .error (.parse error) :=
  congrArg Stage.outcome (rpn_stages_unparsed scanned failed)

theorem rpn_parsed (scanned : scan source = .ok tokens) (parsed : parse options tokens = .ok items) :
    rpnOf options source = .ok items :=
  congrArg Stage.outcome (rpn_stages_parsed scanned parsed)

theorem stages_failed {failure : Failure} (failed : rpnOf options source = .error failure) :
    calculateStages options source = ⟨[], .error failure⟩ := by
  simp only [calculateStages, rpn_stages_failed failed, Stage.andThen]

theorem calculate_failed {failure : Failure} (failed : rpnOf options source = .error failure) :
    calculate options source = .error failure :=
  congrArg Stage.outcome (stages_failed failed)

theorem log_failed {failure : Failure} (failed : rpnOf options source = .error failure) :
    logLines options source = [] :=
  congrArg Stage.lines (stages_failed failed)

theorem calculate_done (done : rpnOf options source = .ok items) :
    calculate options source = (evaluateStage options.request items).outcome := by
  rw [rpnOf] at done
  simp only [calculate, calculateStages, Stage.andThen, done]

theorem calculate_unevaluated {error : EvalError} (done : rpnOf options source = .ok items)
    (failed : evaluate options.request items = .error error) :
    calculate options source = .error (.eval error) := by
  rw [calculate_done done, evaluateStage, failed]
  rfl

theorem calculate_evaluated {scalar : Scalar} (done : rpnOf options source = .ok items)
    (evaluated : evaluate options.request items = .ok scalar) :
    calculate options source = .ok ⟨scalar, format items⟩ := by
  rw [calculate_done done, evaluateStage, evaluated]
  rfl

theorem log_unevaluated {error : EvalError} (scanned : scan source = .ok tokens)
    (parsed : parse options tokens = .ok items) (failed : evaluate options.request items = .error error) :
    logLines options source = [parsedLine tokens items] := by
  simp only [logLines, calculateStages, rpn_stages_parsed scanned parsed, Stage.andThen, evaluateStage, failed,
    Except.map, Stage.of, List.append_nil]

theorem log_evaluated {scalar : Scalar} (scanned : scan source = .ok tokens)
    (parsed : parse options tokens = .ok items) (evaluated : evaluate options.request items = .ok scalar) :
    logLines options source = [parsedLine tokens items, evaluatedLine items scalar] := by
  simp only [logLines, calculateStages, rpn_stages_parsed scanned parsed, Stage.andThen, evaluateStage, evaluated,
    Except.map, Stage.of, List.singleton_append]

end Stages

end Reckon
