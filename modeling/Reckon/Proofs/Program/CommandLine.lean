import Reckon.CommandLine
import Reckon.Proofs.Grammar.Derivation
import Reckon.Proofs.Program.Outcome

set_option autoImplicit false

namespace Reckon

open Number (Scalar findFormat)

structure Accepted (source : String) : Prop where
  known : ∀ c ∈ source.toList.take (sourceEnd source.toList), c ∈ alphabet
  sentence : ∃ tokens, scan source = .ok tokens ∧
    Derives (fun path => path.levels ≤ 64) true .expression .root ((beforeFinish tokens).map Token.kind) ∧
    ∀ span ∈ numberSpans tokens, Legible span.chars

def Path.Light (path : Path) : Prop := path.frames ≤ 6 * path.levels

theorem light_group {path : Path} (light : path.Light) : path.inGroup.Light := by
  simp only [Path.Light, Path.inGroup] at light ⊢
  omega

theorem light_power {path : Path} (light : path.Light) : path.inPower.Light := by
  simp only [Path.Light, Path.inPower] at light ⊢
  omega

theorem phrase_light {allowed permitted : Path → Prop} {plus : Bool} {level : Nat} {path : Path}
    {word : List Token} {items : List Item} (phrase : Phrase allowed plus level path word items) (light : path.Light)
    (permits : ∀ inner : Path, inner.Light → 0 < inner.levels → allowed inner → permitted inner) :
    Phrase permitted plus level path word items := by
  induction phrase with
  | tighter _ ih => exact .tighter (ih light)
  | chain atLevel joined _ _ beforeIh afterIh => exact .chain atLevel joined (beforeIh light) (afterIh light)
  | power sign fits _ _ beforeIh afterIh =>
      have deeper := light_power light
      exact .power sign (permits _ deeper (Nat.succ_pos _) fits) (beforeIh light) (afterIh deeper)
  | number signed isNumber => exact .number signed isNumber
  | group signed opens closes fits _ ih =>
      have deeper := light_group light
      exact .group signed opens closes (permits _ deeper (Nat.succ_pos _) fits) (ih deeper)

-- The frames of 64 levels stay below their bound, so the limit on levels is the only one.
theorem default_parse_iff (tokens : List Token) (ends : endsWithFinish tokens = true) :
    (∃ items, parse {} tokens = .ok items) ↔
      Derives (fun path => path.levels ≤ 64) true .expression .root ((beforeFinish tokens).map Token.kind) := by
  have admits (path : Path) (nested : 0 < path.levels) :=
    admits_whole_iff (.floating .double) 64 (.quantity (.flag true)) path nested
  constructor
  · rintro ⟨items, parsed⟩
    refine parsed_derives ends parsed fun outer inner within nested admitted => ?_
    obtain ⟨levels, -⟩ := (admits inner nested).mp admitted
    have outward := within.1
    omega
  · intro derives
    obtain ⟨items, phrase⟩ := derived_readable derives (beforeFinish tokens) rfl
    refine ⟨items, (parse_ok_iff _ tokens items ends).mpr ?_⟩
    refine phrase_light phrase (Nat.zero_le _) fun inner light nested few => (admits inner nested).mpr ?_
    simp only [FitsLimit, Path.Light] at light ⊢
    omega

variable {source : String}

theorem accepted_answer (accepted : Accepted source) :
    ∃ items scalar, rpnOf {} source = .ok items ∧ evaluate (.floating .double) items = .ok scalar ∧
      calculate {} source = .ok ⟨scalar, format items⟩ := by
  obtain ⟨tokens, text⟩ := scanned_known accepted.known
  obtain ⟨others, same, derives, legible⟩ := accepted.sentence
  obtain rfl : tokens = others := Except.ok.inj (text.scanned.symm.trans same)
  obtain ⟨items, parsed⟩ := (default_parse_iff tokens (scanned_ends text)).mpr derives
  have decided := calculate_decided {} text
  have first := (first_illegible_none tokens).mpr legible
  simp only [Decided, parsed, findFormat, first] at decided
  obtain ⟨value, evaluated, answer⟩ := decided
  exact ⟨items, ⟨.double, value⟩, rpn_scanned text parsed, by simp only [evaluate, findFormat, evaluated], answer⟩

def PartialLog (source : String) (lines : List String) : Prop :=
  lines = [] ∨
    ∃ tokens items, scan source = .ok tokens ∧ parse {} tokens = .ok items ∧ lines = [parsedLine tokens items]

theorem possible_in_expression {error : ParseError} (possible : error.Possible {}) :
    (Failure.parse error).inExpression = true := by
  cases error with
  | noFinish => exact possible.elim
  | incomparable limit =>
      obtain ⟨isLimit, noQuantity⟩ := possible
      exact absurd isLimit.symm (noQuantity _)
  | _ => rfl

theorem rejected_failure (rejected : ¬ Accepted source) :
    ∃ failure, calculate {} source = .error failure ∧ failure.inExpression = true ∧
      PartialLog source (logLines {} source) := by
  rcases scanned_or_stopped source with ⟨known, tokens, text⟩ | ⟨error, stopped⟩
  · have decided := calculate_decided {} text
    unfold Decided at decided
    cases parsed : parse {} tokens with
    | error error =>
        rw [parsed] at decided
        refine ⟨.parse error, decided.2, possible_in_expression decided.1, .inl ?_⟩
        exact log_failed (rpn_unparsed text.scanned parsed)
    | ok items =>
        simp only [parsed, findFormat] at decided
        have outcome := evaluate_scanned text parsed .double
        cases first : firstIllegible tokens with
        | some span =>
            rw [first] at decided outcome
            have malformed : evaluate (.floating .double) items = .error (.malformed span) := by
              simp only [evaluate, findFormat, outcome]
            exact ⟨.eval (.malformed span), decided, rfl,
              .inr ⟨tokens, items, text.scanned, parsed, log_unevaluated text.scanned parsed malformed⟩⟩
        | none =>
            have derives := (default_parse_iff tokens (scanned_ends text)).mp ⟨items, parsed⟩
            have legible := (first_illegible_none tokens).mp first
            exact absurd ⟨known, tokens, text.scanned, derives, legible⟩ rejected
  · refine ⟨.scan error, calculate_unscanned stopped, rfl, .inl ?_⟩
    exact log_failed (rpn_unscanned stopped)

theorem report_accepted (log : String) (accepted : Accepted source) :
    ∃ items scalar, rpnOf {} source = .ok items ∧ evaluate (.floating .double) items = .ok scalar ∧
      report log source =
        ⟨0, "Input: " ++ source ++ "\nRPN: " ++ format items ++ "\nOutput: " ++ scalar.brief ++ "\n", log⟩ := by
  obtain ⟨items, scalar, postfixForm, evaluated, answered⟩ := accepted_answer accepted
  refine ⟨items, scalar, postfixForm, evaluated, ?_⟩
  rw [report, answered]
  rfl

theorem report_rejected (log : String) (rejected : ¬ Accepted source) :
    ∃ failure, calculate {} source = .error failure ∧ failure.inExpression = true ∧
      PartialLog source (logLines {} source) ∧
      report log source = ⟨2, "", log ++ "error: " ++ failure.message ++ "\n"⟩ := by
  obtain ⟨failure, failed, inExpression, broken⟩ := rejected_failure rejected
  refine ⟨failure, failed, inExpression, broken, ?_⟩
  rw [report, failed]
  exact if_pos inExpression

theorem report_status (log : String) (source : String) : (report log source).status = 0 ↔ Accepted source := by
  by_cases accepted : Accepted source
  · obtain ⟨items, scalar, -, -, reported⟩ := report_accepted log accepted
    rw [reported]
    exact iff_of_true rfl accepted
  · obtain ⟨failure, -, -, -, reported⟩ := report_rejected log accepted
    rw [reported]
    exact iff_of_false (by simp) accepted

def wordsOf (args : List String) : List String := if asksForLog args then args.drop 1 else args

def sourceOf (args : List String) : String := String.intercalate " " (wordsOf args)

def logOf (args : List String) : String :=
  if asksForLog args then String.join (logLines {} (sourceOf args)) else ""

theorem command_line_usage {args : List String} (none : wordsOf args = []) : commandLine args = ⟨1, "", usage⟩ :=
  if_pos (List.isEmpty_iff.mpr none)

theorem command_line_report {args : List String} (given : wordsOf args ≠ []) :
    commandLine args = report (logOf args) (sourceOf args) :=
  if_neg (mt List.isEmpty_iff.mp given)

theorem command_line_answers_or_reports (args : List String) :
    (wordsOf args = [] → commandLine args = ⟨1, "", usage⟩) ∧
      (wordsOf args ≠ [] → ((commandLine args).status = 0 ↔ Accepted (sourceOf args))) ∧
      (wordsOf args ≠ [] → Accepted (sourceOf args) →
        ∃ items scalar, rpnOf {} (sourceOf args) = .ok items ∧ evaluate (.floating .double) items = .ok scalar ∧
          commandLine args = ⟨0, "Input: " ++ sourceOf args ++ "\nRPN: " ++ format items ++ "\nOutput: " ++
            scalar.brief ++ "\n", logOf args⟩) ∧
      (wordsOf args ≠ [] → ¬ Accepted (sourceOf args) →
        ∃ failure, calculate {} (sourceOf args) = .error failure ∧ failure.inExpression = true ∧
          PartialLog (sourceOf args) (logLines {} (sourceOf args)) ∧
          commandLine args = ⟨2, "", logOf args ++ "error: " ++ failure.message ++ "\n"⟩) := by
  refine ⟨command_line_usage, ?_, ?_, ?_⟩
  · intro given
    rw [command_line_report given]
    exact report_status (logOf args) (sourceOf args)
  · intro given accepted
    rw [command_line_report given]
    exact report_accepted (logOf args) accepted
  · intro given rejected
    rw [command_line_report given]
    exact report_rejected (logOf args) rejected

theorem three_lines_of_arguments :
    commandLine ["--verbose"] = ⟨1, "", usage⟩ ∧ (commandLine ["2", "(-3)", "^4"]).status = 0 ∧
      ∃ message, commandLine ["-v", "2", "1.2.3"] =
        ⟨2, "", "DEBUG rpnexpr.parser: parsed 3 tokens into 3 RPN tokens\n" ++ "error: " ++ message ++ "\n"⟩ := by
  obtain ⟨none, -, -, -⟩ := command_line_answers_or_reports ["--verbose"]
  obtain ⟨-, accepts, -, -⟩ := command_line_answers_or_reports ["2", "(-3)", "^4"]
  obtain ⟨-, -, -, rejects⟩ := command_line_answers_or_reports ["-v", "2", "1.2.3"]
  have known : ("2 (-3) ^4".toList.take (sourceEnd "2 (-3) ^4".toList)).all (· ∈ alphabet) = true := by decide
  have accepted : Accepted "2 (-3) ^4" := by
    refine ⟨fun c member => ?_, _, rfl, (default_parse_iff _ ?_).mp ⟨_, rfl⟩, ?_⟩
    · simpa using List.all_eq_true.mp known c member
    · decide
    · decide
  have rejected : ¬ Accepted "2 1.2.3" := by
    rintro ⟨-, tokens, ⟨rfl⟩, -, legible⟩
    revert legible
    decide
  obtain ⟨failure, -, -, -, reported⟩ := rejects (List.cons_ne_nil _ _) rejected
  exact ⟨none rfl, (accepts (List.cons_ne_nil _ _)).mpr accepted, failure.message, reported⟩

end Reckon
