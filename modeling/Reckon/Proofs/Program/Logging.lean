import Reckon.Proofs.Number.Plain
import Reckon.Proofs.Program.CommandLine
import Reckon.Proofs.Rpn.Canonical

set_option autoImplicit false

namespace Reckon

open Number (Format Scalar drop_point_zero_cut findFormat)

-- The lines of a log, and how the command line ends then without one.
inductive Logged (args : List String) (quiet : Outcome) : List String → Prop
  | noWords (none : args = []) (usage : quiet.status = 1) : Logged args quiet []
  | noPostfix {failure : Failure} (given : args ≠ [])
      (failed : rpnOf {} (String.intercalate " " args) = .error failure) (reported : quiet.status = 2) :
      Logged args quiet []
  | noValue {tokens : List Token} {items : List Item} {span : Span} (given : args ≠ [])
      (scanned : scan (String.intercalate " " args) = .ok tokens) (parsed : parse {} tokens = .ok items)
      (malformed : evaluate (.floating .double) items = .error (.malformed span)) (reported : quiet.status = 2) :
      Logged args quiet
        ["DEBUG rpnexpr.parser: parsed " ++ toString tokens.length ++ " tokens into " ++ toString items.length ++
          " RPN tokens\n"]
  | answered {tokens : List Token} {items : List Item} {scalar : Scalar} (given : args ≠ [])
      (scanned : scan (String.intercalate " " args) = .ok tokens) (parsed : parse {} tokens = .ok items)
      (evaluated : evaluate (.floating .double) items = .ok scalar) (answer : quiet.status = 0)
      (written : quiet.stdout = "Input: " ++ String.intercalate " " args ++ "\nRPN: " ++ format items ++
        "\nOutput: " ++ scalar.brief ++ "\n")
      (words : ((format items).toList.splitOn ' ').length = items.length)
      (value : scalar.text = scalar.brief ∨ scalar.text = scalar.brief ++ ".0") :
      Logged args quiet
        ["DEBUG rpnexpr.parser: parsed " ++ toString tokens.length ++ " tokens into " ++ toString items.length ++
          " RPN tokens\n",
        "DEBUG rpnexpr.evaluator: evaluated " ++ toString items.length ++ " RPN tokens as float64: " ++ scalar.text ++
          "\n"]

theorem report_log (log source : String) :
    (report log source).status = (report "" source).status ∧
      (report log source).stdout = (report "" source).stdout ∧
      (report log source).stderr = log ++ (report "" source).stderr := by
  rw [report, report]
  cases calculate {} source with
  | ok answer => exact ⟨rfl, rfl, String.append_empty.symm⟩
  | error failure =>
      by_cases inExpression : failure.inExpression = true
      · simp only [if_pos inExpression, String.append_assoc, String.empty_append, and_self]
      · simp only [if_neg inExpression, String.append_assoc, String.empty_append, and_self]

theorem text_cut (scalar : Scalar) : scalar.text = scalar.brief ∨ scalar.text = scalar.brief ++ ".0" := by
  rcases drop_point_zero_cut (scalar.format.chars scalar.value) with same | cut
  · exact .inl (congrArg String.ofList same)
  · exact .inr ((congrArg String.ofList cut).trans String.ofList_append)

variable {options : Options} {source : String} {items : List Item}

theorem rpn_words (parsed : rpnOf options source = .ok items) :
    ((format items).toList.splitOn ' ').length = items.length := by
  have some : items ≠ [] := by
    rintro rfl
    rcases rpn_evaluates parsed (rfl : findFormat (.floating .double) = .ok .double) with ⟨_, evaluated⟩ | ⟨_, malformed⟩
    · cases evaluated
    · cases malformed
  rw [format_words (rpn_numeric parsed) some, List.length_map]

theorem unanswered_status {failure : Failure} (failed : calculate {} source = .error failure) :
    (report "" source).status = 2 := by
  have rejected : ¬ Accepted source := by
    intro accepted
    obtain ⟨items, scalar, -, -, answered⟩ := accepted_answer accepted
    cases failed.symm.trans answered
  obtain ⟨_, -, -, -, reported⟩ := report_rejected "" rejected
  rw [reported]

theorem double_line (items : List Item) (scalar : Scalar) (double : scalar.format.name = "float64") :
    evaluatedLine items scalar =
      "DEBUG rpnexpr.evaluator: evaluated " ++ toString items.length ++ " RPN tokens as float64: " ++ scalar.text ++
        "\n" := by
  have joined : " RPN tokens as " ++ "float64" ++ ": " = " RPN tokens as float64: " := rfl
  have named (before after : String) :
      before ++ " RPN tokens as " ++ "float64" ++ ": " ++ after = before ++ " RPN tokens as float64: " ++ after := by
    rw [← joined, ← String.append_assoc, ← String.append_assoc]
  unfold evaluatedLine
  rw [double, named]

theorem source_logged {args : List String} (given : args ≠ []) :
    Logged args (report "" (String.intercalate " " args)) (logLines {} (String.intercalate " " args)) := by
  generalize sourceEq : String.intercalate " " args = source
  cases postfixForm : rpnOf {} source with
  | error failure =>
      have failed : calculate {} source = .error failure := calculate_failed postfixForm
      rw [log_failed postfixForm]
      exact .noPostfix given (sourceEq ▸ postfixForm) (unanswered_status failed)
  | ok items =>
      obtain ⟨tokens, scanned, parsed⟩ := rpn_stages_done postfixForm
      rcases rpn_evaluates postfixForm (rfl : findFormat (.floating .double) = .ok .double) with
        ⟨value, evaluated⟩ | ⟨span, malformed⟩
      · have answered : calculate {} source = .ok ⟨⟨.double, value⟩, format items⟩ :=
          calculate_evaluated postfixForm evaluated
        have lines : logLines {} source = [parsedLine tokens items, evaluatedLine items ⟨.double, value⟩] :=
          log_evaluated scanned parsed evaluated
        have reported : report "" source = ⟨0, answerText source ⟨⟨.double, value⟩, format items⟩, ""⟩ := by
          rw [report, answered]
        rw [lines, reported, double_line _ _ rfl]
        subst sourceEq
        exact .answered given scanned parsed evaluated rfl rfl (rpn_words postfixForm) (text_cut _)
      · have failed : calculate {} source = .error (.eval (.malformed span)) :=
          calculate_unevaluated postfixForm malformed
        have line : logLines {} source = [parsedLine tokens items] := log_unevaluated scanned parsed malformed
        rw [line]
        exact .noValue given (sourceEq ▸ scanned) parsed malformed (unanswered_status failed)

theorem log_comes_first (args : List String) (request : String) (asks : request = "-v" ∨ request = "--verbose")
    (silent : asksForLog args = false) :
    let quiet := commandLine args
    let logged := commandLine (request :: args)
    logged.status = quiet.status ∧ logged.stdout = quiet.stdout ∧
      ∃ lines, logged.stderr = String.join lines ++ quiet.stderr ∧ Logged args quiet lines := by
  intro quiet logged
  have asked : asksForLog (request :: args) = true := by
    rcases asks with rfl | rfl <;> rfl
  have words : wordsOf args = args := if_neg (by simp [silent])
  have alsoWords : wordsOf (request :: args) = args := if_pos asked
  by_cases none : args = []
  · have usageLine : quiet = ⟨1, "", usage⟩ := command_line_usage (words.trans none)
    have alsoUsage : logged = ⟨1, "", usage⟩ := command_line_usage (alsoWords.trans none)
    rw [usageLine, alsoUsage]
    exact ⟨rfl, rfl, [], rfl, .noWords none rfl⟩
  · have reported : quiet = report "" (String.intercalate " " args) := by
      have noLog : logOf args = "" := if_neg (by simp [silent])
      have source : sourceOf args = String.intercalate " " args := by rw [sourceOf, words]
      rw [← noLog, ← source]
      exact command_line_report (words.symm ▸ none)
    have alsoReported : logged =
        report (String.join (logLines {} (String.intercalate " " args))) (String.intercalate " " args) := by
      have source : sourceOf (request :: args) = String.intercalate " " args := by rw [sourceOf, alsoWords]
      have log : logOf (request :: args) = String.join (logLines {} (String.intercalate " " args)) := by
        rw [logOf, if_pos asked, source]
      rw [← log, ← source]
      exact command_line_report (alsoWords.symm ▸ none)
    rw [alsoReported, reported]
    obtain ⟨status, stdout, stderr⟩ := report_log (String.join (logLines {} (String.intercalate " " args)))
      (String.intercalate " " args)
    exact ⟨status, stdout, _, stderr, source_logged none⟩

theorem product_logged_in_two_lines :
    commandLine ["2", "*-(7)"] = ⟨0, "Input: 2 *-(7)\nRPN: 2 7 neg *\nOutput: -14\n", ""⟩ ∧
      (commandLine ["-v", "2", "*-(7)"]).status = 0 ∧
      (commandLine ["-v", "2", "*-(7)"]).stdout = "Input: 2 *-(7)\nRPN: 2 7 neg *\nOutput: -14\n" ∧
      ∃ lines, (commandLine ["-v", "2", "*-(7)"]).stderr = String.join lines ∧ lines.length = 2 := by
  have plain : commandLine ["2", "*-(7)"] = ⟨0, "Input: 2 *-(7)\nRPN: 2 7 neg *\nOutput: -14\n", ""⟩ := by
    decide +kernel
  obtain ⟨status, stdout, lines, stderr, logged⟩ := log_comes_first ["2", "*-(7)"] "-v" (.inl rfl) rfl
  rw [plain] at status stdout stderr logged
  refine ⟨plain, status, stdout, lines, stderr.trans String.append_empty, ?_⟩
  -- The status rules out every other end.
  cases logged with
  | noWords _ usage => cases usage
  | noPostfix _ _ reported => cases reported
  | noValue _ _ _ _ reported => cases reported
  | answered => rfl

end Reckon
