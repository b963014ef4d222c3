import Reckon.Proofs.Number.Closure
import Reckon.Proofs.Number.Plain
import Reckon.Proofs.Program.CommandLine
import Reckon.Proofs.Tree.Printing

set_option autoImplicit false

namespace Reckon

open Number

def Outcome.Shows (outcome : Outcome) (text : String) : Prop :=
  (∃ lines, outcome.stdout = lines ++ "\nOutput: " ++ text ++ "\n") ∧ '\n' ∉ text.toList

theorem last_line {before other line another : List Char} (same : before ++ '\n' :: line = other ++ '\n' :: another)
    (single : '\n' ∉ line) (alsoSingle : '\n' ∉ another) : line = another := by
  rcases List.append_eq_append_iff.mp same with ⟨between, -, rest⟩ | ⟨between, -, rest⟩
  · cases between with
    | nil => exact (List.cons.inj rest).2
    | cons c between =>
        refine absurd ?_ single
        rw [(List.cons.inj rest).2]
        simp
  · cases between with
    | nil => exact (List.cons.inj rest).2.symm
    | cons c between =>
        refine absurd ?_ alsoSingle
        rw [(List.cons.inj rest).2]
        simp

theorem shown_once {outcome : Outcome} {text other : String} (shown : outcome.Shows text)
    (alsoShown : outcome.Shows other) : text = other := by
  obtain ⟨⟨lines, written⟩, single⟩ := shown
  obtain ⟨⟨otherLines, alsoWritten⟩, alsoSingle⟩ := alsoShown
  have same : (lines ++ "\nOutput: " ++ text ++ "\n").toList = (otherLines ++ "\nOutput: " ++ other ++ "\n").toList :=
    congrArg String.toList (written.symm.trans alsoWritten)
  simp only [String.toList_append] at same
  have cut := List.append_cancel_right same
  rw [List.append_assoc, List.append_assoc] at cut
  have label : "\nOutput: ".toList = '\n' :: "Output: ".toList := by decide
  rw [label, List.cons_append, List.cons_append] at cut
  have line := last_line cut (by simp [single]) (by simp [alsoSingle])
  exact String.toList_inj.mp (List.append_cancel_left line)

variable {run : List Char} {magnitude value : Value}

theorem signed_run_scanned (negative : Bool) (someChars : run ≠ []) (numeric : ∀ c ∈ run, isNumberChar c = true) :
    ∃ body finish, scan (String.ofList (signed negative run)) = .ok (body ++ [finish]) ∧ finish.kind = .finish ∧
      body.map Token.written = (if negative then [(.minus, ['-'])] else []) ++ [(.number, run)] := by
  apply spelled_scan
  have spelled := Spells.number someChars numeric (fun c head => by cases head) .done
  rw [List.append_nil] at spelled
  cases negative with
  | false => exact spelled
  | true => exact .symbol rfl spelled

theorem signed_run_parsed (negative : Bool) (someChars : run ≠ []) (numeric : ∀ c ∈ run, isNumberChar c = true) :
    ∃ span, span.chars = run ∧
      rpnOf {} (String.ofList (signed negative run)) = .ok (.number span :: negation negative) := by
  obtain ⟨body, finish, scanned, isFinish, written⟩ := signed_run_scanned negative someChars numeric
  have ends := ends_with_finish body finish isFinish
  cases negative with
  | false =>
      obtain ⟨token, one, same⟩ := List.map_eq_singleton_iff.mp written
      obtain ⟨kind, chars⟩ := Prod.mk.inj same
      subst one
      have ran : (Options.rules {}).run .start ([token] ++ [finish]) = .ok [.number token.span] := by
        simp [Rules.run, State.start, Rules.step, Rules.operandStep, kind, Rules.operatorStep, isFinish, finishStep,
          unwind, negation, Except.map]
      refine ⟨token.span, chars, ?_⟩
      exact rpn_parsed scanned (by simp only [parse, Rules.parse, if_pos ends, ran]; rfl)
  | true =>
      obtain ⟨sign, rest, two, isMinus, follows⟩ := List.map_eq_cons_iff.mp written
      obtain ⟨token, one, same⟩ := List.map_eq_singleton_iff.mp follows
      obtain ⟨minus, -⟩ := Prod.mk.inj isMinus
      obtain ⟨kind, chars⟩ := Prod.mk.inj same
      subst two one
      have ran : (Options.rules {}).run .start ([sign, token] ++ [finish]) = .ok [.number token.span, .negate] := by
        simp [Rules.run, State.start, Rules.step, Rules.operandStep, minus, kind, Rules.operatorStep, isFinish,
          finishStep, unwind, negation, Except.map]
      refine ⟨token.span, chars, ?_⟩
      exact rpn_parsed scanned (by simp only [parse, Rules.parse, if_pos ends, ran]; rfl)

theorem signed_run_calculated (negative : Bool) (someChars : run ≠ []) (numeric : ∀ c ∈ run, isNumberChar c = true)
    (read : Format.double.read run = some magnitude) :
    ∃ rpn, calculate {} (String.ofList (signed negative run)) =
      .ok ⟨⟨.double, if negative then magnitude.negate else magnitude⟩, rpn⟩ := by
  obtain ⟨span, chars, parsed⟩ := signed_run_parsed negative someChars numeric
  have evaluated : evaluate (.floating .double) (.number span :: negation negative) =
      .ok ⟨.double, if negative then magnitude.negate else magnitude⟩ := by
    rw [← chars] at read
    cases negative <;>
      simp [evaluate, findFormat, evaluateIn, performAll, perform, read, negation, List.foldlM, bind, Except.bind, pure,
        Except.pure]
  refine ⟨format (.number span :: negation negative), ?_⟩
  exact calculate_evaluated parsed evaluated

theorem plain_brief_calculated (held : Format.double.grid.Holds value) (plain : value.Plain) :
    ∃ rpn, calculate {} (Scalar.brief ⟨.double, value⟩) = .ok ⟨⟨.double, value⟩, rpn⟩ := by
  obtain ⟨negative, run, magnitude, text, someChars, numeric, read, same⟩ := plain_read_back held plain
  obtain ⟨rpn, calculated⟩ := signed_run_calculated negative someChars numeric read
  refine ⟨rpn, ?_⟩
  rw [Scalar.brief, text, calculated, ← same]

theorem brief_chars (format : Format) (value : Value) :
    (Scalar.brief ⟨format, value⟩).toList = dropPointZero (format.chars value) := String.toList_ofList

theorem brief_without (format : Format) (value : Value) (c : Char) (noDigit : c.isDigit = false)
    (foreign : c ∉ valueChars) : c ∉ (Scalar.brief ⟨format, value⟩).toList := by
  intro member
  rw [brief_chars] at member
  rcases writes_brief format value c member with digit | known
  · rw [noDigit] at digit
    cases digit
  · exact foreign known

theorem other_brief_refused (held : Format.double.grid.Holds value) (notPlain : ¬ value.Plain) :
    ∃ error, scan (Scalar.brief ⟨.double, value⟩) = .error error := by
  obtain ⟨c, member, letter⟩ := not_plain_brief held notPlain
  have noEnd := brief_without .double value '\x00' rfl (by decide)
  have whole : sourceEnd (Scalar.brief ⟨.double, value⟩).toList = (Scalar.brief ⟨.double, value⟩).toList.length :=
    List.idxOf_eq_length noEnd
  have inText : c ∈ (Scalar.brief ⟨.double, value⟩).toList.take
      (sourceEnd (Scalar.brief ⟨.double, value⟩).toList) := by
    rw [whole, List.take_length, brief_chars]
    exact member
  obtain ⟨index, d, -, -, -, -, stopped⟩ := scan_invalid _ c inText (letters_differ alphabet rfl c letter)
  exact ⟨_, stopped⟩

theorem brief_alone (value : Value) :
    commandLine [Scalar.brief ⟨.double, value⟩] = report "" (Scalar.brief ⟨.double, value⟩) := by
  have noRequest : asksForLog [Scalar.brief ⟨.double, value⟩] = false := by
    have noV := brief_without .double value 'v' rfl (by decide)
    have short : Scalar.brief ⟨.double, value⟩ ≠ "-v" := by
      intro same
      rw [same] at noV
      exact noV (by decide)
    have long : Scalar.brief ⟨.double, value⟩ ≠ "--verbose" := by
      intro same
      rw [same] at noV
      exact noV (by decide)
    simp [asksForLog, short, long]
  have given : wordsOf [Scalar.brief ⟨.double, value⟩] ≠ [] := by simp [wordsOf, noRequest]
  have source : sourceOf [Scalar.brief ⟨.double, value⟩] = Scalar.brief ⟨.double, value⟩ := by
    rw [sourceOf, wordsOf, noRequest]
    rfl
  rw [command_line_report given, source, logOf, noRequest]
  rfl

theorem double_evaluated {items : List Item} {scalar : Scalar} (evaluated : evaluate (.floating .double) items = .ok scalar) :
    ∃ value, scalar = ⟨.double, value⟩ ∧ Format.double.grid.Holds value := by
  simp only [evaluate, findFormat] at evaluated
  cases outcome : evaluateIn .double items with
  | error error => simp [outcome] at evaluated
  | ok value =>
      rw [outcome] at evaluated
      exact ⟨value, (Except.ok.inj evaluated).symm, evaluate_held outcome⟩

theorem answer_shown {args : List String} (answered : (commandLine args).status = 0) :
    ∃ value rpn, calculate {} (sourceOf args) = .ok ⟨⟨.double, value⟩, rpn⟩ ∧ Format.double.grid.Holds value ∧
      (commandLine args).Shows (Scalar.brief ⟨.double, value⟩) := by
  have given : wordsOf args ≠ [] := by
    intro none
    rw [command_line_usage none] at answered
    cases answered
  rw [command_line_report given] at answered ⊢
  have accepted := (report_status (logOf args) (sourceOf args)).mp answered
  obtain ⟨items, scalar, -, evaluated, calculated⟩ := accepted_answer accepted
  obtain ⟨value, same, held⟩ := double_evaluated evaluated
  subst same
  refine ⟨value, format items, calculated, held, ⟨"Input: " ++ sourceOf args ++ "\nRPN: " ++ format items, ?_⟩, ?_⟩
  · rw [report, calculated]
    rfl
  · exact brief_without .double value '\n' rfl (by decide)

-- The text of an answer, given as the only argument, has the same value and is answered with the same text, if the
-- value is plain. Otherwise it cannot be scanned.
theorem answer_fed_back (args : List String) (text : String) (answered : (commandLine args).status = 0)
    (shown : (commandLine args).Shows text) :
    ∃ value rpn, calculate {} (sourceOf args) = .ok ⟨⟨.double, value⟩, rpn⟩ ∧
      (value.Plain → ∃ again, calculate {} text = .ok ⟨⟨.double, value⟩, again⟩ ∧
        commandLine [text] = ⟨0, "Input: " ++ text ++ "\nRPN: " ++ again ++ "\nOutput: " ++ text ++ "\n", ""⟩) ∧
      (¬ value.Plain → ∃ error, scan text = .error error ∧
        commandLine [text] = ⟨2, "", "error: " ++ error.message ++ "\n"⟩) := by
  obtain ⟨value, rpn, calculated, held, showsBrief⟩ := answer_shown answered
  obtain rfl := shown_once shown showsBrief
  refine ⟨value, rpn, calculated, fun plain => ?_, fun notPlain => ?_⟩
  · obtain ⟨again, recalculated⟩ := plain_brief_calculated held plain
    refine ⟨again, recalculated, ?_⟩
    rw [brief_alone, report, recalculated]
    rfl
  · obtain ⟨error, refused⟩ := other_brief_refused held notPlain
    refine ⟨error, refused, ?_⟩
    rw [brief_alone, report, calculate_unscanned refused]
    rfl

theorem minus_zero_fed_back :
    (commandLine ["-v", "0*-8"]).Shows "-0" ∧
      (∃ again, calculate {} "-0" = .ok ⟨⟨.double, .finite true 0 (-1074)⟩, again⟩) ∧
      (commandLine ["-1", "/0"]).Shows "-inf" ∧
      ∃ error, commandLine ["-inf"] = ⟨2, "", "error: " ++ ScanError.message error ++ "\n"⟩ := by
  have shown : (commandLine ["-v", "0*-8"]).Shows "-0" := ⟨⟨"Input: 0*-8\nRPN: 0 8 neg *", rfl⟩, by decide⟩
  have known : calculate {} (sourceOf ["-v", "0*-8"]) = .ok ⟨⟨.double, .finite true 0 (-1074)⟩, "0 8 neg *"⟩ := rfl
  have alsoShown : (commandLine ["-1", "/0"]).Shows "-inf" :=
    ⟨⟨"Input: -1 /0\nRPN: 1 neg 0 /", rfl⟩, by decide⟩
  have alsoKnown : calculate {} (sourceOf ["-1", "/0"]) = .ok ⟨⟨.double, .infinite true⟩, "1 neg 0 /"⟩ := rfl
  obtain ⟨value, rpn, calculated, kept, -⟩ := answer_fed_back _ "-0" rfl shown
  obtain ⟨other, otherRpn, recalculated, -, refused⟩ := answer_fed_back _ "-inf" rfl alsoShown
  rw [known] at calculated
  rw [alsoKnown] at recalculated
  cases calculated
  cases recalculated
  obtain ⟨again, same, -⟩ := kept (.inl rfl)
  obtain ⟨error, -, reported⟩ := refused id
  exact ⟨shown, ⟨again, same⟩, alsoShown, error, reported⟩

end Reckon
