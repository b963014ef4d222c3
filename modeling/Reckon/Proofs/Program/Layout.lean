import Reckon.Proofs.Parse.Spans
import Reckon.Proofs.Program.CommandLine
import Reckon.Proofs.Rpn.Canonical
import Reckon.Proofs.Token.Layout

set_option autoImplicit false

namespace Reckon

def Failure.SameUpTo (move : Nat → Nat) : Failure → Failure → Prop
  | .scan error, .scan other => other.char = error.char ∧ other.position = move error.position
  | .parse (.unexpected token expected), .parse (.unexpected other wanted) =>
      wanted = expected ∧ other.kind = token.kind ∧ other.span.text = token.span.text ∧
        other.span.start = move token.span.start.toNat
  | failure, other => other = failure

def SameUpTo (move : Nat → Nat) : Except Failure (List Item) → Except Failure (List Item) → Prop
  | .ok items, .ok others =>
      others.map Item.label = items.map Item.label ∧
        (leafSpans others).map Span.start = (leafSpans items).map fun span => (move span.start.toNat : Int)
  | .error failure, .error other => failure.SameUpTo move other
  | _, _ => False

variable {options : Options} {tokens : List Token} {items others : List Item} {move : Nat → Nat} {push : Span → Span}

theorem leaf_spans_respan (push : Span → Span) (items : List Item) :
    leafSpans (items.map (Item.respan push)) = (leafSpans items).map push := by
  induction items with
  | nil => rfl
  | cons item rest ih =>
      cases item with
      | number span => exact congrArg (push span :: ·) ih
      | _ => exact ih

theorem labels_carried (carried : ∀ span ∈ leafSpans items, Carried move push span) :
    (items.map (Item.respan push)).map Item.label = items.map Item.label := by
  rw [List.map_map]
  refine List.map_congr_left fun item member => ?_
  cases item with
  | number span =>
      have leaf : span ∈ leafSpans items := List.mem_filterMap.mpr ⟨.number span, member, rfl⟩
      exact congrArg Label.number (carried span leaf).chars
  | _ => rfl

theorem parsed_carried (carried : ∀ token ∈ tokens, Carried move push token.span)
    (parsed : parse options tokens = .ok items) :
    SameUpTo move (.ok items) (.ok (items.map (Item.respan push))) := by
  have leaves : ∀ span ∈ leafSpans items, Carried move push span := by
    intro span member
    rw [run_spans (parse_ran parsed).2] at member
    obtain ⟨token, among, rfl⟩ := List.mem_map.mp member
    exact carried token ((List.takeWhile_prefix _).mem (List.mem_filter.mp among).1)
  refine ⟨labels_carried leaves, ?_⟩
  rw [leaf_spans_respan, List.map_map]
  exact List.map_congr_left fun span member => (leaves span member).start

theorem unexpected_member {token : Token} {expected : Expected}
    (failed : parse options tokens = .error (.unexpected token expected)) : token ∈ tokens := by
  have ends := failed_ends failed (by simp)
  obtain ⟨before, blamed, rest, written, last, split, -, stopped⟩ := parse_failed ends failed
  obtain rfl : token = blamed := step_failed options.rules last blamed _ stopped
  rw [split]
  exact List.mem_append_right _ List.mem_cons_self

theorem failed_carried {error : ParseError} (carried : ∀ token ∈ tokens, Carried move push token.span)
    (failed : parse options tokens = .error error) :
    (Failure.parse error).SameUpTo move (.parse (error.respan push)) := by
  cases error with
  | unexpected token expected =>
      have kept := carried token (unexpected_member failed)
      exact ⟨rfl, rfl, congrArg String.ofList kept.chars, kept.start⟩
  | _ => rfl

-- `move` need only agree with what the blanks do to the places that a scan comes to.
theorem rpn_widened (options : Options) (front blanks back : String) (blank : ∀ c ∈ blanks.toList, isSpace c = true)
    (unjoined : Unjoined front.toList back.toList)
    (moves : ∀ offset ≤ sourceEnd (front ++ back).toList, move offset = pushed front.length blanks.length offset) :
    SameUpTo move (rpnOf options (front ++ back)) (rpnOf options (front ++ blanks ++ back)) := by
  have widened := scan_widened front blanks back blank unjoined
  rcases scan_ends (front ++ back) with ⟨body, scanned, -⟩ | ⟨error, stopped, before⟩
  · have carried := scan_carried unjoined scanned moves
    rw [scanned, pushedScan] at widened
    cases parsed : parse options (body ++ [finishToken (front ++ back).toList (sourceEnd (front ++ back).toList)]) with
    | ok items =>
        rw [rpn_parsed scanned parsed, rpn_parsed widened (by rw [parse_respan, parsed, respanOutcome])]
        exact parsed_carried carried parsed
    | error error =>
        rw [rpn_unparsed scanned parsed, rpn_unparsed widened (by rw [parse_respan, parsed, respanOutcome])]
        exact failed_carried carried parsed
  · rw [stopped, pushedScan] at widened
    rw [rpn_unscanned stopped, rpn_unscanned widened]
    exact ⟨rfl, (moves error.position (Nat.le_of_lt before)).symm⟩

theorem rpn_widened_alike {front : String} (blanks : String) {back : String}
    (blank : ∀ c ∈ blanks.toList, isSpace c = true) (unjoined : Unjoined front.toList back.toList)
    (parsed : rpnOf options (front ++ back) = .ok items) :
    ∃ others, rpnOf options (front ++ blanks ++ back) = .ok others ∧
      others.map Item.label = items.map Item.label := by
  have same := rpn_widened options front blanks back blank unjoined fun _ _ => rfl
  rw [parsed] at same
  cases also : rpnOf options (front ++ blanks ++ back) with
  | ok others =>
      rw [also] at same
      exact ⟨others, rfl, same.1⟩
  | error failure =>
      rw [also] at same
      exact same.elim

theorem unjoined_spaced {front middle back : List Char} (unjoined : Unjoined (front ++ middle) back) :
    Unjoined (front ++ ' ' :: middle) back := by
  cases middle with
  | nil =>
      intro c last d head number
      rw [List.getLast?_concat] at last
      rw [← Option.some.inj last] at number
      cases number
  | cons c middle =>
      rw [Unjoined, List.getLast?_append_cons] at unjoined ⊢
      rw [List.getLast?_cons_cons]
      exact unjoined

-- A blank is put in at one cut after the other. What has been put in so far stays in front.
theorem rpn_spaced (words : List String) (front : String) {items : List Item}
    (parsed : rpnOf options (front ++ String.join words) = .ok items)
    (cuts : ∀ cut, Unjoined (front ++ String.join (words.take cut)).toList (String.join (words.drop cut)).toList) :
    ∃ others, rpnOf options (String.intercalate " " (front :: words)) = .ok others ∧
      others.map Item.label = items.map Item.label := by
  induction words generalizing front items with
  | nil => exact ⟨items, by rwa [String.join_nil, String.append_empty] at parsed, rfl⟩
  | cons word words ih =>
      have unjoined := cuts 0
      rw [List.take_zero, List.drop_zero, String.join_nil, String.append_empty] at unjoined
      obtain ⟨others, also, same⟩ := rpn_widened_alike " " (List.all_eq_true.mp rfl) unjoined parsed
      rw [String.join_cons, ← String.append_assoc] at also
      obtain ⟨spaced, written, alike⟩ := ih (front ++ " " ++ word) also fun cut => by
        have here := cuts (cut + 1)
        rw [List.take_succ_cons, List.drop_succ_cons, String.join_cons] at here
        simp only [String.toList_append] at here
        simp only [String.toList_append, List.append_assoc]
        exact unjoined_spaced here
      rw [String.intercalate_cons_append] at written
      rw [String.intercalate_cons_cons]
      exact ⟨spaced, written, alike.trans same⟩

def Label.text : Label → String
  | .number chars => String.ofList chars
  | .negate => "neg"
  | .operation op => op.sign

theorem item_text_label (item : Item) : item.text = item.label.text := by cases item <;> rfl

theorem format_alike (same : others.map Item.label = items.map Item.label) : format others = format items := by
  have texts (sequence : List Item) : sequence.map Item.text = (sequence.map Item.label).map Label.text := by
    rw [List.map_map]
    exact List.map_congr_left fun item _ => item_text_label item
  rw [format, format, pieces, pieces, texts, texts, same]

theorem calculate_alike {source other : String} {answer : Answer} (parsed : rpnOf options source = .ok items)
    (also : rpnOf options other = .ok others) (same : others.map Item.label = items.map Item.label)
    (answered : calculate options source = .ok answer) : calculate options other = .ok answer := by
  rcases same_outcome_cases (evaluate_alike options.request same) with
    ⟨scalar, outcome, evaluated⟩ | ⟨error, fault, -, failed, -⟩
  · rw [calculate_evaluated parsed evaluated] at answered
    rw [calculate_evaluated also outcome, format_alike same]
    exact answered
  · rw [calculate_unevaluated parsed failed] at answered
    cases answered

theorem calculate_rpn {source : String} {answer : Answer} (answered : calculate options source = .ok answer) :
    ∃ items, rpnOf options source = .ok items := by
  cases parsed : rpnOf options source with
  | ok items => exact ⟨items, rfl⟩
  | error failure =>
      rw [calculate_failed parsed] at answered
      cases answered

theorem command_line_answer {args : List String} {answer : Answer} (given : args ≠ [])
    (silent : asksForLog args = false) (answered : calculate {} (String.intercalate " " args) = .ok answer) :
    commandLine args = ⟨0, answerText (String.intercalate " " args) answer, ""⟩ := by
  have words : wordsOf args = args := if_neg (by simp [silent])
  have source : sourceOf args = String.intercalate " " args := by rw [sourceOf, words]
  have noLog : logOf args = "" := if_neg (by simp [silent])
  rw [command_line_report (by rwa [words]), noLog, source, report, answered]

theorem answered_silent {source : String} {answer : Answer} (answered : calculate {} source = .ok answer) :
    asksForLog [source] = false := by
  by_contra asked
  simp only [asksForLog, Bool.not_eq_false, Bool.or_eq_true, decide_eq_true_eq] at asked
  rcases asked with rfl | rfl <;> cases answered

theorem layout_ignored :
    (∀ (options : Options) (front blanks back : String), (∀ c ∈ blanks.toList, isSpace c = true) →
        Unjoined front.toList back.toList →
        SameUpTo (pushed front.length blanks.length) (rpnOf options (front ++ back))
            (rpnOf options (front ++ blanks ++ back)) ∧
          (sourceEnd (front ++ back).toList < front.length →
            SameUpTo id (rpnOf options (front ++ back)) (rpnOf options (front ++ blanks ++ back)))) ∧
      ∀ (args : List String) (answer : Answer), asksForLog args = false →
        (∀ cut, Unjoined (String.join (args.take cut)).toList (String.join (args.drop cut)).toList) →
        calculate {} (String.join args) = .ok answer →
          commandLine [String.join args] = ⟨0, answerText (String.join args) answer, ""⟩ ∧
            commandLine args = ⟨0, answerText (String.intercalate " " args) answer, ""⟩ := by
  refine ⟨?_, ?_⟩
  · intro options front blanks back blank unjoined
    refine ⟨rpn_widened options front blanks back blank unjoined fun _ _ => rfl, fun beyond => ?_⟩
    refine rpn_widened options front blanks back blank unjoined fun offset reached => ?_
    exact (pushed_before (Nat.lt_of_le_of_lt reached beyond)).symm
  · intro args answer silent cuts answered
    have whole := command_line_answer (List.cons_ne_nil _ _) (answered_silent answered)
      (by rwa [String.intercalate_singleton])
    rw [String.intercalate_singleton] at whole
    refine ⟨whole, ?_⟩
    cases args with
    | nil => cases answered
    | cons word words =>
        rw [String.join_cons] at answered
        obtain ⟨items, parsed⟩ := calculate_rpn answered
        obtain ⟨others, also, same⟩ := rpn_spaced words word parsed fun cut => by
          have here := cuts (cut + 1)
          rwa [List.take_succ_cons, List.drop_succ_cons, String.join_cons] at here
        exact command_line_answer (List.cons_ne_nil _ _) silent (calculate_alike parsed also same answered)

theorem blanks_within_and_after :
    (rpnOf {} "2*-(.5*)").isOk = false ∧
      SameUpTo (fun offset => if offset < 3 then offset else offset + 3) (rpnOf {} "2*-(.5*)")
        (rpnOf {} "2*- \t\n(.5*)") ∧
      SameUpTo id (rpnOf {} "2*)\x00+3") (rpnOf {} "2*)\x00+ \r3") ∧
      commandLine ["2-", "-3", "(4)"] = ⟨0, "Input: 2- -3 (4)\nRPN: 2 3 neg 4 * -\nOutput: 14\n", ""⟩ := by
  obtain ⟨blanks, words⟩ := layout_ignored
  have cuts (cut : Nat) : Unjoined (String.join (["2-", "-3", "(4)"].take cut)).toList
      (String.join (["2-", "-3", "(4)"].drop cut)).toList := by
    by_cases early : cut < 3
    · have all : ∀ early < 3, Unjoined (String.join (["2-", "-3", "(4)"].take early)).toList
          (String.join (["2-", "-3", "(4)"].drop early)).toList := by decide
      exact all cut early
    · rw [List.drop_of_length_le (Nat.le_of_not_lt early)]
      nofun
  have answered : calculate {} "2--3(4)" =
      .ok ⟨⟨.double, .finite false 7881299347898368 (-49)⟩, "2 3 neg 4 * -"⟩ := rfl
  refine ⟨rfl, ?_, ?_, ?_⟩
  · exact (blanks {} "2*-" " \t\n" "(.5*)" (List.all_eq_true.mp rfl) (by decide)).1
  · exact (blanks {} "2*)\x00+" " \r" "3" (List.all_eq_true.mp rfl) (by decide)).2 (by decide)
  · rw [(words ["2-", "-3", "(4)"] _ rfl cuts answered).2]
    decide +kernel

end Reckon
