import Reckon.Proofs.Program.Literals
import Reckon.Proofs.Tree.Printing

set_option autoImplicit false

namespace Reckon

open Number (Format TypeRequest Value findFormat)

def operations : List BinaryOp := [.add, .sub, .mul, .div, .pow]

def readWord (word : List Char) : Label :=
  match operations.find? fun op => op.sign.toList = word with
  | some op => .operation op
  | none => if word = "neg".toList then .negate else .number word

def readText (text : String) : List Label :=
  if text = "" then [] else (text.toList.splitOn ' ').map readWord

theorem item_text_chars (span : Span) : (Item.number span).text.toList = span.chars := String.toList_ofList

theorem format_chars (items : List Item) :
    (format items).toList = [' '].intercalate (items.map fun item => item.text.toList) := by
  induction items with
  | nil => rfl
  | cons item rest ih =>
      cases rest with
      | nil => simp [format, pieces, String.join]
      | cons next others =>
          have written : format (item :: next :: others) = item.text ++ (" " ++ format (next :: others)) := by
            simp [format, pieces, String.join_cons]
          rw [written, String.toList_append, String.toList_append, ih]
          simp [List.intercalate]

variable {items others : List Item}

theorem item_text_nonempty (item : Item) (numeric : ∀ span, item = .number span → span.Numeric) :
    item.text.toList ≠ [] := by
  cases item with
  | number span =>
      rw [item_text_chars]
      exact (numeric span rfl).1
  | negate => decide
  | operation op => cases op <;> decide

theorem item_text_unbroken (item : Item) (numeric : ∀ span, item = .number span → span.Numeric) :
    ' ' ∉ item.text.toList := by
  cases item with
  | number span =>
      rw [item_text_chars]
      intro blank
      have number := (numeric span rfl).2 ' ' blank
      revert number
      decide
  | negate => decide
  | operation op => cases op <;> decide

theorem read_number_word (word : List Char) (numbers : ∀ c ∈ word, isNumberChar c = true) :
    readWord word = .number word := by
  have foreign (c : Char) (rest : List Char) (strange : isNumberChar c = false) : word ≠ c :: rest :=
    starts_otherwise numbers c strange rest
  have noSign : operations.find? (fun op => op.sign.toList = word) = none := by
    refine List.find?_eq_none.mpr fun op _ same => ?_
    obtain ⟨c, sign, known⟩ := sign_known op
    rw [sign] at same
    exact foreign c [] (symbol_alone c op.kind known).2.1 (of_decide_eq_true same).symm
  rw [readWord, noSign]
  exact if_neg (foreign 'n' ['e', 'g'] rfl)

theorem read_item_word (item : Item) (numeric : ∀ span, item = .number span → span.Numeric) :
    readWord item.text.toList = item.label := by
  cases item with
  | number span =>
      rw [item_text_chars]
      exact read_number_word span.chars (numeric span rfl).2
  | negate => rfl
  | operation op => cases op <;> rfl

theorem format_empty_iff (numeric : ∀ span, .number span ∈ items → span.Numeric) :
    format items = "" ↔ items = [] := by
  constructor
  · intro nothing
    cases items with
    | nil => rfl
    | cons item rest =>
        have chars := format_chars (item :: rest)
        rw [nothing, List.map_cons] at chars
        have first := item_text_nonempty item fun span same => numeric span (same ▸ List.mem_cons_self)
        cases rest <;> simp [List.intercalate, first] at chars
  · intro nothing
    subst nothing
    rfl

theorem format_words (numeric : ∀ span, .number span ∈ items → span.Numeric) (some : items ≠ []) :
    (format items).toList.splitOn ' ' = items.map fun item => item.text.toList := by
  rw [format_chars]
  apply List.splitOn_intercalate ' '
  · intro word member
    obtain ⟨item, among, same⟩ := List.mem_map.mp member
    subst same
    exact item_text_unbroken item fun span isNumber => numeric span (isNumber ▸ among)
  · simpa using some

theorem read_format (numeric : ∀ span, .number span ∈ items → span.Numeric) :
    readText (format items) = items.map Item.label := by
  by_cases empty : items = []
  · subst empty
    rfl
  · rw [readText, if_neg (mt (format_empty_iff numeric).mp empty), format_words numeric empty, List.map_map]
    refine List.map_congr_left fun item among => ?_
    exact read_item_word item fun span isNumber => numeric span (isNumber ▸ among)

def EvalError.SameFault : EvalError → EvalError → Prop
  | .format first, .format second => first = second
  | .malformed first, .malformed second => first.text = second.text
  | .underflow first, .underflow second => first.label = second.label
  | .leftover first, .leftover second => first = second
  | _, _ => False

def SameOutcome {α : Type} : Except EvalError α → Except EvalError α → Prop
  | .ok first, .ok second => first = second
  | .error first, .error second => first.SameFault second
  | _, _ => False

theorem same_outcome_cases {α : Type} {first second : Except EvalError α} (alike : SameOutcome first second) :
    (∃ value, first = .ok value ∧ second = .ok value) ∨
      ∃ error fault, first = .error error ∧ second = .error fault ∧ error.SameFault fault := by
  cases first with
  | ok value =>
      cases second with
      | ok other => exact .inl ⟨value, rfl, congrArg Except.ok (Eq.symm alike)⟩
      | error fault => exact alike.elim
  | error error =>
      cases second with
      | ok other => exact alike.elim
      | error fault => exact .inr ⟨error, fault, rfl, rfl, alike⟩

theorem perform_alike (format : Format) (stack : List Value) {first second : Item}
    (same : first.label = second.label) :
    SameOutcome (perform format stack first) (perform format stack second) := by
  cases first with
  | number span =>
      cases second with
      | number other =>
          have chars : span.chars = other.chars := Label.number.inj same
          simp only [perform, chars]
          cases format.read other.chars with
          | none => exact congrArg String.ofList chars
          | some value => rfl
      | _ => cases same
  | negate =>
      cases second with
      | negate => cases stack <;> rfl
      | _ => cases same
  | operation op =>
      cases second with
      | operation other =>
          cases same
          rcases stack with _ | ⟨right, _ | ⟨left, rest⟩⟩ <;> rfl
      | _ => cases same

theorem perform_all_alike (format : Format) (stack : List Value)
    (same : items.map Item.label = others.map Item.label) :
    SameOutcome (performAll format stack items) (performAll format stack others) := by
  induction items generalizing stack others with
  | nil =>
      cases others with
      | nil => rfl
      | cons other rest => cases same
  | cons item rest ih =>
      cases others with
      | nil => cases same
      | cons other others =>
          rw [List.map_cons, List.map_cons, List.cons.injEq] at same
          obtain ⟨here, after⟩ := same
          rw [perform_all_cons, perform_all_cons]
          rcases same_outcome_cases (perform_alike format stack here) with
            ⟨next, first, second⟩ | ⟨error, fault, first, second, alike⟩
          · rw [first, second]
            exact ih next after
          · rw [first, second]
            exact alike

-- What the items do decides the outcome of an evaluation, of ill-formed sequences too.
theorem evaluate_alike (request : TypeRequest) (same : items.map Item.label = others.map Item.label) :
    SameOutcome (evaluate request items) (evaluate request others) := by
  cases found : findFormat request with
  | error error =>
      simp only [evaluate, found]
      rfl
  | ok format =>
      simp only [evaluate, found, evaluateIn]
      rcases same_outcome_cases (perform_all_alike format [] same) with
        ⟨stack, first, second⟩ | ⟨error, fault, first, second, alike⟩
      · rw [first, second]
        rcases stack with _ | ⟨value, _ | ⟨under, rest⟩⟩ <;> rfl
      · rw [first, second]
        exact alike

theorem run_numeric {source : List Char} {start stop : Nat} (run : NumberRun source start stop) :
    (runSpan source start stop).Numeric := by
  refine ⟨?_, lexeme_digits (run_lexeme run) rfl⟩
  have nonempty := run.nonempty
  have within : stop ≤ source.length := Nat.le_trans run.inside List.idxOf_le_length
  change slice source start stop ≠ []
  rw [slice, cut_point_inside source.length start (by omega), cut_point_inside source.length stop within]
  refine List.ne_nil_of_length_pos ?_
  rw [List.length_take, List.length_drop]
  omega

variable {options choices : Options} {first second : String}

theorem rpn_numeric (parsed : rpnOf options first = .ok items) (span : Span) (member : .number span ∈ items) :
    span.Numeric := by
  obtain ⟨body, cuts, numbers, -⟩ := rpn_cut parsed
  have leaf : span ∈ leafSpans items := List.mem_filterMap.mpr ⟨.number span, member, rfl⟩
  rw [numbers] at leaf
  obtain ⟨start, stop, same, run⟩ := (number_run_iff cuts span).mp leaf
  exact same ▸ run_numeric run

theorem rpn_evaluates (parsed : rpnOf options first = .ok items) {request : TypeRequest} {format : Format}
    (found : findFormat request = .ok format) :
    (∃ value, evaluate request items = .ok ⟨format, value⟩) ∨
      ∃ span, evaluate request items = .error (.malformed span) := by
  obtain ⟨body, -, -, outcomes⟩ := rpn_cut parsed
  have outcome := outcomes request format found
  unfold EvaluatesBy at outcome
  cases illegible : firstIllegible body with
  | none =>
      rw [illegible] at outcome
      exact .inl outcome
  | some span =>
      rw [illegible] at outcome
      exact .inr ⟨span, outcome⟩

theorem equal_text_alike (parsed : rpnOf options first = .ok items) (also : rpnOf choices second = .ok others)
    (equal : format items = format others) {request : TypeRequest} {chosen : Format}
    (found : findFormat request = .ok chosen) :
    (∃ value, evaluate request items = .ok ⟨chosen, value⟩ ∧ evaluate request others = .ok ⟨chosen, value⟩) ∨
      ∃ span other, evaluate request items = .error (.malformed span) ∧
        evaluate request others = .error (.malformed other) ∧ span.text = other.text := by
  have labels : items.map Item.label = others.map Item.label := by
    rw [← read_format (rpn_numeric parsed), equal, read_format (rpn_numeric also)]
  have alike := evaluate_alike request labels
  rcases rpn_evaluates parsed found with ⟨value, answer⟩ | ⟨span, failed⟩
  · rcases rpn_evaluates also found with ⟨other, answered⟩ | ⟨span, failed⟩
    · rw [answer, answered] at alike
      cases alike
      exact .inl ⟨value, answer, answered⟩
    · rw [answer, failed] at alike
      exact alike.elim
  · rcases rpn_evaluates also found with ⟨other, answered⟩ | ⟨other, stopped⟩
    · rw [failed, answered] at alike
      exact alike.elim
    · rw [failed, stopped] at alike
      exact .inr ⟨span, other, failed, stopped, alike⟩

theorem format_canonical :
    (∀ items : List Item, (∀ span, .number span ∈ items → span.Numeric) →
        readText (format items) = items.map Item.label ∧ (format items = "" ↔ items = [])) ∧
      (∀ items : List Item, String.join (pieces items) = format items ∧
        (pieces items).length = 2 * items.length - 1) ∧
      (∀ options text items, rpnOf options text = .ok items → ∀ span, .number span ∈ items → span.Numeric) ∧
      ∀ options choices first second items others, rpnOf options first = .ok items →
        rpnOf choices second = .ok others → format items = format others →
        ∀ request chosen, findFormat request = .ok chosen →
          (∃ value, evaluate request items = .ok ⟨chosen, value⟩ ∧ evaluate request others = .ok ⟨chosen, value⟩) ∨
            ∃ span other, evaluate request items = .error (.malformed span) ∧
              evaluate request others = .error (.malformed other) ∧ span.text = other.text := by
  refine ⟨?_, ?_, ?_, ?_⟩
  · intro items numeric
    exact ⟨read_format numeric, format_empty_iff numeric⟩
  · intro items
    exact ⟨rfl, pieces_length items⟩
  · intro options text items parsed
    exact rpn_numeric parsed
  · intro options choices first second items others parsed also equal request chosen found
    exact equal_text_alike parsed also equal found

theorem groups_leave_no_trace :
    ∃ items others, rpnOf {} "1.2.3(4)^-5" = .ok items ∧ rpnOf {} " ((1.2.3))*4^(-5)" = .ok others ∧
      readText (format items) = items.map Item.label ∧
      evaluate (.floating .single) items = .error (.malformed ⟨"1.2.3(4)^-5".toList, 0, 5⟩) ∧
      ∃ other, evaluate (.floating .single) others = .error (.malformed other) ∧ "1.2.3" = other.text := by
  obtain ⟨items, parsed⟩ : ∃ items, rpnOf {} "1.2.3(4)^-5" = .ok items := ⟨_, rfl⟩
  obtain ⟨others, also⟩ : ∃ others, rpnOf {} " ((1.2.3))*4^(-5)" = .ok others := ⟨_, rfl⟩
  obtain ⟨reads, -, numeric, alike⟩ := format_canonical
  have equal : format items = format others := by
    cases parsed
    cases also
    rfl
  have failed : evaluate (.floating .single) items = .error (.malformed ⟨"1.2.3(4)^-5".toList, 0, 5⟩) := by
    cases parsed
    rfl
  refine ⟨items, others, parsed, also, (reads items (numeric {} _ items parsed)).1, failed, ?_⟩
  rcases alike {} {} _ _ items others parsed also equal (.floating .single) .single rfl with
    ⟨value, answer, -⟩ | ⟨span, other, stopped, others, same⟩
  · rw [failed] at answer
    cases answer
  · rw [failed] at stopped
    cases stopped
    exact ⟨other, others, same⟩

end Reckon
