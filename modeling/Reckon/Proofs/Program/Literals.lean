import Reckon.Proofs.Program.Outcome

set_option autoImplicit false

namespace Reckon

open Number (Format TypeRequest findFormat)

-- A longest run of digits and dots before the end of a source.
structure NumberRun (source : List Char) (start stop : Nat) : Prop where
  nonempty : start < stop
  inside : stop ≤ sourceEnd source
  numbers : ∀ index c, start ≤ index → index < stop → source[index]? = some c → isNumberChar c = true
  longest : ∀ index c, index + 1 = start ∨ index = stop → index < sourceEnd source →
    source[index]? = some c → isNumberChar c = false

def runSpan (source : List Char) (start stop : Nat) : Span := ⟨source, start, stop⟩

variable {source : List Char} {start stop : Nat} {body : List Token}

theorem run_lexeme (run : NumberRun source start stop) : Lexeme source ⟨.number, runSpan source start stop⟩ := by
  have nonempty := run.nonempty
  have inside := run.inside
  refine ⟨rfl, ?_, by simp, fun symbol => absurd rfl symbol, ?_, ?_⟩
  · simp only [runSpan]
    omega
  · intro _ index c holds found
    obtain ⟨least, most⟩ := holds
    simp only [runSpan] at least most
    exact run.numbers index c (by omega) (by omega) found
  · intro _ index c beside before found
    simp only [runSpan] at beside
    exact run.longest index c (by omega) before found

theorem lexeme_run {token : Token} (lexeme : Lexeme source token) (isNumber : token.kind = .number) :
    ∃ start stop, token.span = runSpan source start stop ∧ NumberRun source start stop := by
  obtain ⟨positive, forward, within⟩ := lexeme.inside
  obtain ⟨start, starts⟩ := Int.eq_ofNat_of_zero_le positive
  obtain ⟨stop, stops⟩ := Int.eq_ofNat_of_zero_le (Int.le_trans positive (Int.le_of_lt forward))
  have numbers := lexeme.number isNumber
  have longest := lexeme.longest isNumber
  rw [starts, stops] at forward
  rw [stops] at within
  refine ⟨start, stop, ?_, by omega, by omega, ?_, ?_⟩
  · rw [runSpan, ← starts, ← stops, ← lexeme.cut]
  · intro index c least most found
    exact numbers index c ⟨by omega, by omega⟩ found
  · intro index c beside before found
    exact longest index c (by omega) before found

theorem number_run_iff (cuts : Lexemes source 0 body) (span : Span) :
    span ∈ numberSpans body ↔ ∃ start stop, span = runSpan source start stop ∧ NumberRun source start stop := by
  constructor
  · intro member
    obtain ⟨token, among, same⟩ := List.mem_map.mp member
    obtain ⟨inBody, isNumber⟩ := List.mem_filter.mp among
    subst same
    exact lexeme_run (cuts.each token inBody).1 (of_decide_eq_true isNumber)
  · intro isRun
    obtain ⟨start, stop, same, run⟩ := isRun
    subst same
    have nonempty := run.nonempty
    have lexeme := run_lexeme run
    have holds : (runSpan source start stop).Holds start := by
      constructor <;> simp only [runSpan] <;> omega
    obtain ⟨c, before, found⟩ := lexeme_char lexeme start holds
    have written := lexeme_written lexeme start c holds found
    obtain ⟨token, ⟨inBody, alsoHolds⟩, -⟩ := cuts.covered start c (Nat.zero_le _) before found written
    have same := lexeme_unique (cuts.each token inBody).1 lexeme start alsoHolds holds
    subst same
    exact List.mem_map.mpr ⟨_, List.mem_filter.mpr ⟨inBody, rfl⟩, rfl⟩

theorem number_spans_ordered (cuts : Lexemes source 0 body) :
    (numberSpans body).Pairwise fun before after => before.start < after.start := by
  rw [numberSpans, List.pairwise_map]
  exact (lexemes_ordered cuts).sublist List.filter_sublist

structure LeftmostIllegible (source : List Char) (start stop : Nat) : Prop where
  run : NumberRun source start stop
  illegible : ¬ Legible (runSpan source start stop).chars
  leftmost : ∀ first last, NumberRun source first last → ¬ Legible (runSpan source first last).chars → start ≤ first

theorem first_illegible_leftmost (cuts : Lexemes source 0 body) {span : Span}
    (first : firstIllegible body = some span) :
    ∃ start stop, span = runSpan source start stop ∧ LeftmostIllegible source start stop := by
  obtain ⟨bad, before, after, split, legible⟩ := List.find?_eq_some_iff_append.mp first
  have illegible : ¬ Legible span.chars := of_decide_eq_true bad
  have member : span ∈ numberSpans body := by
    rw [split]
    exact List.mem_append_right _ List.mem_cons_self
  obtain ⟨start, stop, same, run⟩ := (number_run_iff cuts span).mp member
  refine ⟨start, stop, same, run, same ▸ illegible, ?_⟩
  intro other last otherRun otherIllegible
  have among := (number_run_iff cuts (runSpan source other last)).mpr ⟨other, last, rfl, otherRun⟩
  have ordered := number_spans_ordered cuts
  rw [split] at among ordered
  rcases List.mem_append.mp among with earlier | here
  · have excluded := legible _ earlier
    simp [otherIllegible] at excluded
  · rcases List.mem_cons.mp here with equal | later
    · rw [same] at equal
      have starts : (other : Int) = start := congrArg Span.start equal
      omega
    · have less := (List.pairwise_cons.mp (List.pairwise_append.mp ordered).2.1).1 _ later
      rw [same] at less
      simp only [runSpan] at less
      omega

theorem illegible_run (cuts : Lexemes source 0 body) :
    firstIllegible body = none ↔ ∀ start stop, NumberRun source start stop →
      Legible (runSpan source start stop).chars := by
  rw [first_illegible_none]
  constructor
  · intro legible start stop run
    exact legible _ ((number_run_iff cuts _).mpr ⟨start, stop, rfl, run⟩)
  · intro legible span member
    obtain ⟨start, stop, same, run⟩ := (number_run_iff cuts span).mp member
    subst same
    exact legible start stop run

def EvaluatesBy (body : List Token) (items : List Item) (request : TypeRequest) (format : Format) : Prop :=
  match firstIllegible body with
  | none => ∃ value, evaluate request items = .ok ⟨format, value⟩
  | some span => evaluate request items = .error (.malformed span)

theorem rpn_cut {options : Options} {text : String} {items : List Item} (parsed : rpnOf options text = .ok items) :
    ∃ body, Lexemes text.toList 0 body ∧ leafSpans items = numberSpans body ∧
      ∀ request format, findFormat request = .ok format → EvaluatesBy body items request format := by
  rcases scanned_or_stopped text with ⟨known, tokens, scanned⟩ | ⟨error, stopped⟩
  · obtain ⟨body, same, cuts⟩ := scan_valid text known
    rw [scanned.scanned, Except.ok.injEq] at same
    have numbers : numberSpans tokens = numberSpans body := by
      rw [same, number_spans_append, number_spans_symbol _ (by simp [finishToken]), List.append_nil]
    obtain ⟨others, alike, read⟩ := rpn_stages_done parsed
    obtain rfl : tokens = others := Except.ok.inj (scanned.scanned.symm.trans alike)
    refine ⟨body, cuts, ?_, ?_⟩
    · rw [run_spans (parse_ran read).2, scanned_numbers scanned, numbers]
    · intro request format found
      have outcome := evaluate_scanned scanned read format
      rw [firstIllegible, numbers, ← firstIllegible] at outcome
      unfold EvaluatesBy
      cases first : firstIllegible body with
      | none =>
          rw [first] at outcome
          obtain ⟨value, evaluated⟩ := outcome
          exact ⟨value, by simp only [evaluate, found, evaluated]⟩
      | some span =>
          rw [first] at outcome
          simp only [evaluate, found, outcome]
  · rw [rpn_unscanned stopped] at parsed
    cases parsed

theorem leftmost_illegible_run_fails (options : Options) (text : String) (items : List Item)
    (parsed : rpnOf options text = .ok items) (request : TypeRequest) (format : Format)
    (found : findFormat request = .ok format) :
    ((∃ value, evaluate request items = .ok ⟨format, value⟩) ∨
        ∃ span, evaluate request items = .error (.malformed span)) ∧
      ((∃ span, evaluate request items = .error (.malformed span)) ↔
        ∃ start stop, NumberRun text.toList start stop ∧ ¬ Legible (runSpan text.toList start stop).chars) ∧
      ∀ span, evaluate request items = .error (.malformed span) →
        ∃ start stop, LeftmostIllegible text.toList start stop ∧
          span.text = String.ofList (runSpan text.toList start stop).chars ∧ span.start = start := by
  obtain ⟨body, cuts, -, outcomes⟩ := rpn_cut parsed
  have outcome := outcomes request format found
  unfold EvaluatesBy at outcome
  cases first : firstIllegible body with
  | none =>
      rw [first] at outcome
      obtain ⟨value, answer⟩ := outcome
      rw [answer]
      refine ⟨.inl ⟨value, rfl⟩, ⟨nofun, ?_⟩, nofun⟩
      intro illegible
      obtain ⟨start, stop, run, bad⟩ := illegible
      exact absurd ((illegible_run cuts).mp first start stop run) bad
  | some span =>
      simp only [first] at outcome
      obtain ⟨start, stop, same, leftmost⟩ := first_illegible_leftmost cuts first
      subst same
      rw [outcome]
      refine ⟨.inr ⟨_, rfl⟩, ⟨fun _ => ⟨start, stop, leftmost.run, leftmost.illegible⟩, fun _ => ⟨_, rfl⟩⟩, ?_⟩
      intro span same
      cases same
      exact ⟨start, stop, leftmost, rfl, rfl⟩

theorem dot_in_exponent_fails_first :
    ∃ items, rpnOf {} "4^-.*(-1.2.3) 5" = .ok items ∧
      evaluate (.floating .half) items = .error (.malformed ⟨"4^-.*(-1.2.3) 5".toList, 3, 4⟩) ∧
      ∃ stop, LeftmostIllegible "4^-.*(-1.2.3) 5".toList 3 stop := by
  obtain ⟨items, parsed⟩ : ∃ items, rpnOf {} "4^-.*(-1.2.3) 5" = .ok items := ⟨_, rfl⟩
  have fails := (leftmost_illegible_run_fails {} "4^-.*(-1.2.3) 5" items parsed (.floating .half) .half rfl).2.2
  have failed : evaluate (.floating .half) items = .error (.malformed ⟨"4^-.*(-1.2.3) 5".toList, 3, 4⟩) := by
    cases parsed
    rfl
  obtain ⟨start, stop, leftmost, -, starts⟩ := fails _ failed
  obtain rfl : 3 = start := Int.ofNat.inj starts
  exact ⟨items, parsed, failed, stop, leftmost⟩

end Reckon
