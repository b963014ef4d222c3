import Reckon.Proofs.Token.Cutting

set_option autoImplicit false

namespace Reckon

def pushed (place size offset : Nat) : Nat := if offset < place then offset else offset + size

def Span.pushed (source : List Char) (place size : Nat) (span : Span) : Span :=
  if span.start < place then ⟨source, span.start, span.stop⟩ else ⟨source, span.start + size, span.stop + size⟩

def pushedScan (source : List Char) (place size : Nat) :
    Except ScanError (List Token) → Except ScanError (List Token)
  | .ok tokens => .ok (tokens.map (Token.respan (Span.pushed source place size)))
  | .error error => .error ⟨error.char, pushed place size error.position⟩

def Unjoined (front back : List Char) : Prop :=
  ∀ c ∈ front.getLast?, ∀ d ∈ back.head?, isNumberChar c = true → isNumberChar d = false

instance (front back : List Char) : Decidable (Unjoined front back) :=
  have (c : Char) : Decidable (∀ d ∈ back.head?, isNumberChar c = true → isNumberChar d = false) :=
    Option.decidableForallMem _
  Option.decidableForallMem front.getLast?

variable (source other : List Char) {place size : Nat}

theorem pushed_before {offset : Nat} (before : offset < place) : pushed place size offset = offset := if_pos before

theorem pushed_after {offset : Nat} (after : place ≤ offset) : pushed place size offset = offset + size :=
  if_neg (Nat.not_lt.mpr after)

theorem span_before {span : Span} (before : span.start < place) :
    span.pushed source place size = ⟨source, span.start, span.stop⟩ := if_pos before

theorem span_after {span : Span} (after : place ≤ span.start) :
    span.pushed source place size = ⟨source, span.start + size, span.stop + size⟩ := if_neg (Int.not_lt.mpr after)

theorem finish_token_pushed (position : Nat) :
    (finishToken other position).respan (Span.pushed source place size) =
      finishToken source (pushed place size position) := by
  by_cases before : position < place
  · rw [Token.respan, span_before source (Int.ofNat_lt.mpr before), pushed_before before]
    rfl
  · have after := Nat.le_of_not_lt before
    rw [Token.respan, span_after source (Int.ofNat_le.mpr after), pushed_after after]
    rfl

theorem symbol_token_pushed (kind : Kind) (position : Nat) :
    (symbolToken other kind position).respan (Span.pushed source place size) =
      symbolToken source kind (pushed place size position) := by
  by_cases before : position < place
  · rw [Token.respan, span_before source (Int.ofNat_lt.mpr before), pushed_before before]
    rfl
  · have after := Nat.le_of_not_lt before
    have stop : (position : Int) + 1 + size = (position + size : Nat) + 1 := by omega
    rw [Token.respan, span_after source (Int.ofNat_le.mpr after), pushed_after after]
    simp only [symbolToken, stop]
    rfl

theorem run_before {run : Option Nat} (began : ∀ start ∈ run, start < place) :
    run.map (pushed place size) = run := by
  cases run with
  | none => rfl
  | some start => rw [Option.map_some, pushed_before (began start rfl)]

theorem run_token_pushed (run : Option Nat) (position stop : Nat)
    (before : ∀ start ∈ run, start < place → stop = position)
    (after : ∀ start ∈ run, place ≤ start → stop = position + size) :
    (runToken other run position).map (Token.respan (Span.pushed source place size)) =
      runToken source (run.map (pushed place size)) stop := by
  cases run with
  | none => rfl
  | some start =>
      by_cases early : start < place
      · simp only [runToken, List.map_cons, List.map_nil, Option.map_some, pushed_before early, before start rfl early]
        rw [Token.respan, span_before source (Int.ofNat_lt.mpr early)]
      · have late := Nat.le_of_not_lt early
        simp only [runToken, List.map_cons, List.map_nil, Option.map_some, pushed_after late, after start rfl late]
        rw [Token.respan, span_after source (Int.ofNat_le.mpr late)]
        rfl

theorem map_pushed (place size : Nat) (before : List Token) (outcome : Except ScanError (List Token)) :
    pushedScan source place size (outcome.map (before ++ ·)) =
      (pushedScan source place size outcome).map (before.map (Token.respan (Span.pushed source place size)) ++ ·) := by
  cases outcome <;> simp [pushedScan, Except.map]

theorem scan_char_pushed (c : Char) (rest moved : List Char) (run : Option Nat) (position : Nat)
    (beside : ∀ start ∈ run, start < place ↔ position < place)
    (goesOn : ∀ next : Option Nat, (∀ start ∈ next, start < place ↔ position < place) →
      (next ≠ none → isNumberChar c = true) →
      scanFrom source (next.map (pushed place size)) (pushed place size position + 1) moved =
        pushedScan source place size (scanFrom other next (position + 1) rest)) :
    scanFrom source (run.map (pushed place size)) (pushed place size position) (c :: moved) =
      pushedScan source place size (scanFrom other run position (c :: rest)) := by
  have token : (runToken other run position).map (Token.respan (Span.pushed source place size)) =
      runToken source (run.map (pushed place size)) (pushed place size position) := by
    refine run_token_pushed source other run position _ (fun start member early => ?_) fun start member late => ?_
    · exact pushed_before ((beside start member).mp early)
    · exact pushed_after (Nat.le_of_not_lt fun early => absurd ((beside start member).mpr early) (Nat.not_lt.mpr late))
  have fresh := goesOn none nofun (fun open_ => absurd rfl open_)
  simp only [scanFrom]
  by_cases last : c = '\x00'
  · rw [if_pos last, if_pos last, pushedScan, List.map_append, token]
    simp [finish_token_pushed]
  · rw [if_neg last, if_neg last]
    by_cases number : isNumberChar c = true
    · rw [if_pos number, if_pos number]
      have began : (run.map (pushed place size)).getD (pushed place size position) =
          pushed place size (run.getD position) := by cases run <;> rfl
      rw [began]
      refine goesOn (some (run.getD position)) (fun start member => ?_) fun _ => number
      cases member
      cases run with
      | none => rfl
      | some start => exact beside start rfl
    · rw [if_neg number, if_neg number]
      by_cases space : isSpace c = true
      · rw [if_pos space, if_pos space, map_pushed, token, ← fresh]
        rfl
      · rw [if_neg space, if_neg space]
        cases kindOf c with
        | none => rfl
        | some kind =>
            have both : (runToken other run position ++ [symbolToken other kind position]).map
                (Token.respan (Span.pushed source place size)) =
              runToken source (run.map (pushed place size)) (pushed place size position) ++
                [symbolToken source kind (pushed place size position)] := by
              rw [List.map_append, token, List.map_singleton, symbol_token_pushed]
            have joined := map_pushed source place size
              (runToken other run position ++ [symbolToken other kind position])
              (scanFrom other none (position + 1) rest)
            rw [both, ← fresh] at joined
            simp only [List.append_assoc, List.singleton_append] at joined
            exact joined.symm

theorem scan_from_pushed (rest : List Char) (run : Option Nat) (position : Nat) (after : place ≤ position)
    (began : ∀ start ∈ run, place ≤ start) :
    scanFrom source (run.map (pushed place size)) (position + size) rest =
      pushedScan source place size (scanFrom other run position rest) := by
  induction rest generalizing run position with
  | nil =>
      have token : (runToken other run position).map (Token.respan (Span.pushed source place size)) =
          runToken source (run.map (pushed place size)) (position + size) :=
        run_token_pushed source other run position _
          (fun start member early => absurd (began start member) (Nat.not_le.mpr early)) fun _ _ _ => rfl
      rw [scanFrom, scanFrom, pushedScan, List.map_append, token, List.map_singleton, finish_token_pushed,
        pushed_after after]
  | cons c rest ih =>
      have here : pushed place size position = position + size := pushed_after after
      rw [← here]
      refine scan_char_pushed source other c rest rest run position (fun start member => ?_) fun next beside _ => ?_
      · exact iff_of_false (Nat.not_lt.mpr (began start member)) (Nat.not_lt.mpr after)
      · rw [pushed_after after, Nat.add_right_comm]
        refine ih next (position + 1) (Nat.le_succ_of_le after) fun start member => Nat.le_of_not_lt fun early => ?_
        exact absurd ((beside start member).mp early) (Nat.not_lt.mpr after)

theorem scan_from_blanks (blanks rest : List Char) (position : Nat) (blank : ∀ c ∈ blanks, isSpace c = true) :
    scanFrom source none position (blanks ++ rest) = scanFrom source none (position + blanks.length) rest := by
  induction blanks generalizing position with
  | nil => rfl
  | cons c blanks ih =>
      have place : position + 1 + blanks.length = position + (c :: blanks).length := by
        rw [List.length_cons]
        omega
      have nothing (outcome : Except ScanError (List Token)) : outcome.map ([] ++ ·) = outcome := by
        cases outcome <;> rfl
      rw [List.cons_append, scan_from_space c _ (blank c List.mem_cons_self), runToken, nothing,
        ih _ fun d member => blank d (List.mem_cons_of_mem _ member), place]

-- At the place a number that is not over yet ends, with blanks or without.
theorem scan_from_run_over (run : Option Nat) (position : Nat) (rest : List Char)
    (ends : run ≠ none → ∀ c ∈ rest.head?, isNumberChar c = false) :
    scanFrom source run position rest =
      (scanFrom source none position rest).map (runToken source run position ++ ·) := by
  cases run with
  | none => cases scanFrom source none position rest <;> rfl
  | some start => exact scan_from_run_ends start rest (ends (Option.some_ne_none start))

theorem scan_from_place (run : Option Nat) (blanks back : List Char) (blank : ∀ c ∈ blanks, isSpace c = true)
    (began : ∀ start ∈ run, start < place) (ends : run ≠ none → ∀ c ∈ back.head?, isNumberChar c = false) :
    scanFrom source run place (blanks ++ back) =
      pushedScan source place blanks.length (scanFrom other run place back) := by
  have token : (runToken other run place).map (Token.respan (Span.pushed source place blanks.length)) =
      runToken source (run.map (pushed place blanks.length)) place :=
    run_token_pushed source other run place place (fun _ _ _ => rfl)
      fun start member late => absurd (began start member) (Nat.not_lt.mpr late)
  have widened : run ≠ none → ∀ c ∈ (blanks ++ back).head?, isNumberChar c = false := by
    intro unfinished c head
    cases blanks with
    | nil => exact ends unfinished c head
    | cons d blanks =>
        rw [← Option.some.inj head]
        exact (space_alone d (blank d List.mem_cons_self)).2
  rw [scan_from_run_over source run place _ widened, scan_from_run_over other run place back ends, map_pushed, token,
    run_before began, scan_from_blanks source blanks back place blank,
    ← scan_from_pushed source other back none place (Nat.le_refl _) nofun]
  rfl

theorem unjoined_tail (c : Char) (front back : List Char) (unjoined : Unjoined (c :: front) back) :
    Unjoined front back := by
  cases front with
  | nil => nofun
  | cons d front =>
      rw [Unjoined, List.getLast?_cons_cons] at unjoined
      exact unjoined

theorem scan_from_widened (front blanks back : List Char) (run : Option Nat) (position : Nat)
    (reach : position + front.length = place) (began : ∀ start ∈ run, start < place)
    (blank : ∀ c ∈ blanks, isSpace c = true) (unjoined : Unjoined front back)
    (ends : front = [] → run ≠ none → ∀ c ∈ back.head?, isNumberChar c = false) :
    scanFrom source run position (front ++ (blanks ++ back)) =
      pushedScan source place blanks.length (scanFrom other run position (front ++ back)) := by
  induction front generalizing run position with
  | nil =>
      obtain rfl : position = place := reach
      exact scan_from_place source other run blanks back blank began (ends rfl)
  | cons c front ih =>
      rw [List.length_cons] at reach
      have before : position < place := by omega
      have step := @scan_char_pushed source other place blanks.length c (front ++ back) (front ++ (blanks ++ back)) run
        position fun start member => iff_of_true (began start member) before
      rw [run_before began, pushed_before before] at step
      refine step fun next beside number => ?_
      have still : ∀ start ∈ next, start < place := fun start member => (beside start member).mpr before
      rw [run_before still]
      refine ih next (position + 1) (by omega) still (unjoined_tail c front back unjoined) ?_
      intro last unfinished d head
      subst last
      exact unjoined c rfl d head (number unfinished)

theorem slice_before (front middle back : List Char) (start stop : Int) (positive : 0 ≤ start)
    (forward : start ≤ stop) (within : stop ≤ front.length) :
    slice (front ++ (middle ++ back)) start stop = slice (front ++ back) start stop := by
  have inside (rest : List Char) : front.length ≤ (front ++ rest).length := by
    rw [List.length_append]
    omega
  rw [slice_take _ start stop front.length positive forward within (inside _),
    slice_take _ start stop front.length positive forward within (inside _), List.take_left, List.take_left]

theorem slice_after (front middle back : List Char) (start stop : Int) (after : front.length ≤ start)
    (forward : start ≤ stop) (within : stop ≤ (front ++ back).length) :
    slice (front ++ (middle ++ back)) (start + middle.length) (stop + middle.length) =
      slice (front ++ back) start stop := by
  obtain ⟨first, rfl⟩ := Int.eq_ofNat_of_zero_le (Int.le_trans (Int.natCast_nonneg _) after)
  obtain ⟨last, rfl⟩ := Int.eq_ofNat_of_zero_le (Int.le_trans (Int.natCast_nonneg _) forward)
  obtain ⟨offset, rfl⟩ := Nat.exists_eq_add_of_le (Int.ofNat_le.mp after)
  rw [List.length_append] at within
  have far : front.length + offset + middle.length = front.length + (middle.length + offset) := by omega
  rw [← Int.natCast_add, ← Int.natCast_add, slice, slice]
  rw [cut_point_inside _ _ (by simp only [List.length_append]; omega),
    cut_point_inside _ _ (by simp only [List.length_append]; omega),
    cut_point_inside _ _ (by simp only [List.length_append]; omega),
    cut_point_inside _ _ (by simp only [List.length_append]; omega), Nat.add_sub_add_right, far,
    List.drop_length_add_append, List.drop_length_add_append, List.drop_length_add_append]

theorem lexeme_unbroken {front back : List Char} {token : Token} (unjoined : Unjoined front back)
    (lexeme : Lexeme (front ++ back) token) (early : token.span.start < front.length) :
    token.span.stop ≤ front.length := by
  by_contra beyond
  by_cases isNumber : token.kind = .number
  · have positive := lexeme.inside.1
    obtain ⟨last, length⟩ : ∃ last, front.length = last + 1 := Nat.exists_eq_add_one.mpr (by omega)
    have holds : token.span.Holds last ∧ token.span.Holds (last + 1) := by
      constructor <;> constructor <;> omega
    obtain ⟨c, -, before⟩ := lexeme_char lexeme last holds.1
    obtain ⟨d, -, after⟩ := lexeme_char lexeme (last + 1) holds.2
    have number := lexeme.number isNumber last c holds.1 before
    have goesOn := lexeme.number isNumber (last + 1) d holds.2 after
    rw [List.getElem?_append_left (by omega)] at before
    rw [List.getElem?_append_right (by omega), length, Nat.sub_self, ← List.head?_eq_getElem?] at after
    rw [unjoined c (by rw [List.getLast?_eq_getElem?, length]; exact before) d after number] at goesOn
    cases goesOn
  · have short := (lexeme.symbol isNumber).1
    omega

theorem pushed_chars {front blanks back : List Char} {token : Token} (unjoined : Unjoined front back)
    (lexeme : Lexeme (front ++ back) token) :
    (token.span.pushed (front ++ (blanks ++ back)) front.length blanks.length).chars = token.span.chars := by
  obtain ⟨positive, forward, within⟩ := lexeme.inside
  by_cases early : token.span.start < front.length
  · rw [span_before _ early, Span.chars, Span.chars, lexeme.cut]
    exact slice_before front blanks back _ _ positive (Int.le_of_lt forward) (lexeme_unbroken unjoined lexeme early)
  · have length : sourceEnd (front ++ back) ≤ (front ++ back).length := List.idxOf_le_length
    rw [span_after _ (Int.not_lt.mp early), Span.chars, Span.chars, lexeme.cut]
    exact slice_after front blanks back _ _ (Int.not_lt.mp early) (Int.le_of_lt forward) (by omega)

theorem pushed_start (span : Span) (positive : 0 ≤ span.start) :
    (span.pushed source place size).start = pushed place size span.start.toNat := by
  by_cases early : span.start < place
  · rw [span_before source early, pushed_before (by omega)]
    exact (Int.toNat_of_nonneg positive).symm
  · rw [span_after source (Int.not_lt.mp early), pushed_after (by omega)]
    simp only
    omega

theorem scan_widened (front blanks back : String) (blank : ∀ c ∈ blanks.toList, isSpace c = true)
    (unjoined : Unjoined front.toList back.toList) :
    scan (front ++ blanks ++ back) =
      pushedScan (front ++ blanks ++ back).toList front.length blanks.length (scan (front ++ back)) := by
  have widened := scan_from_widened (front ++ blanks ++ back).toList (front ++ back).toList front.toList blanks.toList
    back.toList none 0 (Nat.zero_add _) nofun blank unjoined fun _ unfinished => absurd rfl unfinished
  rw [scan, scan]
  rw [String.toList_append, String.toList_append, String.toList_append, List.append_assoc] at widened ⊢
  exact widened

theorem scan_ends (text : String) :
    (∃ body, scan text = .ok (body ++ [finishToken text.toList (sourceEnd text.toList)]) ∧
        Lexemes text.toList 0 body) ∨
      ∃ error, scan text = .error error ∧ error.position < sourceEnd text.toList := by
  by_cases known : ∀ c ∈ text.toList.take (sourceEnd text.toList), c ∈ alphabet
  · exact .inl (scan_valid text known)
  · simp only [not_forall] at known
    obtain ⟨c, member, unknown⟩ := known
    obtain ⟨index, d, before, -, -, -, stopped⟩ := scan_invalid text c member unknown
    exact .inr ⟨_, stopped, before⟩

theorem finish_chars_pushed (position : Nat) :
    ((finishToken other position).span.pushed source place size).chars = (finishToken other position).span.chars := by
  have moved : (finishToken other position).span.pushed source place size =
      (finishToken source (pushed place size position)).span :=
    congrArg Token.span (finish_token_pushed source other position)
  rw [moved]
  simp [finishToken, Span.chars, slice]

-- A span that keeps its text, and goes where `move` says.
structure Carried (move : Nat → Nat) (push : Span → Span) (span : Span) : Prop where
  chars : (push span).chars = span.chars
  start : (push span).start = move span.start.toNat

theorem scan_carried {front blanks back : String} {tokens : List Token} {move : Nat → Nat}
    (unjoined : Unjoined front.toList back.toList) (scanned : scan (front ++ back) = .ok tokens)
    (moves : ∀ offset ≤ sourceEnd (front ++ back).toList, move offset = pushed front.length blanks.length offset) :
    ∀ token ∈ tokens,
      Carried move (Span.pushed (front ++ blanks ++ back).toList front.length blanks.length) token.span := by
  intro token member
  rw [String.toList_append, String.toList_append, List.append_assoc]
  rw [String.toList_append] at moves
  have starts (span : Span) (positive : 0 ≤ span.start)
      (inside : span.start ≤ sourceEnd (front.toList ++ back.toList)) :
      (span.pushed (front.toList ++ (blanks.toList ++ back.toList)) front.length blanks.length).start =
        move span.start.toNat := by
    rw [moves _ (by omega)]
    exact pushed_start _ span positive
  rcases scan_ends (front ++ back) with ⟨body, cut, lexemes⟩ | ⟨error, stopped, -⟩
  · rw [scanned, Except.ok.injEq] at cut
    subst cut
    rw [String.toList_append] at member lexemes
    rcases List.mem_append.mp member with among | last
    · have lexeme := (lexemes.each token among).1
      obtain ⟨positive, forward, within⟩ := lexeme.inside
      exact ⟨pushed_chars unjoined lexeme, starts token.span positive (by omega)⟩
    · rw [List.mem_singleton.mp last]
      exact ⟨finish_chars_pushed _ _ _, starts _ (Int.natCast_nonneg _) (Int.le_refl _)⟩
  · rw [scanned] at stopped
    cases stopped

end Reckon
