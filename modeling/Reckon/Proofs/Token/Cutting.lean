import Reckon.Proofs.Token.Lexemes

set_option autoImplicit false

namespace Reckon

variable {source : List Char} {position : Nat}

theorem lexeme_symbol (kind : Kind) (c : Char) (known : kindOf c = some kind) (found : source[position]? = some c)
    (before : position < sourceEnd source) : Lexeme source (symbolToken source kind position) := by
  have noNumber : kind ≠ .number ∧ kind ≠ .finish := by
    have written := (kind_of_iff c kind).mp known
    constructor <;> rintro rfl <;> cases written
  refine ⟨rfl, ?_, noNumber.2, ?_, ?_, ?_⟩
  · simp only [symbolToken]
    omega
  · refine fun _ => ⟨rfl, ?_⟩
    rintro index d ⟨least, most⟩ foundHere
    simp only [symbolToken] at least most
    obtain rfl : index = position := by omega
    rw [found, Option.some.injEq] at foundHere
    exact (kind_of_iff d kind).mp (foundHere ▸ known)
  · exact fun number => absurd number noNumber.1
  · exact fun number => absurd number noNumber.1

theorem slice_at (source piece tail : List Char) (position : Nat) (cut : source.drop position = piece ++ tail)
    (nonempty : piece ≠ []) : slice source position (position + piece.length : Nat) = piece := by
  have inside : position < source.length := by
    by_contra outside
    rw [List.drop_eq_nil_of_le (Nat.le_of_not_lt outside)] at cut
    exact nonempty (List.append_eq_nil_iff.mp cut.symm).1
  have whole : source = source.take position ++ piece ++ tail := by
    rw [List.append_assoc, ← cut, List.take_append_drop]
  have length : (source.take position).length = position := by
    rw [List.length_take, Nat.min_eq_left (Nat.le_of_lt inside)]
  have middle := slice_middle (source.take position) piece tail
  rwa [← whole, length] at middle

-- No number reaches across a place, with what comes after it.
def Parted (source : List Char) (position : Nat) (text : List Char) : Prop :=
  ∀ index c, index + 1 = position → source[index]? = some c → isNumberChar c = true →
    ∀ d ∈ text.head?, isNumberChar d = false

theorem parted_after (c : Char) (text : List Char) (found : source[position]? = some c)
    (noNumber : isNumberChar c = false) : Parted source (position + 1) text := by
  intro index d next foundHere number
  obtain rfl : index = position := by omega
  obtain rfl : d = c := Option.some.inj (foundHere.symm.trans found)
  rw [noNumber] at number
  cases number

theorem drop_cons (c : Char) (rest : List Char) (cut : source.drop position = c :: rest) :
    source[position]? = some c ∧ source.drop (position + 1) = rest := by
  constructor
  · rw [← Nat.add_zero position, ← List.getElem?_drop, cut]
    rfl
  · rw [← List.drop_drop, cut]
    rfl

theorem lexeme_number (digits text tail : List Char) (cut : source.drop position = digits ++ (text ++ tail))
    (ends : position + (digits.length + text.length) = sourceEnd source) (nonempty : digits ≠ [])
    (numbers : ∀ c ∈ digits, isNumberChar c = true) (stops : ∀ c ∈ text.head?, isNumberChar c = false)
    (parted : Parted source position (digits ++ text)) :
    Lexeme source ⟨.number, ⟨source, position, (position + digits.length : Nat)⟩⟩ := by
  have positive := List.length_pos_iff.mpr nonempty
  have place (offset : Nat) : source[position + offset]? = (digits ++ (text ++ tail))[offset]? := by
    rw [← List.getElem?_drop, cut]
  refine ⟨rfl, ?_, by simp, fun symbol => absurd rfl symbol, ?_, ?_⟩
  · simp only
    omega
  · rintro - index c ⟨least, most⟩ found
    simp only at least most
    obtain ⟨offset, rfl⟩ := Nat.exists_eq_add_of_le (Int.ofNat_le.mp least)
    rw [place, List.getElem?_append_left (by omega)] at found
    exact numbers c (List.mem_of_getElem? found)
  · rintro - index c (previous | next) before found
    · simp only at previous
      by_contra number
      cases digits with
      | nil => exact nonempty rfl
      | cons d digits =>
          have stopped := parted index c (by omega) found (by simpa using number) d rfl
          rw [numbers d List.mem_cons_self] at stopped
          cases stopped
    · simp only at next
      obtain rfl : index = position + digits.length := by omega
      rw [place, List.getElem?_append_right (Nat.le_refl _), Nat.sub_self,
        List.getElem?_append_left (by omega), ← List.head?_eq_getElem?] at found
      exact stops c found

theorem scan_spelled {text : List Char} {written : List (Kind × List Char)} (spells : Spells text written)
    (tail : List Char) (position : Nat) (cut : source.drop position = text ++ tail)
    (ends : position + text.length = sourceEnd source) (parted : Parted source position text) :
    ∃ body, scanFrom source none position text = .ok (body ++ [finishToken source (sourceEnd source)]) ∧
      Lexemes source position body ∧ body.map Token.written = written := by
  induction spells generalizing position with
  | done =>
      refine ⟨[], ?_, lexemes_end (Nat.le_of_eq ends.symm), rfl⟩
      rw [← ends]
      rfl
  | @blank c text written space rest ih =>
      obtain ⟨found, tailCut⟩ := drop_cons c _ cut
      rw [List.length_cons] at ends
      have parted := parted_after c text found (space_alone c space).2
      obtain ⟨body, scanned, lexemes, same⟩ := ih (position + 1) tailCut (by omega) parted
      refine ⟨body, ?_, lexemes_blank lexemes c found space, same⟩
      rw [scan_from_space c text space, scanned]
      rfl
  | @symbol c kind text written known rest ih =>
      obtain ⟨found, tailCut⟩ := drop_cons c _ cut
      rw [List.length_cons] at ends
      have parted := parted_after c text found (symbol_alone c kind known).2.1
      obtain ⟨body, scanned, lexemes, same⟩ := ih (position + 1) tailCut (by omega) parted
      refine ⟨symbolToken source kind position :: body, ?_, ?_, ?_⟩
      · rw [scan_from_symbol c text kind known, scanned]
        rfl
      · exact lexemes_cons lexemes (lexeme_symbol kind c known found (by omega)) rfl rfl
      · have chars : (symbolToken source kind position).span.chars = [c] :=
          slice_at source [c] (text ++ tail) position cut (List.cons_ne_nil _ _)
        rw [List.map_cons, same, Token.written, chars]
        rfl
  | @number digits text written nonempty numbers stops rest ih =>
      have restCut : source.drop (position + digits.length) = text ++ tail := by
        rw [← List.drop_drop, cut, List.append_assoc, List.drop_left]
      rw [List.length_append] at ends
      rw [List.append_assoc] at cut
      have parts : Parted source (position + digits.length) text := fun _ _ _ _ _ => stops
      obtain ⟨body, scanned, lexemes, same⟩ := ih (position + digits.length) restCut (by omega) parts
      refine ⟨⟨.number, ⟨source, position, (position + digits.length : Nat)⟩⟩ :: body, ?_, ?_, ?_⟩
      · rw [scan_from_number digits text nonempty numbers stops, scanned]
        rfl
      · refine lexemes_cons lexemes ?_ rfl rfl
        exact lexeme_number digits text tail cut ends nonempty numbers stops parted
      · have chars := slice_at source digits (text ++ tail) position cut nonempty
        rw [List.map_cons, same, Token.written]
        simp only [Span.chars, chars]

theorem before_source_end (source : List Char) (c : Char) (member : c ∈ source.take (sourceEnd source)) :
    c ≠ '\x00' := by
  induction source with
  | nil => cases member
  | cons d rest ih =>
      by_cases last : d = '\x00'
      · subst last
        cases member
      · rw [source_end_cons d rest last, List.take_succ_cons] at member
        rcases List.mem_cons.mp member with rfl | member
        · exact last
        · exact ih member

theorem source_end_length (source : List Char) : (source.take (sourceEnd source)).length = sourceEnd source := by
  rw [List.length_take]
  exact Nat.min_eq_left List.idxOf_le_length

theorem scan_until_end (text : String) :
    scan text = scanFrom text.toList none 0 (text.toList.take (sourceEnd text.toList)) :=
  (scan_from_until_end text.toList).symm

theorem scan_invalid (text : String) (c : Char) (member : c ∈ text.toList.take (sourceEnd text.toList))
    (unknown : c ∉ alphabet) :
    ∃ index d, index < sourceEnd text.toList ∧ text.toList[index]? = some d ∧ d ∉ alphabet ∧
      (∀ earlier e, earlier < index → text.toList[earlier]? = some e → e ∈ alphabet) ∧
      scan text = .error ⟨d, index⟩ := by
  have cut := List.takeWhile_append_dropWhile (p := (· ∈ alphabet)) (l := text.toList.take (sourceEnd text.toList))
  have good : ∀ d ∈ (text.toList.take (sourceEnd text.toList)).takeWhile (· ∈ alphabet), d ∈ alphabet := by
    intro d among
    simpa using List.mem_takeWhile_imp among
  have stopped := List.head?_dropWhile_not (· ∈ alphabet) (text.toList.take (sourceEnd text.toList))
  generalize (text.toList.take (sourceEnd text.toList)).takeWhile (· ∈ alphabet) = known at cut good
  generalize (text.toList.take (sourceEnd text.toList)).dropWhile (· ∈ alphabet) = rest at cut stopped
  cases rest with
  | nil =>
      rw [List.append_nil] at cut
      exact absurd (good c (cut ▸ member)) unknown
  | cons d rest =>
      have bad : d ∉ alphabet := by simpa using stopped
      have place (index : Nat) (before : index < sourceEnd text.toList) :
          text.toList[index]? = (known ++ d :: rest)[index]? := by rw [cut, List.getElem?_take_of_lt before]
      have notEnd := before_source_end text.toList d (by rw [← cut]; simp)
      have length := source_end_length text.toList
      rw [← cut, List.length_append, List.length_cons] at length
      refine ⟨known.length, d, by omega, ?_, bad, ?_, ?_⟩
      · rw [place _ (by omega), List.getElem?_append_right (Nat.le_refl _), Nat.sub_self]
        rfl
      · intro earlier e before found
        rw [place _ (by omega), List.getElem?_append_left before] at found
        exact good e (List.mem_of_getElem? found)
      · rw [scan_until_end, ← cut, scan_from_invalid known rest d good bad notEnd, Nat.zero_add]

theorem scan_valid (text : String) (known : ∀ c ∈ text.toList.take (sourceEnd text.toList), c ∈ alphabet) :
    ∃ body, scan text = .ok (body ++ [finishToken text.toList (sourceEnd text.toList)]) ∧
      Lexemes text.toList 0 body := by
  obtain ⟨written, spells⟩ := spells_known _ known
  have parted : Parted text.toList 0 (text.toList.take (sourceEnd text.toList)) :=
    fun index c next => absurd next (by omega)
  have cut : text.toList.drop 0 =
      text.toList.take (sourceEnd text.toList) ++ text.toList.drop (sourceEnd text.toList) :=
    (List.take_append_drop _ _).symm
  have ends : 0 + (text.toList.take (sourceEnd text.toList)).length = sourceEnd text.toList := by
    rw [source_end_length, Nat.zero_add]
  obtain ⟨body, scanned, lexemes, -⟩ := scan_spelled spells _ 0 cut ends parted
  exact ⟨body, (scan_until_end text).trans scanned, lexemes⟩

theorem slice_take (source : List Char) (start stop : Int) (size : Nat) (positive : 0 ≤ start)
    (forward : start ≤ stop) (within : stop ≤ size) (inside : size ≤ source.length) :
    slice source start stop = slice (source.take size) start stop := by
  obtain ⟨first, rfl⟩ := Int.eq_ofNat_of_zero_le positive
  obtain ⟨last, rfl⟩ := Int.eq_ofNat_of_zero_le (Int.le_trans positive forward)
  have length : (source.take size).length = size := by rw [List.length_take, Nat.min_eq_left inside]
  simp only [slice, length]
  rw [cut_point_inside _ _ (by omega), cut_point_inside _ _ (by omega), cut_point_inside _ _ (by omega),
    cut_point_inside _ _ (by omega), List.drop_take, List.take_take, Nat.min_eq_left (by omega)]

def Token.seen (token : Token) : Kind × Int × Int × String :=
  (token.kind, token.span.start, token.span.stop, token.span.text)

theorem seen_moved (source other : List Char) (token : Token)
    (same : other.take (sourceEnd other) = source.take (sourceEnd source)) (origin : token.span.source = source)
    (place : 0 ≤ token.span.start ∧ token.span.start ≤ token.span.stop ∧ token.span.stop ≤ sourceEnd source) :
    (token.movedTo other).seen = token.seen := by
  obtain ⟨positive, forward, within⟩ := place
  have ends : sourceEnd other = sourceEnd source := by rw [← source_end_length other, same, source_end_length]
  have chars : (token.movedTo other).span.chars = token.span.chars := by
    change slice other token.span.start token.span.stop = slice token.span.source token.span.start token.span.stop
    rw [origin, slice_take other _ _ (sourceEnd other) positive forward (by omega) List.idxOf_le_length, same,
      ← slice_take source _ _ (sourceEnd source) positive forward within List.idxOf_le_length]
  simp only [Token.seen, Span.text, chars]
  rfl

theorem scan_ignores_rest (text other : String)
    (same : other.toList.take (sourceEnd other.toList) = text.toList.take (sourceEnd text.toList)) :
    (scan other).map (List.map Token.seen) = (scan text).map (List.map Token.seen) := by
  have moved : scan other = (scan text).map (List.map (Token.movedTo other.toList)) := by
    rw [scan_until_end, same, scan_until_end, ← scan_from_moved]
  rw [moved]
  by_cases known : ∀ c ∈ text.toList.take (sourceEnd text.toList), c ∈ alphabet
  · obtain ⟨body, scanned, lexemes⟩ := scan_valid text known
    have shown : ∀ token ∈ body ++ [finishToken text.toList (sourceEnd text.toList)],
        (token.movedTo other.toList).seen = token.seen := by
      intro token member
      rcases List.mem_append.mp member with among | last
      · have lexeme := (lexemes.each token among).1
        have inside := lexeme.inside
        exact seen_moved _ _ token same lexeme.cut ⟨inside.1, Int.le_of_lt inside.2.1, inside.2.2⟩
      · rw [List.mem_singleton.mp last]
        exact seen_moved _ _ _ same rfl ⟨Int.natCast_nonneg _, Int.le_refl _, Int.le_refl _⟩
    rw [scanned]
    simp only [Except.map, List.map_map, Except.ok.injEq]
    exact List.map_congr_left shown
  · simp only [not_forall] at known
    obtain ⟨c, member, unknown⟩ := known
    obtain ⟨index, d, -, -, -, -, failed⟩ := scan_invalid text c member unknown
    rw [failed]
    rfl

theorem scan_cuts_into_lexemes (text : String) :
    ((∃ c ∈ text.toList.take (sourceEnd text.toList), c ∉ alphabet) →
        ∃ index c, index < sourceEnd text.toList ∧ text.toList[index]? = some c ∧ c ∉ alphabet ∧
          (∀ earlier d, earlier < index → text.toList[earlier]? = some d → d ∈ alphabet) ∧
          scan text = .error ⟨c, index⟩) ∧
      ((∀ c ∈ text.toList.take (sourceEnd text.toList), c ∈ alphabet) →
        ∃ body, scan text = .ok (body ++ [finishToken text.toList (sourceEnd text.toList)]) ∧
          Lexemes text.toList 0 body ∧ ∀ other, Lexemes text.toList 0 other → other = body) ∧
      ∀ other : String, other.toList.take (sourceEnd other.toList) = text.toList.take (sourceEnd text.toList) →
        (scan other).map (List.map Token.seen) = (scan text).map (List.map Token.seen) := by
  refine ⟨?_, ?_, scan_ignores_rest text⟩
  · rintro ⟨c, member, unknown⟩
    exact scan_invalid text c member unknown
  · intro known
    obtain ⟨body, scanned, lexemes⟩ := scan_valid text known
    exact ⟨body, scanned, lexemes, fun other cuts => lexemes_unique lexemes cuts⟩

theorem number_before_nul_is_cut :
    (∃ body, scan "-(.5 1.2.3\x00$" = .ok (body ++ [finishToken "-(.5 1.2.3\x00$".toList 10]) ∧ body.length = 4 ∧
        Lexemes "-(.5 1.2.3\x00$".toList 0 body ∧ ∀ other, Lexemes "-(.5 1.2.3\x00$".toList 0 other → other = body) ∧
      (∃ index c, "2 $ 3%".toList[index]? = some c ∧ c ∉ alphabet ∧ scan "2 $ 3%" = .error ⟨c, index⟩) ∧
      (scan "-(.5 1.2.3\x00)").map (List.map Token.seen) = (scan "-(.5 1.2.3\x00$").map (List.map Token.seen) := by
  obtain ⟨-, valid, rest⟩ := scan_cuts_into_lexemes "-(.5 1.2.3\x00$"
  have known : ("-(.5 1.2.3\x00$".toList.take (sourceEnd "-(.5 1.2.3\x00$".toList)).all (· ∈ alphabet) = true := by
    decide
  obtain ⟨body, scanned, lexemes, unique⟩ := valid fun c member => by simpa using List.all_eq_true.mp known c member
  have stray : ∃ c ∈ "2 $ 3%".toList.take (sourceEnd "2 $ 3%".toList), c ∉ alphabet :=
    ⟨'$', by decide, by decide⟩
  obtain ⟨index, c, -, found, unknown, -, failed⟩ := (scan_cuts_into_lexemes "2 $ 3%").1 stray
  have five : (scan "-(.5 1.2.3\x00$").map List.length = .ok 5 := rfl
  rw [scanned] at five
  simp only [Except.map, List.length_append, List.length_singleton, Except.ok.injEq] at five
  exact ⟨⟨body, scanned, by omega, lexemes, unique⟩, ⟨index, c, found, unknown, failed⟩, rest _ (by decide)⟩

end Reckon
