import Mathlib.Data.List.Sort
import Reckon.Proofs.Token.Spelling

set_option autoImplicit false

namespace Reckon

def Span.Holds (span : Span) (index : Nat) : Prop := span.start ≤ index ∧ (index : Int) < span.stop

structure Lexeme (source : List Char) (token : Token) : Prop where
  cut : token.span.source = source
  inside : 0 ≤ token.span.start ∧ token.span.start < token.span.stop ∧ token.span.stop ≤ sourceEnd source
  unfinished : token.kind ≠ .finish
  symbol : token.kind ≠ .number → token.span.stop = token.span.start + 1 ∧
    ∀ index c, token.span.Holds index → source[index]? = some c → token.kind.symbol = some c
  number : token.kind = .number →
    ∀ index c, token.span.Holds index → source[index]? = some c → isNumberChar c = true
  longest : token.kind = .number → ∀ (index : Nat) (c : Char),
    (index + 1 : Int) = token.span.start ∨ (index : Int) = token.span.stop →
      index < sourceEnd source → source[index]? = some c → isNumberChar c = false

structure Lexemes (source : List Char) (first : Nat) (body : List Token) : Prop where
  each : ∀ token ∈ body, Lexeme source token ∧ (first : Int) ≤ token.span.start
  ordered : body.Pairwise fun before after => before.span.stop ≤ after.span.start
  covered : ∀ index c, first ≤ index → index < sourceEnd source → source[index]? = some c →
    isSpace c = false → ∃! token, token ∈ body ∧ token.span.Holds index
  blank : ∀ index c, source[index]? = some c → isSpace c = true → ∀ token ∈ body, ¬ token.span.Holds index

variable {source : List Char} {position : Nat}
variable {first stop : Nat} {token : Token} {body other : List Token}

theorem lexeme_written (lexeme : Lexeme source token) (index : Nat) (c : Char) (holds : token.span.Holds index)
    (found : source[index]? = some c) : isSpace c = false := by
  by_cases number : token.kind = .number
  · exact (number_char_alone c (lexeme.number number index c holds found)).2.1
  · have written := (lexeme.symbol number).2 index c holds found
    exact (symbol_alone c token.kind ((kind_of_iff c token.kind).mpr written)).2.2

theorem lexeme_digits (lexeme : Lexeme source token) (isNumber : token.kind = .number) :
    ∀ c ∈ token.span.chars, isNumberChar c = true := by
  intro c member
  obtain ⟨positive, forward, within⟩ := lexeme.inside
  have inside : token.span.stop ≤ source.length := by
    have bound : sourceEnd source ≤ source.length := List.idxOf_le_length
    omega
  rw [Span.chars, lexeme.cut] at member
  obtain ⟨index, least, most, found⟩ := slice_holds positive (Int.le_of_lt forward) inside member
  exact lexeme.number isNumber index c ⟨least, most⟩ found

theorem lexemes_end (ended : sourceEnd source ≤ first) : Lexemes source first [] := by
  refine ⟨by simp, List.Pairwise.nil, ?_, by simp⟩
  intro index c from_ before
  omega

theorem lexemes_blank (rest : Lexemes source (first + 1) body) (c : Char) (found : source[first]? = some c)
    (space : isSpace c = true) : Lexemes source first body := by
  refine ⟨?_, rest.ordered, ?_, rest.blank⟩
  · intro token member
    obtain ⟨lexeme, after⟩ := rest.each token member
    exact ⟨lexeme, by omega⟩
  · intro index d least before foundHere written
    by_cases here : index = first
    · subst here
      rw [found, Option.some.injEq] at foundHere
      rw [foundHere, written] at space
      cases space
    · exact rest.covered index d (by omega) before foundHere written

theorem lexemes_cons (rest : Lexemes source stop body) (lexeme : Lexeme source token)
    (starts : token.span.start = first) (stops : token.span.stop = stop) : Lexemes source first (token :: body) := by
  have inside := lexeme.inside
  have later : ∀ after ∈ body, token.span.stop ≤ after.span.start :=
    fun after member => stops ▸ (rest.each after member).2
  refine ⟨?_, List.pairwise_cons.mpr ⟨later, rest.ordered⟩, ?_, ?_⟩
  · intro member among
    rcases List.mem_cons.mp among with rfl | among
    · exact ⟨lexeme, Int.le_of_eq starts.symm⟩
    · have after := later member among
      exact ⟨(rest.each member among).1, by omega⟩
  · intro index c least before found written
    by_cases early : index < stop
    · refine ⟨token, ⟨List.mem_cons_self, by constructor <;> omega⟩, ?_⟩
      rintro member ⟨among, holds⟩
      rcases List.mem_cons.mp among with rfl | among
      · rfl
      · have after := later member among
        have reached := holds.1
        omega
    · obtain ⟨only, ⟨among, holds⟩, unique⟩ := rest.covered index c (by omega) before found written
      refine ⟨only, ⟨List.mem_cons_of_mem _ among, holds⟩, ?_⟩
      rintro member ⟨memberAmong, memberHolds⟩
      rcases List.mem_cons.mp memberAmong with rfl | memberAmong
      · have reached := memberHolds.2
        omega
      · exact unique member ⟨memberAmong, memberHolds⟩
  · intro index c found space member among holds
    rcases List.mem_cons.mp among with rfl | among
    · rw [lexeme_written lexeme index c holds found] at space
      cases space
    · exact rest.blank index c found space member among holds

theorem lexeme_char (lexeme : Lexeme source token) (index : Nat) (holds : token.span.Holds index) :
    ∃ c, index < sourceEnd source ∧ source[index]? = some c := by
  have bound := lexeme.inside.2.2
  have before : index < sourceEnd source := by
    have reached := holds.2
    omega
  have within : index < source.length := Nat.lt_of_lt_of_le before List.idxOf_le_length
  exact ⟨source[index], before, List.getElem?_eq_getElem within⟩

-- A number that shares a character with another one covers all of it, or it would end at a digit or a dot.
theorem number_covers {left right : Token} (one : Lexeme source left) (two : Lexeme source right)
    (oneNumber : left.kind = .number) (twoNumber : right.kind = .number) (index : Nat)
    (inLeft : left.span.Holds index) (inRight : right.span.Holds index) :
    left.span.start ≤ right.span.start ∧ right.span.stop ≤ left.span.stop := by
  have positive := two.inside.1
  obtain ⟨leftFrom, leftTo⟩ := inLeft
  obtain ⟨rightFrom, rightTo⟩ := inRight
  constructor
  · by_contra later
    have holds : right.span.Holds (left.span.start - 1).toNat := by constructor <;> omega
    obtain ⟨c, before, found⟩ := lexeme_char two _ holds
    have stopped := one.longest oneNumber _ c (.inl (by omega)) before found
    rw [two.number twoNumber _ c holds found] at stopped
    cases stopped
  · by_contra longer
    have holds : right.span.Holds left.span.stop.toNat := by constructor <;> omega
    obtain ⟨c, before, found⟩ := lexeme_char two _ holds
    have stopped := one.longest oneNumber _ c (.inr (by omega)) before found
    rw [two.number twoNumber _ c holds found] at stopped
    cases stopped

theorem number_beside_symbol {left right : Token} (one : Lexeme source left) (two : Lexeme source right)
    (index : Nat) (inLeft : left.span.Holds index) (inRight : right.span.Holds index)
    (number : left.kind = .number) : right.kind = .number := by
  by_contra symbol
  obtain ⟨c, -, found⟩ := lexeme_char one index inLeft
  have written := (two.symbol symbol).2 index c inRight found
  have noNumber := (symbol_alone c right.kind ((kind_of_iff c right.kind).mpr written)).2.1
  rw [one.number number index c inLeft found] at noNumber
  cases noNumber

theorem lexeme_unique {left right : Token} (one : Lexeme source left) (two : Lexeme source right) (index : Nat)
    (inLeft : left.span.Holds index) (inRight : right.span.Holds index) : left = right := by
  have same : left.kind = right.kind ∧ left.span.start = right.span.start ∧ left.span.stop = right.span.stop := by
    by_cases number : left.kind = .number
    · have other := number_beside_symbol one two index inLeft inRight number
      have forth := number_covers one two number other index inLeft inRight
      have back := number_covers two one other number index inRight inLeft
      exact ⟨number.trans other.symm, Int.le_antisymm forth.1 back.1, Int.le_antisymm back.2 forth.2⟩
    · have other : right.kind ≠ .number := mt (number_beside_symbol two one index inRight inLeft) number
      obtain ⟨c, -, found⟩ := lexeme_char one index inLeft
      obtain ⟨leftSingle, leftWritten⟩ := one.symbol number
      obtain ⟨rightSingle, rightWritten⟩ := two.symbol other
      have leftKind := (kind_of_iff c _).mpr (leftWritten index c inLeft found)
      have rightKind := (kind_of_iff c _).mpr (rightWritten index c inRight found)
      obtain ⟨leftFrom, leftTo⟩ := inLeft
      obtain ⟨rightFrom, rightTo⟩ := inRight
      exact ⟨Option.some.inj (leftKind.symm.trans rightKind), by omega, by omega⟩
  obtain ⟨kind, span, start, stop⟩ := left
  obtain ⟨otherKind, otherSpan, otherStart, otherStop⟩ := right
  obtain ⟨rfl, rfl, rfl⟩ := same
  obtain rfl : span = source := one.cut
  obtain rfl : otherSpan = span := two.cut
  rfl

theorem lexemes_subset (cuts : Lexemes source 0 body) (others : Lexemes source 0 other) (token : Token)
    (member : token ∈ body) : token ∈ other := by
  obtain ⟨lexeme, positive⟩ := cuts.each token member
  have inside := lexeme.inside
  have holds : token.span.Holds token.span.start.toNat := by constructor <;> omega
  obtain ⟨c, before, found⟩ := lexeme_char lexeme _ holds
  have written := lexeme_written lexeme _ c holds found
  obtain ⟨same, ⟨among, sameHolds⟩, -⟩ := others.covered _ c (Nat.zero_le _) before found written
  rwa [lexeme_unique lexeme (others.each same among).1 _ holds sameHolds]

theorem lexemes_ordered (cuts : Lexemes source first body) :
    body.Pairwise fun before after => before.span.start < after.span.start := by
  refine cuts.ordered.imp_of_mem ?_
  intro before after member _ separate
  have inside := (cuts.each before member).1.inside
  omega

theorem lexemes_unique (cuts : Lexemes source 0 body) (others : Lexemes source 0 other) : other = body := by
  let earlier (before after : Token) : Prop := before.span.start < after.span.start
  have irreflexive : Std.Irrefl earlier := ⟨fun token => Int.lt_irrefl _⟩
  have antisymmetric : Std.Antisymm earlier := ⟨fun before after less more => absurd more (Int.lt_asymm less)⟩
  refine List.Pairwise.eq_of_mem_iff (r := earlier) (lexemes_ordered others) (lexemes_ordered cuts) ?_
  exact fun token => ⟨lexemes_subset others cuts token, lexemes_subset cuts others token⟩

end Reckon
