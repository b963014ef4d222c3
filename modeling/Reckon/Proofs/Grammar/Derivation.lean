import Reckon.Proofs.Parse.Acceptance

set_option autoImplicit false

namespace Reckon

inductive Nonterminal where
  | expression
  | term
  | factor
  | negation
  | number
deriving DecidableEq, Repr

-- A group and the right operand of a power are one level each; every level that is entered must be allowed.
inductive Derives (allowed : Path → Prop) (plus : Bool) : Nonterminal → Path → List Kind → Prop
  | term {path : Path} {kinds : List Kind} (only : Derives allowed plus .term path kinds) :
      Derives allowed plus .expression path kinds
  | sum {path : Path} {left right : List Kind} {sign : Kind} (before : Derives allowed plus .expression path left)
      (additive : sign = .plus ∨ sign = .minus) (after : Derives allowed plus .term path right) :
      Derives allowed plus .expression path (left ++ sign :: right)
  | factor {path : Path} {kinds : List Kind} (only : Derives allowed plus .factor path kinds) :
      Derives allowed plus .term path kinds
  | product {path : Path} {left right : List Kind} {sign : Kind} (before : Derives allowed plus .term path left)
      (multiplicative : sign = .star ∨ sign = .slash) (after : Derives allowed plus .factor path right) :
      Derives allowed plus .term path (left ++ sign :: right)
  | implied {path : Path} {left right : List Kind} (before : Derives allowed plus .term path left)
      (after : Derives allowed plus .factor path right) : Derives allowed plus .term path (left ++ right)
  | negation {path : Path} {kinds : List Kind} (only : Derives allowed plus .negation path kinds) :
      Derives allowed plus .factor path kinds
  | power {path : Path} {left right : List Kind} (base : Derives allowed plus .negation path left)
      (fits : allowed path.inPower) (exponent : Derives allowed plus .factor path.inPower right) :
      Derives allowed plus .factor path (left ++ .caret :: right)
  | number {path : Path} {kinds : List Kind} (only : Derives allowed plus .number path kinds) :
      Derives allowed plus .negation path kinds
  | minus {path : Path} {kinds : List Kind} (operand : Derives allowed plus .negation path kinds) :
      Derives allowed plus .negation path (.minus :: kinds)
  | plus {path : Path} {kinds : List Kind} (absorbed : plus = true)
      (operand : Derives allowed plus .negation path kinds) : Derives allowed plus .negation path (.plus :: kinds)
  | group {path : Path} {kinds : List Kind} (fits : allowed path.inGroup)
      (inside : Derives allowed plus .expression path.inGroup kinds) :
      Derives allowed plus .number path (.opening :: (kinds ++ [.closing]))
  | literal {path : Path} : Derives allowed plus .number path [.number]

variable {allowed : Path → Prop} {plus : Bool}

def nonterminalAt : Nat → Nonterminal
  | 0 => .expression
  | 1 => .term
  | 2 => .factor
  | _ => .negation

theorem derives_signs {path : Path} {kinds : List Kind} (signs : List Token)
    (signed : ∀ sign ∈ signs, sign.kind.isSign plus = true) (operand : Derives allowed plus .negation path kinds) :
    Derives allowed plus .negation path (signs.map Token.kind ++ kinds) := by
  induction signs with
  | nil => exact operand
  | cons sign signs ih =>
      have inner := ih fun other member => signed other (List.mem_cons_of_mem _ member)
      have isSign := signed sign List.mem_cons_self
      rw [List.map_cons, List.cons_append]
      cases kind : sign.kind with
      | minus => exact .minus inner
      | plus => exact .plus (by simpa [kind, Kind.isSign] using isSign) inner
      | _ => simp [kind, Kind.isSign] at isSign

theorem derives_joint {path : Path} {level : Nat} {op : BinaryOp} {left joint right : List Token}
    (atLevel : op.level = level) (joined : Joint joint op right)
    (before : Derives allowed plus (nonterminalAt level) path (left.map Token.kind))
    (after : Derives allowed plus (nonterminalAt (level + 1)) path (right.map Token.kind)) :
    Derives allowed plus (nonterminalAt level) path ((left ++ joint ++ right).map Token.kind) := by
  simp only [List.map_append, List.append_assoc]
  cases joined with
  | implied operand =>
      subst atLevel
      exact .implied before after
  | @sign token op right known =>
      change Derives _ _ _ _ (left.map Token.kind ++ token.kind :: right.map Token.kind)
      cases kind : token.kind <;> simp [kind, Kind.chained] at known <;> subst known <;> subst atLevel
      · exact .sum before (.inl rfl) after
      · exact .sum before (.inr rfl) after
      · exact .product before (.inl rfl) after
      · exact .product before (.inr rfl) after

theorem phrase_derives {level : Nat} {path : Path} {word : List Token} {items : List Item}
    (phrase : Phrase allowed plus level path word items) :
    Derives allowed plus (nonterminalAt level) path (word.map Token.kind) := by
  induction phrase with
  | @tighter level path word items _ ih =>
      match level with
      | 0 => exact .term ih
      | 1 => exact .factor ih
      | 2 => exact .negation ih
      | _ + 3 => exact ih
  | chain atLevel joined _ _ beforeIh afterIh => exact derives_joint atLevel joined beforeIh afterIh
  | power sign fits _ _ beforeIh afterIh =>
      rw [List.map_append, List.map_cons, sign]
      exact .power beforeIh fits afterIh
  | @number path signs token signed isNumber =>
      have single : Derives allowed plus .negation path [token.kind] := isNumber ▸ .number .literal
      simpa only [nonterminalAt, List.map_append, List.map_cons, List.map_nil] using
        derives_signs signs signed single
  | @group path signs word opening closing items signed opens closes fits _ ih =>
      have grouped := derives_signs signs signed (.number (.group fits ih))
      simpa only [nonterminalAt, List.map_append, List.map_cons, List.map_nil, opens, closes] using grouped

def Readable (allowed : Path → Prop) (plus : Bool) (level : Nat) (path : Path) (word : List Token) : Prop :=
  ∃ items, Phrase allowed plus level path word items

theorem readable_sum {path : Path} {left right : List Token} {sign : Token} {op : BinaryOp}
    {first second : List Item} (known : sign.kind.chained = some op) (additive : op.level = 0)
    (before : Phrase allowed plus 0 path left first) (after : Phrase allowed plus 0 path right second) :
    Readable allowed plus 0 path (left ++ sign :: right) := by
  generalize zero : 0 = level at after
  induction after with
  | tighter phrase =>
      subst zero
      have sum := Phrase.chain additive (.sign known) before phrase
      exact ⟨_, by simpa only [List.append_assoc, List.singleton_append] using sum⟩
  | chain atLevel joined _ operand beforeIh =>
      subst zero
      obtain ⟨items, sum⟩ := beforeIh before rfl
      have longer := Phrase.chain atLevel joined sum operand
      exact ⟨_, by simpa only [List.append_assoc, List.cons_append] using longer⟩
  | _ => cases zero

theorem readable_product {path : Path} {left joint right : List Token} {op : BinaryOp}
    {first second : List Item} (joined : Joint joint op right) (multiplicative : op.level = 1)
    (before : Phrase allowed plus 0 path left first) (after : Phrase allowed plus 2 path right second) :
    Readable allowed plus 0 path (left ++ joint ++ right) := by
  cases before with
  | tighter phrase => exact ⟨_, .tighter (.chain multiplicative joined phrase after)⟩
  | @chain _ _ sum start link last _ _ atLevel linked before operand =>
      have product := Phrase.chain multiplicative joined operand after
      rw [List.append_assoc] at product
      have whole := Phrase.chain atLevel (joint_extended _ _ (joint ++ right) _ linked) before product
      exact ⟨_, by simpa only [List.append_assoc] using whole⟩

theorem factor_head {level : Nat} {path : Path} {word : List Token} {items : List Item}
    (phrase : Phrase allowed plus level path word items) (tight : 2 ≤ level) :
    (∃ head tail, word = head :: tail ∧ head.kind.startsOperand = true) ∨
      ∃ sign op tail, word = sign :: tail ∧ sign.kind.chained = some op ∧ op.level = 0 ∧
        Readable allowed plus level path tail := by
  have additive (sign : Token) (isSign : sign.kind.isSign plus = true) :
      ∃ op, sign.kind.chained = some op ∧ op.level = 0 := by
    cases kind : sign.kind with
    | minus => exact ⟨.sub, rfl, rfl⟩
    | plus => exact ⟨.add, rfl, rfl⟩
    | _ => simp [kind, Kind.isSign] at isSign
  induction phrase with
  | tighter _ ih =>
      rcases ih (Nat.le_succ_of_le tight) with operand | ⟨sign, op, tail, word, known, low, items, rest⟩
      · exact .inl operand
      · exact .inr ⟨sign, op, tail, word, known, low, items, .tighter rest⟩
  | chain atLevel joined =>
      have low := joint_level _ _ _ joined
      omega
  | @power path caret left right first second caretKind fits _ after beforeIh =>
      rcases beforeIh (by decide) with ⟨head, tail, rfl, starts⟩ | ⟨sign, op, tail, rfl, known, low, items, rest⟩
      · exact .inl ⟨head, _, rfl, starts⟩
      · exact .inr ⟨sign, op, _, rfl, known, low, _, .power caretKind fits rest after⟩
  | @number path signs token signed isNumber =>
      cases signs with
      | nil => exact .inl ⟨token, [], rfl, by simp [isNumber, Kind.startsOperand]⟩
      | cons sign signs =>
          obtain ⟨op, known, low⟩ := additive sign (signed sign List.mem_cons_self)
          have others : ∀ other ∈ signs, other.kind.isSign plus = true :=
            fun other member => signed other (List.mem_cons_of_mem _ member)
          exact .inr ⟨sign, op, _, rfl, known, low, _, .number others isNumber⟩
  | @group path signs word opening closing items signed opens closes fits inside =>
      cases signs with
      | nil => exact .inl ⟨opening, _, rfl, by simp [opens, Kind.startsOperand]⟩
      | cons sign signs =>
          obtain ⟨op, known, low⟩ := additive sign (signed sign List.mem_cons_self)
          have others : ∀ other ∈ signs, other.kind.isSign plus = true :=
            fun other member => signed other (List.mem_cons_of_mem _ member)
          exact .inr ⟨sign, op, _, rfl, known, low, _, .group others opens closes fits inside⟩

theorem readable_implied {path : Path} {left right : List Token} {first second : List Item}
    (before : Phrase allowed plus 0 path left first) (after : Phrase allowed plus 2 path right second) :
    Readable allowed plus 0 path (left ++ right) := by
  rcases factor_head after (Nat.le_refl 2) with
    ⟨head, tail, rfl, starts⟩ | ⟨sign, op, tail, rfl, known, low, items, rest⟩
  · simpa only [List.append_nil] using readable_product (.implied starts) rfl before after
  · exact readable_sum known low before (.tighter (.tighter rest))

theorem readable_signed {path : Path} {word : List Token} {sign : Token} {items : List Item}
    (isSign : sign.kind.isSign plus = true) (operand : Phrase allowed plus 3 path word items) :
    Readable allowed plus 3 path (sign :: word) := by
  generalize three : 3 = level at operand
  cases operand with
  | tighter phrase => exact absurd (phrase_level phrase) (by omega)
  | chain atLevel joined =>
      have low := joint_level _ _ _ joined
      omega
  | power => cases three
  | number signed isNumber =>
      rw [← List.cons_append]
      exact ⟨_, .number (by simpa [isSign] using signed) isNumber⟩
  | group signed opens closes fits inside =>
      rw [← List.cons_append]
      exact ⟨_, .group (by simpa [isSign] using signed) opens closes fits inside⟩

def Nonterminal.level : Nonterminal → Nat
  | .expression => 0
  | .term => 0
  | .factor => 2
  | .negation => 3
  | .number => 3

theorem derived_readable {symbol : Nonterminal} {path : Path} {kinds : List Kind}
    (derives : Derives allowed plus symbol path kinds) (word : List Token)
    (same : word.map Token.kind = kinds) : Readable allowed plus symbol.level path word := by
  induction derives generalizing word with
  | term _ ih => exact ih word same
  | @sum path left right sign _ additive _ beforeIh afterIh =>
      obtain ⟨leftWord, rest, rfl, rfl, cut⟩ := List.map_eq_append_iff.mp same
      obtain ⟨token, rightWord, rfl, rfl, rfl⟩ := List.map_eq_cons_iff.mp cut
      obtain ⟨first, before⟩ := beforeIh leftWord rfl
      obtain ⟨second, after⟩ := afterIh rightWord rfl
      rcases additive with plus | minus
      · have known : token.kind.chained = some .add := by rw [plus]; rfl
        exact readable_sum known rfl before after
      · have known : token.kind.chained = some .sub := by rw [minus]; rfl
        exact readable_sum known rfl before after
  | factor _ ih =>
      obtain ⟨items, phrase⟩ := ih word same
      exact ⟨items, phrase_loosened phrase⟩
  | @product path left right sign _ multiplicative _ beforeIh afterIh =>
      obtain ⟨leftWord, rest, rfl, rfl, cut⟩ := List.map_eq_append_iff.mp same
      obtain ⟨token, rightWord, rfl, rfl, rfl⟩ := List.map_eq_cons_iff.mp cut
      obtain ⟨first, before⟩ := beforeIh leftWord rfl
      obtain ⟨second, after⟩ := afterIh rightWord rfl
      rw [List.append_cons]
      rcases multiplicative with star | slash
      · have known : token.kind.chained = some .mul := by rw [star]; rfl
        exact readable_product (.sign known) rfl before after
      · have known : token.kind.chained = some .div := by rw [slash]; rfl
        exact readable_product (.sign known) rfl before after
  | implied _ _ beforeIh afterIh =>
      obtain ⟨leftWord, rightWord, rfl, leftKinds, rightKinds⟩ := List.map_eq_append_iff.mp same
      obtain ⟨first, before⟩ := beforeIh leftWord leftKinds
      obtain ⟨second, after⟩ := afterIh rightWord rightKinds
      exact readable_implied before after
  | negation _ ih =>
      obtain ⟨items, phrase⟩ := ih word same
      exact ⟨items, .tighter phrase⟩
  | power _ fits _ baseIh exponentIh =>
      obtain ⟨leftWord, rest, rfl, leftKinds, cut⟩ := List.map_eq_append_iff.mp same
      obtain ⟨caret, rightWord, rfl, sign, rightKinds⟩ := List.map_eq_cons_iff.mp cut
      obtain ⟨first, base⟩ := baseIh leftWord leftKinds
      obtain ⟨second, exponent⟩ := exponentIh rightWord rightKinds
      exact ⟨_, .power sign fits base exponent⟩
  | number _ ih => exact ih word same
  | minus _ ih =>
      obtain ⟨sign, rest, rfl, kind, restKinds⟩ := List.map_eq_cons_iff.mp same
      obtain ⟨items, operand⟩ := ih rest restKinds
      exact readable_signed (by rw [kind]; rfl) operand
  | plus absorbed _ ih =>
      obtain ⟨sign, rest, rfl, kind, restKinds⟩ := List.map_eq_cons_iff.mp same
      obtain ⟨items, operand⟩ := ih rest restKinds
      exact readable_signed (by rw [kind]; exact absorbed) operand
  | group fits _ ih =>
      obtain ⟨opening, rest, rfl, opens, cut⟩ := List.map_eq_cons_iff.mp same
      obtain ⟨inner, last, rfl, innerKinds, cut⟩ := List.map_eq_append_iff.mp cut
      obtain ⟨closing, none, rfl, closes, nothing⟩ := List.map_eq_cons_iff.mp cut
      obtain ⟨items, inside⟩ := ih inner innerKinds
      rw [List.map_eq_nil_iff.mp nothing]
      exact ⟨items, phrase_group opens closes fits inside⟩
  | literal =>
      obtain ⟨token, none, rfl, isNumber, nothing⟩ := List.map_eq_cons_iff.mp same
      rw [List.map_eq_nil_iff.mp nothing]
      exact ⟨_, phrase_number isNumber⟩

def FitsLimit (limit : Int) (path : Path) : Prop := (path.levels : Int) ≤ max limit 0 ∧ path.frames < 988

theorem admits_whole_iff (request : Number.TypeRequest) (limit : Int) (unaryPlus : Setting) (path : Path)
    (nested : 0 < path.levels) :
    (Options.mk request (.quantity (.whole limit)) unaryPlus).rules.Admits path ↔ FitsLimit limit path := by
  have depth : (limit < (path.levels : Int)) = False ↔ (path.levels : Int) ≤ max limit 0 := by
    rw [eq_iff_iff, iff_false]
    omega
  simp only [Rules.Admits, Options.rules, Setting.quantity.injEq, exists_eq_left', Quantity.exceededBy,
    decide_eq_false_iff_not, frameBound, Option.some.injEq, forall_eq', FitsLimit, ← depth, eq_iff_iff, iff_false]

theorem fits_limit_outward {limit : Int} {outer inner : Path} (within : outer.Within inner)
    (fits : FitsLimit limit inner) : FitsLimit limit outer := by
  have levels := within.1
  have frames := within.2
  simp only [FitsLimit] at fits ⊢
  omega

theorem parsed_derives {options : Options} {allowed : Path → Prop} {tokens : List Token} {items : List Item}
    (ends : endsWithFinish tokens = true) (parsed : parse options tokens = .ok items)
    (allows : ∀ outer inner : Path, outer.Within inner → 0 < inner.levels → options.rules.Admits inner → allowed outer) :
    Derives allowed options.unaryPlus.isTrue .expression .root ((beforeFinish tokens).map Token.kind) := by
  have phrase := (parse_ok_iff options tokens items ends).mp parsed
  refine phrase_derives (phrase_outward phrase (fun outer inner within nested admitted => ?_) .root
    (path_within_refl _))
  exact allows outer inner within (Nat.lt_of_lt_of_le nested within.1) admitted

-- A sequence has a postfix form exactly if its kinds, up to the first end of input, are an expression of
-- the grammar that keeps to the limits.
theorem parse_succeeds_iff_derives (request : Number.TypeRequest) (limit : Int) (unaryPlus : Setting)
    (tokens : List Token) (ends : endsWithFinish tokens = true) :
    (∃ items, parse ⟨request, .quantity (.whole limit), unaryPlus⟩ tokens = .ok items) ↔
      Derives (FitsLimit limit) unaryPlus.isTrue .expression .root ((beforeFinish tokens).map Token.kind) := by
  constructor
  · rintro ⟨items, parsed⟩
    refine parsed_derives ends parsed fun outer inner within nested admitted => ?_
    exact fits_limit_outward within ((admits_whole_iff request limit unaryPlus inner nested).mp admitted)
  · intro derives
    obtain ⟨items, phrase⟩ := derived_readable derives (beforeFinish tokens) rfl
    refine ⟨items, (parse_ok_iff _ tokens items ends).mpr ?_⟩
    refine phrase_outward phrase (fun outer inner within nested fits => ?_) .root (path_within_refl _)
    exact (admits_whole_iff request limit unaryPlus outer nested).mpr (fits_limit_outward within fits)

def nestedPower : List Kind :=
  [.number, .minus, .number, .caret, .opening, .minus, .number, .caret, .number, .closing]

theorem nested_power_derives_at_three :
    endsWithFinish (spelled (nestedPower ++ [.finish])) = true ∧
      Derives (FitsLimit 3) true .expression .root nestedPower ∧
      ¬ Derives (FitsLimit 2) true .expression .root nestedPower := by
  have ends : endsWithFinish (spelled (nestedPower ++ [.finish])) = true := by decide
  refine ⟨ends, ?_, ?_⟩
  · exact (parse_succeeds_iff_derives (.floating .double) 3 (.quantity (.flag true)) _ ends).mp ⟨_, rfl⟩
  · intro derives
    obtain ⟨items, parsed⟩ := (parse_succeeds_iff_derives (.floating .double) 2 (.quantity (.flag true)) _ ends).mpr derives
    cases parsed

end Reckon
