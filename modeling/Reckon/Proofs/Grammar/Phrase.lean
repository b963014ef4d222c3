import Reckon.Parse.Step

/-!
Phrases of the expression grammar, each with the items that it stands for. A phrase has a level: 0 for an
expression, 1 for a term, 2 for a factor, 3 for an operand with its signs. There is one way to read a
phrase: a chain of operations leans to the left, a chain of powers to the right, and a factor that follows
another without a sign between them starts with a number or a group.
-/

set_option autoImplicit false

namespace Reckon

structure Path where
  levels : Nat
  frames : Nat
deriving DecidableEq, Repr

def Path.root : Path := ⟨0, 0⟩

def Path.inGroup (path : Path) : Path := ⟨path.levels + 1, path.frames + 6⟩

def Path.inPower (path : Path) : Path := ⟨path.levels + 1, path.frames + 2⟩

def Path.Within (outer inner : Path) : Prop := outer.levels ≤ inner.levels ∧ outer.frames ≤ inner.frames

def Kind.isSign (plus : Bool) : Kind → Bool
  | .minus => true
  | .plus => plus
  | _ => false

def Kind.startsOperand : Kind → Bool
  | .number => true
  | .opening => true
  | _ => false

def Kind.chained : Kind → Option BinaryOp
  | .plus => some .add
  | .minus => some .sub
  | .star => some .mul
  | .slash => some .div
  | _ => none

-- How tightly a token holds on to the operand before it. A token can go on with a phrase of any level below
-- its binding.
def Kind.binding : Kind → Nat
  | .finish => 0
  | .closing => 0
  | .plus => 1
  | .minus => 1
  | .star => 2
  | .slash => 2
  | .opening => 2
  | .number => 2
  | .caret => 3

def negates (signs : List Token) : Bool := signs.countP (·.kind = .minus) % 2 = 1

-- What stands between the operands of a chained operation: its sign, or nothing between two factors.
inductive Joint : List Token → BinaryOp → List Token → Prop
  | sign {token : Token} {op : BinaryOp} {right : List Token} (known : token.kind.chained = some op) :
      Joint [token] op right
  | implied {head : Token} {tail : List Token} (operand : head.kind.startsOperand = true) :
      Joint [] .mul (head :: tail)

inductive Phrase (allowed : Path → Prop) (plus : Bool) : Nat → Path → List Token → List Item → Prop
  | tighter {level : Nat} {path : Path} {word : List Token} {items : List Item}
      (phrase : Phrase allowed plus (level + 1) path word items) : Phrase allowed plus level path word items
  | chain {level : Nat} {path : Path} {op : BinaryOp} {left joint right : List Token}
      {first second : List Item} (atLevel : op.level = level) (joined : Joint joint op right)
      (before : Phrase allowed plus level path left first)
      (after : Phrase allowed plus (level + 1) path right second) :
      Phrase allowed plus level path (left ++ joint ++ right) (first ++ second ++ [.operation op])
  | power {path : Path} {caret : Token} {left right : List Token} {first second : List Item}
      (sign : caret.kind = .caret) (fits : allowed path.inPower)
      (before : Phrase allowed plus 3 path left first)
      (after : Phrase allowed plus 2 path.inPower right second) :
      Phrase allowed plus 2 path (left ++ caret :: right) (first ++ second ++ [.operation .pow])
  | number {path : Path} {signs : List Token} {token : Token}
      (signed : ∀ sign ∈ signs, sign.kind.isSign plus = true) (isNumber : token.kind = .number) :
      Phrase allowed plus 3 path (signs ++ [token]) (.number token.span :: negation (negates signs))
  | group {path : Path} {signs word : List Token} {opening closing : Token} {items : List Item}
      (signed : ∀ sign ∈ signs, sign.kind.isSign plus = true) (opens : opening.kind = .opening)
      (closes : closing.kind = .closing) (fits : allowed path.inGroup)
      (inside : Phrase allowed plus 0 path.inGroup word items) :
      Phrase allowed plus 3 path (signs ++ opening :: (word ++ [closing]))
        (items ++ negation (negates signs))

theorem path_within_refl (path : Path) : path.Within path := ⟨Nat.le_refl _, Nat.le_refl _⟩

theorem path_within_trans {first second third : Path} (inner : first.Within second)
    (outer : second.Within third) : first.Within third :=
  ⟨Nat.le_trans inner.1 outer.1, Nat.le_trans inner.2 outer.2⟩

theorem path_within_group (outer inner : Path) (within : outer.Within inner) :
    outer.inGroup.Within inner.inGroup :=
  ⟨Nat.add_le_add_right within.1 1, Nat.add_le_add_right within.2 6⟩

theorem path_within_power (outer inner : Path) (within : outer.Within inner) :
    outer.inPower.Within inner.inPower :=
  ⟨Nat.add_le_add_right within.1 1, Nat.add_le_add_right within.2 2⟩

theorem chained_level (kind : Kind) (op : BinaryOp) (known : kind.chained = some op) :
    kind.binding = op.level + 1 ∧ op.level < 2 := by
  cases kind <;> simp_all [Kind.chained] <;> subst op <;> decide

theorem joint_level (joint right : List Token) (op : BinaryOp) (joined : Joint joint op right) :
    op.level < 2 := by
  cases joined with
  | implied operand => decide
  | sign known => exact (chained_level _ _ known).2

theorem joint_extended (joint right more : List Token) (op : BinaryOp) (joined : Joint joint op right) :
    Joint joint op (right ++ more) := by
  cases joined with
  | implied operand => exact .implied operand
  | sign known => exact .sign known

theorem phrase_level {allowed : Path → Prop} {plus : Bool} {level : Nat} {path : Path}
    {word : List Token} {items : List Item} (phrase : Phrase allowed plus level path word items) :
    level ≤ 3 := by
  induction phrase with
  | tighter _ ih => exact Nat.le_of_succ_le ih
  | chain atLevel joined =>
      have low := joint_level _ _ _ joined
      omega
  | _ => decide

theorem phrase_outward {allowed permitted : Path → Prop} {plus : Bool} {level : Nat} {path : Path}
    {word : List Token} {items : List Item} (phrase : Phrase allowed plus level path word items)
    (outward : ∀ outer inner : Path, outer.Within inner → 0 < outer.levels → allowed inner → permitted outer)
    (place : Path) (within : place.Within path) : Phrase permitted plus level place word items := by
  induction phrase generalizing place with
  | tighter _ ih => exact .tighter (ih place within)
  | chain atLevel joined _ _ beforeIh afterIh =>
      exact .chain atLevel joined (beforeIh place within) (afterIh place within)
  | power sign fits _ _ beforeIh afterIh =>
      have deeper := path_within_power _ _ within
      exact .power sign (outward _ _ deeper (Nat.succ_pos _) fits) (beforeIh place within) (afterIh _ deeper)
  | number signed isNumber => exact .number signed isNumber
  | group signed opens closes fits _ ih =>
      have deeper := path_within_group _ _ within
      exact .group signed opens closes (outward _ _ deeper (Nat.succ_pos _) fits) (ih _ deeper)

theorem phrase_number {allowed : Path → Prop} {plus : Bool} {path : Path} {token : Token}
    (isNumber : token.kind = .number) : Phrase allowed plus 3 path [token] [.number token.span] := by
  have unsigned : ∀ sign ∈ ([] : List Token), sign.kind.isSign plus = true := by simp
  simpa [negates, negation] using Phrase.number unsigned isNumber

theorem phrase_group {allowed : Path → Prop} {plus : Bool} {path : Path} {opening closing : Token}
    {word : List Token} {items : List Item} (opens : opening.kind = .opening) (closes : closing.kind = .closing)
    (fits : allowed path.inGroup) (inside : Phrase allowed plus 0 path.inGroup word items) :
    Phrase allowed plus 3 path (opening :: (word ++ [closing])) items := by
  have unsigned : ∀ sign ∈ ([] : List Token), sign.kind.isSign plus = true := by simp
  simpa [negates, negation] using Phrase.group unsigned opens closes fits inside

theorem phrase_looser {allowed : Path → Prop} {plus : Bool} {looser level : Nat} {path : Path}
    {word : List Token} {items : List Item} (loose : looser ≤ level)
    (phrase : Phrase allowed plus level path word items) : Phrase allowed plus looser path word items := by
  induction loose with
  | refl => exact phrase
  | step _ ih => exact ih (.tighter phrase)

theorem phrase_loosened {allowed : Path → Prop} {plus : Bool} {level : Nat} {path : Path}
    {word : List Token} {items : List Item} (phrase : Phrase allowed plus level path word items) :
    Phrase allowed plus 0 path word items := phrase_looser (Nat.zero_le level) phrase

theorem phrase_nonempty {allowed : Path → Prop} {plus : Bool} {level : Nat} {path : Path}
    {word : List Token} {items : List Item} (phrase : Phrase allowed plus level path word items) :
    word ≠ [] := by
  induction phrase <;> simp_all

end Reckon
