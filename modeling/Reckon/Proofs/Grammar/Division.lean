import Reckon.Proofs.Grammar.Cuts
import Reckon.Proofs.Parse.Acceptance

set_option autoImplicit false

namespace Reckon

def leadingSigns (word : List Token) : List Token := word.takeWhile fun token => token.kind.isSign true

inductive Division where
  | operation (op : BinaryOp) (left right : List Token)
  | signed (signs rest : List Token)
  | group (inside : List Token)
  | number (token : Token)
  | nothing
deriving DecidableEq, Repr

def divideOperand : List Token → Division
  | [] => .nothing
  | [token] => .number token
  | _ :: rest => .group rest.dropLast

def divide (word : List Token) : Division :=
  match outermost (cuts word) with
  | some cut => .operation cut.op (word.take cut.position) (word.drop (cut.position + cut.width))
  | none =>
      if leadingSigns word = [] then divideOperand word
      else .signed (leadingSigns word) (word.drop (leadingSigns word).length)

def dividedWithin : Nat → List Token → Option (List Item)
  | 0, _ => none
  | size + 1, word =>
      match divide word with
      | .operation op left right =>
          (dividedWithin size left).bind fun first =>
            (dividedWithin size right).map fun second => first ++ second ++ [.operation op]
      | .signed signs rest => (dividedWithin size rest).map (· ++ negation (negates signs))
      | .group inside => dividedWithin size inside
      | .number token => some [.number token.span]
      | .nothing => none

def dividedForm (word : List Token) : Option (List Item) := dividedWithin word.length word

def Divides (form : List Token → List Item → Prop) (word : List Token) (items : List Item) : Division → Prop
  | .operation op left right =>
      ∃ first second, form left first ∧ form right second ∧ items = first ++ second ++ [.operation op]
  | .signed signs rest => ∃ inner, form rest inner ∧ items = inner ++ negation (negates signs)
  | .group inside =>
      ∃ opening closing, opening.kind = .opening ∧ closing.kind = .closing ∧
        word = opening :: (inside ++ [closing]) ∧ form inside items
  | .number token => token.kind = .number ∧ word = [token] ∧ items = [.number token.span]
  | .nothing => False

variable {allowed : Path → Prop} {plus : Bool} {level : Nat} {path : Path} {word : List Token}
  {items : List Item}

theorem divide_at (left joint right : List Token) (op : BinaryOp)
    (found : outermost (cuts (left ++ joint ++ right)) = some ⟨op, left.length, joint.length⟩) :
    divide (left ++ joint ++ right) = .operation op left right := by
  have before : (left ++ joint ++ right).take left.length = left := by simp [List.append_assoc]
  have after : (left ++ joint ++ right).drop (left.length + joint.length) = right := by
    rw [← List.length_append, List.drop_left]
  simp only [divide, found, before, after]

theorem leading_signs_append (signs : List Token) (head : Token) (tail : List Token)
    (signed : ∀ sign ∈ signs, sign.kind.isSign plus = true) (operand : head.kind.startsOperand = true) :
    leadingSigns (signs ++ head :: tail) = signs := by
  have all : ∀ sign ∈ signs, sign.kind.isSign true = true := by
    intro sign member
    have isSign := signed sign member
    cases kind : sign.kind <;> simp_all [Kind.isSign]
  have stop : head.kind.isSign true = false := by
    cases kind : head.kind <;> simp_all [Kind.isSign, Kind.startsOperand]
  rw [leadingSigns, List.takeWhile_append_of_pos all]
  simp [stop]

theorem divide_signed (signs : List Token) (head : Token) (tail : List Token)
    (signed : ∀ sign ∈ signs, sign.kind.isSign plus = true) (operand : head.kind.startsOperand = true)
    (uncut : cuts (signs ++ head :: tail) = []) :
    divide (signs ++ head :: tail) =
      if signs = [] then divideOperand (head :: tail) else .signed signs (head :: tail) := by
  have leading := leading_signs_append signs head tail signed operand
  rw [divide, uncut, leading]
  by_cases none : signs = [] <;> simp [outermost, lastAt, firstAt, none]

theorem divide_group (word : List Token) (opening closing : Token) (nonempty : word ≠ []) :
    divideOperand (opening :: (word ++ [closing])) = .group word := by
  cases word with
  | nil => exact absurd rfl nonempty
  | cons head tail =>
      change Division.group ((head :: tail) ++ [closing]).dropLast = .group (head :: tail)
      rw [List.dropLast_concat]

theorem divide_operand {signs tail : List Token} {head : Token}
    (signed : ∀ sign ∈ signs, sign.kind.isSign plus = true) (operand : head.kind.startsOperand = true)
    (uncut : cuts (signs ++ head :: tail) = []) {form : List Token → List Item → Prop}
    (alone : Divides form (head :: tail) items (divideOperand (head :: tail))) (part : form (head :: tail) items) :
    Divides form (signs ++ head :: tail) (items ++ negation (negates signs)) (divide (signs ++ head :: tail)) := by
  rw [divide_signed signs head tail signed operand uncut]
  by_cases none : signs = []
  · subst none
    have same : items ++ negation (negates []) = items := by simp [negates, negation]
    rw [if_pos rfl, same]
    exact alone
  · rw [if_neg none]
    exact ⟨items, part, rfl⟩

theorem divide_chain {left joint right : List Token} {op : BinaryOp} {first second : List Item}
    (atLevel : op.level = level) (joined : Joint joint op right)
    (before : Phrase allowed plus level path left first)
    (after : Phrase allowed plus (level + 1) path right second) :
    divide (left ++ joint ++ right) = .operation op left right := by
  subst atLevel
  apply divide_at
  rw [cuts, chain_cuts joined before, Nat.zero_add]
  exact outermost_last _ _ _ (joint_level _ _ _ joined) (phrase_cuts_above before 0) fun cut member =>
    phrase_cuts_above after _ cut member

theorem divide_power {left right : List Token} {caret : Token} {first second : List Item} {inner : Path}
    (sign : caret.kind = .caret) (before : Phrase allowed plus 3 path left first)
    (after : Phrase allowed plus 2 inner right second) :
    divide (left ++ caret :: right) = .operation .pow left right := by
  rw [List.append_cons]
  apply divide_at
  rw [← List.append_cons, cuts, power_cuts sign before, operand_cuts before, Nat.zero_add]
  exact outermost_first _ _ rfl (phrase_cuts_above after _)

theorem divide_phrase (phrase : Phrase allowed plus level path word items) :
    Divides (fun part form => ∃ place : Path, Phrase allowed plus 0 place part form) word items (divide word) := by
  induction phrase with
  | tighter _ ih => exact ih
  | chain atLevel joined before after =>
      rw [divide_chain atLevel joined before after]
      exact ⟨_, _, ⟨_, phrase_loosened before⟩, ⟨_, phrase_loosened after⟩, rfl⟩
  | power sign fits before after =>
      rw [divide_power sign before after]
      exact ⟨_, _, ⟨_, phrase_loosened before⟩, ⟨_, phrase_loosened after⟩, rfl⟩
  | @number path signs token signed isNumber =>
      have starts : token.kind.startsOperand = true := congrArg Kind.startsOperand isNumber
      exact divide_operand signed starts (number_cuts signed isNumber 0) ⟨isNumber, rfl, rfl⟩
        ⟨path, phrase_loosened (phrase_number isNumber)⟩
  | @group path signs word opening closing items signed opens closes fits inside =>
      have starts : opening.kind.startsOperand = true := congrArg Kind.startsOperand opens
      have plain := phrase_loosened (phrase_group opens closes fits inside)
      refine divide_operand signed starts (group_cuts signed opens inside 0) ?_ ⟨path, plain⟩
      rw [divide_group word opening closing (phrase_nonempty inside)]
      exact ⟨opening, closing, opens, closes, rfl, path.inGroup, inside⟩

theorem divide_operation_length {op : BinaryOp} {left right : List Token}
    (divided : divide word = .operation op left right) : left.length + right.length ≤ word.length := by
  unfold divide at divided
  split at divided
  · simp only [Division.operation.injEq] at divided
    obtain ⟨-, rfl, rfl⟩ := divided
    simp only [List.length_take, List.length_drop]
    omega
  · split at divided
    · unfold divideOperand at divided
      split at divided <;> cases divided
    · cases divided

theorem divide_signed_length {signs rest : List Token} (divided : divide word = .signed signs rest)
    (nonempty : word ≠ []) : rest.length < word.length := by
  unfold divide at divided
  split at divided
  · cases divided
  · split at divided
    · unfold divideOperand at divided
      split at divided <;> cases divided
    · rename_i some
      simp only [Division.signed.injEq] at divided
      obtain ⟨-, rfl⟩ := divided
      have signs := List.length_pos_iff.mpr some
      have whole := List.length_pos_iff.mpr nonempty
      simp only [List.length_drop]
      omega

theorem divided_phrase (size : Nat) (word : List Token) (path : Path) (items : List Item)
    (bound : word.length ≤ size) (phrase : Phrase allowed plus 0 path word items) :
    dividedWithin size word = some items := by
  have nonempty := phrase_nonempty phrase
  have positive := List.length_pos_iff.mpr nonempty
  induction size generalizing word path items with
  | zero => omega
  | succ size ih =>
      have divides := divide_phrase phrase
      rw [dividedWithin]
      cases divided : divide word with
      | operation op left right =>
          rw [divided] at divides
          obtain ⟨first, second, ⟨leftPath, before⟩, ⟨rightPath, after⟩, rfl⟩ := divides
          have parts := divide_operation_length divided
          have leftPositive := List.length_pos_iff.mpr (phrase_nonempty before)
          have rightPositive := List.length_pos_iff.mpr (phrase_nonempty after)
          simp only [ih left leftPath first (by omega) before (phrase_nonempty before) leftPositive,
            ih right rightPath second (by omega) after (phrase_nonempty after) rightPositive, Option.bind_some,
            Option.map_some]
      | signed signs rest =>
          rw [divided] at divides
          obtain ⟨inner, ⟨restPath, part⟩, rfl⟩ := divides
          have shorter := divide_signed_length divided nonempty
          have restPositive := List.length_pos_iff.mpr (phrase_nonempty part)
          simp only [ih rest restPath inner (by omega) part (phrase_nonempty part) restPositive, Option.map_some]
      | group inside =>
          rw [divided] at divides
          obtain ⟨opening, closing, -, -, rfl, insidePath, part⟩ := divides
          have insidePositive := List.length_pos_iff.mpr (phrase_nonempty part)
          simp only [List.length_cons, List.length_append] at bound
          simp only [ih inside insidePath items (by omega) part (phrase_nonempty part) insidePositive]
      | number token =>
          rw [divided] at divides
          obtain ⟨-, -, rfl⟩ := divides
          rfl
      | nothing =>
          rw [divided] at divides
          exact divides.elim

theorem divides_weaken {form other : List Token → List Item → Prop} (division : Division)
    (weaker : ∀ part items, form part items → other part items) (divides : Divides form word items division) :
    Divides other word items division := by
  cases division with
  | operation op left right =>
      obtain ⟨first, second, before, after, same⟩ := divides
      exact ⟨first, second, weaker _ _ before, weaker _ _ after, same⟩
  | signed signs rest =>
      obtain ⟨inner, part, same⟩ := divides
      exact ⟨inner, weaker _ _ part, same⟩
  | group inside =>
      obtain ⟨opening, closing, opens, closes, same, part⟩ := divides
      exact ⟨opening, closing, opens, closes, same, weaker _ _ part⟩
  | number token => exact divides
  | nothing => exact divides

-- The postfix form of a word is what dividing it over and over gives, and each part of the division has a
-- postfix form under the same options.
theorem parse_divides (options : Options) (word : List Token) (finish : Token) (items : List Item)
    (free : ∀ token ∈ word, token.kind ≠ .finish) (isFinish : finish.kind = .finish)
    (parsed : parse options (word ++ [finish]) = .ok items) :
    dividedForm word = some items ∧
      Divides (fun part form => parse options (part ++ [finish]) = .ok form) word items (divide word) := by
  have phrase := (parse_word_ok_iff options word finish items free isFinish).mp parsed
  refine ⟨divided_phrase word.length word .root items (Nat.le_refl _) phrase, ?_⟩
  refine divides_weaken (divide word) ?_ (divide_phrase phrase)
  rintro part form ⟨place, inner⟩
  have outward := phrase_outward inner (fun outer deeper within _ => admits_outward _ outer deeper within) .root
    ⟨Nat.zero_le _, Nat.zero_le _⟩
  exact (parse_word_ok_iff options part finish form (phrase_without_finish inner) isFinish).mpr outward

-- The word `1-2*-3^4^5(6)/7`, its end, and its postfix form.
def mixedWord : List Token :=
  spelled [.number, .minus, .number, .star, .minus, .number, .caret, .number, .caret, .number, .opening, .number,
    .closing, .slash, .number]

def mixedEnd : Token := ⟨.finish, ⟨[], 15, 15⟩⟩

def mixedForm : List Item :=
  let leaf (position : Int) := Item.number ⟨[], position, position + 1⟩
  [leaf 0, leaf 2, leaf 5, .negate, leaf 7, leaf 9, .operation .pow, .operation .pow, .operation .mul, leaf 11,
    .operation .mul, leaf 14, .operation .div, .operation .sub]

theorem mixed_word_divides :
    parse {} (mixedWord ++ [mixedEnd]) = .ok mixedForm ∧ dividedForm mixedWord = some mixedForm ∧
      Divides (fun part form => parse {} (part ++ [mixedEnd]) = .ok form) mixedWord mixedForm
        (.operation .sub (mixedWord.take 1) (mixedWord.drop 2)) :=
  ⟨rfl, parse_divides {} mixedWord mixedEnd mixedForm (by decide) rfl rfl⟩

end Reckon
