import Reckon.Proofs.Grammar.Cuts
import Reckon.Proofs.Parse.Numbers
import Reckon.Proofs.Parse.StackHeight

set_option autoImplicit false

namespace Reckon

def placed (operand : Bool) : List Token → List (Bool × Token)
  | [] => []
  | token :: rest => (operand, token) :: placed token.kind.endsOperand rest

def atSign (place : Bool × Token) : Bool := !place.1 && place.2.kind.isSign true

-- The longest runs of signs. There is one, possibly empty, on either side of every other token.
def signRuns (places : List (Bool × Token)) : List (List Token) :=
  (places.splitOnP fun place => !atSign place).map fun run => run.map Prod.snd

def makes (op : BinaryOp) (place : Bool × Token) : Bool :=
  match op with
  | .add => place.1 && place.2.kind = .plus
  | .sub => place.1 && place.2.kind = .minus
  | .mul => place.2.kind = .star || (place.1 && place.2.kind.startsOperand)
  | .div => place.2.kind = .slash
  | .pow => place.2.kind = .caret

theorem placed_append (operand : Bool) (first second : List Token) :
    placed operand (first ++ second) = placed operand first ++ placed (operandAfter operand first) second := by
  induction first generalizing operand with
  | nil => rfl
  | cons token rest ih => rw [List.cons_append, placed, ih, placed, operandAfter, List.cons_append]

theorem placed_tokens (operand : Bool) (word : List Token) : (placed operand word).map Prod.snd = word := by
  induction word generalizing operand with
  | nil => rfl
  | cons token rest ih => rw [placed, List.map_cons, ih]

theorem placed_count (operand : Bool) (word : List Token) (kind : Kind) :
    (placed operand word).countP (·.2.kind = kind) = word.countP (·.kind = kind) := by
  have mapped := List.countP_map (p := fun token : Token => decide (token.kind = kind)) (f := Prod.snd)
    (l := placed operand word)
  rw [placed_tokens] at mapped
  exact mapped.symm

theorem placed_signs {plus : Bool} {signs : List Token} (signed : ∀ sign ∈ signs, sign.kind.isSign plus = true) :
    placed false signs = signs.map (false, ·) := by
  induction signs with
  | nil => rfl
  | cons sign signs ih =>
      have isSign := signed sign List.mem_cons_self
      have between : sign.kind.endsOperand = false := by
        cases kind : sign.kind <;> simp [kind, Kind.isSign, Kind.endsOperand] at isSign ⊢
      rw [placed, between, ih fun other member => signed other (List.mem_cons_of_mem _ member), List.map_cons]

theorem sign_runs_divided (before after : List (Bool × Token)) (place : Bool × Token)
    (noSign : atSign place = false) :
    (signRuns (before ++ place :: after)).countP negates =
      (signRuns before).countP negates + (signRuns after).countP negates := by
  rw [signRuns, List.splitOnP_append_cons before after (by simp [noSign]), List.map_append, List.countP_append]
  rfl

theorem sign_runs_headed (after : List (Bool × Token)) (place : Bool × Token) (noSign : atSign place = false) :
    (signRuns (place :: after)).countP negates = (signRuns after).countP negates := by
  have divided := sign_runs_divided [] after place noSign
  rwa [show (signRuns []).countP negates = 0 from rfl, Nat.zero_add] at divided

theorem sign_runs_single {plus : Bool} (signs : List Token)
    (signed : ∀ sign ∈ signs, sign.kind.isSign plus = true) : signRuns (placed false signs) = [signs] := by
  rw [placed_signs signed, signRuns, List.splitOnP_eq_singleton]
  · simp [Function.comp_def]
  · intro place member
    obtain ⟨sign, among, rfl⟩ := List.mem_map.mp member
    have isSign := signed sign among
    cases kind : sign.kind <;> simp [kind, Kind.isSign, atSign] at isSign ⊢

theorem signs_make_nothing {plus : Bool} (signs : List Token)
    (signed : ∀ sign ∈ signs, sign.kind.isSign plus = true) (op : BinaryOp) :
    (placed false signs).countP (makes op) = 0 := by
  rw [placed_signs signed, List.countP_map, List.countP_eq_zero]
  intro sign member
  have isSign := signed sign member
  cases kind : sign.kind <;> cases op <;> simp [kind, Kind.isSign, makes, Kind.startsOperand] at isSign ⊢

-- What stands between the two operands of a chain makes its operation, and the right operand is counted as if
-- nothing were before it.
theorem joint_made {joint right : List Token} {op : BinaryOp} (joined : Joint joint op right) (other : BinaryOp) :
    (placed true (joint ++ right)).countP (makes other) =
      [op].count other + (placed false right).countP (makes other) := by
  cases joined with
  | @sign token op right known =>
      rw [List.singleton_append, placed, List.countP_cons, Nat.add_comm]
      cases kind : token.kind <;> simp [kind, Kind.chained] at known <;> subst known <;> cases other <;>
        simp [makes, kind, Kind.startsOperand, Kind.endsOperand]
  | @implied head tail operand =>
      rw [List.nil_append, placed, placed, List.countP_cons, List.countP_cons]
      cases kind : head.kind <;> simp [kind, Kind.startsOperand] at operand <;> cases other <;>
        simp [makes, kind, Kind.startsOperand, Nat.add_comm]

theorem joint_sign_runs {joint right : List Token} {op : BinaryOp} (joined : Joint joint op right)
    (before : List (Bool × Token)) :
    (signRuns (before ++ placed true (joint ++ right))).countP negates =
      (signRuns before).countP negates + (signRuns (placed false right)).countP negates := by
  cases joined with
  | @sign token op right known =>
      rw [List.singleton_append, placed, sign_runs_divided _ _ _ rfl]
      cases kind : token.kind <;> simp [kind, Kind.chained] at known <;> rfl
  | @implied head tail operand =>
      have noSign : head.kind.isSign true = false := by
        cases kind : head.kind <;> simp [kind, Kind.startsOperand, Kind.isSign] at operand ⊢
      rw [List.nil_append, placed, sign_runs_divided _ _ _ rfl, placed,
        sign_runs_headed _ (false, head) (by simp [atSign, noSign])]

variable {allowed : Path → Prop} {plus : Bool} {level : Nat} {path : Path} {word : List Token}
  {items : List Item}

theorem placed_after_phrase (phrase : Phrase allowed plus level path word items) (rest : List Token) :
    placed false (word ++ rest) = placed false word ++ placed true rest := by
  rw [placed_append, phrase_ends_operand phrase]

theorem placed_power {caret : Token} (sign : caret.kind = .caret)
    (phrase : Phrase allowed plus level path word items) (right : List Token) :
    placed false (word ++ caret :: right) = placed false word ++ (true, caret) :: placed false right := by
  rw [placed_after_phrase phrase, placed, sign]
  rfl

theorem placed_number {signs : List Token} (signed : ∀ sign ∈ signs, sign.kind.isSign plus = true)
    (token : Token) : placed false (signs ++ [token]) = placed false signs ++ [(false, token)] := by
  rw [placed_append, (signs_scanned signs signed).1]
  rfl

theorem placed_group {signs : List Token} {opening closing : Token}
    (signed : ∀ sign ∈ signs, sign.kind.isSign plus = true) (opens : opening.kind = .opening)
    (inside : Phrase allowed plus level path word items) :
    placed false (signs ++ opening :: (word ++ [closing])) =
      placed false signs ++ (false, opening) :: (placed false word ++ [(true, closing)]) := by
  rw [placed_append, (signs_scanned signs signed).1, placed, opens,
    show Kind.endsOperand .opening = false from rfl, placed_after_phrase inside]
  rfl

theorem negation_made (negated : Bool) (op : BinaryOp) : (negation negated).count (.operation op) = 0 := by
  cases negated <;> rfl

theorem phrase_made (phrase : Phrase allowed plus level path word items) (op : BinaryOp) :
    items.count (.operation op) = (placed false word).countP (makes op) := by
  have last (made : BinaryOp) : [Item.operation made].count (.operation op) = [made].count op := by
    simp [List.count_singleton]
  induction phrase with
  | tighter _ ih => exact ih
  | @chain level path made left joint right first second atLevel joined before _ beforeIh afterIh =>
      rw [List.append_assoc left, placed_after_phrase before, List.countP_append, joint_made joined,
        List.count_append, List.count_append, beforeIh, afterIh, last]
      omega
  | @power path caret left right first second sign fits before _ beforeIh afterIh =>
      have single : [BinaryOp.pow].count op = if makes op (true, caret) then 1 else 0 := by
        cases op <;> simp [makes, sign, Kind.startsOperand]
      rw [placed_power sign before, List.countP_append, List.countP_cons, List.count_append, List.count_append,
        beforeIh, afterIh, last, single]
      omega
  | @number path signs token signed isNumber =>
      have nothing : makes op (false, token) = false := by cases op <;> simp [makes, isNumber]
      rw [placed_number signed, List.countP_append, signs_make_nothing signs signed, List.count_cons, negation_made]
      simp [nothing]
  | @group path signs word opening closing items signed opens closes fits inside ih =>
      have nothing : makes op (false, opening) = false ∧ makes op (true, closing) = false := by
        cases op <;> simp [makes, opens, closes, Kind.startsOperand]
      rw [placed_group signed opens inside, List.countP_append, signs_make_nothing signs signed, List.count_append,
        ih, negation_made]
      simp [nothing]

theorem negation_negations (signs : List Token) :
    (negation (negates signs)).count .negate = [signs].countP negates := by
  rw [List.countP_singleton]
  cases negates signs <;> rfl

theorem phrase_negations (phrase : Phrase allowed plus level path word items) :
    items.count .negate = (signRuns (placed false word)).countP negates := by
  have none (op : BinaryOp) : [Item.operation op].count .negate = 0 := by simp
  induction phrase with
  | tighter _ ih => exact ih
  | @chain level path made left joint right first second atLevel joined before _ beforeIh afterIh =>
      rw [List.append_assoc left, placed_after_phrase before, joint_sign_runs joined, List.count_append,
        List.count_append, beforeIh, afterIh, none, Nat.add_zero]
  | @power path caret left right first second sign fits before _ beforeIh afterIh =>
      rw [placed_power sign before, sign_runs_divided _ _ _ rfl, List.count_append, List.count_append, beforeIh,
        afterIh, none, Nat.add_zero]
  | @number path signs token signed isNumber =>
      have noSign : atSign (false, token) = false := by simp [atSign, isNumber, Kind.isSign]
      rw [placed_number signed, sign_runs_divided _ _ _ noSign, sign_runs_single signs signed, List.count_cons,
        negation_negations]
      rfl
  | @group path signs word opening closing items signed opens closes fits inside ih =>
      have noSign : atSign (false, opening) = false := by simp [atSign, opens, Kind.isSign]
      rw [placed_group signed opens inside, sign_runs_divided _ _ _ noSign, sign_runs_single signs signed,
        sign_runs_divided _ _ _ rfl, List.count_append, ih, negation_negations, Nat.add_comm]
      rfl

theorem leaf_spans_cons (item : Item) (rest : List Item) :
    leafSpans (item :: rest) = item.span.toList ++ leafSpans rest := by
  cases item <;> rfl

theorem items_counted (items : List Item) :
    items.length = (leafSpans items).length + items.count .negate + items.count (.operation .add) +
        items.count (.operation .sub) + items.count (.operation .mul) + items.count (.operation .div) +
        items.count (.operation .pow) ∧
      (items.length : Int) + effects items = 2 * (leafSpans items).length + items.count .negate := by
  induction items with
  | nil => exact ⟨rfl, rfl⟩
  | cons item rest ih =>
      obtain ⟨lengths, balance⟩ := ih
      cases item with
      | number span =>
          simp [leaf_spans_cons, Item.span, effects, Item.effect]
          omega
      | negate =>
          simp [leaf_spans_cons, Item.span, effects, Item.effect]
          omega
      | operation op =>
          cases op <;> simp [leaf_spans_cons, Item.span, effects, Item.effect] <;> omega

theorem places_with_product (places : List (Bool × Token)) :
    places.countP (makes .mul) = places.countP (·.2.kind = .star) +
      places.countP fun place => place.1 && place.2.kind.startsOperand := by
  induction places with
  | nil => rfl
  | cons place rest ih =>
      obtain ⟨operand, token⟩ := place
      simp only [List.countP_cons, ih]
      cases operand <;> cases kind : token.kind <;> simp [makes, kind, Kind.startsOperand] <;> omega

theorem tokens_accounted_for (options : Options) (tokens : List Token) (items : List Item)
    (parsed : parse options tokens = .ok items) :
    let word := beforeFinish tokens
    let places := placed false word
    leafSpans items = numberSpans word ∧
      items.count (.operation .pow) = word.countP (·.kind = .caret) ∧
      items.count (.operation .div) = word.countP (·.kind = .slash) ∧
      items.count (.operation .mul) = word.countP (·.kind = .star) +
        places.countP (fun place => place.1 && place.2.kind.startsOperand) ∧
      items.count (.operation .add) = places.countP (fun place => place.1 && place.2.kind = .plus) ∧
      items.count (.operation .sub) = places.countP (fun place => place.1 && place.2.kind = .minus) ∧
      items.count .negate = (signRuns places).countP negates ∧
      items.length = word.countP (·.kind = .number) + items.count .negate + items.count (.operation .add) +
        items.count (.operation .sub) + items.count (.operation .mul) + items.count (.operation .div) +
        items.count (.operation .pow) ∧
      items.length + 1 = 2 * word.countP (·.kind = .number) + items.count .negate := by
  obtain ⟨ends, ran⟩ := parse_ran parsed
  have phrase := (run_ok_iff options.rules tokens items ends).mp ran
  have spans := run_spans ran
  have numbers : (leafSpans items).length = (beforeFinish tokens).countP (·.kind = .number) := by
    rw [spans, number_spans_length]
  obtain ⟨lengths, balance⟩ := items_counted items
  rw [numbers] at lengths balance
  rw [phrase_effects phrase] at balance
  refine ⟨spans, ?_, ?_, ?_, phrase_made phrase .add, phrase_made phrase .sub, phrase_negations phrase, lengths, ?_⟩
  · exact (phrase_made phrase .pow).trans (placed_count false _ .caret)
  · exact (phrase_made phrase .div).trans (placed_count false _ .slash)
  · rw [phrase_made phrase, places_with_product, placed_count]
  · omega

-- The tokens of `-+-2 3*4--(-5)^+6/7`, with another end of input and a number after the end.
def signedProduct : List Token :=
  spelled [.minus, .plus, .minus, .number, .number, .star, .number, .minus, .minus, .opening, .minus, .number,
    .closing, .caret, .plus, .number, .slash, .number, .finish, .number, .finish]

theorem signed_product_accounted_for :
    ∃ items, parse {} signedProduct = .ok items ∧ leafSpans items = numberSpans (signedProduct.take 18) ∧
      items.count (.operation .mul) = 1 + 1 ∧ items.count (.operation .sub) = 1 ∧ items.count .negate = 2 ∧
      items.length + 1 = 2 * 6 + 2 := by
  obtain ⟨items, parsed⟩ : ∃ items, parse {} signedProduct = .ok items := ⟨_, rfl⟩
  obtain ⟨spans, -, -, products, -, differences, negations, -, length⟩ :=
    tokens_accounted_for {} signedProduct items parsed
  have twice : items.count .negate = 2 := negations.trans (by decide)
  rw [twice] at length
  exact ⟨items, parsed, spans, products, differences, twice, length⟩

end Reckon
