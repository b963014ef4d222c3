import Reckon.Proofs.Parse.Nesting
import Reckon.Proofs.Rpn.StaticCheck

set_option autoImplicit false

namespace Reckon

open Number (Format TypeRequest Value findFormat)

theorem phrase_tree {allowed : Path → Prop} {plus : Bool} {level : Nat} {path : Path} {word : List Token}
    {items : List Item} (phrase : Phrase allowed plus level path word items) :
    ∃ tree : Tree, tree.items = items := by
  have signed (tree : Tree) (negated : Bool) :
      ∃ result : Tree, result.items = tree.items ++ negation negated := by
    cases negated with
    | false => exact ⟨tree, by simp [negation]⟩
    | true => exact ⟨.negate tree, rfl⟩
  induction phrase with
  | tighter _ ih => exact ih
  | chain _ _ _ _ beforeIh afterIh =>
      obtain ⟨left, rfl⟩ := beforeIh
      obtain ⟨right, rfl⟩ := afterIh
      exact ⟨.operation _ left right, rfl⟩
  | power _ _ _ _ beforeIh afterIh =>
      obtain ⟨left, rfl⟩ := beforeIh
      obtain ⟨right, rfl⟩ := afterIh
      exact ⟨.operation _ left right, rfl⟩
  | number _ _ => exact signed (.leaf _) _
  | group _ _ _ _ _ ih =>
      obtain ⟨inside, rfl⟩ := ih
      exact signed inside _

theorem phrase_effects {allowed : Path → Prop} {plus : Bool} {level : Nat} {path : Path} {word : List Token}
    {items : List Item} (phrase : Phrase allowed plus level path word items) : effects items = 1 := by
  obtain ⟨tree, rfl⟩ := phrase_tree phrase
  exact effects_items tree

theorem depths_negated (depth : Int) (items : List Item) (negated : Bool) (single : effects items = 1) :
    ∀ reached ∈ depthsFrom depth (items ++ negation negated),
      reached ∈ depthsFrom depth items ∨ reached = depth + 1 := by
  rw [depths_append, single]
  intro reached member
  cases negated with
  | false =>
      refine .inl ?_
      simpa [negation, depthsFrom] using member
  | true => simpa [negation, depthsFrom, Item.effect] using member

theorem depths_operation (depth : Int) (op : BinaryOp) (first second : List Item) (firstSingle : effects first = 1)
    (secondSingle : effects second = 1) : ∀ reached ∈ depthsFrom depth (first ++ second ++ [.operation op]),
      reached ∈ depthsFrom depth first ∨ reached ∈ depthsFrom (depth + 1) second ∨ reached = depth + 1 := by
  intro reached member
  rw [depths_append, depths_append, effects_append, firstSingle, secondSingle] at member
  simp only [List.mem_append, or_assoc, depthsFrom, List.mem_singleton, Item.effect] at member
  rcases member with inFirst | inSecond | last
  · exact .inl inFirst
  · exact .inr (.inl inSecond)
  · exact .inr (.inr (by omega))

-- The looser the level, the more operands wait for the last one: one of a sum, one of a product. A power
-- and a group have a level of nesting to account for the operand that they hold back.
theorem phrase_depths_bounded {plus : Bool} {level : Nat} {path : Path} {word : List Token} {items : List Item}
    (limit : Nat) (phrase : Phrase (·.levels ≤ limit) plus level path word items) (outer : path.levels ≤ limit)
    (depth : Int) : ∀ reached ∈ depthsFrom depth items,
      reached + (min level 2 : Nat) + 2 * path.levels ≤ depth + 2 * limit + 3 := by
  induction phrase generalizing depth with
  | tighter _ ih =>
      intro reached member
      have bound := ih outer depth reached member
      omega
  | @chain level path op left joint right first second atLevel joined before after beforeIh afterIh =>
      have low := joint_level _ _ _ joined
      intro reached member
      rcases depths_operation depth op first second (phrase_effects before) (phrase_effects after) reached member
        with inFirst | inSecond | last
      · exact beforeIh outer depth reached inFirst
      · have bound := afterIh outer (depth + 1) reached inSecond
        omega
      · omega
  | @power path caret left right first second sign fits before after beforeIh afterIh =>
      intro reached member
      rcases depths_operation depth .pow first second (phrase_effects before) (phrase_effects after) reached member
        with inFirst | inSecond | last
      · exact beforeIh outer depth reached inFirst
      · have bound := afterIh fits (depth + 1) reached inSecond
        simp only [Path.inPower] at bound
        omega
      · omega
  | number signed isNumber =>
      intro reached member
      rcases depths_negated depth [.number _] _ rfl reached member with alone | last
      · simp only [depthsFrom, Item.effect, List.mem_singleton] at alone
        omega
      · omega
  | group signed opens closes fits inside ih =>
      intro reached member
      rcases depths_negated depth _ _ (phrase_effects inside) reached member with within | last
      · have bound := ih fits depth reached within
        simp only [Path.inGroup] at bound
        omega
      · omega

theorem well_formed_evaluates (request : TypeRequest) (format : Format) (items : List Item)
    (found : findFormat request = .ok format) (formed : wellFormed items = true) :
    (∃ value, evaluate request items = .ok ⟨format, value⟩) ∨
      ∃ span, evaluate request items = .error (.malformed span) := by
  obtain ⟨tree, rfl⟩ := well_formed_tree items formed
  have outcome := evaluate_first_malformed format tree
  simp only [evaluate, found, evaluate_items]
  cases malformed : tree.firstMalformed format with
  | some span =>
      rw [malformed] at outcome
      exact .inr ⟨span, by rw [outcome]⟩
  | none =>
      rw [malformed] at outcome
      obtain ⟨value, evaluated⟩ := outcome
      exact .inl ⟨value, by rw [evaluated]⟩

theorem stack_bounded (format : Format) (items : List Item) (bound : Int) (positive : 0 ≤ bound)
    (bounded : ∀ reached ∈ depths items, reached ≤ bound) (count : Nat) (stack : List Value)
    (performed : performAll format [] (items.take count) = .ok stack) : (stack.length : Int) ≤ bound := by
  have length := perform_all_length format [] stack _ performed
  simp only [List.length_nil, Int.natCast_zero, Int.zero_add] at length
  rw [length]
  by_cases empty : items.take count = []
  · rw [empty]
    exact positive
  · have last := depths_last 0 _ empty
    rw [Int.zero_add] at last
    have inDepths : effects (items.take count) ∈ depths (items.take count ++ items.drop count) := by
      rw [depths, depths_append]
      exact List.mem_append_left _ (List.mem_of_getLast? last)
    rw [List.take_append_drop] at inDepths
    exact bounded _ inDepths

theorem parse_depths_bounded (request : TypeRequest) (limit : Int) (unaryPlus : Setting) (tokens : List Token)
    (items : List Item) (parsed : parse ⟨request, .quantity (.whole limit), unaryPlus⟩ tokens = .ok items) :
    (peakLevels unaryPlus.isTrue tokens : Int) ≤ max limit 0 ∧
      (∀ reached ∈ depths items, 1 ≤ reached ∧ reached ≤ 2 * peakLevels unaryPlus.isTrue tokens + 3) ∧
      (depths items).getLast? = some 1 ∧ wellFormed items = true ∧
      (∀ request found, findFormat request = .ok found →
        (∃ value, evaluate request items = .ok ⟨found, value⟩) ∨
          ∃ span, evaluate request items = .error (.malformed span)) ∧
      ∀ (found : Format) (count : Nat) (stack : List Value), performAll found [] (items.take count) = .ok stack →
        (stack.length : Int) ≤ 2 * max limit 0 + 3 := by
  obtain ⟨ends, ran⟩ := parse_ran parsed
  have within := peak_levels_within ran
  have phrase : Phrase (·.levels ≤ peakLevels unaryPlus.isTrue tokens) unaryPlus.isTrue 0 .root
      (beforeFinish tokens) items := (reads_within_iff ends ran _).mpr (Nat.le_refl _)
  have bounded : ∀ reached ∈ depths items, reached ≤ 2 * peakLevels unaryPlus.isTrue tokens + 3 := by
    intro reached member
    have bound := phrase_depths_bounded _ phrase (Nat.zero_le _) 0 reached member
    simpa [Path.root] using bound
  obtain ⟨tree, isTree⟩ := phrase_tree phrase
  have formed : wellFormed items = true := isTree ▸ items_well_formed tree
  obtain ⟨above, nonempty, single⟩ := (well_formed_iff items).mp formed
  refine ⟨within, fun reached member => ⟨above reached member, bounded reached member⟩, ?_, formed, ?_, ?_⟩
  · rw [depths, depths_last 0 items nonempty, single, Int.zero_add]
  · exact fun request found isFound => well_formed_evaluates request found items isFound formed
  · intro found count stack performed
    refine stack_bounded found items _ (by omega) (fun reached member => ?_) count stack performed
    have bound := bounded reached member
    omega

def groupInProduct : List Token :=
  spelled [.number, .plus, .number, .star, .opening, .number, .plus, .number, .star, .number, .closing, .finish]

theorem group_in_product_reaches_bound :
    ∃ items, parse {} groupInProduct = .ok items ∧ peakLevels true groupInProduct = 1 ∧
      depths items = [1, 2, 3, 4, 5, 4, 3, 2, 1] ∧ ∀ reached ∈ depths items, 1 ≤ reached ∧ reached ≤ 5 := by
  obtain ⟨items, parsed⟩ : ∃ items, parse {} groupInProduct = .ok items := ⟨_, rfl⟩
  have bounds := (parse_depths_bounded (.floating .double) 64 (.quantity (.flag true)) groupInProduct items parsed).2.1
  cases parsed
  exact ⟨_, rfl, rfl, rfl, bounds⟩

end Reckon
