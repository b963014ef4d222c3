import Reckon.Proofs.Parse.Settling

set_option autoImplicit false

namespace Reckon

def pathOf (pending : List Pending) : Path := ⟨levels pending, frames pending⟩

def Rules.Admits (rules : Rules) (path : Path) : Prop :=
  (∃ limit, rules.maxDepth = .quantity limit ∧ limit.exceededBy path.levels = false) ∧
    ∀ bound, rules.frameBound = some bound → path.frames < bound

theorem exceeded_by_fewer (limit : Quantity) (fewer more : Nat) (le : fewer ≤ more)
    (within : limit.exceededBy more = false) : limit.exceededBy fewer = false := by
  cases limit with
  | flag value => simp only [Quantity.exceededBy, decide_eq_false_iff_not] at within ⊢; omega
  | whole value => simp only [Quantity.exceededBy, decide_eq_false_iff_not] at within ⊢; omega
  | real value =>
      cases value with
      | nan => rfl
      | infinite negative => exact within
      | finite negative significand exponent =>
          cases negative with
          | true =>
              simp only [Quantity.exceededBy, exceedsFinite, if_true, Bool.or_eq_false_iff,
                decide_eq_false_iff_not, ne_eq, Decidable.not_not] at within ⊢
              omega
          | false =>
              simp only [Quantity.exceededBy, exceedsFinite, Bool.false_eq_true, if_false,
                decide_eq_false_iff_not, Nat.not_lt] at within ⊢
              exact Nat.le_trans (Nat.mul_le_mul_right _ le) within

theorem admits_outward (rules : Rules) (outer inner : Path) (within : outer.Within inner)
    (admitted : rules.Admits inner) : rules.Admits outer := by
  obtain ⟨⟨limit, isLimit, levels⟩, frames⟩ := admitted
  refine ⟨⟨limit, isLimit, exceeded_by_fewer limit _ _ within.1 levels⟩, ?_⟩
  exact fun bound isBound => Nat.lt_of_le_of_lt within.2 (frames bound isBound)

theorem path_of_group (negated : Bool) (pending : List Pending) :
    pathOf (.group negated :: pending) = (pathOf pending).inGroup := by
  simp [pathOf, Path.inGroup, levels, frames, Pending.levels, Pending.frames, Nat.add_comm]

theorem path_of_power (pending : List Pending) :
    pathOf (.operation .pow :: pending) = (pathOf pending).inPower := by
  simp [pathOf, Path.inPower, levels, frames, Pending.levels, Pending.frames, Nat.add_comm]

theorem path_of_chained (op : BinaryOp) (pending : List Pending) (chained : op.level < 2) :
    pathOf (.operation op :: pending) = pathOf pending := by
  cases op <;> simp_all [pathOf, levels, frames, Pending.levels, Pending.frames, BinaryOp.level]

theorem lacks_frames_iff (rules : Rules) (pending : List Pending) :
    rules.lacksFrames pending = false ↔
      ∀ bound, rules.frameBound = some bound → (pathOf pending).frames < bound := by
  cases bound : rules.frameBound <;> simp [Rules.lacksFrames, bound, pathOf]

theorem refusal_none_iff (rules : Rules) (pending : List Pending) :
    rules.refusal pending = none ↔ rules.Admits (pathOf pending) := by
  rw [Rules.refusal, Rules.Admits, ← lacks_frames_iff]
  cases rules.maxDepth with
  | quantity limit =>
      cases exceeded : limit.exceededBy (levels pending) <;>
        cases lacks : rules.lacksFrames pending <;> simp [pathOf, exceeded]
  | _ => simp

theorem enter_admitted (rules : Rules) (pending : List Pending) (fits : rules.Admits (pathOf pending)) :
    rules.enter pending = .next [] ⟨.operand false, pending⟩ := by
  rw [Rules.enter, (refusal_none_iff rules pending).mpr fits]

theorem negates_cons (sign : Token) (signs : List Token) :
    negates (sign :: signs) = (negates signs ^^ decide (sign.kind = .minus)) := by
  simp only [negates]
  by_cases minus : sign.kind = .minus
  · have parity : (signs.countP (·.kind = .minus) + 1) % 2 = 1 ↔ ¬ signs.countP (·.kind = .minus) % 2 = 1 := by
      omega
    rw [List.countP_cons_of_pos (by simpa using minus), decide_eq_decide.mpr parity, decide_not]
    simp only [minus, decide_true, Bool.xor_true]
  · simp [minus]

theorem step_sign (rules : Rules) (negated : Bool) (pending : List Pending) (sign : Token)
    (signed : sign.kind.isSign rules.unaryPlus = true) :
    rules.step ⟨.operand negated, pending⟩ sign
      = .next [] ⟨.operand (negated ^^ decide (sign.kind = .minus)), pending⟩ := by
  cases kind : sign.kind <;> simp_all [Rules.step, Rules.operandStep, Kind.isSign]

theorem run_signs (rules : Rules) (negated : Bool) (pending : List Pending) (signs rest : List Token)
    (signed : ∀ sign ∈ signs, sign.kind.isSign rules.unaryPlus = true) :
    rules.run ⟨.operand negated, pending⟩ (signs ++ rest)
      = rules.run ⟨.operand (negated ^^ negates signs), pending⟩ rest := by
  induction signs generalizing negated with
  | nil => simp [negates]
  | cons sign signs ih =>
      rw [List.cons_append, Rules.run, step_sign rules negated pending sign (signed sign (by simp))]
      simp only [map_nothing]
      rw [ih _ fun other member => signed other (by simp [member]), negates_cons]
      congr 3
      rw [Bool.xor_assoc, Bool.xor_comm (negates signs)]

theorem run_joint (rules : Rules) (pending : List Pending) (joint right rest : List Token) (op : BinaryOp)
    (joined : Joint joint op right) (ready : Ready op.level pending) :
    rules.run ⟨.operator, pending⟩ (joint ++ right ++ rest)
      = rules.run ⟨.operand false, .operation op :: pending⟩ (right ++ rest) := by
  have settled := unwind_ready op.level pending ready (joint_level joint right op joined)
  cases joined with
  | @sign token op right known =>
      have operation : rules.operatorStep pending token = operationStep op pending := by
        cases kind : token.kind <;> simp_all [Rules.operatorStep, Kind.chained]
      simp only [List.cons_append, List.nil_append, Rules.run, Rules.step, operation, operationStep,
        awaiting, settled]
      exact map_nothing _
  | @implied head tail operand =>
      have operation : rules.operatorStep pending head
          = rules.operandStep false (.operation .mul :: pending) head := by
        cases kind : head.kind <;>
          simp_all [Rules.operatorStep, Kind.startsOperand, awaiting, after_nothing]
      simp only [List.cons_append, List.nil_append, Rules.run, Rules.step, operation]

def Completes (level : Nat) (rest : List Token) : Prop :=
  ∀ op : BinaryOp, level ≤ op.level → nextBinding rest ≤ op.rightLevel

theorem completes_joint (joint right rest : List Token) (op : BinaryOp) (joined : Joint joint op right) :
    Completes op.level (joint ++ right ++ rest) := by
  intro other tight
  have binding : nextBinding (joint ++ right ++ rest) = op.level + 1 := by
    cases joined with
    | sign known => exact (chained_level _ _ known).1
    | @implied head tail operand =>
        change head.kind.binding = 2
        cases kind : head.kind <;> simp_all [Kind.startsOperand, Kind.binding]
  have low := joint_level joint right op joined
  rw [binding]
  generalize op.level = level at tight low ⊢
  cases other <;> simp only [BinaryOp.level, BinaryOp.rightLevel] at tight ⊢ <;> omega

theorem run_phrase {rules : Rules} {level : Nat} {path : Path} {word : List Token} {items : List Item}
    (phrase : Phrase rules.Admits rules.unaryPlus level path word items) (pending : List Pending)
    (rest : List Token) (place : pathOf pending = path) (ready : Ready level pending)
    (ends : Completes level rest) :
    rules.run ⟨.operand false, pending⟩ (word ++ rest)
      = (rules.run ⟨.operator, pending⟩ rest).map (items ++ ·) := by
  induction phrase generalizing pending rest with
  | tighter _ ih =>
      exact ih pending rest place (ready_tighter _ _ ready) fun op tight => ends op (by omega)
  | @chain level path op left joint right first second atLevel joined _ _ beforeIh afterIh =>
      subst atLevel
      have inner : Ready (op.level + 1) (.operation op :: pending) := Or.inl (Nat.lt_succ_self _)
      have innerPlace := (path_of_chained op pending (joint_level _ _ _ joined)).trans place
      calc rules.run ⟨.operand false, pending⟩ (left ++ joint ++ right ++ rest)
        _ = (rules.run ⟨.operator, pending⟩ (joint ++ right ++ rest)).map (first ++ ·) := by
            simpa only [List.append_assoc] using
              beforeIh pending (joint ++ right ++ rest) place ready (completes_joint _ _ _ _ joined)
        _ = (rules.run ⟨.operand false, .operation op :: pending⟩ (right ++ rest)).map (first ++ ·) := by
            rw [run_joint rules pending joint right rest op joined ready]
        _ = (rules.run ⟨.operator, pending⟩ rest).map (first ++ second ++ [.operation op] ++ ·) := by
            rw [afterIh _ rest innerPlace inner fun other tight => ends other (by omega),
              run_settled rules op pending rest (ends op (Nat.le_refl _)), map_written, map_written]
  | @power path caret left right first second sign fits _ _ beforeIh afterIh =>
      have innerPlace := (path_of_power pending).trans (congrArg Path.inPower place)
      have entered := enter_admitted rules _ (innerPlace ▸ fits)
      have free : Completes 3 (caret :: (right ++ rest)) := fun op tight => by cases op <;> contradiction
      have stepped : rules.run ⟨.operator, pending⟩ (caret :: (right ++ rest))
          = rules.run ⟨.operand false, .operation .pow :: pending⟩ (right ++ rest) := by
        simp only [Rules.run, Rules.step, Rules.operatorStep, sign, entered, map_nothing]
      calc rules.run ⟨.operand false, pending⟩ (left ++ caret :: right ++ rest)
        _ = (rules.run ⟨.operator, pending⟩ (caret :: (right ++ rest))).map (first ++ ·) := by
            simpa only [List.append_assoc, List.cons_append] using
              beforeIh pending (caret :: (right ++ rest)) place (ready_tighter _ _ ready) free
        _ = (rules.run ⟨.operator, pending⟩ rest).map (first ++ second ++ [.operation .pow] ++ ·) := by
            rw [stepped, afterIh _ rest innerPlace (Or.inr (Nat.le_refl _)) ends,
              run_settled rules .pow pending rest (ends .pow (Nat.le_refl _)), map_written, map_written]
  | @number path signs token signed isNumber =>
      rw [List.append_assoc, run_signs rules false pending signs _ signed]
      simp only [List.cons_append, List.nil_append, Rules.run, Rules.step, Rules.operandStep, isNumber,
        Bool.false_xor]
  | @group path signs word opening closing items signed opens closes fits _ ih =>
      have innerPlace := (path_of_group (negates signs) pending).trans (congrArg Path.inGroup place)
      have entered := enter_admitted rules _ (innerPlace ▸ fits)
      have done : Completes 0 (closing :: rest) := fun op _ => by simp [nextBinding, closes, Kind.binding]
      rw [List.append_assoc, run_signs rules false pending signs _ signed]
      simp only [List.cons_append, Rules.run, Rules.step, Rules.operandStep, opens, Bool.false_xor, entered,
        map_nothing]
      rw [List.append_assoc, List.singleton_append, ih _ (closing :: rest) innerPlace trivial done]
      simp only [Rules.run, Rules.step, Rules.operatorStep, closes, closingStep, unwind, List.nil_append,
        map_written]

end Reckon
