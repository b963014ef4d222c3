import Reckon.Proofs.Grammar.Phrase

set_option autoImplicit false

namespace Reckon

structure Cut where
  op : BinaryOp
  position : Nat
  width : Nat
deriving DecidableEq, Repr

def Kind.endsOperand : Kind → Bool
  | .number => true
  | .closing => true
  | _ => false

def Kind.nesting : Kind → Int
  | .opening => 1
  | .closing => -1
  | _ => 0

def cutAt (position : Nat) (operand : Bool) : Kind → Option Cut
  | .plus => if operand then some ⟨.add, position, 1⟩ else none
  | .minus => if operand then some ⟨.sub, position, 1⟩ else none
  | .star => some ⟨.mul, position, 1⟩
  | .slash => some ⟨.div, position, 1⟩
  | .caret => some ⟨.pow, position, 1⟩
  | .number => if operand then some ⟨.mul, position, 0⟩ else none
  | .opening => if operand then some ⟨.mul, position, 0⟩ else none
  | .closing => none
  | .finish => none

-- `depth` is the number of openings less the number of closings so far; `operand` tells whether the token
-- before ends an operand.
def cutsFrom (position : Nat) (depth : Int) (operand : Bool) : List Token → List Cut
  | [] => []
  | token :: rest =>
      (if depth = 0 then (cutAt position operand token.kind).toList else []) ++
        cutsFrom (position + 1) (depth + token.kind.nesting) token.kind.endsOperand rest

def cuts (word : List Token) : List Cut := cutsFrom 0 0 false word

def lastAt (level : Nat) (found : List Cut) : Option Cut := (found.filter (·.op.level = level)).getLast?

def firstAt (level : Nat) (found : List Cut) : Option Cut := (found.filter (·.op.level = level)).head?

def outermost (found : List Cut) : Option Cut :=
  (lastAt 0 found).or ((lastAt 1 found).or (firstAt 2 found))

def nesting : List Token → Int
  | [] => 0
  | token :: rest => token.kind.nesting + nesting rest

def operandAfter (operand : Bool) : List Token → Bool
  | [] => operand
  | token :: rest => operandAfter token.kind.endsOperand rest

theorem nesting_append (first second : List Token) : nesting (first ++ second) = nesting first + nesting second := by
  induction first with
  | nil => simp [nesting]
  | cons token rest ih => simp [nesting, ih, Int.add_assoc]

theorem operand_after_append (operand : Bool) (first second : List Token) :
    operandAfter operand (first ++ second) = operandAfter (operandAfter operand first) second := by
  induction first generalizing operand with
  | nil => rfl
  | cons token rest ih => exact ih token.kind.endsOperand

theorem cuts_append (position : Nat) (depth : Int) (operand : Bool) (first second : List Token) :
    cutsFrom position depth operand (first ++ second) = cutsFrom position depth operand first ++
      cutsFrom (position + first.length) (depth + nesting first) (operandAfter operand first) second := by
  induction first generalizing position depth operand with
  | nil => simp [cutsFrom, nesting, operandAfter]
  | cons token rest ih =>
      simp only [List.cons_append, cutsFrom, ih, List.append_assoc, nesting, operandAfter, List.length_cons,
        Int.add_assoc, Nat.add_comm rest.length 1, Nat.add_assoc]

def Flat (word : List Token) : Prop := ∀ token ∈ word, token.kind.nesting = 0

theorem nesting_flat (word : List Token) (flat : Flat word) : nesting word = 0 := by
  induction word with
  | nil => rfl
  | cons token rest ih =>
      have tail := ih fun other member => flat other (List.mem_cons_of_mem _ member)
      simp [nesting, tail, flat token List.mem_cons_self]

theorem cuts_flat (word : List Token) (flat : Flat word) (position : Nat) (depth : Int) (operand : Bool)
    (deep : depth ≠ 0) : cutsFrom position depth operand word = [] := by
  induction word generalizing position operand with
  | nil => rfl
  | cons token rest ih =>
      have tail := ih fun other member => flat other (List.mem_cons_of_mem _ member)
      simp [cutsFrom, deep, flat token List.mem_cons_self, tail]

variable {allowed : Path → Prop} {plus : Bool} {level : Nat} {path : Path} {word : List Token}
  {items : List Item}

theorem signs_flat {signs : List Token} (signed : ∀ sign ∈ signs, sign.kind.isSign plus = true) : Flat signs := by
  intro sign member
  have isSign := signed sign member
  cases kind : sign.kind <;> simp_all [Kind.isSign, Kind.nesting]

theorem joint_flat {joint right : List Token} {op : BinaryOp} (joined : Joint joint op right) : Flat joint := by
  intro sign member
  cases joined with
  | implied => cases member
  | sign known =>
      rw [List.mem_singleton.mp member]
      rename_i token
      cases kind : token.kind <;> simp_all [Kind.chained, Kind.nesting]

theorem signs_scanned (signs : List Token) (signed : ∀ sign ∈ signs, sign.kind.isSign plus = true) :
    operandAfter false signs = false ∧ ∀ position depth, cutsFrom position depth false signs = [] := by
  induction signs with
  | nil => exact ⟨rfl, fun _ _ => rfl⟩
  | cons sign signs ih =>
      obtain ⟨before, none⟩ := ih fun other member => signed other (List.mem_cons_of_mem _ member)
      have isSign := signed sign List.mem_cons_self
      have shape : sign.kind.endsOperand = false ∧ ∀ position, cutAt position false sign.kind = .none := by
        cases kind : sign.kind <;> simp [kind, Kind.isSign, Kind.endsOperand, cutAt] at isSign ⊢
      refine ⟨by simp [operandAfter, shape.1, before], ?_⟩
      intro position depth
      simp [cutsFrom, shape, none]

theorem phrase_nesting (phrase : Phrase allowed plus level path word items) : nesting word = 0 := by
  induction phrase with
  | tighter _ ih => exact ih
  | chain atLevel joined _ _ beforeIh afterIh =>
      simp [nesting_append, beforeIh, afterIh, nesting_flat _ (joint_flat joined)]
  | power sign fits _ _ beforeIh afterIh =>
      simp [nesting_append, nesting, beforeIh, afterIh, sign, Kind.nesting]
  | number signed isNumber =>
      simp [nesting_append, nesting, nesting_flat _ (signs_flat signed), isNumber, Kind.nesting]
  | group signed opens closes fits _ ih =>
      simp [nesting_append, nesting, nesting_flat _ (signs_flat signed), ih, opens, closes, Kind.nesting]

theorem phrase_ends_operand (phrase : Phrase allowed plus level path word items) (operand : Bool) :
    operandAfter operand word = true := by
  induction phrase generalizing operand with
  | tighter _ ih => exact ih operand
  | chain atLevel joined _ _ _ afterIh => rw [operand_after_append]; exact afterIh _
  | power sign fits _ _ _ afterIh => rw [operand_after_append]; exact afterIh _
  | number signed isNumber => simp [operand_after_append, operandAfter, isNumber, Kind.endsOperand]
  | group signed opens closes fits => simp [operand_after_append, operandAfter, closes, Kind.endsOperand]

theorem phrase_cuts_inside (phrase : Phrase allowed plus level path word items) (position : Nat) (depth : Int)
    (operand : Bool) (inside : 0 < depth) : cutsFrom position depth operand word = [] := by
  induction phrase generalizing position depth operand with
  | tighter _ ih => exact ih position depth operand inside
  | chain atLevel joined before _ beforeIh afterIh =>
      have between := joint_flat joined
      simp only [cuts_append, phrase_nesting before, nesting_flat _ between, nesting_append, Int.add_zero,
        beforeIh _ depth _ inside, afterIh _ depth _ inside,
        cuts_flat _ between _ depth _ (Int.ne_of_gt inside), List.append_nil]
  | @power path caret left right first second sign fits before _ beforeIh afterIh =>
      have single : Flat [caret] := by simp [Flat, sign, Kind.nesting]
      rw [List.append_cons]
      simp only [cuts_append, phrase_nesting before, nesting_flat _ single, nesting_append, Int.add_zero,
        beforeIh _ depth _ inside, afterIh _ depth _ inside,
        cuts_flat _ single _ depth _ (Int.ne_of_gt inside), List.append_nil]
  | number signed isNumber =>
      have single := signs_flat signed
      refine cuts_flat _ ?_ position depth operand (Int.ne_of_gt inside)
      intro token member
      rcases List.mem_append.mp member with sign | last
      · exact single token sign
      · rw [List.mem_singleton.mp last, isNumber]
        rfl
  | group signed opens closes fits group ih =>
      have before := signs_flat signed
      have deeper : 0 < depth + 1 := by omega
      rw [cuts_append, cuts_flat _ before _ depth _ (Int.ne_of_gt inside), nesting_flat _ before]
      simp only [cutsFrom, opens, Kind.nesting, Int.add_zero, if_neg (Int.ne_of_gt inside), List.nil_append,
        cuts_append, ih _ _ _ deeper, phrase_nesting group, if_neg (Int.ne_of_gt deeper)]

theorem joint_cuts {joint right : List Token} {op : BinaryOp} (joined : Joint joint op right) (position : Nat) :
    cutsFrom position 0 true (joint ++ right) =
      ⟨op, position, joint.length⟩ :: cutsFrom (position + joint.length) 0 false right := by
  cases joined with
  | @sign token op right known =>
      cases kind : token.kind <;> simp [kind, Kind.chained] at known <;> subst known <;>
        simp [cutsFrom, cutAt, kind, Kind.nesting, Kind.endsOperand]
  | @implied head tail operand =>
      cases kind : head.kind <;> simp [kind, Kind.startsOperand] at operand <;>
        simp [cutsFrom, cutAt, kind]

theorem chain_cuts {joint right : List Token} {op : BinaryOp} (joined : Joint joint op right)
    (before : Phrase allowed plus level path word items) (position : Nat) :
    cutsFrom position 0 false (word ++ joint ++ right) = cutsFrom position 0 false word ++
      ⟨op, position + word.length, joint.length⟩ ::
        cutsFrom (position + word.length + joint.length) 0 false right := by
  rw [List.append_assoc, cuts_append, phrase_nesting before, phrase_ends_operand before, Int.add_zero,
    joint_cuts joined]

theorem power_cuts {caret : Token} {right : List Token} (sign : caret.kind = .caret)
    (before : Phrase allowed plus level path word items) (position : Nat) :
    cutsFrom position 0 false (word ++ caret :: right) = cutsFrom position 0 false word ++
      ⟨.pow, position + word.length, 1⟩ :: cutsFrom (position + word.length + 1) 0 false right := by
  rw [cuts_append, phrase_nesting before, phrase_ends_operand before]
  simp [cutsFrom, cutAt, sign, Kind.nesting, Kind.endsOperand]

theorem number_cuts {signs : List Token} {token : Token}
    (signed : ∀ sign ∈ signs, sign.kind.isSign plus = true) (isNumber : token.kind = .number) (position : Nat) :
    cutsFrom position 0 false (signs ++ [token]) = [] := by
  rw [cuts_append, nesting_flat _ (signs_flat signed), (signs_scanned signs signed).1,
    (signs_scanned signs signed).2]
  simp [cutsFrom, cutAt, isNumber]

theorem group_cuts {signs : List Token} {opening closing : Token}
    (signed : ∀ sign ∈ signs, sign.kind.isSign plus = true) (opens : opening.kind = .opening)
    (inside : Phrase allowed plus level path word items) (position : Nat) :
    cutsFrom position 0 false (signs ++ opening :: (word ++ [closing])) = [] := by
  rw [cuts_append, nesting_flat _ (signs_flat signed), (signs_scanned signs signed).1,
    (signs_scanned signs signed).2]
  simp [cutsFrom, cutAt, opens, Kind.nesting, cuts_append, phrase_nesting inside,
    phrase_cuts_inside inside _ 1 _ Int.one_pos]

theorem phrase_cuts_above (phrase : Phrase allowed plus level path word items) (position : Nat) :
    ∀ cut ∈ cutsFrom position 0 false word, level ≤ cut.op.level := by
  induction phrase generalizing position with
  | tighter _ ih => exact fun cut member => Nat.le_of_succ_le (ih position cut member)
  | chain atLevel joined before _ beforeIh afterIh =>
      rw [chain_cuts joined before]
      intro cut member
      rcases List.mem_append.mp member with inside | rest
      · exact beforeIh position cut inside
      · rcases List.mem_cons.mp rest with rfl | inside
        · exact Nat.le_of_eq atLevel.symm
        · exact Nat.le_of_succ_le (afterIh _ cut inside)
  | power sign fits before _ beforeIh afterIh =>
      rw [power_cuts sign before]
      intro cut member
      rcases List.mem_append.mp member with inside | rest
      · exact Nat.le_of_succ_le (beforeIh position cut inside)
      · rcases List.mem_cons.mp rest with rfl | inside
        · exact Nat.le_refl 2
        · exact afterIh _ cut inside
  | number signed isNumber => simp [number_cuts signed isNumber]
  | group signed opens closes fits inside => simp [group_cuts signed opens inside]

theorem no_cut_above_power (cut : Cut) : cut.op.level ≤ 2 := by
  cases cut.op <;> decide

theorem operand_cuts (phrase : Phrase allowed plus 3 path word items) (position : Nat) :
    cutsFrom position 0 false word = [] := by
  apply List.eq_nil_iff_forall_not_mem.mpr
  intro cut member
  have low := no_cut_above_power cut
  have high := phrase_cuts_above phrase position cut member
  omega

theorem filter_above (level : Nat) (found : List Cut) (above : ∀ cut ∈ found, level < cut.op.level) :
    found.filter (·.op.level = level) = [] := by
  apply List.filter_eq_nil_iff.mpr
  intro cut member
  have high := above cut member
  simp only [decide_eq_true_eq]
  omega

theorem last_at_above (level : Nat) (found : List Cut) (above : ∀ cut ∈ found, level < cut.op.level) :
    lastAt level found = none := by
  rw [lastAt, filter_above level found above]
  rfl

theorem last_at_found (first last : List Cut) (cut : Cut) (above : ∀ other ∈ last, cut.op.level < other.op.level) :
    lastAt cut.op.level (first ++ cut :: last) = some cut := by
  simp [lastAt, List.filter_append, filter_above _ last above]

theorem outermost_last (first last : List Cut) (cut : Cut) (low : cut.op.level < 2)
    (before : ∀ other ∈ first, cut.op.level ≤ other.op.level)
    (after : ∀ other ∈ last, cut.op.level < other.op.level) :
    outermost (first ++ cut :: last) = some cut := by
  have found := last_at_found first last cut after
  rw [outermost]
  rcases Nat.lt_or_ge cut.op.level 1 with additive | multiplicative
  · have level : cut.op.level = 0 := by omega
    rw [level] at found
    rw [found]
    rfl
  · have level : cut.op.level = 1 := by omega
    have above : ∀ other ∈ first ++ cut :: last, 0 < other.op.level := by
      intro other member
      simp only [List.mem_append, List.mem_cons] at member
      rcases member with inside | rfl | inside
      · exact Nat.lt_of_lt_of_le multiplicative (before other inside)
      · exact multiplicative
      · exact Nat.lt_trans multiplicative (after other inside)
    rw [level] at found
    rw [last_at_above 0 _ above, found]
    rfl

theorem outermost_first (cut : Cut) (rest : List Cut) (power : cut.op.level = 2)
    (above : ∀ other ∈ rest, 2 ≤ other.op.level) : outermost (cut :: rest) = some cut := by
  have high : ∀ other ∈ cut :: rest, 2 ≤ other.op.level := by simpa [power] using above
  rw [outermost, last_at_above 0 _ fun other member => Nat.lt_of_lt_of_le (by decide) (high other member),
    last_at_above 1 _ fun other member => Nat.lt_of_lt_of_le (by decide) (high other member)]
  simp [firstAt, power]

end Reckon
