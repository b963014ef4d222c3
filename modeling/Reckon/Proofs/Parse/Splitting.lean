import Reckon.Proofs.Parse.Moves
import Reckon.Proofs.Parse.Reading

set_option autoImplicit false

namespace Reckon

-- A successful run of a token list from an operand on: a phrase of the level, then the rest.
inductive Split (rules : Rules) (level : Nat) (pending : List Pending) : List Token → List Item → Prop
  | phrase {word rest : List Token} {first second : List Item}
      (read : Phrase rules.Admits rules.unaryPlus level (pathOf pending) word first)
      (goesOn : rules.run ⟨.operator, pending⟩ rest = .ok second) (ends : nextBinding rest ≤ level) :
      Split rules level pending (word ++ rest) (first ++ second)

def SplitsBelow (rules : Rules) (size : Nat) : Prop :=
  ∀ (tokens : List Token) (level : Nat) (pending : List Pending) (items : List Item),
    tokens.length < size → level ≤ 3 → Ready level pending →
    rules.run ⟨.operand false, pending⟩ tokens = .ok items → Split rules level pending tokens items

theorem enter_run_ok {rules : Rules} {pending : List Pending} {rest : List Token} {items : List Item}
    (ran : (match rules.enter pending with
      | .next written after => (rules.run after rest).map (written ++ ·)
      | .done written => .ok written
      | .failed error => .error error) = .ok items) :
    rules.Admits (pathOf pending) ∧ rules.run ⟨.operand false, pending⟩ rest = .ok items := by
  cases refused : rules.refusal pending with
  | some error => simp [Rules.enter, refused] at ran
  | none =>
      refine ⟨(refusal_none_iff rules pending).mp refused, ?_⟩
      simpa only [Rules.enter, refused, map_nothing] using ran

theorem run_signs_split (rules : Rules) (negated : Bool) (pending : List Pending) (tokens : List Token)
    (items : List Item) (ran : rules.run ⟨.operand negated, pending⟩ tokens = .ok items) :
    ∃ signs head tail, tokens = signs ++ head :: tail ∧
      (∀ sign ∈ signs, sign.kind.isSign rules.unaryPlus = true) ∧ head.kind.startsOperand = true ∧
      rules.run ⟨.operand (negated ^^ negates signs), pending⟩ (head :: tail) = .ok items := by
  induction tokens generalizing negated with
  | nil => cases ran
  | cons token rest ih =>
      by_cases operand : token.kind.startsOperand = true
      · exact ⟨[], token, rest, rfl, by simp, operand, by simpa [negates] using ran⟩
      · by_cases signed : token.kind.isSign rules.unaryPlus = true
        · rw [Rules.run, step_sign rules negated pending token signed] at ran
          simp only [map_nothing] at ran
          obtain ⟨signs, head, tail, rfl, allSigned, starts, goesOn⟩ := ih _ ran
          refine ⟨token :: signs, head, tail, rfl, ?_, starts, ?_⟩
          · simpa [signed] using allSigned
          · rwa [negates_cons, Bool.xor_comm (negates signs), ← Bool.xor_assoc]
        · simp only [Rules.run, Rules.step, Rules.operandStep] at ran
          cases kind : token.kind <;> simp_all [Kind.startsOperand, Kind.isSign]

theorem run_group_end (rules : Rules) (negated : Bool) (pending : List Pending) (rest : List Token)
    (items : List Item) (ends : nextBinding rest ≤ 0)
    (ran : rules.run ⟨.operator, .group negated :: pending⟩ rest = .ok items) :
    ∃ closing tail second, rest = closing :: tail ∧ closing.kind = .closing ∧
      rules.run ⟨.operator, pending⟩ tail = .ok second ∧ items = negation negated ++ second := by
  cases rest with
  | nil => cases ran
  | cons closing tail =>
      cases kind : closing.kind with
      | closing =>
          simp only [Rules.run, Rules.step, Rules.operatorStep, kind, closingStep, unwind,
            List.nil_append] at ran
          obtain ⟨second, goesOn, rfl⟩ := run_map_ok ran
          exact ⟨closing, tail, second, rfl, kind, goesOn, rfl⟩
      | finish => simp [Rules.run, Rules.step, Rules.operatorStep, kind, finishStep, unwind] at ran
      | _ => simp [nextBinding, kind, Kind.binding] at ends

theorem split_operand {rules : Rules} {size : Nat} (below : SplitsBelow rules size)
    {tokens : List Token} {pending : List Pending} {items : List Item} (bound : tokens.length ≤ size)
    (ran : rules.run ⟨.operand false, pending⟩ tokens = .ok items) : Split rules 3 pending tokens items := by
  obtain ⟨signs, head, tail, rfl, signed, starts, goesOn⟩ := run_signs_split rules false pending tokens items ran
  simp only [Rules.run, Rules.step, Rules.operandStep, Bool.false_xor] at goesOn
  have free (rest : List Token) : nextBinding rest ≤ 3 := by
    cases rest with
    | nil => exact Nat.zero_le 3
    | cons token rest => cases kind : token.kind <;> simp [nextBinding, kind, Kind.binding]
  cases kind : head.kind with
  | number =>
      simp only [kind] at goesOn
      obtain ⟨second, after, rfl⟩ := run_map_ok goesOn
      have split := Split.phrase (Phrase.number signed kind) after (free tail)
      simpa only [List.append_assoc, List.cons_append, List.nil_append] using split
  | opening =>
      simp only [kind] at goesOn
      obtain ⟨fits, inside⟩ := enter_run_ok goesOn
      have shorter : tail.length < size := by
        simp only [List.length_append, List.length_cons] at bound
        omega
      cases below tail 0 _ items shorter (Nat.zero_le 3) (ready_group _ _ _) inside with
      | @phrase word rest first second read closed innerEnds =>
          obtain ⟨closing, tail, last, rfl, closes, after, rfl⟩ :=
            run_group_end rules _ pending rest second innerEnds closed
          rw [path_of_group] at fits read
          have split := Split.phrase (Phrase.group signed kind closes fits read) after (free tail)
          simpa only [List.append_assoc, List.cons_append, List.nil_append] using split
  | _ => simp [kind, Kind.startsOperand] at starts

theorem split_factor {rules : Rules} {size : Nat} (below : SplitsBelow rules size)
    {tokens : List Token} {pending : List Pending} {items : List Item} (bound : tokens.length ≤ size)
    (ran : rules.run ⟨.operand false, pending⟩ tokens = .ok items) : Split rules 2 pending tokens items := by
  cases split_operand below bound ran with
  | @phrase word rest first second read goesOn ends =>
      by_cases complete : nextBinding rest ≤ 2
      · exact .phrase (.tighter read) goesOn complete
      · cases rest with
        | nil => exact absurd (Nat.zero_le 2) complete
        | cons caret tail =>
            have sign : caret.kind = .caret := by
              cases kind : caret.kind <;> simp [nextBinding, kind, Kind.binding] at complete ⊢
            simp only [Rules.run, Rules.step, Rules.operatorStep, sign] at goesOn
            obtain ⟨fits, inside⟩ := enter_run_ok goesOn
            have shorter : tail.length < size := by
              simp only [List.length_append, List.length_cons] at bound
              omega
            have ready : Ready 2 (.operation .pow :: pending) := Or.inr (Nat.le_refl 2)
            cases below tail 2 _ second shorter (by decide) ready inside with
            | @phrase right rest middle last power linked innerEnds =>
                rw [path_of_power] at fits power
                rw [run_settled rules .pow pending rest innerEnds] at linked
                obtain ⟨last, after, rfl⟩ := run_map_ok linked
                have split := Split.phrase (Phrase.power sign fits read power) after innerEnds
                simpa only [List.append_assoc, List.cons_append] using split

theorem joint_found (level : Nat) (rest : List Token) (low : level < 2)
    (binding : nextBinding rest = level + 1) :
    ∃ joint op right, rest = joint ++ right ∧ Joint joint op right ∧ op.level = level := by
  cases rest with
  | nil => cases binding
  | cons token rest =>
      have level : level = token.kind.binding - 1 := by simp [nextBinding] at binding; omega
      subst level
      cases kind : token.kind with
      | plus => exact ⟨[token], .add, rest, rfl, .sign (by simp [kind, Kind.chained]), rfl⟩
      | minus => exact ⟨[token], .sub, rest, rfl, .sign (by simp [kind, Kind.chained]), rfl⟩
      | star => exact ⟨[token], .mul, rest, rfl, .sign (by simp [kind, Kind.chained]), rfl⟩
      | slash => exact ⟨[token], .div, rest, rfl, .sign (by simp [kind, Kind.chained]), rfl⟩
      | opening => exact ⟨[], .mul, token :: rest, rfl, .implied (by simp [kind, Kind.startsOperand]), rfl⟩
      | number => exact ⟨[], .mul, token :: rest, rfl, .implied (by simp [kind, Kind.startsOperand]), rfl⟩
      | caret => simp [kind, Kind.binding] at low
      | _ => simp [nextBinding, kind, Kind.binding] at binding

theorem joint_shortened (joint word rest : List Token) (op : BinaryOp) (joined : Joint joint op (word ++ rest))
    (nonempty : word ≠ []) : Joint joint op word := by
  cases word with
  | nil => exact absurd rfl nonempty
  | cons head tail =>
      cases joined with
      | sign known => exact .sign known
      | implied operand => exact .implied operand

theorem split_chain {rules : Rules} {size level : Nat} (below : SplitsBelow rules size) (low : level < 2)
    {pending : List Pending} (ready : Ready level pending) (left rest : List Token) (first second : List Item)
    (bound : rest.length < size)
    (read : Phrase rules.Admits rules.unaryPlus level (pathOf pending) left first)
    (goesOn : rules.run ⟨.operator, pending⟩ rest = .ok second) (ends : nextBinding rest ≤ level + 1) :
    Split rules level pending (left ++ rest) (first ++ second) := by
  by_cases complete : nextBinding rest ≤ level
  · exact .phrase read goesOn complete
  · obtain ⟨joint, op, right, rfl, joined, rfl⟩ := joint_found level rest low (by omega)
    have stepped := run_joint rules pending joint right [] op joined ready
    simp only [List.append_nil] at stepped
    rw [stepped] at goesOn
    have shorter : right.length < size := by
      simp only [List.length_append] at bound
      omega
    have inner : Ready (op.level + 1) (.operation op :: pending) := Or.inl (Nat.lt_succ_self _)
    cases below right (op.level + 1) _ second shorter (by omega) inner goesOn with
    | @phrase word rest middle last operand joinedOn innerEnds =>
        have tight : op.level + 1 = op.rightLevel := by
          cases op <;> simp_all [BinaryOp.level, BinaryOp.rightLevel]
        rw [path_of_chained op pending low] at operand
        rw [run_settled rules op pending rest (tight ▸ innerEnds)] at joinedOn
        obtain ⟨last, after, rfl⟩ := run_map_ok joinedOn
        have nonempty := phrase_nonempty operand
        have longer := Phrase.chain rfl (joint_shortened joint word rest op joined nonempty) read operand
        have smaller : rest.length < (joint ++ (word ++ rest)).length := by
          have positive := List.length_pos_iff.mpr nonempty
          simp only [List.length_append]
          omega
        have split := split_chain below low ready (left ++ joint ++ word) rest _ last (by omega) longer after
          innerEnds
        simpa only [List.append_assoc] using split
termination_by rest.length

theorem split_step {rules : Rules} {size level : Nat} (below : SplitsBelow rules size) (low : level < 2)
    {tokens : List Token} {pending : List Pending} {items : List Item} (bound : tokens.length ≤ size)
    (ready : Ready level pending) (inner : Split rules (level + 1) pending tokens items) :
    Split rules level pending tokens items := by
  cases inner with
  | @phrase word rest first second read goesOn ends =>
      have positive := List.length_pos_iff.mpr (phrase_nonempty read)
      simp only [List.length_append] at bound
      exact split_chain below low ready word rest first second (by omega) (.tighter read) goesOn ends

theorem splits_below (rules : Rules) (size : Nat) : SplitsBelow rules size := by
  induction size with
  | zero => intro tokens level pending items shorter; exact absurd shorter (Nat.not_lt_zero _)
  | succ size below =>
      intro tokens level pending items shorter high ready ran
      have bound : tokens.length ≤ size := Nat.le_of_lt_succ shorter
      have factor := split_factor below bound ran
      match level, high with
      | 3, _ => exact split_operand below bound ran
      | 2, _ => exact factor
      | 1, _ => exact split_step below (by decide) bound ready factor
      | 0, _ =>
          exact split_step below (by decide) bound ready
            (split_step below (by decide) bound (ready_tighter _ _ ready) factor)

theorem run_split (rules : Rules) (level : Nat) (pending : List Pending) (tokens : List Token)
    (items : List Item) (high : level ≤ 3) (ready : Ready level pending)
    (ran : rules.run ⟨.operand false, pending⟩ tokens = .ok items) : Split rules level pending tokens items :=
  splits_below rules (tokens.length + 1) tokens level pending items (Nat.lt_succ_self _) high ready ran

end Reckon
