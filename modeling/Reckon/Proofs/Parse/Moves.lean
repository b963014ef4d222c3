import Reckon.Parse.Step
import Reckon.Proofs.Grammar.Phrase

set_option autoImplicit false

namespace Reckon

def strayKinds : List Kind := [.finish, .star, .slash, .caret, .closing]

-- A step that goes on, with what it writes and where it leads.
inductive Rules.Move (rules : Rules) (token : Token) : State → List Item → State → Prop
  | number {negated : Bool} {pending : List Pending} (isNumber : token.kind = .number) :
      Rules.Move rules token ⟨.operand negated, pending⟩ (.number token.span :: negation negated) ⟨.operator, pending⟩
  | minus {negated : Bool} {pending : List Pending} (isMinus : token.kind = .minus) :
      Rules.Move rules token ⟨.operand negated, pending⟩ [] ⟨.operand (!negated), pending⟩
  | plus {negated : Bool} {pending : List Pending} (isPlus : token.kind = .plus) (allowed : rules.unaryPlus = true) :
      Rules.Move rules token ⟨.operand negated, pending⟩ [] ⟨.operand negated, pending⟩
  | group {negated : Bool} {pending : List Pending} (opens : token.kind = .opening)
      (admitted : rules.refusal (.group negated :: pending) = none) :
      Rules.Move rules token ⟨.operand negated, pending⟩ [] ⟨.operand false, .group negated :: pending⟩
  | power {pending : List Pending} (isCaret : token.kind = .caret)
      (admitted : rules.refusal (.operation .pow :: pending) = none) :
      Rules.Move rules token ⟨.operator, pending⟩ [] ⟨.operand false, .operation .pow :: pending⟩
  | operation {op : BinaryOp} {pending : List Pending} (sign : token.kind.chained = some op) :
      Rules.Move rules token ⟨.operator, pending⟩ (unwind op.level pending).1 ⟨.operand false, awaiting op pending⟩
  | product {pending : List Pending} {written : List Item} {after : State} (starts : token.kind.startsOperand = true)
      (operand : Rules.Move rules token ⟨.operand false, awaiting .mul pending⟩ written after) :
      Rules.Move rules token ⟨.operator, pending⟩ ((unwind BinaryOp.mul.level pending).1 ++ written) after
  | closing {negated : Bool} {pending outer : List Pending} (closes : token.kind = .closing)
      (innermost : (unwind 0 pending).2 = .group negated :: outer) :
      Rules.Move rules token ⟨.operator, pending⟩ ((unwind 0 pending).1 ++ negation negated) ⟨.operator, outer⟩

inductive Rules.Stop (rules : Rules) (token : Token) : State → ParseError → Prop
  | stray {negated : Bool} {pending : List Pending}
      (stray : token.kind ∈ strayKinds ∨ token.kind = .plus ∧ rules.unaryPlus = false) :
      Rules.Stop rules token ⟨.operand negated, pending⟩ (.unexpected token .operand)
  | group {negated : Bool} {pending : List Pending} {error : ParseError} (opens : token.kind = .opening)
      (refused : rules.refusal (.group negated :: pending) = some error) :
      Rules.Stop rules token ⟨.operand negated, pending⟩ error
  | power {pending : List Pending} {error : ParseError} (isCaret : token.kind = .caret)
      (refused : rules.refusal (.operation .pow :: pending) = some error) :
      Rules.Stop rules token ⟨.operator, pending⟩ error
  | product {pending : List Pending} {error : ParseError} (starts : token.kind.startsOperand = true)
      (operand : Rules.Stop rules token ⟨.operand false, awaiting .mul pending⟩ error) :
      Rules.Stop rules token ⟨.operator, pending⟩ error
  | unopened {pending : List Pending} (closes : token.kind = .closing) (outside : (unwind 0 pending).2 = []) :
      Rules.Stop rules token ⟨.operator, pending⟩ (.unexpected token .finish)
  | unclosed {negated : Bool} {pending outer : List Pending} (isFinish : token.kind = .finish)
      (inside : (unwind 0 pending).2 = .group negated :: outer) :
      Rules.Stop rules token ⟨.operator, pending⟩ (.unexpected token .closing)

-- What holds of the pending parts, and of what lies beneath every operation, holds of what is left of them.
theorem unwind_keeps (Holds : List Pending → Prop) {level : Nat} {pending : List Pending}
    (beneath : ∀ op outer, level ≤ op.level → Holds (.operation op :: outer) → Holds outer)
    (holds : Holds pending) : Holds (unwind level pending).2 := by
  induction pending with
  | nil => exact holds
  | cons part outer ih =>
      cases part with
      | group negated => exact holds
      | operation op =>
          by_cases tight : level ≤ op.level
          · rw [unwind, if_pos tight]
            exact ih (beneath op outer tight holds)
          · rw [unwind, if_neg tight]
            exact holds

theorem unwind_ignored {α : Type} (level : Nat) (measure : List Pending → α)
    (ignores : ∀ op outer, measure (.operation op :: outer) = measure outer) (pending : List Pending) :
    measure (unwind level pending).2 = measure pending :=
  unwind_keeps (measure · = measure pending) (fun op outer _ same => (ignores op outer).symm.trans same) rfl

theorem unwind_items {level : Nat} {pending : List Pending} {item : Item} (member : item ∈ (unwind level pending).1) :
    ∃ op, item = .operation op := by
  induction pending with
  | nil => cases member
  | cons part outer ih =>
      cases part with
      | group negated => cases member
      | operation op =>
          rw [unwind] at member
          split at member
          · rcases List.mem_cons.mp member with rfl | inOuter
            · exact ⟨op, rfl⟩
            · exact ih inOuter
          · cases member

theorem unwind_loose {level : Nat} {pending outer : List Pending} {op : BinaryOp}
    (left : (unwind level pending).2 = .operation op :: outer) : op.level < level := by
  induction pending with
  | nil => cases left
  | cons part rest ih =>
      cases part with
      | group negated => cases left
      | operation other =>
          by_cases tight : level ≤ other.level
          · rw [unwind, if_pos tight] at left
            exact ih left
          · rw [unwind, if_neg tight] at left
            cases left
            exact Nat.lt_of_not_le tight

theorem unwind_all (pending : List Pending) :
    (unwind 0 pending).2 = [] ∨ ∃ negated outer, (unwind 0 pending).2 = .group negated :: outer := by
  cases left : (unwind 0 pending).2 with
  | nil => exact .inl rfl
  | cons part outer =>
      cases part with
      | group negated => exact .inr ⟨negated, outer, rfl⟩
      | operation op => exact absurd (unwind_loose left) (Nat.not_lt_zero _)

variable {rules : Rules} {token : Token} {state after : State} {pending : List Pending} {written : List Item}
  {error : ParseError}

def Rules.Ends (token : Token) (state : State) (written : List Item) : Prop :=
  token.kind = .finish ∧ state.place = .operator ∧ unwind 0 state.pending = (written, [])

def Rules.Tells (rules : Rules) (token : Token) (state : State) : Step → Prop
  | .next written after => rules.Move token state written after
  | .done written => Rules.Ends token state written
  | .failed error => rules.Stop token state error

theorem enter_told (entered : rules.refusal pending = none → rules.Move token state [] ⟨.operand false, pending⟩)
    (refused : ∀ error, rules.refusal pending = some error → rules.Stop token state error) :
    rules.Tells token state (rules.enter pending) := by
  cases refusal : rules.refusal pending with
  | none =>
      rw [Rules.enter, refusal]
      exact entered refusal
  | some error =>
      rw [Rules.enter, refusal]
      exact refused error refusal

theorem operand_told (rules : Rules) (token : Token) (negated : Bool) (pending : List Pending) :
    rules.Tells token ⟨.operand negated, pending⟩ (rules.operandStep negated pending token) := by
  cases kind : token.kind with
  | number =>
      simp only [Rules.operandStep, kind]
      exact .number kind
  | opening =>
      simp only [Rules.operandStep, kind]
      exact enter_told (.group kind) fun error => .group kind
  | minus =>
      simp only [Rules.operandStep, kind]
      exact .minus kind
  | plus =>
      simp only [Rules.operandStep, kind]
      by_cases allowed : rules.unaryPlus = true
      · rw [if_pos allowed]
        exact .plus kind allowed
      · rw [if_neg allowed]
        exact .stray (.inr ⟨kind, Bool.eq_false_iff.mpr allowed⟩)
  | _ =>
      simp only [Rules.operandStep, kind]
      exact .stray (.inl (by rw [kind]; decide))

theorem product_told {step : Step} (starts : token.kind.startsOperand = true)
    (told : rules.Tells token ⟨.operand false, awaiting .mul pending⟩ step) :
    rules.Tells token ⟨.operator, pending⟩ (step.after (unwind BinaryOp.mul.level pending).1) := by
  cases step with
  | next written after => exact .product starts told
  | done written =>
      obtain ⟨-, place, -⟩ := told
      cases place
  | failed error => exact .product starts told

theorem operator_told (rules : Rules) (token : Token) (pending : List Pending) :
    rules.Tells token ⟨.operator, pending⟩ (rules.operatorStep pending token) := by
  cases kind : token.kind with
  | number =>
      simp only [Rules.operatorStep, kind]
      exact product_told (by rw [kind]; rfl) (operand_told rules token false _)
  | opening =>
      simp only [Rules.operatorStep, kind]
      exact product_told (by rw [kind]; rfl) (operand_told rules token false _)
  | caret =>
      simp only [Rules.operatorStep, kind]
      exact enter_told (.power kind) fun error => .power kind
  | closing =>
      simp only [Rules.operatorStep, kind, closingStep]
      rcases unwind_all pending with outside | ⟨negated, outer, innermost⟩
      · rw [outside]
        exact .unopened kind outside
      · rw [innermost]
        exact .closing kind innermost
  | finish =>
      simp only [Rules.operatorStep, kind, finishStep]
      rcases unwind_all pending with outside | ⟨negated, outer, innermost⟩
      · rw [outside]
        exact ⟨kind, rfl, Prod.ext rfl outside⟩
      · rw [innermost]
        exact .unclosed kind innermost
  | _ =>
      simp only [Rules.operatorStep, kind]
      exact .operation (by rw [kind]; rfl)

theorem step_told (rules : Rules) (state : State) (token : Token) :
    rules.Tells token state (rules.step state token) := by
  obtain ⟨⟨negated⟩ | ⟨⟩, pending⟩ := state
  · exact operand_told rules token negated pending
  · exact operator_told rules token pending

theorem step_product (rules : Rules) (pending : List Pending) (starts : token.kind.startsOperand = true) :
    rules.step ⟨.operator, pending⟩ token =
      (rules.step ⟨.operand false, awaiting .mul pending⟩ token).after (unwind BinaryOp.mul.level pending).1 := by
  cases kind : token.kind with
  | number => simp only [Rules.step, Rules.operatorStep, kind]
  | opening => simp only [Rules.step, Rules.operatorStep, kind]
  | _ => simp [kind, Kind.startsOperand] at starts

theorem step_next_iff : rules.step state token = .next written after ↔ rules.Move token state written after := by
  constructor
  · intro step
    have told := step_told rules state token
    rwa [step] at told
  · intro move
    induction move with
    | number isNumber => simp only [Rules.step, Rules.operandStep, isNumber]
    | minus isMinus => simp only [Rules.step, Rules.operandStep, isMinus]
    | plus isPlus allowed => simp only [Rules.step, Rules.operandStep, isPlus, if_pos allowed]
    | group opens admitted => simp only [Rules.step, Rules.operandStep, opens, Rules.enter, admitted]
    | power isCaret admitted => simp only [Rules.step, Rules.operatorStep, isCaret, Rules.enter, admitted]
    | operation sign =>
        cases kind : token.kind with
        | plus | minus | star | slash =>
            rw [kind] at sign
            cases sign
            simp only [Rules.step, Rules.operatorStep, kind, operationStep]
        | _ => simp [kind, Kind.chained] at sign
    | product starts operand ih =>
        rw [step_product rules _ starts, ih]
        rfl
    | closing closes innermost => simp only [Rules.step, Rules.operatorStep, closes, closingStep, innermost]

theorem step_done_iff : rules.step state token = .done written ↔ Rules.Ends token state written := by
  constructor
  · intro step
    have told := step_told rules state token
    rwa [step] at told
  · rintro ⟨isFinish, place, ends⟩
    simp only [Rules.step, place, Rules.operatorStep, isFinish, finishStep, ends]

theorem step_failed_iff : rules.step state token = .failed error ↔ rules.Stop token state error := by
  constructor
  · intro step
    have told := step_told rules state token
    rwa [step] at told
  · intro stop
    induction stop with
    | stray stray =>
        rcases stray with among | ⟨isPlus, refused⟩
        · cases kind : token.kind with
          | finish | star | slash | caret | closing => simp only [Rules.step, Rules.operandStep, kind]
          | _ => simp [kind, strayKinds] at among
        · simp [Rules.step, Rules.operandStep, isPlus, refused]
    | group opens refused => simp only [Rules.step, Rules.operandStep, opens, Rules.enter, refused]
    | power isCaret refused => simp only [Rules.step, Rules.operatorStep, isCaret, Rules.enter, refused]
    | product starts operand ih =>
        rw [step_product rules _ starts, ih]
        rfl
    | unopened closes outside => simp only [Rules.step, Rules.operatorStep, closes, closingStep, outside]
    | unclosed isFinish inside => simp only [Rules.step, Rules.operatorStep, isFinish, finishStep, inside]

theorem step_done_finish (step : rules.step state token = .done written) :
    token.kind = .finish ∧ state.place = .operator := by
  obtain ⟨isFinish, place, -⟩ := step_done_iff.mp step
  exact ⟨isFinish, place⟩

theorem finish_goes_nowhere (rules : Rules) (state after : State) (token : Token) (written : List Item)
    (isFinish : token.kind = .finish) : rules.step state token ≠ .next written after := by
  intro step
  cases step_next_iff.mp step with
  | operation sign => simp [isFinish, Kind.chained] at sign
  | product starts _ => simp [isFinish, Kind.startsOperand] at starts
  | number other | minus other | plus other _ | group other _ | power other _ | closing other _ =>
      cases isFinish.symm.trans other

theorem finish_later {rest : List Token} (step : rules.step state token = .next written after)
    (finish : ∃ found ∈ token :: rest, found.kind = .finish) : ∃ found ∈ rest, found.kind = .finish := by
  obtain ⟨found, member, isFinish⟩ := finish
  rcases List.mem_cons.mp member with rfl | inRest
  · exact absurd step (finish_goes_nowhere rules state after found written isFinish)
  · exact ⟨found, inRest, isFinish⟩

theorem run_map_ok {rules : Rules} {state : State} {tokens : List Token} {written items : List Item}
    (ran : (rules.run state tokens).map (written ++ ·) = .ok items) :
    ∃ rest, rules.run state tokens = .ok rest ∧ items = written ++ rest := by
  cases result : rules.run state tokens with
  | error error => simp [result, Except.map] at ran
  | ok rest =>
      refine ⟨rest, rfl, ?_⟩
      simpa [result, Except.map] using ran.symm

-- A run that succeeds: steps that go on, and an end of input behind them.
inductive Rules.Runs (rules : Rules) : State → List Token → List Item → Prop
  | ends {state : State} {token : Token} {rest : List Token} {items : List Item} (isFinish : token.kind = .finish)
      (step : rules.step state token = .done items) : Rules.Runs rules state (token :: rest) items
  | next {state : State} {token : Token} {rest : List Token} {written : List Item} {after : State} {more : List Item}
      (unfinished : token.kind ≠ .finish) (step : rules.step state token = .next written after)
      (later : Rules.Runs rules after rest more) : Rules.Runs rules state (token :: rest) (written ++ more)

theorem run_next {rest : List Token} {more : List Item} (step : rules.step state token = .next written after)
    (goesOn : rules.run after rest = .ok more) : rules.run state (token :: rest) = .ok (written ++ more) := by
  simp only [Rules.run, step, goesOn, Except.map]

theorem failed_later_iff {rest : List Token} (step : rules.step state token = .next written after) :
    rules.run state (token :: rest) = .error error ↔ rules.run after rest = .error error := by
  simp only [Rules.run, step]
  cases rules.run after rest with
  | ok items =>
      constructor
      · intro failed
        cases failed
      · intro failed
        cases failed
  | error other => exact Iff.rfl

theorem runs_iff {tokens : List Token} {items : List Item} :
    rules.run state tokens = .ok items ↔ rules.Runs state tokens items := by
  constructor
  · intro ran
    induction tokens generalizing state items with
    | nil => cases ran
    | cons token rest ih =>
        cases step : rules.step state token with
        | failed error => simp [Rules.run, step] at ran
        | done written =>
            simp only [Rules.run, step, Except.ok.injEq] at ran
            exact ran ▸ .ends (step_done_finish step).1 step
        | next written after =>
            simp only [Rules.run, step] at ran
            obtain ⟨more, goesOn, rfl⟩ := run_map_ok ran
            exact .next (fun isFinish => finish_goes_nowhere rules state after token written isFinish step) step
              (ih goesOn)
  · intro runs
    induction runs with
    | ends _ step => simp only [Rules.run, step]
    | next _ step _ ih => exact run_next step ih

end Reckon
