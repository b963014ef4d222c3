import Reckon.Proofs.Parse.Nesting
import Reckon.Proofs.Parse.ViablePrefix

set_option autoImplicit false

namespace Reckon

def Item.span : Item → Option Span
  | .number span => some span
  | .negate => none
  | .operation _ => none

def leafSpans (items : List Item) : List Span := items.filterMap Item.span

def numberSpans (word : List Token) : List Span := (word.filter (·.kind = .number)).map Token.span

theorem leaf_spans_append (first second : List Item) :
    leafSpans (first ++ second) = leafSpans first ++ leafSpans second := List.filterMap_append

theorem number_spans_append (first second : List Token) :
    numberSpans (first ++ second) = numberSpans first ++ numberSpans second := by
  simp [numberSpans]

theorem number_spans_length (word : List Token) : (numberSpans word).length = word.countP (·.kind = .number) := by
  rw [numberSpans, List.length_map, List.countP_eq_length_filter]

theorem number_spans_symbol (token : Token) (symbol : token.kind ≠ .number) : numberSpans [token] = [] := by
  simp [numberSpans, symbol]

theorem leaf_spans_negation (negated : Bool) : leafSpans (negation negated) = [] := by
  cases negated <;> rfl

theorem leaf_spans_unwind (level : Nat) (pending : List Pending) : leafSpans (unwind level pending).1 = [] := by
  refine List.filterMap_eq_nil_iff.mpr fun item member => ?_
  obtain ⟨op, rfl⟩ := unwind_items member
  rfl

theorem move_spans {rules : Rules} {state after : State} {token : Token} {written : List Item}
    (move : rules.Move token state written after) : leafSpans written = numberSpans [token] := by
  have symbol {kind : Kind} (isKind : token.kind = kind) (other : kind ≠ .number) : numberSpans [token] = [] :=
    number_spans_symbol token (isKind ▸ other)
  induction move with
  | @number negated pending isNumber =>
      change token.span :: leafSpans (negation negated) = numberSpans [token]
      rw [leaf_spans_negation]
      simp [numberSpans, isNumber]
  | minus isMinus => exact (symbol isMinus (by decide)).symm
  | plus isPlus _ => exact (symbol isPlus (by decide)).symm
  | group opens _ => exact (symbol opens (by decide)).symm
  | power isCaret _ => exact (symbol isCaret (by decide)).symm
  | operation sign =>
      rw [leaf_spans_unwind, number_spans_symbol token]
      intro isNumber
      simp [isNumber, Kind.chained] at sign
  | product _ _ ih => rw [leaf_spans_append, leaf_spans_unwind, List.nil_append, ih]
  | closing closes _ =>
      rw [leaf_spans_append, leaf_spans_unwind, leaf_spans_negation, symbol closes (by decide)]
      rfl

theorem step_spans {rules : Rules} {state after : State} {token : Token} {written : List Item}
    (step : rules.step state token = .next written after) : leafSpans written = numberSpans [token] :=
  move_spans (step_next_iff.mp step)

theorem step_done_spans {rules : Rules} {state : State} {token : Token} {written : List Item}
    (step : rules.step state token = .done written) : leafSpans written = [] := by
  obtain ⟨-, -, ends⟩ := step_done_iff.mp step
  have none := leaf_spans_unwind 0 state.pending
  rwa [ends] at none

theorem reached_spans {rules : Rules} {state last : State} {word : List Token} {written : List Item}
    (reached : rules.Reaches state word written last) : leafSpans written = numberSpans word := by
  induction reached with
  | here => rfl
  | @next state after last token rest written more step _ ih =>
      rw [leaf_spans_append, step_spans step, ih, ← number_spans_append, List.singleton_append]

theorem run_spans {rules : Rules} {state : State} {tokens : List Token} {items : List Item}
    (ran : rules.run state tokens = .ok items) : leafSpans items = numberSpans (beforeFinish tokens) := by
  rw [runs_iff] at ran
  induction ran with
  | @ends state token rest items isFinish step =>
      rw [step_done_spans step, before_finish_empty token rest isFinish]
      rfl
  | @next state token rest written after more unfinished step _ ih =>
      rw [leaf_spans_append, step_spans step, ih, ← number_spans_append, List.singleton_append,
        before_finish_cons token rest unfinished]

end Reckon
