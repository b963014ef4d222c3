import Mathlib.Data.Nat.Bits
import Reckon.Proofs.Parse.Accounting
import Reckon.Proofs.Parse.Places

set_option autoImplicit false

namespace Reckon

open Number (Format TypeRequest Value negate_negate)

-- The minuses in front of operands that are not complete: of the next operand, and of each open group, the innermost
-- first.
structure Minuses where
  next : Nat
  groups : List Nat

def Minuses.none : Minuses := ⟨0, []⟩

def Minuses.total (minuses : Minuses) : Nat := minuses.next + minuses.groups.foldr (· + ·) 0

def Minuses.completed (minuses : Minuses) : Kind → Nat
  | .number => minuses.next
  | .closing => minuses.groups.headD 0
  | _ => 0

def Minuses.after (minuses : Minuses) (operand : Bool) : Kind → Minuses
  | .minus => if operand then minuses else ⟨minuses.next + 1, minuses.groups⟩
  | .number => ⟨0, minuses.groups⟩
  | .opening => ⟨0, minuses.next :: minuses.groups⟩
  | .closing => ⟨minuses.next, minuses.groups.tail⟩
  | _ => minuses

def renegated (written : List Item) (count : Nat) : List Item :=
  written.filter (· ≠ .negate) ++ List.replicate count .negate

def Rules.runUnfolded (rules : Rules) (state : State) (minuses : Minuses) :
    List Token → Except ParseError (List Item)
  | [] => .error .noFinish
  | token :: rest =>
      match rules.step state token with
      | .next written after =>
          (rules.runUnfolded after (minuses.after state.afterOperand token.kind) rest).map
            (renegated written (minuses.completed token.kind) ++ ·)
      | .done written => .ok written
      | .failed error => .error error

def parseUnfolded (options : Options) (tokens : List Token) : Except ParseError (List Item) :=
  if endsWithFinish tokens then options.rules.runUnfolded .start .none tokens else .error .noFinish

def negatedGroups : List Pending → List Bool
  | [] => []
  | .group negated :: outer => negated :: negatedGroups outer
  | .operation _ :: outer => negatedGroups outer

def Minuses.FoldTo (minuses : Minuses) : Place → Prop
  | .operand negated => negated = minuses.next.bodd
  | .operator => minuses.next = 0

structure Minuses.Folded (minuses : Minuses) (state : State) : Prop where
  next : minuses.FoldTo state.place
  groups : negatedGroups state.pending = minuses.groups.map Nat.bodd

theorem negated_groups_unwind (level : Nat) (pending : List Pending) :
    negatedGroups (unwind level pending).2 = negatedGroups pending :=
  unwind_ignored level negatedGroups (fun _ _ => rfl) pending

theorem unwind_without_negation (level : Nat) (pending : List Pending) : .negate ∉ (unwind level pending).1 := by
  intro member
  obtain ⟨op, same⟩ := unwind_items member
  cases same

theorem negated_groups_awaiting (op : BinaryOp) (pending : List Pending) :
    negatedGroups (awaiting op pending) = negatedGroups pending := negated_groups_unwind op.level pending

def Minuses.Writes (minuses : Minuses) (operand : Bool) (kind : Kind) (written : List Item) : Prop :=
  ∃ kept, .negate ∉ kept ∧ written = kept ++ negation (minuses.completed kind).bodd ∧
    (kind.endsOperand = true → operand = true ∨ kept ≠ [])

theorem completed_nothing (minuses : Minuses) {kind : Kind} (unended : kind.endsOperand = false) :
    minuses.completed kind = 0 := by
  cases kind with
  | number => cases unended
  | closing => cases unended
  | _ => rfl

variable {rules : Rules} {minuses : Minuses} {state after : State} {pending : List Pending} {token : Token}
  {written : List Item}

theorem writes_kept {operand : Bool} {kind : Kind} {kept : List Item} (free : .negate ∉ kept)
    (unended : kind.endsOperand = false) : minuses.Writes operand kind kept := by
  refine ⟨kept, free, ?_, fun ended => ?_⟩
  · rw [completed_nothing minuses unended]
    exact (List.append_nil kept).symm
  · rw [unended] at ended
    cases ended

structure Minuses.Unfolds (minuses : Minuses) (operand : Bool) (kind : Kind) (written : List Item) (after : State) :
    Prop where
  writes : minuses.Writes operand kind written
  folded : (minuses.after operand kind).Folded after

theorem after_operand (minuses : Minuses) {kind : Kind} (starts : kind.startsOperand = true) :
    minuses.after true kind = minuses.after false kind := by
  cases kind with
  | minus => cases starts
  | _ => rfl

theorem after_chained (minuses : Minuses) {kind : Kind} {op : BinaryOp} (sign : kind.chained = some op) :
    minuses.after true kind = minuses := by
  cases kind <;> simp [Kind.chained] at sign <;> rfl

theorem no_minuses (none : minuses.next = 0) : false = minuses.next.bodd := by
  rw [none, Nat.bodd_zero]

theorem group_minuses {level : Nat} {negated : Bool} {outer : List Pending}
    (groups : negatedGroups pending = minuses.groups.map Nat.bodd)
    (innermost : (unwind level pending).2 = .group negated :: outer) :
    ∃ count rest, minuses.groups = count :: rest ∧ negated = count.bodd ∧
      negatedGroups outer = rest.map Nat.bodd := by
  have unwound := negated_groups_unwind level pending
  rw [innermost, groups] at unwound
  obtain ⟨count, rest, counts, negates, others⟩ := List.map_eq_cons_iff.mp unwound.symm
  exact ⟨count, rest, counts, negates.symm, others.symm⟩

theorem move_unfolds (folded : minuses.Folded state) (move : rules.Move token state written after) :
    minuses.Unfolds state.afterOperand token.kind written after := by
  obtain ⟨next, groups⟩ := folded
  induction move with
  | number isNumber =>
      rw [isNumber]
      refine ⟨⟨[.number token.span], by simp, ?_, fun _ => .inr (List.cons_ne_nil _ _)⟩, ⟨rfl, groups⟩⟩
      rw [show _ = minuses.next.bodd from next]
      rfl
  | @minus negated pending isMinus =>
      rw [isMinus]
      refine ⟨writes_kept List.not_mem_nil rfl, ⟨?_, groups⟩⟩
      change (!negated) = (minuses.next + 1).bodd
      rw [Nat.bodd_succ, show negated = minuses.next.bodd from next]
  | plus isPlus _ =>
      rw [isPlus]
      exact ⟨writes_kept List.not_mem_nil rfl, ⟨next, groups⟩⟩
  | group opens _ =>
      rw [opens]
      exact ⟨writes_kept List.not_mem_nil rfl, ⟨Nat.bodd_zero.symm, congrArg₂ List.cons next groups⟩⟩
  | power isCaret _ =>
      rw [isCaret]
      exact ⟨writes_kept List.not_mem_nil rfl, ⟨no_minuses next, groups⟩⟩
  | @operation op pending sign =>
      obtain ⟨-, -, -, unended, -⟩ := chained_flat sign
      refine ⟨writes_kept (unwind_without_negation _ _) unended, ?_⟩
      change (minuses.after true token.kind).Folded _
      rw [after_chained minuses sign]
      exact ⟨no_minuses next, (negated_groups_awaiting op pending).trans groups⟩
  | @product pending written after starts _ ih =>
      obtain ⟨⟨kept, free, rfl, -⟩, stays⟩ := ih (no_minuses next) ((negated_groups_awaiting _ _).trans groups)
      refine ⟨⟨(unwind BinaryOp.mul.level pending).1 ++ kept, ?_, ?_, fun _ => .inl rfl⟩, ?_⟩
      · rw [List.mem_append, not_or]
        exact ⟨unwind_without_negation _ _, free⟩
      · rw [List.append_assoc]
      · change (minuses.after true token.kind).Folded after
        rw [after_operand minuses starts]
        exact stays
  | @closing negated pending outer closes innermost =>
      rw [closes]
      obtain ⟨count, rest, counts, rfl, others⟩ := group_minuses groups innermost
      refine ⟨⟨(unwind 0 pending).1, unwind_without_negation _ _, ?_, fun _ => .inl rfl⟩, ⟨next, ?_⟩⟩
      · rw [Minuses.completed, counts, List.headD_cons]
      · rw [Minuses.after, counts, List.tail_cons]
        exact others

theorem step_unfolds (folded : minuses.Folded state) (step : rules.step state token = .next written after) :
    minuses.Unfolds state.afterOperand token.kind written after :=
  move_unfolds folded (step_next_iff.mp step)

theorem done_unfolds (folded : minuses.Folded state) (step : rules.step state token = .done written) :
    .negate ∉ written ∧ minuses.total = 0 := by
  obtain ⟨here, pending⟩ := state
  obtain ⟨-, place, ends⟩ := step_done_iff.mp step
  subst place
  have free := unwind_without_negation 0 pending
  have unwound := negated_groups_unwind 0 pending
  rw [show unwind 0 pending = (written, []) from ends] at free unwound
  rw [folded.groups] at unwound
  have none : minuses.groups = [] := List.map_eq_nil_iff.mp unwound.symm
  have next : minuses.next = 0 := folded.next
  refine ⟨free, ?_⟩
  rw [Minuses.total, none, next]
  rfl

def minusSign (place : Bool × Token) : Bool := !place.1 && place.2.kind = .minus

theorem minuses_kept (minuses : Minuses) (operand : Bool) (token : Token) :
    minuses.completed token.kind + (minuses.after operand token.kind).total =
      minuses.total + [(operand, token)].countP minusSign := by
  cases kind : token.kind with
  | minus =>
      cases operand with
      | false => simp [Minuses.completed, Minuses.after, Minuses.total, minusSign, kind, Nat.add_right_comm]
      | true => simp [Minuses.completed, Minuses.after, minusSign]
  | closing =>
      cases groups : minuses.groups <;>
        simp [Minuses.completed, Minuses.after, Minuses.total, minusSign, kind, groups, Nat.add_left_comm]
  | _ => simp [Minuses.completed, Minuses.after, Minuses.total, minusSign, kind]

-- The second sequence is the first with pairs of negations put in after some of its items. `begun` tells whether there
-- are items before.
inductive Paired : Bool → List Item → List Item → Prop
  | done {begun : Bool} : Paired begun [] []
  | item {begun : Bool} {item : Item} {first second : List Item} (rest : Paired true first second) :
      Paired begun (item :: first) (item :: second)
  | pair {first second : List Item} (rest : Paired true first second) :
      Paired true first (.negate :: .negate :: second)

variable {begun : Bool} {first second : List Item}

theorem paired_begun (paired : Paired begun first second) : Paired true first second := by
  cases paired with
  | done => exact .done
  | item rest => exact .item rest
  | pair rest => exact .pair rest

theorem paired_append (kept : List Item) (paired : Paired begun first second) :
    Paired begun (kept ++ first) (kept ++ second) := by
  induction kept with
  | nil => exact paired
  | cons item kept ih => exact .item (paired_begun ih)

theorem paired_after {kept : List Item} (started : begun = true ∨ kept ≠ []) (paired : Paired true first second) :
    Paired begun (kept ++ first) (kept ++ second) := by
  cases kept with
  | nil =>
      rcases started with rfl | some
      · exact paired
      · exact absurd rfl some
  | cons item kept => exact .item (paired_append kept paired)

theorem paired_negations (count : Nat) (paired : Paired true first second) :
    Paired true (negation count.bodd ++ first) (List.replicate count .negate ++ second) := by
  match count with
  | 0 => exact paired
  | 1 => exact .item paired
  | count + 2 =>
      have fewer := paired_negations count paired
      rw [Nat.bodd_succ, Nat.bodd_succ, Bool.not_not]
      exact .pair fewer

theorem renegated_kept {kept : List Item} (free : .negate ∉ kept) (negated : Bool) (count : Nat) :
    renegated (kept ++ negation negated) count = kept ++ List.replicate count .negate := by
  have others : kept.filter (· ≠ .negate) = kept := by
    rw [List.filter_eq_self]
    intro item among
    exact decide_eq_true fun same => free (same ▸ among)
  have none : (negation negated).filter (· ≠ .negate) = [] := by cases negated <;> rfl
  rw [renegated, List.filter_append, others, none, List.append_nil]

theorem renegated_count (written : List Item) (count : Nat) : (renegated written count).count .negate = count := by
  have none : (written.filter (· ≠ .negate)).count .negate = 0 := by
    rw [List.count_eq_zero]
    simp
  rw [renegated, List.count_append, none, List.count_replicate_self, Nat.zero_add]

theorem renegated_paired {operand : Bool} {kind : Kind} (writes : minuses.Writes operand kind written)
    (started : operand = true → begun = true) (rest : Paired (begun || kind.endsOperand) first second) :
    Paired begun (written ++ first) (renegated written (minuses.completed kind) ++ second) := by
  obtain ⟨kept, free, rfl, covered⟩ := writes
  rw [renegated_kept free, List.append_assoc, List.append_assoc]
  cases ended : kind.endsOperand with
  | false =>
      rw [ended, Bool.or_false] at rest
      rw [completed_nothing minuses ended]
      exact paired_append kept rest
  | true =>
      rw [ended, Bool.or_true] at rest
      exact paired_after ((covered ended).imp_left started) (paired_negations _ rest)

-- From a run of the parser, a run of the unfolded translation. The negations of a group come after an operand, so
-- something is written before them.
theorem run_unfolds {tokens : List Token} {items : List Item} (folded : minuses.Folded state)
    (started : state.afterOperand = true → begun = true) (ran : rules.run state tokens = .ok items) :
    ∃ unfolded, rules.runUnfolded state minuses tokens = .ok unfolded ∧ Paired begun items unfolded ∧
      unfolded.count .negate =
        minuses.total + (placed state.afterOperand (beforeFinish tokens)).countP minusSign := by
  rw [runs_iff] at ran
  induction ran generalizing minuses begun with
  | @ends state token rest items isFinish step =>
      obtain ⟨free, none⟩ := done_unfolds folded step
      refine ⟨items, by simp only [Rules.runUnfolded, step], ?_, ?_⟩
      · simpa using paired_append items (.done : Paired begun [] [])
      · rw [before_finish_empty token rest isFinish, none, List.count_eq_zero.mpr free]
        rfl
  | @next state token rest written after more unfinished step _ ih =>
      obtain ⟨writes, remain⟩ := step_unfolds folded step
      have place := step_place step
      have later : after.afterOperand = true → (begun || token.kind.endsOperand) = true := by
        intro ended
        rw [← place, ended, Bool.or_true]
      obtain ⟨unfolded, ran, paired, count⟩ := ih remain later
      refine ⟨_, by simp only [Rules.runUnfolded, step, ran]; rfl, renegated_paired writes started paired, ?_⟩
      have kept := minuses_kept minuses state.afterOperand token
      rw [List.count_append, renegated_count, count, place, ← Nat.add_assoc, kept, Nat.add_assoc,
        ← List.countP_append, before_finish_cons token rest unfinished]
      rfl

theorem perform_nonempty {format : Format} {stack next : List Value} {item : Item}
    (performed : perform format stack item = .ok next) : next ≠ [] := by
  cases perform_ok_iff.mp performed with
  | number _ | negate | operation => exact List.cons_ne_nil _ _

theorem pair_performed (format : Format) {stack : List Value} (held : stack ≠ []) (items : List Item) :
    performAll format stack (.negate :: .negate :: items) = performAll format stack items := by
  obtain ⟨value, below, rfl⟩ := List.exists_cons_of_ne_nil held
  rw [perform_all_cons]
  change performAll format (value.negate :: below) (.negate :: items) = _
  rw [perform_all_cons]
  change performAll format (value.negate.negate :: below) items = _
  rw [negate_negate]

theorem paired_performed (format : Format) (paired : Paired begun first second) (stack : List Value)
    (held : begun = true → stack ≠ []) : performAll format stack second = performAll format stack first := by
  induction paired generalizing stack with
  | done => rfl
  | @item begun item first second _ ih =>
      rw [perform_all_cons, perform_all_cons]
      cases performed : perform format stack item with
      | error error => rfl
      | ok next => exact ih next fun _ => perform_nonempty performed
  | pair _ ih =>
      rw [pair_performed format (held rfl)]
      exact ih stack held

theorem paired_evaluated (request : TypeRequest) (paired : Paired false first second) :
    evaluate request second = evaluate request first := by
  have performed (format : Format) : performAll format [] second = performAll format [] first :=
    paired_performed format paired [] fun begun => by cases begun
  simp only [evaluate, evaluateIn, performed]

theorem folded_minuses_evaluate_alike (options : Options) (tokens : List Token) (items : List Item)
    (parsed : parse options tokens = .ok items) :
    ∃ unfolded, parseUnfolded options tokens = .ok unfolded ∧
      Paired false items unfolded ∧
      unfolded.count .negate = (placed false (beforeFinish tokens)).countP minusSign ∧
      ∀ request, evaluate request unfolded = evaluate request items := by
  obtain ⟨ends, ran⟩ := parse_ran parsed
  have start : Minuses.none.Folded .start := ⟨Nat.bodd_zero.symm, rfl⟩
  have unstarted : State.start.afterOperand = true → false = true := fun ended => by cases ended
  obtain ⟨unfolded, also, paired, count⟩ := run_unfolds start unstarted ran
  refine ⟨unfolded, ?_, paired, ?_, fun request => paired_evaluated request paired⟩
  · rw [parseUnfolded, if_pos ends]
    exact also
  · rw [count]
    exact Nat.zero_add _

theorem seven_minuses_unfolded :
    let symbol (kind : Kind) (text : String) : Token := ⟨kind, Span.whole text⟩
    let number (text : String) : Item := .number (Span.whole text)
    let minus := symbol .minus "-"
    let tokens := [minus, minus, symbol .opening "(", minus, minus, minus, symbol .number "2", symbol .caret "^", minus,
      minus, symbol .number "3", symbol .closing ")", symbol .finish ""]
    let items := [number "2", .negate, number "3", .operation .pow]
    let unfolded := [number "2", .negate, .negate, .negate, number "3", .negate, .negate, .operation .pow, .negate,
      .negate]
    parse {} tokens = .ok items ∧ parseUnfolded {} tokens = .ok unfolded ∧
      ∀ request, evaluate request unfolded = evaluate request items := by
  intro symbol number minus tokens items unfolded
  have parsed : parse {} tokens = .ok items := rfl
  have written : parseUnfolded {} tokens = .ok unfolded := by rfl
  obtain ⟨others, also, -, -, alike⟩ := folded_minuses_evaluate_alike {} tokens items parsed
  rw [written, Except.ok.injEq] at also
  subst also
  exact ⟨parsed, written, alike⟩

end Reckon
