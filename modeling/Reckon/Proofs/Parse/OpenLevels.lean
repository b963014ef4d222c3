import Reckon.Proofs.Grammar.Cuts
import Reckon.Proofs.Parse.Nesting
import Reckon.Proofs.Parse.ViablePrefix

/-!
Levels of nesting counted on the tokens alone. A group is open from its opening to the closing that matches it.
A power link is open from its sign to the end of its right operand, which the first token shows that follows an
operand outside all groups begun since then and is not a power sign itself. What is pending in a run that goes
on without an error are just the levels that are open after the tokens that it has read.
-/

set_option autoImplicit false

namespace Reckon

def Kind.beginsLevel : Kind → Bool
  | .opening => true
  | .caret => true
  | _ => false

-- Whether a token ends what a token of the kind has begun. `depth` is the number of openings less the number of
-- closings in between; `operand` tells whether an operand ends right before the token.
def Kind.endedBy (kind : Kind) (depth : Int) (operand : Bool) (token : Token) : Bool :=
  match kind with
  | .opening => depth = 0 && token.kind = .closing
  | .caret => depth = 0 && operand && token.kind ≠ .caret
  | _ => true

def staysOpen (kind : Kind) (depth : Int) (operand : Bool) : List Token → Bool
  | [] => true
  | token :: rest =>
      !kind.endedBy depth operand token && staysOpen kind (depth + token.kind.nesting) token.kind.endsOperand rest

def begunBy (token : Token) (rest : List Token) : Nat :=
  (token.kind.beginsLevel && staysOpen token.kind 0 false rest).toNat

def openLevels : List Token → Nat
  | [] => 0
  | token :: rest => begunBy token rest + openLevels rest

def State.afterOperand (state : State) : Bool :=
  match state.place with
  | .operand _ => false
  | .operator => true

def leftOpen (depth : Int) (operand : Bool) (word : List Token) : List Pending → Nat
  | [] => 0
  | .group _ :: outer => (staysOpen .opening depth operand word).toNat + leftOpen (depth + 1) operand word outer
  | .operation .pow :: outer => (staysOpen .caret depth operand word).toNat + leftOpen depth operand word outer
  | .operation _ :: outer => leftOpen depth operand word outer

def innerLinks : List Pending → Nat
  | .operation op :: outer => (decide (op = .pow)).toNat + innerLinks outer
  | _ => 0

def LinksInside : List Pending → Prop
  | [] => True
  | .group _ :: outer => LinksInside outer
  | .operation op :: outer => (op ≠ .pow → innerLinks outer = 0) ∧ LinksInside outer

theorem left_open_nothing (depth : Int) (operand : Bool) (pending : List Pending) :
    leftOpen depth operand [] pending = levels pending := by
  induction pending generalizing depth with
  | nil => rfl
  | cons part outer ih =>
      cases part with
      | group negated => simp only [leftOpen, levels, Pending.levels, staysOpen, ih, Bool.toNat_true]
      | operation op => cases op <;> simp [leftOpen, levels, Pending.levels, staysOpen, ih]

theorem left_open_chained (depth : Int) (operand : Bool) (word : List Token) (op : BinaryOp)
    (outer : List Pending) (chained : op ≠ .pow) :
    leftOpen depth operand word (.operation op :: outer) = leftOpen depth operand word outer := by
  cases op with
  | pow => exact absurd rfl chained
  | _ => rfl

theorem left_open_passed (depth : Int) (operand : Bool) (token : Token) (rest : List Token)
    (pending : List Pending)
    (passes : ∀ (kind : Kind) (reached : Int), kind.beginsLevel = true → depth ≤ reached →
      kind.endedBy reached operand token = false) :
    leftOpen depth operand (token :: rest) pending =
      leftOpen (depth + token.kind.nesting) token.kind.endsOperand rest pending := by
  induction pending generalizing depth with
  | nil => rfl
  | cons part outer ih =>
      cases part with
      | group negated =>
          have deeper := ih (depth + 1) fun kind reached begins least => passes kind reached begins (by omega)
          have here := passes .opening depth rfl (Int.le_refl _)
          simp only [leftOpen, staysOpen, here, deeper, Bool.not_false, Bool.true_and]
          rw [Int.add_right_comm]
      | operation op =>
          by_cases link : op = .pow
          · subst link
            have here := passes .caret depth rfl (Int.le_refl _)
            simp only [leftOpen, staysOpen, here, ih depth passes, Bool.not_false, Bool.true_and]
          · rw [left_open_chained _ _ _ op outer link, left_open_chained _ _ _ op outer link]
            exact ih depth passes

theorem passes_before_operand (token : Token) (noClosing : token.kind ≠ .closing) (kind : Kind) (reached : Int)
    (begins : kind.beginsLevel = true) : kind.endedBy reached false token = false := by
  cases kind <;> simp [Kind.beginsLevel] at begins <;> simp [Kind.endedBy, noClosing]

theorem passes_caret (token : Token) (operand : Bool) (caret : token.kind = .caret) (kind : Kind) (reached : Int)
    (begins : kind.beginsLevel = true) : kind.endedBy reached operand token = false := by
  cases kind <;> simp [Kind.beginsLevel] at begins <;> simp [Kind.endedBy, caret]

theorem passes_inside (token : Token) (operand : Bool) (kind : Kind) (reached : Int)
    (begins : kind.beginsLevel = true) (inner : 0 < reached) : kind.endedBy reached operand token = false := by
  have deep : reached ≠ 0 := by omega
  cases kind <;> simp [Kind.beginsLevel] at begins <;> simp [Kind.endedBy, deep]

theorem left_open_without_links (token : Token) (rest : List Token) (pending : List Pending)
    (noClosing : token.kind ≠ .closing) (none : innerLinks pending = 0) :
    leftOpen 0 true (token :: rest) pending =
      leftOpen token.kind.nesting token.kind.endsOperand rest pending := by
  induction pending with
  | nil => rfl
  | cons part outer ih =>
      cases part with
      | group negated =>
          have here : Kind.endedBy .opening 0 true token = false := by simp [Kind.endedBy, noClosing]
          have deeper := left_open_passed (0 + 1) true token rest outer fun kind reached begins inner =>
            passes_inside token true kind reached begins inner
          simp only [leftOpen, staysOpen, here, deeper, Bool.not_false, Bool.true_and]
          rw [Int.add_right_comm, Int.zero_add]
      | operation op =>
          simp only [innerLinks, Nat.add_eq_zero_iff, Bool.toNat_eq_zero, decide_eq_false_iff_not] at none
          rw [left_open_chained _ _ _ op outer none.1, left_open_chained _ _ _ op outer none.1]
          exact ih none.2

theorem left_open_unwound (level : Nat) (token : Token) (rest : List Token) (pending : List Pending)
    (noCaret : token.kind ≠ .caret) :
    leftOpen 0 true (token :: rest) (unwind level pending).2 = leftOpen 0 true (token :: rest) pending := by
  refine unwind_keeps (fun parts => leftOpen 0 true (token :: rest) parts = leftOpen 0 true (token :: rest) pending)
    (fun op outer _ same => ?_) rfl
  by_cases link : op = .pow
  · subst link
    have ended : Kind.endedBy .caret 0 true token = true := by simp [Kind.endedBy, noCaret]
    simpa only [leftOpen, staysOpen, ended, Bool.not_true, Bool.false_and, Bool.toNat_false, Nat.zero_add] using same
  · rwa [left_open_chained _ _ _ op outer link] at same

theorem unwind_links (level : Nat) (pending : List Pending) (low : level ≤ 2) (inside : LinksInside pending) :
    innerLinks (unwind level pending).2 = 0 ∧ LinksInside (unwind level pending).2 := by
  have stays : LinksInside (unwind level pending).2 :=
    unwind_keeps LinksInside (fun _ _ _ linked => linked.2) inside
  refine ⟨?_, stays⟩
  cases left : (unwind level pending).2 with
  | nil => rfl
  | cons part outer =>
      cases part with
      | group negated => rfl
      | operation op =>
          have chained : op ≠ .pow := by
            rintro rfl
            exact absurd (Nat.lt_of_lt_of_le (unwind_loose left) low) (Nat.lt_irrefl 2)
          rw [left] at stays
          simp [innerLinks, chained, stays.1 chained]

theorem left_open_awaiting (op : BinaryOp) (token : Token) (rest : List Token) (pending : List Pending)
    (chained : op.level < 2) (noCaret : token.kind ≠ .caret) (noClosing : token.kind ≠ .closing)
    (inside : LinksInside pending) :
    LinksInside (awaiting op pending) ∧
      leftOpen 0 true (token :: rest) pending =
        leftOpen token.kind.nesting token.kind.endsOperand rest (awaiting op pending) := by
  obtain ⟨none, stays⟩ := unwind_links op.level pending (Nat.le_of_lt chained) inside
  have noLink : op ≠ .pow := by
    intro link
    subst link
    exact absurd chained (Nat.lt_irrefl 2)
  refine ⟨⟨fun _ => none, stays⟩, ?_⟩
  rw [awaiting, left_open_chained _ _ _ op _ noLink, ← left_open_without_links token rest _ noClosing none,
    left_open_unwound op.level token rest pending noCaret]

-- What a step does to the levels: those that were pending and are still open, with the one that the token
-- begins, are those that are pending now.
def KeepsCount (before : Nat) (token : Token) (rest : List Token) (after : State) : Prop :=
  LinksInside after.pending ∧
    before + begunBy token rest = leftOpen 0 after.afterOperand rest after.pending

theorem left_open_operand (token : Token) (rest : List Token) (pending : List Pending)
    (noClosing : token.kind ≠ .closing) :
    leftOpen 0 false (token :: rest) pending = leftOpen token.kind.nesting token.kind.endsOperand rest pending := by
  have passed := left_open_passed 0 false token rest pending fun kind reached begins _ =>
    passes_before_operand token noClosing kind reached begins
  rwa [Int.zero_add] at passed

theorem chained_flat {kind : Kind} {op : BinaryOp} (sign : kind.chained = some op) :
    kind ≠ .caret ∧ kind ≠ .closing ∧ kind.nesting = 0 ∧ kind.endsOperand = false ∧ kind.beginsLevel = false := by
  cases kind <;> simp [Kind.chained] at sign <;> decide

theorem move_counted {rules : Rules} {state after : State} {token : Token} {written : List Item}
    (move : rules.Move token state written after) (inside : LinksInside state.pending) (rest : List Token) :
    KeepsCount (leftOpen 0 state.afterOperand (token :: rest) state.pending) token rest after := by
  induction move with
  | @number negated pending kind | @minus negated pending kind | @plus negated pending kind allowed =>
      refine ⟨inside, ?_⟩
      change leftOpen 0 false (token :: rest) pending + begunBy token rest = _
      rw [left_open_operand token rest pending (by simp [kind]), begunBy, kind]
      rfl
  | @group negated pending kind _ =>
      refine ⟨inside, ?_⟩
      change leftOpen 0 false (token :: rest) pending + begunBy token rest = _
      rw [left_open_operand token rest pending (by simp [kind]), begunBy, kind, Nat.add_comm]
      rfl
  | @power pending kind _ =>
      refine ⟨⟨fun other => absurd rfl other, inside⟩, ?_⟩
      have passed := left_open_passed 0 true token rest pending fun other reached begins _ =>
        passes_caret token true kind other reached begins
      change leftOpen 0 true (token :: rest) pending + begunBy token rest = _
      rw [passed, begunBy, kind, Nat.add_comm]
      rfl
  | @operation op pending sign =>
      obtain ⟨noCaret, noClosing, flat, noOperand, begins⟩ := chained_flat sign
      obtain ⟨stays, counted⟩ :=
        left_open_awaiting op token rest pending (chained_level _ _ sign).2 noCaret noClosing inside
      refine ⟨stays, ?_⟩
      change leftOpen 0 true (token :: rest) pending + begunBy token rest = _
      rw [counted, flat, noOperand, begunBy, begins]
      rfl
  | @product pending written after starts _ ih =>
      have shape : token.kind ≠ .caret ∧ token.kind ≠ .closing := by
        constructor <;> intro same <;> simp [same, Kind.startsOperand] at starts
      obtain ⟨stays, counted⟩ := left_open_awaiting .mul token rest pending (by decide) shape.1 shape.2 inside
      have later := ih stays
      change KeepsCount (leftOpen 0 true (token :: rest) pending) token rest after
      rw [counted, ← left_open_operand token rest _ shape.2]
      exact later
  | @closing negated pending outer closes innermost =>
      have unwound := left_open_unwound 0 token rest pending (by simp [closes])
      have stays := (unwind_links 0 pending (Nat.zero_le _) inside).2
      rw [innermost] at unwound stays
      refine ⟨stays, ?_⟩
      have ended : Kind.endedBy .opening 0 true token = true := by simp [Kind.endedBy, closes]
      have passed := left_open_passed (0 + 1) true token rest outer fun kind reached begins inner =>
        passes_inside token true kind reached begins inner
      change leftOpen 0 true (token :: rest) pending + begunBy token rest = _
      rw [← unwound, leftOpen, staysOpen, ended, passed, begunBy, closes]
      simp [Kind.nesting, Kind.endsOperand, Kind.beginsLevel, State.afterOperand]

theorem step_counted {rules : Rules} {state after : State} {token : Token} {written : List Item}
    (step : rules.step state token = .next written after) (inside : LinksInside state.pending)
    (rest : List Token) :
    KeepsCount (leftOpen 0 state.afterOperand (token :: rest) state.pending) token rest after :=
  move_counted (step_next_iff.mp step) inside rest

theorem reached_counted {rules : Rules} {state last : State} {word : List Token} {written : List Item}
    (reached : rules.Reaches state word written last) (inside : LinksInside state.pending) :
    levels last.pending = leftOpen 0 state.afterOperand word state.pending + openLevels word := by
  induction reached with
  | here => exact (left_open_nothing _ _ _).symm
  | @next state after last token rest written more step _ ih =>
      obtain ⟨stays, counted⟩ := step_counted step inside rest
      rw [ih stays, ← counted, openLevels, Nat.add_assoc]

theorem reached_levels {rules : Rules} {last : State} {word : List Token} {written : List Item}
    (reached : rules.Reaches .start word written last) : levels last.pending = openLevels word := by
  have counted := reached_counted reached trivial
  rwa [show leftOpen 0 State.start.afterOperand word State.start.pending = 0 from rfl, Nat.zero_add] at counted

end Reckon
