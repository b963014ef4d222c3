import Reckon.Proofs.Parse.Acceptance

set_option autoImplicit false

namespace Reckon

def Rules.peak (rules : Rules) (measure : List Pending → Nat) (state : State) : List Token → Nat
  | [] => measure state.pending
  | token :: rest =>
      match rules.step state token with
      | .next _ after => max (measure state.pending) (rules.peak measure after rest)
      | .done _ => measure state.pending
      | .failed _ => measure state.pending

def peakLevels (plus : Bool) (tokens : List Token) : Nat := (Rules.unlimited plus).peak levels .start tokens

def peakFrames (plus : Bool) (tokens : List Token) : Nat := (Rules.unlimited plus).peak frames .start tokens

theorem peak_here (rules : Rules) (measure : List Pending → Nat) (state : State) (tokens : List Token) :
    measure state.pending ≤ rules.peak measure state tokens := by
  cases tokens with
  | nil => exact Nat.le_refl _
  | cons token rest =>
      rw [Rules.peak]
      split
      · exact Nat.le_max_left _ _
      · exact Nat.le_refl _
      · exact Nat.le_refl _

theorem unwind_within (level : Nat) (pending : List Pending) :
    (pathOf (unwind level pending).2).Within (pathOf pending) := by
  refine unwind_keeps (fun parts => (pathOf parts).Within (pathOf pending)) (fun op outer _ within => ?_)
    (path_within_refl _)
  exact path_within_trans ⟨Nat.le_add_left _ _, Nat.le_add_left _ _⟩ within

theorem awaiting_within (op : BinaryOp) (pending : List Pending) (low : op.level < 2) :
    (pathOf (awaiting op pending)).Within (pathOf pending) := by
  rw [awaiting, path_of_chained op _ low]
  exact unwind_within op.level pending

-- What a step that goes on can do: it opens a level that the rules admit, and every other rules that admit it
-- step alike; or it opens none, and then the limits play no part.
def Rules.Opens (rules : Rules) (state : State) (token : Token) (written : List Item) (after : State) : Prop :=
  0 < levels after.pending ∧ rules.Admits (pathOf after.pending) ∧
    ∀ other : Rules, other.unaryPlus = rules.unaryPlus → other.Admits (pathOf after.pending) →
      other.step state token = .next written after

def Rules.Keeps (rules : Rules) (state : State) (token : Token) (written : List Item) (after : State) : Prop :=
  (pathOf after.pending).Within (pathOf state.pending) ∧
    ∀ other : Rules, other.unaryPlus = rules.unaryPlus → other.step state token = .next written after

theorem move_next {rules : Rules} {state after : State} {token : Token} {written : List Item}
    (move : rules.Move token state written after) :
    rules.Opens state token written after ∨ rules.Keeps state token written after := by
  induction move with
  | number isNumber => exact .inr ⟨path_within_refl _, fun _ _ => step_next_iff.mpr (.number isNumber)⟩
  | minus isMinus => exact .inr ⟨path_within_refl _, fun _ _ => step_next_iff.mpr (.minus isMinus)⟩
  | plus isPlus allowed =>
      exact .inr ⟨path_within_refl _, fun _ same => step_next_iff.mpr (.plus isPlus (same.trans allowed))⟩
  | group opens admitted =>
      refine .inl ⟨Nat.lt_add_right _ Nat.one_pos, (refusal_none_iff rules _).mp admitted, fun other _ admits => ?_⟩
      exact step_next_iff.mpr (.group opens ((refusal_none_iff other _).mpr admits))
  | power isCaret admitted =>
      refine .inl ⟨Nat.lt_add_right _ Nat.one_pos, (refusal_none_iff rules _).mp admitted, fun other _ admits => ?_⟩
      exact step_next_iff.mpr (.power isCaret ((refusal_none_iff other _).mpr admits))
  | operation sign =>
      exact .inr ⟨awaiting_within _ _ (chained_level _ _ sign).2, fun _ _ => step_next_iff.mpr (.operation sign)⟩
  | product starts _ ih =>
      rcases ih with ⟨deeper, fits, alike⟩ | ⟨within, alike⟩
      · refine .inl ⟨deeper, fits, fun other same admits => ?_⟩
        exact step_next_iff.mpr (.product starts (step_next_iff.mp (alike other same admits)))
      · refine .inr ⟨path_within_trans within (awaiting_within .mul _ (by decide)), fun other same => ?_⟩
        exact step_next_iff.mpr (.product starts (step_next_iff.mp (alike other same)))
  | @closing negated pending outer closes innermost =>
      have within := unwind_within 0 pending
      rw [innermost, path_of_group] at within
      refine .inr ⟨path_within_trans ⟨Nat.le_succ _, Nat.le_add_right _ 6⟩ within, fun _ _ => ?_⟩
      exact step_next_iff.mpr (.closing closes innermost)

theorem step_next {rules : Rules} {state after : State} {token : Token} {written : List Item}
    (step : rules.step state token = .next written after) :
    rules.Opens state token written after ∨ rules.Keeps state token written after :=
  move_next (step_next_iff.mp step)

theorem step_done {rules : Rules} {state : State} {token : Token} {written : List Item}
    (step : rules.step state token = .done written) (other : Rules) : other.step state token = .done written :=
  step_done_iff.mpr (step_done_iff.mp step)

def Rules.AdmitsUpTo (rules : Rules) (deepest : Path) : Prop :=
  ∀ path : Path, 0 < path.levels → path.Within deepest → rules.Admits path

def Rules.deepest (rules : Rules) (state : State) (tokens : List Token) : Path :=
  ⟨rules.peak levels state tokens, rules.peak frames state tokens⟩

theorem run_alike (rules other : Rules) (plus : other.unaryPlus = rules.unaryPlus) (state : State)
    (tokens : List Token) (items : List Item) (ran : rules.run state tokens = .ok items)
    (admits : other.AdmitsUpTo (rules.deepest state tokens)) :
    other.run state tokens = .ok items ∧
      ∀ measure, other.peak measure state tokens = rules.peak measure state tokens := by
  rw [runs_iff] at ran
  induction ran with
  | ends _ step =>
      have alike := step_done step other
      exact ⟨by simp only [Rules.run, alike], fun measure => by simp only [Rules.peak, alike, step]⟩
  | @next state token rest written after more _ step _ ih =>
      have inner : (rules.deepest after rest).Within (rules.deepest state (token :: rest)) := by
        constructor <;> simp only [Rules.deepest, Rules.peak, step] <;> exact Nat.le_max_right _ _
      have here : (pathOf after.pending).Within (rules.deepest after rest) :=
        ⟨peak_here rules levels after rest, peak_here rules frames after rest⟩
      have alike : other.step state token = .next written after := by
        rcases step_next step with ⟨deeper, -, alike⟩ | ⟨-, alike⟩
        · exact alike other plus (admits _ deeper (path_within_trans here inner))
        · exact alike other plus
      obtain ⟨goesOn, same⟩ := ih fun path deeper within => admits path deeper (path_within_trans within inner)
      exact ⟨run_next alike goesOn, fun measure => by simp only [Rules.peak, alike, step, same]⟩

theorem peak_admitted (rules : Rules) (bound : Nat) (state : State) (tokens : List Token)
    (bounded : ∀ path : Path, rules.Admits path → path.levels ≤ bound) (start : levels state.pending ≤ bound) :
    rules.peak levels state tokens ≤ bound := by
  induction tokens generalizing state with
  | nil => exact start
  | cons token rest ih =>
      rw [Rules.peak]
      split
      · rename_i written after step
        have next : levels after.pending ≤ bound := by
          rcases step_next step with ⟨-, fits, -⟩ | ⟨within, -⟩
          · exact bounded _ fits
          · exact Nat.le_trans within.1 start
        exact Nat.max_le.mpr ⟨start, ih after next⟩
      · exact start
      · exact start

theorem unlimited_admits (plus : Bool) (path : Path) : (Rules.unlimited plus).Admits path :=
  ⟨⟨_, rfl, rfl⟩, nofun⟩

theorem run_unlimited {rules : Rules} {tokens : List Token} {items : List Item}
    (ran : rules.run .start tokens = .ok items) :
    (Rules.unlimited rules.unaryPlus).run .start tokens = .ok items ∧
      (∀ measure, (Rules.unlimited rules.unaryPlus).peak measure .start tokens
        = rules.peak measure .start tokens) :=
  run_alike rules (.unlimited rules.unaryPlus) rfl .start tokens items ran
    fun path _ _ => unlimited_admits _ path

-- How deep a run without limits goes is all that decides whether limits let it through.
theorem run_limited (rules : Rules) {tokens : List Token} {items : List Item}
    (ran : (Rules.unlimited rules.unaryPlus).run .start tokens = .ok items)
    (admits : rules.AdmitsUpTo ⟨peakLevels rules.unaryPlus tokens, peakFrames rules.unaryPlus tokens⟩) :
    rules.run .start tokens = .ok items :=
  (run_alike (.unlimited rules.unaryPlus) rules rfl .start tokens items ran admits).1

def levelLimit (limit : Nat) (plus : Bool) : Rules := ⟨.quantity (.whole limit), none, plus⟩

theorem level_limit_admits (limit : Nat) (plus : Bool) (path : Path) :
    (levelLimit limit plus).Admits path ↔ path.levels ≤ limit := by
  simp [Rules.Admits, levelLimit, Quantity.exceededBy]

theorem reads_within_iff {rules : Rules} {tokens : List Token} {items : List Item}
    (ends : endsWithFinish tokens = true) (ran : rules.run .start tokens = .ok items) (limit : Nat) :
    Phrase (·.levels ≤ limit) rules.unaryPlus 0 .root (beforeFinish tokens) items ↔
      peakLevels rules.unaryPlus tokens ≤ limit := by
  have limited : (levelLimit limit rules.unaryPlus).run .start tokens = .ok items ↔
      Phrase (·.levels ≤ limit) rules.unaryPlus 0 .root (beforeFinish tokens) items := by
    rw [run_ok_iff _ tokens items ends, funext fun path => propext (level_limit_admits limit rules.unaryPlus path)]
    rfl
  rw [← limited]
  obtain ⟨unlimited, -⟩ := run_unlimited ran
  constructor
  · intro within
    have deepest : peakLevels rules.unaryPlus tokens = _ := (run_unlimited within).2 levels
    rw [deepest]
    refine peak_admitted _ limit .start tokens (fun path fits => ?_) (Nat.zero_le limit)
    exact (level_limit_admits limit rules.unaryPlus path).mp fits
  · intro within
    refine run_limited (levelLimit limit rules.unaryPlus) unlimited fun path _ shallow => ?_
    exact (level_limit_admits limit rules.unaryPlus path).mpr (Nat.le_trans shallow.1 within)

theorem peak_levels_within {request : Number.TypeRequest} {limit : Int} {unaryPlus : Setting} {tokens : List Token}
    {items : List Item} (ran : (Options.mk request (.quantity (.whole limit)) unaryPlus).rules.run .start tokens
      = .ok items) : (peakLevels unaryPlus.isTrue tokens : Int) ≤ max limit 0 := by
  have shallow : ∀ path : Path, (Options.mk request (.quantity (.whole limit)) unaryPlus).rules.Admits path →
      path.levels ≤ (max limit 0).toNat := by
    rintro path ⟨⟨quantity, same, within⟩, -⟩
    cases same
    simp only [Quantity.exceededBy, decide_eq_false_iff_not] at within
    omega
  have deepest : peakLevels unaryPlus.isTrue tokens = _ := (run_unlimited ran).2 levels
  have bound := peak_admitted _ _ .start tokens shallow (Nat.zero_le _)
  rw [deepest]
  omega

end Reckon
