import Reckon.Proofs.Parse.Extent
import Reckon.Proofs.Parse.OpenGroups

set_option autoImplicit false

namespace Reckon

inductive Rules.Enters (rules : Rules) : State → List Token → Nat → List Pending → Prop
  | here {state after : State} {token : Token} {rest : List Token} {written : List Item}
      (step : rules.step state token = .next written after) (begins : token.kind.beginsLevel = true) :
      Rules.Enters rules state (token :: rest) 0 after.pending
  | later {state after : State} {token : Token} {rest : List Token} {written : List Item} {index : Nat}
      {pending : List Pending} (step : rules.step state token = .next written after)
      (entered : Rules.Enters rules after rest index pending) :
      Rules.Enters rules state (token :: rest) (index + 1) pending

variable {rules : Rules} {state : State} {tokens : List Token} {index : Nat} {pending : List Pending}

theorem enters_goes_on {token : Token} (entered : rules.Enters state (token :: tokens) index pending) :
    ∃ written after, rules.step state token = .next written after := by
  cases entered with
  | here step _ => exact ⟨_, _, step⟩
  | later step _ => exact ⟨_, _, step⟩

theorem enters_cons {token : Token} {written : List Item} {after : State}
    (step : rules.step state token = .next written after)
    (entered : rules.Enters state (token :: tokens) index pending) :
    (index = 0 ∧ token.kind.beginsLevel = true ∧ pending = after.pending) ∨
      ∃ later, index = later + 1 ∧ rules.Enters after tokens later pending := by
  cases entered with
  | here same begins =>
      rw [step] at same
      cases same
      exact .inl ⟨rfl, begins, rfl⟩
  | later same entered =>
      rw [step] at same
      cases same
      exact .inr ⟨_, rfl, entered⟩

theorem enters_unique {other : List Pending} (entered : rules.Enters state tokens index pending)
    (again : rules.Enters state tokens index other) : pending = other := by
  induction entered with
  | here step begins =>
      rcases enters_cons step again with ⟨-, -, same⟩ | ⟨later, index, -⟩
      · exact same.symm
      · cases index
  | later step _ ih =>
      rcases enters_cons step again with ⟨index, -, -⟩ | ⟨later, index, entered⟩
      · cases index
      · cases index
        exact ih entered

theorem entered_reached (entered : rules.Enters state tokens index pending) :
    ∃ written last, rules.Reaches state (tokens.take (index + 1)) written last ∧ last.pending = pending := by
  induction entered with
  | here step begins => exact ⟨_, _, .next step .here, rfl⟩
  | later step _ ih =>
      obtain ⟨more, last, reached, same⟩ := ih
      exact ⟨_, last, .next step reached, same⟩

theorem enters_iff (rules : Rules) (state : State) (tokens : List Token) (index : Nat) :
    (∃ pending, rules.Enters state tokens index pending) ↔
      index < rules.taken state tokens ∧ ∃ token, tokens[index]? = some token ∧ token.kind.beginsLevel = true := by
  induction tokens generalizing state index with
  | nil => exact iff_of_false (fun ⟨_, entered⟩ => nomatch entered) (fun read => Nat.not_lt_zero _ read.1)
  | cons token rest ih =>
      have halts (halted : ∀ written after, rules.step state token ≠ .next written after) :
          (∃ pending, rules.Enters state (token :: rest) index pending) ↔
            index < rules.taken state (token :: rest) ∧
              ∃ found, (token :: rest)[index]? = some found ∧ found.kind.beginsLevel = true := by
        refine iff_of_false ?_ fun read => Nat.not_lt_zero index (taken_none halted ▸ read.1)
        rintro ⟨pending, entered⟩
        obtain ⟨written, after, step⟩ := enters_goes_on entered
        exact halted written after step
      cases step : rules.step state token with
      | done written => exact halts (by simp [step])
      | failed error => exact halts (by simp [step])
      | next written after =>
          rw [taken_next step]
          cases index with
          | zero =>
              constructor
              · rintro ⟨pending, entered⟩
                rcases enters_cons step entered with ⟨-, begins, -⟩ | ⟨later, index, -⟩
                · exact ⟨Nat.succ_pos _, token, rfl, begins⟩
                · cases index
              · rintro ⟨-, found, same, begins⟩
                cases same
                exact ⟨_, .here step begins⟩
          | succ index =>
              rw [Nat.add_lt_add_iff_right, List.getElem?_cons_succ, ← ih after index]
              refine ⟨fun ⟨pending, entered⟩ => ?_, fun ⟨pending, entered⟩ => ⟨pending, .later step entered⟩⟩
              rcases enters_cons step entered with ⟨index, -, -⟩ | ⟨later, index, entered⟩
              · cases index
              · cases index
                exact ⟨pending, entered⟩

theorem move_level {token : Token} {written : List Item} {after : State} (begins : token.kind.beginsLevel = true)
    (move : rules.Move token state written after) : rules.refusal after.pending = none := by
  induction move with
  | group _ admitted => exact admitted
  | power _ admitted => exact admitted
  | product _ _ ih => exact ih
  | operation sign =>
      obtain ⟨-, -, -, -, flat⟩ := chained_flat sign
      rw [flat] at begins
      cases begins
  | number kind | minus kind | plus kind _ | closing kind _ => simp [kind, Kind.beginsLevel] at begins

theorem step_level {token : Token} {written : List Item} {after : State} (begins : token.kind.beginsLevel = true)
    (step : rules.step state token = .next written after) : rules.refusal after.pending = none :=
  move_level begins (step_next_iff.mp step)

theorem refused_begins {token : Token} {error : ParseError} (failed : rules.step state token = .failed error)
    (refused : rules.refusal pending = some error) : token.kind.beginsLevel = true := by
  have limit := refusal_of_limit refused
  cases step_fault rules state token error failed with
  | unexpected expected => exact limit.elim
  | refused level refusal => rcases level with kind | kind <;> rw [kind] <;> rfl

structure Rules.RefusedFirst (rules : Rules) (state : State) (tokens : List Token) (index : Nat)
    (pending : List Pending) (error : ParseError) : Prop where
  entered : (Rules.unlimited rules.unaryPlus).Enters state tokens index pending
  refused : rules.refusal pending = some error
  admitted : ∀ earlier < index, ∀ outer,
    (Rules.unlimited rules.unaryPlus).Enters state tokens earlier outer → rules.refusal outer = none

-- A run under limits is the one without limits, or it fails at the first level that the limits refuse.
theorem run_until_refused (rules : Rules) (state : State) (tokens : List Token) :
    ((∀ index pending, (Rules.unlimited rules.unaryPlus).Enters state tokens index pending →
        rules.refusal pending = none) ∧
      rules.run state tokens = (Rules.unlimited rules.unaryPlus).run state tokens) ∨
    ∃ index pending error, rules.RefusedFirst state tokens index pending error ∧
      rules.run state tokens = .error error := by
  induction tokens generalizing state with
  | nil => exact .inl ⟨fun _ _ entered => (nomatch entered), rfl⟩
  | cons token rest ih =>
      rcases step_limited rules state token with step | ⟨written, after, error, free, deeper, refusal, step⟩
      · have halts (stop : ∀ written after, (Rules.unlimited rules.unaryPlus).step state token ≠ .next written after)
            (index : Nat) (pending : List Pending)
            (entered : (Rules.unlimited rules.unaryPlus).Enters state (token :: rest) index pending) :
            rules.refusal pending = none := by
          obtain ⟨written, after, goesOn⟩ := enters_goes_on entered
          exact absurd goesOn (stop written after)
        cases free : (Rules.unlimited rules.unaryPlus).step state token with
        | done written => exact .inl ⟨halts (by simp [free]), by simp only [Rules.run, step, free]⟩
        | failed error => exact .inl ⟨halts (by simp [free]), by simp only [Rules.run, step, free]⟩
        | next written after =>
            rw [free] at step
            rcases ih after with ⟨admitted, same⟩ | ⟨index, pending, error, first, failed⟩
            · refine .inl ⟨fun index pending entered => ?_, by simp only [Rules.run, step, free, same]⟩
              rcases enters_cons free entered with ⟨-, begins, rfl⟩ | ⟨later, -, inner⟩
              · exact step_level begins step
              · exact admitted later pending inner
            · refine .inr ⟨index + 1, pending, error, ⟨.later free first.entered, first.refused, ?_⟩, ?_⟩
              · intro earlier before outer entered
                rcases enters_cons free entered with ⟨-, begins, rfl⟩ | ⟨later, rfl, inner⟩
                · exact step_level begins step
                · exact first.admitted later (Nat.lt_of_succ_lt_succ before) outer inner
              · exact (failed_later_iff step).mpr failed
      · refine .inr ⟨0, after.pending, error, ⟨.here free (refused_begins step refusal), refusal, ?_⟩, ?_⟩
        · exact fun _ before => absurd before (Nat.not_lt_zero _)
        · simp only [Rules.run, step]

theorem refused_run {error : ParseError} (first : rules.RefusedFirst state tokens index pending error) :
    rules.run state tokens = .error error := by
  rcases run_until_refused rules state tokens with ⟨admitted, -⟩ | ⟨other, outer, stopped, earliest, failed⟩
  · cases (admitted index pending first.entered).symm.trans first.refused
  · rcases Nat.lt_trichotomy index other with before | rfl | after
    · cases (earliest.admitted index before pending first.entered).symm.trans first.refused
    · obtain rfl := enters_unique first.entered earliest.entered
      rw [failed, Option.some.inj (first.refused.symm.trans earliest.refused)]
    · cases (first.admitted other after outer earliest.entered).symm.trans earliest.refused

theorem same_refusals {plus : Bool} {maxDepth : Setting} {first second : Option Nat}
    (same : ∀ index pending, (Rules.unlimited plus).Enters state tokens index pending →
      (Rules.mk maxDepth first plus).refusal pending = (Rules.mk maxDepth second plus).refusal pending) :
    (Rules.mk maxDepth first plus).run state tokens = (Rules.mk maxDepth second plus).run state tokens := by
  rcases run_until_refused ⟨maxDepth, first, plus⟩ state tokens with
    ⟨admitted, free⟩ | ⟨index, pending, error, earliest, failed⟩
  · rcases run_until_refused ⟨maxDepth, second, plus⟩ state tokens with
      ⟨-, alike⟩ | ⟨index, pending, error, earliest, failed⟩
    · rw [free, alike]
    · cases earliest.refused.symm.trans
        ((same index pending earliest.entered).symm.trans (admitted index pending earliest.entered))
  · have alike : (Rules.mk maxDepth second plus).RefusedFirst state tokens index pending error := by
      refine ⟨earliest.entered, (same index pending earliest.entered).symm.trans earliest.refused, ?_⟩
      intro earlier before outer entered
      exact (same earlier outer entered).symm.trans (earliest.admitted earlier before outer entered)
    rw [failed, refused_run alike]

theorem frames_per_level (pending : List Pending) : frames pending ≤ 6 * levels pending := by
  have counted := frames_counted pending
  have within := groups_within pending
  omega

theorem entered_counts (entered : rules.Enters .start tokens index pending) :
    levels pending = openLevels (tokens.take (index + 1)) ∧ frames pending = openFrames (tokens.take (index + 1)) := by
  obtain ⟨written, last, reached, rfl⟩ := entered_reached entered
  have path := reached_path reached
  exact ⟨congrArg Path.levels path, congrArg Path.frames path⟩

theorem opening_stays_open (depth : Int) (operand : Bool) {word : List Token}
    (opened : ∀ token ∈ word, token.kind = .opening) : staysOpen .opening depth operand word = true := by
  induction word generalizing depth operand with
  | nil => rfl
  | cons token rest ih =>
      have kind := opened token List.mem_cons_self
      have later := ih (depth + token.kind.nesting) token.kind.endsOperand
        fun other member => opened other (List.mem_cons_of_mem _ member)
      simp [staysOpen, Kind.endedBy, kind, kind ▸ later]

theorem open_levels_opened {word : List Token} (opened : ∀ token ∈ word, token.kind = .opening) :
    openLevels word = word.length := by
  induction word with
  | nil => rfl
  | cons token rest ih =>
      have later : ∀ other ∈ rest, other.kind = .opening :=
        fun other member => opened other (List.mem_cons_of_mem _ member)
      have kind := opened token List.mem_cons_self
      rw [openLevels, ih later, begunBy, kind, opening_stays_open 0 false later, List.length_cons, Nat.add_comm]
      rfl

def bothLimits (limit : Int) (plus : Bool) : Rules := ⟨.quantity (.whole limit), some frameBound, plus⟩

def FitsBoth (limit : Int) (pending : List Pending) : Prop := levels pending ≤ limit ∧ frames pending < frameBound

def FitsBefore (plus : Bool) (limit : Int) (tokens : List Token) (index : Nat) : Prop :=
  ∀ earlier < index, ∀ outer, (Rules.unlimited plus).Enters .start tokens earlier outer → FitsBoth limit outer

theorem both_limits_refusal (limit : Int) (plus : Bool) (pending : List Pending) :
    (bothLimits limit plus).refusal pending =
      if limit < levels pending then some (.tooDeep (.whole limit))
      else if frameBound ≤ frames pending then some .outOfFrames else none := by
  simp [Rules.refusal, bothLimits, Quantity.exceededBy, Rules.lacksFrames]

theorem both_limits_admit_iff (limit : Int) (plus : Bool) (pending : List Pending) :
    (bothLimits limit plus).refusal pending = none ↔ FitsBoth limit pending := by
  rw [both_limits_refusal, FitsBoth]
  split
  · exact iff_of_false nofun (by omega)
  · split
    · exact iff_of_false nofun (by omega)
    · exact iff_of_true rfl (by omega)

theorem frames_lacking_iff (limit : Int) (plus : Bool) (pending : List Pending) :
    (bothLimits limit plus).refusal pending = some .outOfFrames ↔
      frameBound ≤ frames pending ∧ levels pending ≤ limit := by
  rw [both_limits_refusal]
  split
  · exact iff_of_false nofun (by omega)
  · split
    · exact iff_of_true rfl (by omega)
    · exact iff_of_false nofun (by omega)

theorem low_limit_refusal {limit : Int} (low : 6 * limit < frameBound) (plus : Bool) (pending : List Pending) :
    (bothLimits limit plus).refusal pending = (Rules.mk (.quantity (.whole limit)) none plus).refusal pending := by
  have cost := frames_per_level pending
  rw [both_limits_refusal]
  simp only [Rules.refusal, Quantity.exceededBy, Rules.lacksFrames, decide_eq_true_eq]
  by_cases deep : limit < levels pending
  · rw [if_pos deep, if_pos deep]
  · rw [if_neg deep, if_neg deep, if_neg (by omega)]
    rfl

theorem unlimited_has_frames {plus : Bool} (ends : endsWithFinish tokens = true) :
    (Rules.unlimited plus).run .start tokens ≠ .error .outOfFrames := by
  intro failed
  obtain ⟨token, -, stops⟩ := unlimited_stops plus .start tokens (has_finish ends)
  rw [failed] at stops
  obtain ⟨expected, same⟩ := stops
  cases same

theorem first_misfit {limit : Int} {plus : Bool} {error : ParseError}
    (entered : (Rules.unlimited plus).Enters .start tokens index pending)
    (fits : FitsBefore plus limit tokens index) (refused : (bothLimits limit plus).refusal pending = some error) :
    (bothLimits limit plus).run .start tokens = .error error := by
  refine refused_run ⟨entered, refused, fun earlier before outer inner => ?_⟩
  exact (both_limits_admit_iff limit plus outer).mpr (fits earlier before outer inner)

theorem out_of_frames_iff (limit : Int) (plus : Bool) (ends : endsWithFinish tokens = true) :
    (bothLimits limit plus).run .start tokens = .error .outOfFrames ↔
      ∃ index pending, (Rules.unlimited plus).Enters .start tokens index pending ∧
        FitsBefore plus limit tokens index ∧ frameBound ≤ frames pending ∧ levels pending ≤ limit := by
  constructor
  · intro failed
    rcases run_until_refused (bothLimits limit plus) .start tokens with
      ⟨-, same⟩ | ⟨index, pending, error, first, stopped⟩
    · exact absurd (same.symm.trans failed) (unlimited_has_frames ends)
    · obtain rfl : error = .outOfFrames := Except.error.inj (stopped.symm.trans failed)
      obtain ⟨long, shallow⟩ := (frames_lacking_iff limit plus pending).mp first.refused
      refine ⟨index, pending, first.entered, fun earlier before outer entered => ?_, long, shallow⟩
      exact (both_limits_admit_iff limit plus outer).mp (first.admitted earlier before outer entered)
  · rintro ⟨index, pending, entered, fits, long, shallow⟩
    exact first_misfit entered fits ((frames_lacking_iff limit plus pending).mpr ⟨long, shallow⟩)

-- At a level that exceeds both limits the one on levels is reported. A limit so low that its levels never need all
-- the frames is the only one there is.
theorem frame_limit_decides (request : Number.TypeRequest) (unaryPlus : Setting) (limit : Int) (tokens : List Token)
    (ends : endsWithFinish tokens = true) :
    let free := Rules.unlimited unaryPlus.isTrue
    let outcome := parse ⟨request, .quantity (.whole limit), unaryPlus⟩ tokens
    (∀ index, (∃ pending, free.Enters .start tokens index pending) ↔
      index < free.taken .start tokens ∧ ∃ token, tokens[index]? = some token ∧ token.kind.beginsLevel = true) ∧
    (∀ index pending, free.Enters .start tokens index pending →
      levels pending = openLevels (tokens.take (index + 1)) ∧
        frames pending = openFrames (tokens.take (index + 1))) ∧
    (outcome = .error .outOfFrames ↔
      ∃ index pending, free.Enters .start tokens index pending ∧ FitsBefore unaryPlus.isTrue limit tokens index ∧
        frameBound ≤ frames pending ∧ levels pending ≤ limit) ∧
    (∀ index pending, free.Enters .start tokens index pending → FitsBefore unaryPlus.isTrue limit tokens index →
      limit < levels pending → outcome = .error (.tooDeep (.whole limit))) ∧
    (6 * limit < frameBound →
      outcome ≠ .error .outOfFrames ∧
        outcome = (Rules.mk (.quantity (.whole limit)) none unaryPlus.isTrue).parse tokens) ∧
    ParseError.outOfFrames.message = "nesting exceeds the interpreter recursion limit" ∧
    (ParseError.tooDeep (.whole limit)).message = "max nesting depth of " ++ toString limit ++ " exceeded" := by
  intro free outcome
  have ran : outcome = (bothLimits limit unaryPlus.isTrue).run .start tokens := if_pos ends
  have lacking := out_of_frames_iff limit unaryPlus.isTrue ends
  rw [ran]
  refine ⟨enters_iff free .start tokens, fun _ _ => entered_counts, lacking, ?_, fun low => ⟨?_, ?_⟩, rfl, rfl⟩
  · intro index pending entered fits deep
    refine first_misfit entered fits ?_
    rw [both_limits_refusal, if_pos deep]
  · intro failed
    obtain ⟨index, pending, -, -, long, shallow⟩ := lacking.mp failed
    have cost := frames_per_level pending
    omega
  · have alone : (Rules.mk (.quantity (.whole limit)) none unaryPlus.isTrue).parse tokens =
        (Rules.mk (.quantity (.whole limit)) none unaryPlus.isTrue).run .start tokens := if_pos ends
    rw [alone]
    exact same_refusals fun _ pending _ => low_limit_refusal low unaryPlus.isTrue pending

-- One group more than there are frames for, and nothing in it. A limit of 165 levels allows this group, too; a limit
-- of 164 is exceeded by the same group as the frames.
def manyGroups : List Token := spelled (List.replicate 165 .opening ++ [.finish])

theorem innermost_group_exceeds :
    parse { maxDepth := .quantity (.whole 165) } manyGroups = .error .outOfFrames ∧
      parse { maxDepth := .quantity (.whole 164) } manyGroups = .error (.tooDeep (.whole 164)) ∧
      parse {} manyGroups = (Rules.mk (.quantity (.whole 64)) none true).parse manyGroups := by
  have ends : endsWithFinish manyGroups = true := by decide +kernel
  have opened : ∀ token ∈ manyGroups.take 165, token.kind = .opening := by decide +kernel
  have counted (index : Nat) (before : index < 165) : openLevels (manyGroups.take (index + 1)) = index + 1 := by
    have part : manyGroups.take (index + 1) = (manyGroups.take 165).take (index + 1) := by
      rw [List.take_take, Nat.min_eq_left before]
    have length : manyGroups.length = 166 := by decide +kernel
    rw [part, open_levels_opened fun token member => opened token (List.mem_of_mem_take member), ← part,
      List.length_take, length]
    omega
  have decides (limit : Int) := frame_limit_decides (.floating .double) (.quantity (.flag true)) limit manyGroups ends
  have fits (limit : Int) (room : 164 ≤ limit) : FitsBefore true limit manyGroups 164 := by
    intro index before pending entered
    have same := ((decides limit).2.1 index pending entered).1
    have cost := frames_per_level pending
    rw [counted index (by omega)] at same
    rw [FitsBoth, frameBound]
    omega
  obtain ⟨innermost, entered⟩ : ∃ pending, (Rules.unlimited true).Enters .start manyGroups 164 pending :=
    ((decides 164).1 164).mpr ⟨by decide +kernel, ⟨.opening, ⟨[], 164, 165⟩⟩, by decide +kernel, rfl⟩
  obtain ⟨deep, long⟩ := (decides 164).2.1 164 innermost entered
  rw [counted 164 (by omega)] at deep
  have room : frameBound ≤ frames innermost := by
    have groups : openGroups (manyGroups.take (164 + 1)) = 165 := by decide +kernel
    rw [long, openFrames, groups, frameBound]
    omega
  refine ⟨?_, ?_, ?_⟩
  · exact (decides 165).2.2.1.mpr ⟨164, innermost, entered, fits 165 (by omega), room, by omega⟩
  · exact (decides 164).2.2.2.1 164 innermost entered (fits 164 (by omega)) (by omega)
  · exact ((decides 64).2.2.2.2.1 (by decide)).2

end Reckon
