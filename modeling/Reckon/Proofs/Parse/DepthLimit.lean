import Reckon.Proofs.Parse.Limits
import Reckon.Proofs.Parse.OpenLevels

set_option autoImplicit false

namespace Reckon

def Rules.taken (rules : Rules) (state : State) : List Token → Nat
  | [] => 0
  | token :: rest =>
      match rules.step state token with
      | .next _ after => rules.taken after rest + 1
      | .done _ => 0
      | .failed _ => 0

def StopsAtToken (outcome : Except ParseError (List Item)) (token : Token) : Prop :=
  match outcome with
  | .ok _ => token.kind = .finish
  | .error error => ∃ expected, error = .unexpected token expected

theorem peak_bounds_taken (rules : Rules) (measure : List Pending → Nat) (state : State) (tokens : List Token)
    (index : Nat) (read : index ≤ rules.taken state tokens) :
    ∃ written last, rules.Reaches state (tokens.take index) written last ∧
      measure last.pending ≤ rules.peak measure state tokens := by
  induction tokens generalizing state index with
  | nil => exact ⟨[], state, by rw [List.take_nil]; exact .here, Nat.le_refl _⟩
  | cons token rest ih =>
      cases index with
      | zero => exact ⟨[], state, .here, peak_here rules measure state (token :: rest)⟩
      | succ index =>
          cases step : rules.step state token with
          | next written after =>
              simp only [Rules.taken, step, Nat.add_le_add_iff_right] at read
              obtain ⟨more, last, reached, bound⟩ := ih after index read
              refine ⟨written ++ more, last, .next step reached, ?_⟩
              simp only [Rules.peak, step]
              exact Nat.le_trans bound (Nat.le_max_right _ _)
          | done written => simp [Rules.taken, step] at read
          | failed error => simp [Rules.taken, step] at read

theorem peak_taken (rules : Rules) (measure : List Pending → Nat) (state : State) (tokens : List Token) :
    ∃ index ≤ rules.taken state tokens, ∃ written last, rules.Reaches state (tokens.take index) written last ∧
      measure last.pending = rules.peak measure state tokens := by
  induction tokens generalizing state with
  | nil => exact ⟨0, Nat.le_refl _, [], state, .here, rfl⟩
  | cons token rest ih =>
      cases step : rules.step state token with
      | next written after =>
          obtain ⟨index, read, more, last, reached, highest⟩ := ih after
          simp only [Rules.peak, Rules.taken, step]
          by_cases here : rules.peak measure after rest ≤ measure state.pending
          · exact ⟨0, Nat.zero_le _, [], state, .here, (Nat.max_eq_left here).symm⟩
          · refine ⟨index + 1, Nat.succ_le_succ read, written ++ more, last, .next step reached, ?_⟩
            rw [highest, Nat.max_eq_right (Nat.le_of_not_le here)]
      | done written =>
          simp only [Rules.peak, step]
          exact ⟨0, Nat.zero_le _, [], state, .here, rfl⟩
      | failed error =>
          simp only [Rules.peak, step]
          exact ⟨0, Nat.zero_le _, [], state, .here, rfl⟩

theorem unlimited_failed {plus : Bool} {state : State} {token : Token} {error : ParseError}
    (failed : (Rules.unlimited plus).step state token = .failed error) :
    ∃ expected, error = .unexpected token expected := by
  cases step_fault _ state token error failed with
  | unexpected expected => exact ⟨expected, rfl⟩
  | refused level refusal =>
      rw [(refusal_none_iff _ _).mpr (unlimited_admits plus _)] at refusal
      cases refusal

theorem unlimited_stops (plus : Bool) (state : State) (tokens : List Token)
    (finish : ∃ token ∈ tokens, token.kind = .finish) :
    ∃ token, tokens[(Rules.unlimited plus).taken state tokens]? = some token ∧
      StopsAtToken ((Rules.unlimited plus).run state tokens) token := by
  induction tokens generalizing state with
  | nil => simp at finish
  | cons token rest ih =>
      cases step : (Rules.unlimited plus).step state token with
      | done written =>
          simp only [Rules.taken, Rules.run, step]
          exact ⟨token, rfl, (step_done_finish step).1⟩
      | failed error =>
          simp only [Rules.taken, Rules.run, step]
          exact ⟨token, rfl, unlimited_failed step⟩
      | next written after =>
          obtain ⟨stop, found, stops⟩ := ih after (finish_later step finish)
          simp only [Rules.taken, Rules.run, step]
          refine ⟨stop, found, ?_⟩
          generalize (Rules.unlimited plus).run after rest = outcome at stops
          cases outcome <;> exact stops

theorem refusal_whole {rules : Rules} {limit : Int} {pending : List Pending} {error : ParseError}
    (isLimit : rules.maxDepth = .quantity (.whole limit)) (deeper : 0 < levels pending)
    (refused : rules.refusal pending = some error) :
    error = .outOfFrames ∨ error = .tooDeep (.whole limit) ∧ max limit 0 < levels pending := by
  simp only [Rules.refusal, isLimit, Quantity.exceededBy, decide_eq_true_eq] at refused
  by_cases past : limit < levels pending
  · rw [if_pos past] at refused
    exact .inr ⟨(Option.some.inj refused).symm, by omega⟩
  · rw [if_neg past] at refused
    split at refused
    · exact .inl (Option.some.inj refused).symm
    · cases refused

theorem step_shallow {rules : Rules} {limit : Int} {state after : State} {token : Token} {written : List Item}
    (isLimit : rules.maxDepth = .quantity (.whole limit)) (step : rules.step state token = .next written after)
    (shallow : levels state.pending ≤ max limit 0) : levels after.pending ≤ max limit 0 := by
  rcases step_next step with ⟨-, admitted, -⟩ | ⟨within, -⟩
  · obtain ⟨⟨quantity, same, fits⟩, -⟩ := admitted
    rw [isLimit] at same
    cases same
    have bound : ¬ limit < levels after.pending := of_decide_eq_false fits
    omega
  · have fewer : levels after.pending ≤ levels state.pending := within.1
    omega

theorem run_limited_to {rules : Rules} {limit : Int} (isLimit : rules.maxDepth = .quantity (.whole limit))
    (state : State) (tokens : List Token) (shallow : levels state.pending ≤ max limit 0) :
    rules.run state tokens = .error .outOfFrames ∨
      rules.run state tokens =
        if max limit 0 < (Rules.unlimited rules.unaryPlus).peak levels state tokens
        then .error (.tooDeep (.whole limit)) else (Rules.unlimited rules.unaryPlus).run state tokens := by
  induction tokens generalizing state with
  | nil =>
      refine .inr ?_
      rw [if_neg (by simp only [Rules.peak]; omega)]
      rfl
  | cons token rest ih =>
      rcases step_limited rules state token with step | ⟨written, after, error, free, deeper, refusal, step⟩
      · cases free : (Rules.unlimited rules.unaryPlus).step state token with
        | done written =>
            simp only [Rules.run, Rules.peak, step, free]
            exact .inr (by rw [if_neg (by omega)])
        | failed error =>
            simp only [Rules.run, Rules.peak, step, free]
            exact .inr (by rw [if_neg (by omega)])
        | next written after =>
            rw [free] at step
            simp only [Rules.run, Rules.peak, step, free]
            rcases ih after (step_shallow isLimit step shallow) with frames | goesOn
            · exact .inl (by rw [frames]; rfl)
            · refine .inr ?_
              rw [goesOn]
              by_cases past : max limit 0 < (Rules.unlimited rules.unaryPlus).peak levels after rest
              · rw [if_pos past, if_pos (by omega)]
                rfl
              · rw [if_neg past, if_neg (by omega)]
      · simp only [Rules.run, Rules.peak, step, free]
        rcases refusal_whole isLimit deeper refusal with same | ⟨same, past⟩
        · exact .inl (congrArg Except.error same)
        · have highest := peak_here (Rules.unlimited rules.unaryPlus) levels after rest
          refine .inr ?_
          rw [if_pos (by omega), same]

-- The most levels that are open up to where a parse without limits stops decide what a limit does, also where the
-- tokens are at fault themselves.
theorem depth_limit_decides (unaryPlus : Setting) (tokens : List Token) (ends : endsWithFinish tokens = true) :
    let free := Rules.unlimited unaryPlus.isTrue
    let stop := free.taken .start tokens
    ∃ deepest : Nat,
      (∃ token, tokens[stop]? = some token ∧ StopsAtToken (free.parse tokens) token) ∧
      (∀ index ≤ stop, openLevels (tokens.take index) ≤ deepest) ∧
      (∃ index ≤ stop, openLevels (tokens.take index) = deepest) ∧
      ∀ (request : Number.TypeRequest) (limit : Int),
        parse ⟨request, .quantity (.whole limit), unaryPlus⟩ tokens ≠ .error .outOfFrames →
        (parse ⟨request, .quantity (.whole limit), unaryPlus⟩ tokens = .error (.tooDeep (.whole limit)) ↔
          max limit 0 < deepest) ∧
        (¬ max limit 0 < deepest →
          parse ⟨request, .quantity (.whole limit), unaryPlus⟩ tokens = free.parse tokens) ∧
        (ParseError.tooDeep (.whole limit)).message =
          "max nesting depth of " ++ toString limit ++ " exceeded" := by
  intro free stop
  have parsed : free.parse tokens = free.run .start tokens := if_pos ends
  obtain ⟨token, found, stops⟩ := unlimited_stops unaryPlus.isTrue .start tokens (has_finish ends)
  refine ⟨free.peak levels .start tokens, ⟨token, found, by rwa [parsed]⟩, ?_, ?_, ?_⟩
  · intro index read
    obtain ⟨written, last, reached, bound⟩ := peak_bounds_taken free levels .start tokens index read
    rwa [← reached_levels reached]
  · obtain ⟨index, read, written, last, reached, highest⟩ := peak_taken free levels .start tokens
    exact ⟨index, read, by rw [← reached_levels reached, highest]⟩
  · intro request limit frames
    let options : Options := ⟨request, .quantity (.whole limit), unaryPlus⟩
    have ran : parse options tokens = options.rules.run .start tokens := if_pos ends
    have shallow : (levels State.start.pending : Int) ≤ max limit 0 := Int.le_max_right limit 0
    have outcome : parse options tokens =
        if max limit 0 < free.peak levels .start tokens then .error (.tooDeep (.whole limit))
        else free.parse tokens := by
      rw [parsed, ran]
      have isLimit : options.rules.maxDepth = .quantity (.whole limit) := rfl
      exact (run_limited_to isLimit .start tokens shallow).resolve_left (ran ▸ frames)
    refine ⟨?_, ?_, rfl⟩
    · rw [outcome]
      by_cases past : max limit 0 < free.peak levels .start tokens
      · rw [if_pos past]
        exact iff_of_true rfl past
      · rw [if_neg past]
        refine iff_of_false ?_ past
        intro tooDeep
        rw [← parsed, tooDeep] at stops
        obtain ⟨expected, same⟩ := stops
        cases same
    · intro within
      rw [outcome, if_neg within]

-- The tokens of `(1)(1)2^(3^4)5)*`. Three levels are open in the second exponent, and none of the groups before
-- them is; the closing that nothing opened comes later than the limit.
def closedGroups : List Token :=
  spelled [.opening, .number, .closing, .opening, .number, .closing, .number, .caret, .opening, .number, .caret,
    .number, .closing, .number, .closing, .star, .finish]

theorem closed_groups_do_not_count :
    parse { maxDepth := .quantity (.whole 2) } closedGroups = .error (.tooDeep (.whole 2)) ∧
      parse { maxDepth := .quantity (.whole 3) } closedGroups = (Rules.unlimited true).parse closedGroups ∧
      parse { maxDepth := .quantity (.whole (-1)) } closedGroups = .error (.tooDeep (.whole (-1))) := by
  obtain ⟨deepest, -, bounds, ⟨index, read, highest⟩, decides⟩ :=
    depth_limit_decides (.quantity (.flag true)) closedGroups (by decide)
  have fourteen : (Rules.unlimited (Setting.quantity (.flag true)).isTrue).taken .start closedGroups = 14 := rfl
  rw [fourteen] at bounds read
  have least : 3 ≤ deepest := bounds 11 (by decide)
  have most : deepest ≤ 3 := by
    have few : ∀ index < 15, openLevels (closedGroups.take index) ≤ 3 := by decide
    rw [← highest]
    exact few index (Nat.lt_succ_of_le read)
  have low := decides (.floating .double) 2 (by intro frames; cases frames)
  have enough := decides (.floating .double) 3 (by intro frames; cases frames)
  have negative := decides (.floating .double) (-1) (by intro frames; cases frames)
  exact ⟨low.1.mpr (by omega), enough.2.1 (by omega), negative.1.mpr (by omega)⟩

end Reckon
