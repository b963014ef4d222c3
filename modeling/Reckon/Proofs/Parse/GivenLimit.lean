import Reckon.Proofs.Number.Nearest
import Reckon.Proofs.Parse.FrameLimit

set_option autoImplicit false

namespace Reckon

open Number (TypeRequest Value twoTo two_to_pos two_to_split)

def Setting.refuses (limit : Setting) (count : Nat) : Bool :=
  match limit with
  | .quantity most => most.exceededBy count
  | _ => true

def Setting.report (limit : Setting) : ParseError :=
  match limit with
  | .quantity most => .tooDeep most
  | other => .incomparable other

def tooDeepAs (report : ParseError) : ParseError → ParseError
  | .noFinish => .noFinish
  | .unexpected token expected => .unexpected token expected
  | .tooDeep _ => report
  | .incomparable limit => .incomparable limit
  | .outOfFrames => .outOfFrames

def Step.mapError (change : ParseError → ParseError) : Step → Step
  | .next written state => .next written state
  | .done written => .done written
  | .failed error => .failed (change error)

variable {rules : Rules} {state : State} {token : Token} {tokens : List Token}

theorem setting_refusal (rules : Rules) (pending : List Pending) :
    rules.refusal pending =
      if rules.maxDepth.refuses (levels pending) then some rules.maxDepth.report
      else if rules.lacksFrames pending then some .outOfFrames else none := by
  obtain ⟨maxDepth, bound, plus⟩ := rules
  cases maxDepth <;> rfl

theorem step_guarded (rules : Rules) (state : State) (token : Token) :
    (rules.step state token = (Rules.unlimited rules.unaryPlus).step state token ∧
      ∀ written after, (Rules.unlimited rules.unaryPlus).step state token = .next written after →
        token.kind.beginsLevel = true → rules.refusal after.pending = none) ∨
    ∃ written after error, (Rules.unlimited rules.unaryPlus).step state token = .next written after ∧
      token.kind.beginsLevel = true ∧ 0 < levels after.pending ∧ rules.refusal after.pending = some error ∧
      rules.step state token = .failed error := by
  rcases step_limited rules state token with same | ⟨written, after, error, free, deeper, refusal, step⟩
  · refine .inl ⟨same, fun written after goesOn begins => ?_⟩
    exact step_level begins (same.trans goesOn)
  · exact .inr ⟨written, after, error, free, refused_begins step refusal, deeper, refusal, step⟩

theorem step_without_level (rules : Rules) (state : State) (flat : token.kind.beginsLevel = false) :
    rules.step state token = (Rules.unlimited rules.unaryPlus).step state token := by
  rcases step_guarded rules state token with ⟨same, -⟩ | ⟨_, _, _, -, begins, -⟩
  · exact same
  · rw [flat] at begins
    cases begins

-- Two limits refuse the same numbers of levels. No level is number zero.
def Setting.RefusesAs (limit other : Setting) : Prop :=
  ∀ count, 0 < count → limit.refuses count = other.refuses count

section Alike

variable {limit : Setting} {most : Quantity} (bound : Option Nat) (plus : Bool)

theorem refusal_alike (alike : limit.RefusesAs (.quantity most)) {pending : List Pending}
    (deeper : 0 < levels pending) :
    (Rules.mk limit bound plus).refusal pending =
      ((Rules.mk (.quantity most) bound plus).refusal pending).map (tooDeepAs limit.report) := by
  rw [setting_refusal, setting_refusal]
  simp only [alike _ deeper]
  split
  · rfl
  · change (if (Rules.mk (.quantity most) bound plus).lacksFrames pending then _ else _) = _
    split <;> rfl

theorem unlimited_reported (report : ParseError) (state : State) (token : Token) :
    ((Rules.unlimited plus).step state token).mapError (tooDeepAs report) =
      (Rules.unlimited plus).step state token := by
  cases step : (Rules.unlimited plus).step state token with
  | next written after => rfl
  | done written => rfl
  | failed error =>
      obtain ⟨expected, rfl⟩ := unlimited_failed step
      rfl

theorem step_alike_limits (alike : limit.RefusesAs (.quantity most)) (state : State) (token : Token) :
    (Rules.mk limit bound plus).step state token =
      ((Rules.mk (.quantity most) bound plus).step state token).mapError (tooDeepAs limit.report) := by
  rcases step_guarded ⟨.quantity most, bound, plus⟩ state token with
    ⟨same, admitted⟩ | ⟨written, after, error, free, begins, deeper, refused, failed⟩
  · rcases step_guarded ⟨limit, bound, plus⟩ state token with
      ⟨also, -⟩ | ⟨written, after, error, free, begins, deeper, refused, -⟩
    · rw [also, same, unlimited_reported plus]
    · rw [refusal_alike bound plus alike deeper, admitted written after free begins] at refused
      cases refused
  · rcases step_guarded ⟨limit, bound, plus⟩ state token with
      ⟨-, admitted⟩ | ⟨_, other, fault, also, -, -, refusal, failure⟩
    · have refusal := admitted written after free begins
      rw [refusal_alike bound plus alike deeper, refused] at refusal
      cases refusal
    · cases free.symm.trans also
      rw [refusal_alike bound plus alike deeper, refused] at refusal
      rw [failure, failed, Step.mapError, Option.some.inj refusal]

theorem run_alike_limits (alike : limit.RefusesAs (.quantity most)) (state : State) (tokens : List Token) :
    (Rules.mk limit bound plus).run state tokens =
      ((Rules.mk (.quantity most) bound plus).run state tokens).mapError (tooDeepAs limit.report) := by
  induction tokens generalizing state with
  | nil => rfl
  | cons token rest ih =>
      rw [Rules.run, Rules.run, step_alike_limits bound plus alike]
      cases (Rules.mk (.quantity most) bound plus).step state token with
      | next written after =>
          simp only [Step.mapError, ih after]
          cases (Rules.mk (.quantity most) bound plus).run after rest <;> rfl
      | done written => rfl
      | failed error => rfl

theorem parse_alike_limits (alike : limit.RefusesAs (.quantity most)) (request : TypeRequest) (unaryPlus : Setting)
    (tokens : List Token) :
    parse ⟨request, limit, unaryPlus⟩ tokens =
      (parse ⟨request, .quantity most, unaryPlus⟩ tokens).mapError (tooDeepAs limit.report) := by
  rw [parse, parse, Rules.parse, Rules.parse]
  by_cases ends : endsWithFinish tokens = true
  · rw [if_pos ends, if_pos ends]
    exact run_alike_limits (some frameBound) unaryPlus.isTrue alike .start tokens
  · rw [if_neg ends, if_neg ends]
    rfl

end Alike

def finiteAmount (negative : Bool) (significand : Nat) (exponent : Int) : ℚ :=
  (if negative then -1 else 1) * (significand * 2 ^ exponent)

theorem exceeds_finite_iff (count : Nat) (negative : Bool) (significand : Nat) (exponent : Int) :
    exceedsFinite count negative significand exponent = true ↔ finiteAmount negative significand exponent < count := by
  have unit : (0 : ℚ) < twoTo (-exponent).toNat := by exact_mod_cast two_to_pos _
  cases negative with
  | false =>
      rw [exceedsFinite, if_neg Bool.false_ne_true, decide_eq_true_iff, finiteAmount, if_neg Bool.false_ne_true,
        one_mul, ← two_to_split, mul_div_assoc', div_lt_iff₀ unit]
      norm_cast
  | true =>
      rw [exceedsFinite, if_pos rfl, finiteAmount, if_pos rfl]
      by_cases zero : significand = 0
      · simp [zero, Nat.pos_iff_ne_zero]
      · have some : (0 : ℚ) < significand := by exact_mod_cast Nat.pos_of_ne_zero zero
        have below : -1 * ((significand : ℚ) * 2 ^ exponent) < 0 := by
          rw [neg_one_mul, neg_lt_zero]
          positivity
        refine iff_of_true (by simp [zero]) (lt_of_lt_of_le below ?_)
        exact_mod_cast Nat.zero_le count

theorem real_refuses_floor (negative : Bool) (significand : Nat) (exponent : Int) :
    (Setting.quantity (.real (.finite negative significand exponent))).RefusesAs
      (.quantity (.whole ⌊finiteAmount negative significand exponent⌋)) := by
  intro count _
  apply Bool.eq_iff_iff.mpr
  simp only [Setting.refuses, Quantity.exceededBy, decide_eq_true_eq]
  rw [exceeds_finite_iff, Int.floor_lt, Int.cast_natCast]

def Quantity.Negative : Quantity → Prop
  | .flag _ => False
  | .whole value => value < 0
  | .real .nan => False
  | .real (.infinite negative) => negative = true
  | .real (.finite negative significand _) => negative = true ∧ significand ≠ 0

theorem negative_refuses_all {most : Quantity} (negative : most.Negative) :
    (Setting.quantity most).RefusesAs (.quantity (.whole 0)) := by
  intro count deeper
  have zero : (Setting.quantity (.whole 0)).refuses count = true := decide_eq_true (Int.natCast_pos.mpr deeper)
  rw [zero]
  cases most with
  | flag value => exact negative.elim
  | whole value => exact decide_eq_true (Int.lt_of_lt_of_le negative (Int.natCast_nonneg count))
  | real value =>
      cases value with
      | nan => exact negative.elim
      | infinite sign => exact negative
      | finite sign significand exponent =>
          obtain ⟨rfl, nonzero⟩ := negative
          simp [Setting.refuses, Quantity.exceededBy, exceedsFinite, nonzero]

theorem flag_refuses_whole (flag : Bool) :
    (Setting.quantity (.flag flag)).RefusesAs (.quantity (.whole (if flag then 1 else 0))) := by
  intro count _
  apply decide_eq_decide.mpr
  cases flag with
  | false => exact Int.natCast_pos.symm
  | true => exact Int.ofNat_lt.symm

theorem incomparable_refuses_all {limit : Setting} (noQuantity : ∀ most, limit ≠ .quantity most) :
    limit.RefusesAs (.quantity (.whole 0)) ∧ limit.report = .incomparable limit := by
  cases limit with
  | quantity most => exact absurd rfl (noQuantity most)
  | _ => exact ⟨fun count deeper => (decide_eq_true (Int.natCast_pos.mpr deeper)).symm, rfl⟩

theorem zero_has_frames (plus : Bool) (ends : endsWithFinish tokens = true) :
    (bothLimits 0 plus).run .start tokens ≠ .error .outOfFrames := by
  intro failed
  obtain ⟨index, pending, -, -, long, shallow⟩ := (out_of_frames_iff 0 plus ends).mp failed
  have cost := frames_per_level pending
  rw [frameBound] at long
  omega

variable {other : Rules}

theorem run_without_levels (samePlus : other.unaryPlus = rules.unaryPlus) (state : State)
    (flat : ∀ token ∈ tokens, token.kind.beginsLevel = false) : other.run state tokens = rules.run state tokens := by
  induction tokens generalizing state with
  | nil => rfl
  | cons token rest ih =>
      have here := flat token List.mem_cons_self
      rw [Rules.run, Rules.run, step_without_level other state here, step_without_level rules state here, samePlus]
      cases (Rules.unlimited rules.unaryPlus).step state token with
      | next written after => simp only [ih after fun later member => flat later (List.mem_cons_of_mem token member)]
      | done written => rfl
      | failed error => rfl

theorem step_report (samePlus : other.unaryPlus = rules.unaryPlus) {reported : Token} {expected : Expected}
    (failed : rules.step state token = .failed (.unexpected reported expected)) :
    other.step state token = .failed (.unexpected reported expected) := by
  have free : (Rules.unlimited rules.unaryPlus).step state token = .failed (.unexpected reported expected) := by
    rcases step_guarded rules state token with ⟨same, -⟩ | ⟨_, _, error, -, -, -, refused, stopped⟩
    · exact same.symm.trans failed
    · cases failed.symm.trans stopped
      exact (refusal_of_limit refused).elim
  rcases step_guarded other state token with ⟨same, -⟩ | ⟨_, _, _, goesOn, -⟩
  · rw [same, samePlus, free]
  · rw [samePlus, free] at goesOn
    cases goesOn

theorem report_before_levels (samePlus : other.unaryPlus = rules.unaryPlus) {reported : Token} {expected : Expected}
    (flat : ∀ earlier ∈ tokens.take (rules.taken state tokens), earlier.kind.beginsLevel = false)
    (failed : rules.run state tokens = .error (.unexpected reported expected)) :
    other.run state tokens = .error (.unexpected reported expected) := by
  induction tokens generalizing state with
  | nil => cases failed
  | cons token rest ih =>
      cases step : rules.step state token with
      | done written => simp [Rules.run, step] at failed
      | failed error =>
          rw [Rules.run, step] at failed
          cases failed
          rw [Rules.run, step_report samePlus step]
      | next written after =>
          rw [taken_next step, List.take_succ_cons] at flat
          have here := flat token List.mem_cons_self
          have alike : other.step state token = .next written after := by
            rw [step_without_level other state here, samePlus, ← step_without_level rules state here, step]
          apply (failed_later_iff alike).mpr
          apply ih
          · exact fun earlier member => flat earlier (List.mem_cons_of_mem token member)
          · exact (failed_later_iff step).mp failed

-- Every limit does what some whole number does in its place; only the report of a level that is refused is its own.
theorem given_limit_decides (request : TypeRequest) (unaryPlus : Setting) (tokens : List Token)
    (ends : endsWithFinish tokens = true) :
    let outcome (limit : Setting) := parse ⟨request, limit, unaryPlus⟩ tokens
    let whole (limit : Int) := outcome (.quantity (.whole limit))
    let taken (limit : Setting) := (Options.mk request limit unaryPlus).rules.taken .start tokens
    (∀ negative significand exponent,
      let real : Quantity := .real (.finite negative significand exponent)
      outcome (.quantity real) =
        (whole ⌊finiteAmount negative significand exponent⌋).mapError (tooDeepAs (.tooDeep real))) ∧
    (∀ most : Quantity, most.Negative →
      outcome (.quantity most) = (whole 0).mapError (tooDeepAs (.tooDeep most))) ∧
    (∀ flag : Bool,
      outcome (.quantity (.flag flag)) = (whole (if flag then 1 else 0)).mapError (tooDeepAs (.tooDeep (.flag flag)))) ∧
    (∀ most : Quantity,
      (ParseError.tooDeep most).message = "max nesting depth of " ++ most.shown ++ " exceeded") ∧
    (∀ limit : Setting, (∀ most, limit ≠ .quantity most) →
      outcome limit = (whole 0).mapError (tooDeepAs (.incomparable limit)) ∧
        (ParseError.incomparable limit).message =
          "'>' not supported between instances of 'int' and '" ++ limit.typeName ++ "'") ∧
    whole 0 ≠ .error .outOfFrames ∧
    (∀ limit other : Setting, (∀ token ∈ tokens, token.kind.beginsLevel = false) → outcome limit = outcome other) ∧
    ∀ (limit other : Setting) (token : Token) (expected : Expected),
      (∀ earlier ∈ tokens.take (taken other), earlier.kind.beginsLevel = false) →
      outcome other = .error (.unexpected token expected) → outcome limit = .error (.unexpected token expected) := by
  intro outcome whole taken
  have ran (limit : Setting) : outcome limit = (Options.mk request limit unaryPlus).rules.run .start tokens :=
    if_pos ends
  have samePlus (limit other : Setting) : (Options.mk request limit unaryPlus).rules.unaryPlus =
      (Options.mk request other unaryPlus).rules.unaryPlus := rfl
  refine ⟨?_, ?_, ?_, fun most => rfl, ?_, ?_, ?_, ?_⟩
  · intro negative significand exponent real
    exact parse_alike_limits (real_refuses_floor negative significand exponent) request unaryPlus tokens
  · intro most negative
    exact parse_alike_limits (negative_refuses_all negative) request unaryPlus tokens
  · intro flag
    exact parse_alike_limits (flag_refuses_whole flag) request unaryPlus tokens
  · intro limit noQuantity
    obtain ⟨alike, report⟩ := incomparable_refuses_all noQuantity
    refine ⟨?_, rfl⟩
    rw [← report]
    exact parse_alike_limits alike request unaryPlus tokens
  · rw [show whole 0 = _ from ran _]
    exact zero_has_frames unaryPlus.isTrue ends
  · intro limit other flat
    rw [ran limit, ran other]
    exact run_without_levels (samePlus limit other) .start flat
  · intro limit other token expected flat failed
    rw [ran other] at failed
    rw [ran limit]
    exact report_before_levels (samePlus limit other) flat failed

-- The tokens of `2*(3^4)` and of `1+)(2`. A limit of 1.5 levels refuses the power in the group and says so; nothing is
-- no limit to compare with, but the closing comes before the first level.
theorem fraction_and_nothing_as_limits :
    let product := spelled [.number, .star, .opening, .number, .caret, .number, .closing, .finish]
    let broken := spelled [.number, .plus, .closing, .opening, .number, .finish]
    let fraction : Quantity := .real (.finite false (3 * 2 ^ 51) (-52))
    parse { maxDepth := .quantity fraction } product = .error (.tooDeep fraction) ∧
      (ParseError.tooDeep fraction).message = "max nesting depth of 1.5 exceeded" ∧
      parse { maxDepth := .null } product = .error (.incomparable .null) ∧
      parse { maxDepth := .null } broken = .error (.unexpected ⟨.closing, ⟨[], 2, 3⟩⟩ .operand) := by
  intro product broken fraction
  obtain ⟨floor, -, -, message, nothing, -⟩ := given_limit_decides (.floating .double) (.quantity (.flag true)) product rfl
  obtain ⟨-, -, -, -, -, -, -, report⟩ := given_limit_decides (.floating .double) (.quantity (.flag true)) broken rfl
  have below : ⌊finiteAmount false (3 * 2 ^ 51) (-52)⌋ = 1 := by norm_num [finiteAmount, Int.floor_eq_iff]
  refine ⟨?_, ?_, ?_, ?_⟩
  · apply (floor false (3 * 2 ^ 51) (-52)).trans
    simp only [below]
    rfl
  · rw [message]
    decide +kernel
  · exact (nothing .null nofun).1
  · exact report .null (.quantity (.whole 64)) _ _ (by decide) rfl

end Reckon
