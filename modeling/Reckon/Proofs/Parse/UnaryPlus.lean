import Reckon.Proofs.Parse.Places

set_option autoImplicit false

namespace Reckon

def Rules.withoutPlus (rules : Rules) : Rules := { rules with unaryPlus := false }

-- A plus of a word that stands before an operand. `operand` tells whether an operand ends right before the word.
structure SignPlus (operand : Bool) (word : List Token) (index : Nat) (token : Token) : Prop where
  found : word[index]? = some token
  plus : token.kind = .plus
  bare : operandAfter operand (word.take index) = false

structure LeftmostSignPlus (operand : Bool) (word : List Token) (index : Nat) (token : Token) : Prop where
  sign : SignPlus operand word index token
  leftmost : ∀ earlier other, SignPlus operand word earlier other → index ≤ earlier

def NoSignPlus (operand : Bool) (word : List Token) : Prop := ∀ index token, ¬ SignPlus operand word index token

theorem sign_plus_later (operand : Bool) (first : Token) (rest : List Token) (index : Nat) (token : Token) :
    SignPlus operand (first :: rest) (index + 1) token ↔ SignPlus first.kind.endsOperand rest index token :=
  ⟨fun sign => ⟨sign.found, sign.plus, sign.bare⟩, fun sign => ⟨sign.found, sign.plus, sign.bare⟩⟩

theorem sign_plus_here (operand : Bool) (first : Token) (rest : List Token) (token : Token) :
    SignPlus operand (first :: rest) 0 token ↔ first = token ∧ token.kind = .plus ∧ operand = false := by
  constructor
  · intro sign
    exact ⟨Option.some.inj sign.found, sign.plus, sign.bare⟩
  · rintro ⟨rfl, plus, bare⟩
    exact ⟨rfl, plus, bare⟩

theorem no_sign_plus_cons {operand : Bool} {first : Token} {rest : List Token}
    (other : ¬ (operand = false ∧ first.kind = .plus)) (later : NoSignPlus first.kind.endsOperand rest) :
    NoSignPlus operand (first :: rest) := by
  intro index token sign
  cases index with
  | zero =>
      obtain ⟨rfl, plus, bare⟩ := (sign_plus_here operand first rest token).mp sign
      exact other ⟨bare, plus⟩
  | succ index => exact later index token ((sign_plus_later operand first rest index token).mp sign)

theorem leftmost_sign_plus_cons {operand : Bool} {first : Token} {rest : List Token} {index : Nat} {token : Token}
    (other : ¬ (operand = false ∧ first.kind = .plus))
    (later : LeftmostSignPlus first.kind.endsOperand rest index token) :
    LeftmostSignPlus operand (first :: rest) (index + 1) token := by
  refine ⟨(sign_plus_later operand first rest index token).mpr later.sign, fun earlier found sign => ?_⟩
  cases earlier with
  | zero =>
      obtain ⟨rfl, plus, bare⟩ := (sign_plus_here operand first rest found).mp sign
      exact absurd ⟨bare, plus⟩ other
  | succ earlier =>
      have least := later.leftmost earlier found ((sign_plus_later operand first rest earlier found).mp sign)
      omega

theorem enter_without_plus (rules : Rules) (pending : List Pending) :
    rules.withoutPlus.enter pending = rules.enter pending := rfl

theorem operand_step_without_plus (rules : Rules) (negated : Bool) (pending : List Pending) (token : Token)
    (other : token.kind ≠ .plus) :
    rules.withoutPlus.operandStep negated pending token = rules.operandStep negated pending token := by
  cases kind : token.kind with
  | plus => exact absurd kind other
  | opening => simp only [Rules.operandStep, kind, enter_without_plus]
  | _ => simp only [Rules.operandStep, kind]

theorem step_without_plus (rules : Rules) (state : State) (token : Token)
    (other : ¬ (state.afterOperand = false ∧ token.kind = .plus)) :
    rules.withoutPlus.step state token = rules.step state token := by
  obtain ⟨⟨negated⟩ | ⟨⟩, pending⟩ := state
  · exact operand_step_without_plus rules negated pending token fun plus => other ⟨rfl, plus⟩
  · cases kind : token.kind with
    | number =>
        simp only [Rules.step, Rules.operatorStep, kind,
          operand_step_without_plus rules false _ token (by simp [kind])]
    | opening =>
        simp only [Rules.step, Rules.operatorStep, kind,
          operand_step_without_plus rules false _ token (by simp [kind])]
    | caret => simp only [Rules.step, Rules.operatorStep, kind, enter_without_plus]
    | _ => simp only [Rules.step, Rules.operatorStep, kind]

theorem step_sign_plus (rules : Rules) (state : State) (token : Token) (bare : state.afterOperand = false)
    (plus : token.kind = .plus) :
    rules.withoutPlus.step state token = .failed (.unexpected token .operand) := by
  obtain ⟨⟨negated⟩ | ⟨⟩, pending⟩ := state
  · simp only [Rules.step, Rules.operandStep, plus, Rules.withoutPlus]
    rfl
  · cases bare

theorem run_without_plus {rules : Rules} {state : State} {tokens : List Token} {items : List Item}
    (ran : rules.run state tokens = .ok items) :
    (rules.withoutPlus.run state tokens = .ok items ∧ NoSignPlus state.afterOperand (beforeFinish tokens)) ∨
      ∃ index token, LeftmostSignPlus state.afterOperand (beforeFinish tokens) index token ∧
        rules.withoutPlus.run state tokens = .error (.unexpected token .operand) := by
  rw [runs_iff] at ran
  induction ran with
  | @ends state token rest items isFinish step =>
      refine .inl ⟨?_, fun index other sign => ?_⟩
      · simp only [Rules.run, step_done step rules.withoutPlus]
      · have found := sign.found
        rw [before_finish_empty token rest isFinish] at found
        cases found
  | @next state token rest written after more unfinished step _ ih =>
      rw [before_finish_cons token rest unfinished]
      by_cases sign : state.afterOperand = false ∧ token.kind = .plus
      · refine .inr ⟨0, token, ⟨⟨rfl, sign.2, sign.1⟩, fun _ _ _ => Nat.zero_le _⟩, ?_⟩
        simp only [Rules.run, step_sign_plus rules state token sign.1 sign.2]
      · have same := (step_without_plus rules state token sign).trans step
        have place := step_place step
        rcases ih with ⟨also, nowhere⟩ | ⟨index, other, leftmost, failed⟩
        · refine .inl ⟨run_next same also, no_sign_plus_cons sign ?_⟩
          rwa [place] at nowhere
        · rw [place] at leftmost
          exact .inr ⟨index + 1, other, leftmost_sign_plus_cons sign leftmost, (failed_later_iff same).mpr failed⟩

theorem run_with_plus {rules : Rules} {state : State} {tokens : List Token} {items : List Item}
    (ran : rules.withoutPlus.run state tokens = .ok items) : rules.run state tokens = .ok items := by
  rw [runs_iff] at ran
  induction ran with
  | ends _ step => simp only [Rules.run, step_done step rules]
  | @next state token rest written after more _ step _ ih =>
      have allowed : ¬ (state.afterOperand = false ∧ token.kind = .plus) := by
        rintro ⟨bare, plus⟩
        cases (step_sign_plus rules state token bare plus).symm.trans step
      exact run_next ((step_without_plus rules state token allowed).symm.trans step) ih

theorem rules_without_plus {strict other : Options} (sameLimit : strict.maxDepth = other.maxDepth)
    (off : strict.unaryPlus.isTrue = false) : strict.rules = other.rules.withoutPlus := by
  simp only [Options.rules, Rules.withoutPlus, sameLimit, off]

theorem sign_plus_message {operand : Bool} {word : List Token} {index : Nat} {token : Token}
    (sign : SignPlus operand word index token) :
    (ParseError.unexpected token .operand).message =
      "unexpected '+' at position " ++ toString token.span.start ++ ": expected a number or '('" := by
  have shown : token.shown = "'+'" := by rw [Token.shown, sign.plus]
  have opening : "unexpected " ++ "'+'" ++ " at position " = "unexpected '+' at position " := by decide
  have ending : ": " ++ Expected.operand.text = ": expected a number or '('" := by decide
  rw [unexpected_message, shown, opening, String.append_assoc, ending]

theorem plus_signs_refused (tokens : List Token) (strict other : Options)
    (sameLimit : strict.maxDepth = other.maxDepth) (off : strict.unaryPlus.isTrue = false) :
    (∀ items, parse strict tokens = .ok items ↔
        parse other tokens = .ok items ∧ NoSignPlus false (beforeFinish tokens)) ∧
      (∀ items error, parse other tokens = .ok items → parse strict tokens = .error error →
        ∃ index token, LeftmostSignPlus false (beforeFinish tokens) index token ∧
          error = .unexpected token .operand ∧
          error.message = "unexpected '+' at position " ++ toString token.span.start ++
            ": expected a number or '('") ∧
      ∀ error, parse other tokens = .error error → ∀ items, parse strict tokens ≠ .ok items := by
  have rules := rules_without_plus sameLimit off
  have grants (items : List Item) (parsed : parse strict tokens = .ok items) : parse other tokens = .ok items := by
    obtain ⟨ends, ran⟩ := parse_ran parsed
    rw [rules] at ran
    rw [parse, Rules.parse, if_pos ends, run_with_plus ran]
  have decided (items : List Item) (parsed : parse other tokens = .ok items) :
      (parse strict tokens = .ok items ∧ NoSignPlus false (beforeFinish tokens)) ∨
        ∃ index token, LeftmostSignPlus false (beforeFinish tokens) index token ∧
          parse strict tokens = .error (.unexpected token .operand) := by
    obtain ⟨ends, ran⟩ := parse_ran parsed
    rw [parse, Rules.parse, if_pos ends, rules]
    exact run_without_plus ran
  refine ⟨fun items => ⟨fun parsed => ?_, fun both => ?_⟩, fun items error parsed failed => ?_, ?_⟩
  · have also := grants items parsed
    rcases decided items also with ⟨-, nowhere⟩ | ⟨index, token, -, failed⟩
    · exact ⟨also, nowhere⟩
    · rw [parsed] at failed
      cases failed
  · obtain ⟨parsed, nowhere⟩ := both
    rcases decided items parsed with ⟨same, -⟩ | ⟨index, token, leftmost, -⟩
    · exact same
    · exact absurd leftmost.sign (nowhere index token)
  · rcases decided items parsed with ⟨same, -⟩ | ⟨index, token, leftmost, stopped⟩
    · rw [failed] at same
      cases same
    · rw [failed, Except.error.injEq] at stopped
      subst stopped
      exact ⟨index, token, leftmost, rfl, sign_plus_message leftmost.sign⟩
  · intro error failed items parsed
    rw [grants items parsed] at failed
    cases failed

-- The tokens of `2+3^(-4+5)`, and of `2+3^(+-4*+5)`, where the first plus is an addition and the next one a sign.
theorem additions_stay_allowed :
    let strict : Options := { unaryPlus := .null }
    let sums := spelled [.number, .plus, .number, .caret, .opening, .minus, .number, .plus, .number, .closing, .finish]
    let signed := spelled [.number, .plus, .number, .caret, .opening, .plus, .minus, .number, .star, .plus, .number,
      .closing, .finish]
    (∃ items, parse strict sums = .ok items ∧ parse {} sums = .ok items) ∧ NoSignPlus false (beforeFinish sums) ∧
      (∃ items, parse {} signed = .ok items) ∧
      ∃ index token, LeftmostSignPlus false (beforeFinish signed) index token ∧ token.span.start = 5 ∧
        parse strict signed = .error (.unexpected token .operand) := by
  intro strict sums signed
  obtain ⟨accepts, -, -⟩ := plus_signs_refused sums strict {} rfl rfl
  obtain ⟨-, refuses, -⟩ := plus_signs_refused signed strict {} rfl rfl
  obtain ⟨items, parsed⟩ : ∃ items, parse strict sums = .ok items := ⟨_, rfl⟩
  obtain ⟨also, nowhere⟩ := (accepts items).mp parsed
  obtain ⟨others, allowed⟩ : ∃ items, parse {} signed = .ok items := ⟨_, rfl⟩
  have failed : parse strict signed = .error (.unexpected ⟨.plus, ⟨[], 5, 6⟩⟩ .operand) := rfl
  obtain ⟨index, token, leftmost, same, -⟩ := refuses others _ allowed failed
  cases same
  exact ⟨⟨items, parsed, also⟩, nowhere, ⟨others, allowed⟩, index, _, leftmost, rfl, failed⟩

end Reckon
