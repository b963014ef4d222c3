import Reckon.Proofs.Parse.Acceptance

set_option autoImplicit false

namespace Reckon

def ParseError.Blames : ParseError → Token → Prop
  | .noFinish, _ => False
  | .unexpected reported _, token => reported = token
  | .tooDeep _, token => token.kind = .opening ∨ token.kind = .caret
  | .incomparable _, token => token.kind = .opening ∨ token.kind = .caret
  | .outOfFrames, token => token.kind = .opening ∨ token.kind = .caret

inductive Rules.Reaches (rules : Rules) : State → List Token → List Item → State → Prop
  | here {state : State} : Rules.Reaches rules state [] [] state
  | next {state after last : State} {token : Token} {rest : List Token} {written more : List Item}
      (step : rules.step state token = .next written after)
      (reached : Rules.Reaches rules after rest more last) :
      Rules.Reaches rules state (token :: rest) (written ++ more) last

theorem run_reached {rules : Rules} {state last : State} {before : List Token} {written : List Item}
    (reached : rules.Reaches state before written last) (rest : List Token) :
    rules.run state (before ++ rest) = (rules.run last rest).map (written ++ ·) := by
  induction reached with
  | here => exact (map_nothing _).symm
  | next step _ ih => simp only [List.cons_append, Rules.run, step, ih, map_written]

inductive Rules.Faults (rules : Rules) (token : Token) : ParseError → Prop
  | unexpected (expected : Expected) : Rules.Faults rules token (.unexpected token expected)
  | refused {pending : List Pending} {error : ParseError} (level : token.kind = .opening ∨ token.kind = .caret)
      (refusal : rules.refusal pending = some error) : Rules.Faults rules token error

theorem refusal_cases {rules : Rules} {pending : List Pending} {error : ParseError}
    (refused : rules.refusal pending = some error) :
    (∃ limit, rules.maxDepth = .quantity limit ∧ (error = .tooDeep limit ∨ error = .outOfFrames)) ∨
      (∀ limit, rules.maxDepth ≠ .quantity limit) ∧ error = .incomparable rules.maxDepth := by
  cases setting : rules.maxDepth with
  | quantity limit =>
      simp only [Rules.refusal, setting] at refused
      refine .inl ⟨limit, rfl, ?_⟩
      split at refused
      · exact .inl (Option.some.inj refused).symm
      · split at refused
        · exact .inr (Option.some.inj refused).symm
        · cases refused
  | _ =>
      simp only [Rules.refusal, setting, Option.some.injEq] at refused
      refine .inr ⟨fun limit same => ?_, refused.symm⟩
      cases same

theorem refusal_blames {rules : Rules} {pending : List Pending} {token : Token} {error : ParseError}
    (level : token.kind = .opening ∨ token.kind = .caret) (refused : rules.refusal pending = some error) :
    error.Blames token := by
  rcases refusal_cases refused with ⟨limit, -, rfl | rfl⟩ | ⟨-, rfl⟩ <;> exact level

theorem fault_blames {rules : Rules} {token : Token} {error : ParseError} (fault : rules.Faults token error) :
    error.Blames token := by
  cases fault with
  | unexpected expected => rfl
  | refused level refusal => exact refusal_blames level refusal

theorem stop_fault {rules : Rules} {state : State} {token : Token} {error : ParseError}
    (stop : rules.Stop token state error) : rules.Faults token error := by
  induction stop with
  | stray _ => exact .unexpected _
  | group opens refused => exact .refused (.inl opens) refused
  | power isCaret refused => exact .refused (.inr isCaret) refused
  | product _ _ ih => exact ih
  | unopened _ _ => exact .unexpected _
  | unclosed _ _ => exact .unexpected _

theorem step_fault (rules : Rules) (state : State) (token : Token) (error : ParseError)
    (failed : rules.step state token = .failed error) : rules.Faults token error :=
  stop_fault (step_failed_iff.mp failed)

theorem step_failed (rules : Rules) (state : State) (token : Token) (error : ParseError)
    (failed : rules.step state token = .failed error) : error.Blames token :=
  fault_blames (step_fault rules state token error failed)

theorem run_failed (rules : Rules) (state : State) (tokens : List Token) (error : ParseError)
    (finish : ∃ token ∈ tokens, token.kind = .finish) (failed : rules.run state tokens = .error error) :
    ∃ before token rest written last, tokens = before ++ token :: rest ∧
      rules.Reaches state before written last ∧ rules.step last token = .failed error := by
  induction tokens generalizing state with
  | nil => simp at finish
  | cons token rest ih =>
      cases step : rules.step state token with
      | failed other =>
          obtain rfl : other = error := by simpa [Rules.run, step] using failed
          exact ⟨[], token, rest, [], state, rfl, .here, step⟩
      | done written => simp [Rules.run, step] at failed
      | next written after =>
          obtain ⟨before, blamed, tail, more, last, rfl, reached, stopped⟩ :=
            ih after (finish_later step finish) ((failed_later_iff step).mp failed)
          exact ⟨token :: before, blamed, tail, written ++ more, last, rfl, .next step reached, stopped⟩

theorem parse_failed {options : Options} {tokens : List Token} {error : ParseError}
    (ends : endsWithFinish tokens = true) (failed : parse options tokens = .error error) :
    ∃ before token rest written last, tokens = before ++ token :: rest ∧
      options.rules.Reaches .start before written last ∧ options.rules.step last token = .failed error := by
  rw [parse, Rules.parse, if_pos ends] at failed
  exact run_failed options.rules .start tokens error (has_finish ends) failed

theorem failed_ends {options : Options} {tokens : List Token} {error : ParseError}
    (failed : parse options tokens = .error error) (reason : error ≠ .noFinish) : endsWithFinish tokens = true := by
  by_contra unended
  rw [parse, Rules.parse, if_neg unended] at failed
  cases failed
  exact reason rfl

def closings : List Pending → List Token
  | [] => []
  | .group _ :: outer => ⟨.closing, Span.whole ")"⟩ :: closings outer
  | .operation _ :: outer => closings outer

def inputEnd : Token := ⟨.finish, Span.whole ""⟩

theorem closings_bind_nothing (pending : List Pending) : nextBinding (closings pending ++ [inputEnd]) = 0 := by
  induction pending with
  | nil => rfl
  | cons part outer ih =>
      cases part with
      | group negated => rfl
      | operation op => exact ih

theorem closings_complete (rules : Rules) (pending : List Pending) :
    ∃ items, rules.run ⟨.operator, pending⟩ (closings pending ++ [inputEnd]) = .ok items := by
  induction pending with
  | nil => exact ⟨[], rfl⟩
  | cons part outer ih =>
      obtain ⟨items, completed⟩ := ih
      cases part with
      | group negated =>
          refine ⟨negation negated ++ items, ?_⟩
          simp [closings, Rules.run, Rules.step, Rules.operatorStep, closingStep, unwind, completed, Except.map]
      | operation op =>
          have loose : nextBinding (closings outer ++ [inputEnd]) ≤ op.rightLevel := by
            rw [closings_bind_nothing]
            exact Nat.zero_le _
          refine ⟨.operation op :: items, ?_⟩
          rw [closings, run_settled rules op outer _ loose, completed]
          rfl

-- Every state can be completed, also where no further level may begin: a number, unless one has just been
-- read, and the ends of the open groups.
theorem state_completes (rules : Rules) (state : State) :
    ∃ word items, rules.run state (word ++ [inputEnd]) = .ok items := by
  obtain ⟨place, pending⟩ := state
  obtain ⟨items, completed⟩ := closings_complete rules pending
  cases place with
  | operator => exact ⟨closings pending, items, completed⟩
  | operand negated =>
      let number : Token := ⟨.number, Span.whole "1"⟩
      refine ⟨number :: closings pending, .number number.span :: negation negated ++ items, ?_⟩
      simp [number, Rules.run, Rules.step, Rules.operandStep, completed, Except.map]

theorem parse_fails_at_earliest_token (options : Options) (tokens : List Token) (error : ParseError)
    (ends : endsWithFinish tokens = true) (failed : parse options tokens = .error error) :
    ∃ index token, tokens[index]? = some token ∧ error.Blames token ∧
      (∃ rest items, parse options (tokens.take index ++ rest) = .ok items) ∧
      ∀ rest, endsWithFinish (tokens.take (index + 1) ++ rest) = true →
        parse options (tokens.take (index + 1) ++ rest) = .error error := by
  obtain ⟨before, token, after, written, last, rfl, reached, stopped⟩ := parse_failed ends failed
  have upTo : (before ++ token :: after).take (before.length + 1) = before ++ [token] := by
    rw [List.append_cons, List.take_left' (by simp)]
  refine ⟨before.length, token, by simp, step_failed _ _ _ _ stopped, ?_, ?_⟩
  · obtain ⟨word, items, completed⟩ := state_completes options.rules last
    refine ⟨word ++ [inputEnd], written ++ items, ?_⟩
    rw [List.take_left', ← List.append_assoc, parse, Rules.parse,
      if_pos (ends_with_finish _ inputEnd rfl), List.append_assoc, run_reached reached, completed]
    · rfl
    · rfl
  · intro rest ended
    rw [upTo] at ended ⊢
    rw [parse, Rules.parse, if_pos ended, List.append_assoc, run_reached reached]
    simp [Rules.run, stopped, Except.map]

theorem deep_power_fails_at_its_caret :
    ∃ (options : Options) (tokens : List Token),
      endsWithFinish tokens = true ∧ parse options tokens = .error (.tooDeep (.whole 1)) ∧
      ∃ index token, tokens[index]? = some token ∧ (token.kind = .opening ∨ token.kind = .caret) ∧
        (∃ rest items, parse options (tokens.take index ++ rest) = .ok items) ∧
        ∀ rest, endsWithFinish (tokens.take (index + 1) ++ rest) = true →
          parse options (tokens.take (index + 1) ++ rest) = .error (.tooDeep (.whole 1)) := by
  let options : Options := ⟨.floating .double, .quantity (.whole 1), .quantity (.flag true)⟩
  let tokens := spelled [.opening, .number, .caret, .number, .closing, .finish]
  have ends : endsWithFinish tokens = true := by decide
  have failed : parse options tokens = .error (.tooDeep (.whole 1)) := by rfl
  exact ⟨options, tokens, ends, failed, parse_fails_at_earliest_token options tokens _ ends failed⟩

end Reckon
