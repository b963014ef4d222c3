import Reckon.Proofs.Parse.DepthLimit
import Reckon.Proofs.Parse.Substitution

set_option autoImplicit false

namespace Reckon

variable {rules : Rules} {state last : State} {word tokens : List Token} {written : List Item}

theorem reached_unfinished (reached : rules.Reaches state word written last) :
    ∀ token ∈ word, token.kind ≠ .finish := by
  induction reached with
  | here => simp
  | @next state after last token rest written more step _ ih =>
      intro other member
      rcases List.mem_cons.mp member with rfl | inRest
      · exact fun isFinish => finish_goes_nowhere rules state after other written isFinish step
      · exact ih other inRest

-- A run halts at a token: it has taken all tokens before, and no state comes after this one.
structure Rules.Halts (rules : Rules) (state : State) (tokens : List Token) (token : Token) (written : List Item)
    (last : State) : Prop where
  found : tokens[rules.taken state tokens]? = some token
  reached : rules.Reaches state (tokens.take (rules.taken state tokens)) written last
  halted : ∀ more after, rules.step last token ≠ .next more after

theorem taken_none {token : Token} (halted : ∀ more after, rules.step state token ≠ .next more after) :
    rules.taken state (token :: tokens) = 0 := by
  rw [Rules.taken]
  split
  · rename_i more after step
    exact absurd step (halted more after)
  · rfl
  · rfl

theorem taken_next {token : Token} {after : State} (step : rules.step state token = .next written after) :
    rules.taken state (token :: tokens) = rules.taken after tokens + 1 := by
  simp only [Rules.taken, step]

theorem halts_here {token : Token} (halted : ∀ more after, rules.step state token ≠ .next more after) :
    rules.Halts state (token :: tokens) token [] state where
  found := by rw [taken_none halted]; rfl
  reached := by rw [taken_none halted]; exact .here
  halted := halted

theorem halts_later {token stop : Token} {more : List Item} {after : State}
    (step : rules.step state token = .next more after) (halts : rules.Halts after tokens stop written last) :
    rules.Halts state (token :: tokens) stop (more ++ written) last where
  found := by rw [taken_next step]; exact halts.found
  reached := by rw [taken_next step]; exact .next step halts.reached
  halted := halts.halted

theorem run_halts (rules : Rules) (state : State) (tokens : List Token)
    (finish : ∃ token ∈ tokens, token.kind = .finish) :
    ∃ token written last, rules.Halts state tokens token written last := by
  induction tokens generalizing state with
  | nil => simp at finish
  | cons token rest ih =>
      cases step : rules.step state token with
      | done written => exact ⟨token, [], state, halts_here (by simp [step])⟩
      | failed error => exact ⟨token, [], state, halts_here (by simp [step])⟩
      | next written after =>
          obtain ⟨stop, more, last, halts⟩ := ih after (finish_later step finish)
          exact ⟨stop, written ++ more, last, halts_later step halts⟩

theorem halts_run {token : Token} (halts : rules.Halts state tokens token written last) :
    (∃ more, rules.step last token = .done more ∧ rules.run state tokens = .ok (written ++ more)) ∨
      ∃ error, rules.step last token = .failed error ∧ rules.run state tokens = .error error := by
  have ran := run_reached halts.reached (token :: tokens.drop (rules.taken state tokens + 1))
  rw [cut_at halts.found] at ran
  rw [ran, Rules.run]
  cases step : rules.step last token with
  | next more after => exact absurd step (halts.halted more after)
  | done more => exact .inl ⟨more, rfl, rfl⟩
  | failed error => exact .inr ⟨error, rfl, rfl⟩

theorem taken_before_finish (rules : Rules) (state : State) (tokens : List Token) :
    rules.taken state tokens ≤ (beforeFinish tokens).length := by
  induction tokens generalizing state with
  | nil => exact Nat.le_refl 0
  | cons token rest ih =>
      rw [Rules.taken]
      split
      · rename_i written after step
        have unfinished : token.kind ≠ .finish :=
          fun isFinish => finish_goes_nowhere rules state after token written isFinish step
        rw [before_finish_cons token rest unfinished]
        exact Nat.succ_le_succ (ih after)
      · exact Nat.zero_le _
      · exact Nat.zero_le _

theorem halts_at_finish {token : Token} (halts : rules.Halts state tokens token written last)
    (isFinish : token.kind = .finish) :
    rules.taken state tokens = (beforeFinish tokens).length ∧
      tokens.take (rules.taken state tokens) = beforeFinish tokens := by
  have all := before_finish_append _ token (tokens.drop (rules.taken state tokens + 1))
    (reached_unfinished halts.reached) isFinish
  rw [cut_at halts.found] at all
  have within := (List.getElem?_eq_some_iff.mp halts.found).1
  rw [all, List.length_take, Nat.min_eq_left (Nat.le_of_lt within)]
  exact ⟨rfl, rfl⟩

theorem success_halts {token : Token} {items : List Item} (halts : rules.Halts state tokens token written last)
    (success : rules.run state tokens = .ok items) :
    rules.taken state tokens = (beforeFinish tokens).length ∧
      rules.Reaches state (beforeFinish tokens) written last ∧
      ∃ more, rules.step last token = .done more ∧ items = written ++ more := by
  rcases halts_run halts with ⟨more, step, ran⟩ | ⟨error, -, failed⟩
  · obtain ⟨all, before⟩ := halts_at_finish halts (step_done_finish step).1
    rw [ran, Except.ok.injEq] at success
    exact ⟨all, before ▸ halts.reached, more, step, success.symm⟩
  · rw [failed] at success
    cases success

theorem run_to_finish (rules : Rules) (state : State) {finish : Token} (rest : List Token)
    (free : ∀ token ∈ word, token.kind ≠ .finish) (isFinish : finish.kind = .finish) :
    rules.run state (word ++ finish :: rest) = rules.run state (word ++ [finish]) := by
  rcases reaches_or_fails rules state word free with ⟨written, last, reached⟩ | ⟨error, failed⟩
  · rw [run_reached reached, run_reached reached, Rules.run, Rules.run]
    cases step : rules.step last finish with
    | next more after => exact absurd step (finish_goes_nowhere rules last after finish more isFinish)
    | _ => rfl
  · rw [failed, failed]

-- No token after the first end of input is looked at; a parse that succeeds has taken all before it, one a step.
theorem parse_reads_to_finish (options : Options) (tokens : List Token) (ends : endsWithFinish tokens = true) :
    let word := beforeFinish tokens
    let stop := options.rules.taken .start tokens
    ∃ finish rest, tokens = word ++ finish :: rest ∧ finish.kind = .finish ∧
      (∀ token ∈ word, token.kind ≠ .finish) ∧
      parse options tokens = parse options (word ++ [finish]) ∧
      stop ≤ word.length ∧
      (∃ token, tokens[stop]? = some token ∧
        ((∃ items, parse options tokens = .ok items ∧ token = finish) ∨
          ∃ error, parse options tokens = .error error ∧ error ≠ .noFinish ∧ error.Blames token)) ∧
      ∀ items, parse options tokens = .ok items →
        stop = word.length ∧
          ∃ written last more, options.rules.Reaches .start word written last ∧
            options.rules.step last finish = .done more ∧ items = written ++ more := by
  intro word stop
  obtain ⟨finish, rest, cut, isFinish⟩ := first_finish tokens ends
  have free : ∀ token ∈ word, token.kind ≠ .finish := fun token member => by simpa using List.mem_takeWhile_imp member
  have parsed : parse options tokens = options.rules.run .start tokens := if_pos ends
  have truncated : parse options (word ++ [finish]) = options.rules.run .start (word ++ [finish]) :=
    if_pos (ends_with_finish word finish isFinish)
  obtain ⟨token, written, last, halts⟩ := run_halts options.rules .start tokens (has_finish ends)
  have finishAt : (word ++ finish :: rest)[word.length]? = some finish := by simp
  rw [← cut] at finishAt
  have atFinish (all : options.rules.taken .start tokens = word.length) : token = finish := by
    have found := halts.found
    rw [all, finishAt] at found
    exact (Option.some.inj found).symm
  refine ⟨finish, rest, cut, isFinish, free, ?_, taken_before_finish _ _ _, ⟨token, halts.found, ?_⟩, ?_⟩
  · rw [parsed, truncated, cut, run_to_finish options.rules .start rest free isFinish]
  · rw [parsed]
    rcases halts_run halts with ⟨more, step, ran⟩ | ⟨error, step, failed⟩
    · exact .inl ⟨_, ran, atFinish (success_halts halts ran).1⟩
    · have blames := step_failed options.rules last token error step
      refine .inr ⟨error, failed, ?_, blames⟩
      rintro rfl
      exact blames
  · intro items success
    obtain ⟨all, reached, more, step, written⟩ := success_halts halts (parsed.symm.trans success)
    exact ⟨all, _, last, more, reached, atFinish all ▸ step, written⟩

theorem tokens_after_finish_ignored :
    let group := spelled [.number, .caret, .opening, .number]
    let finish : Token := ⟨.finish, ⟨[], 4, 4⟩⟩
    let closing : Token := ⟨.closing, ⟨[], 5, 6⟩⟩
    let broken := group ++ finish :: [closing, finish]
    let whole := group ++ [closing] ++ finish :: [closing, finish]
    parse {} broken = .error (.unexpected finish .closing) ∧ parse {} (group ++ [finish]) = parse {} broken ∧
      ∃ items, parse {} whole = .ok items ∧ parse {} (group ++ [closing] ++ [finish]) = .ok items ∧
        ({} : Options).rules.taken .start whole = 5 ∧
        ∃ written last, ({} : Options).rules.Reaches .start (group ++ [closing]) written last := by
  intro group finish closing broken whole
  have failed : parse {} broken = .error (.unexpected finish .closing) := rfl
  obtain ⟨items, parsed⟩ : ∃ items, parse {} whole = .ok items := ⟨_, rfl⟩
  obtain ⟨first, _, cut, -, -, same, -⟩ := parse_reads_to_finish {} broken rfl
  obtain ⟨second, _, also, -, -, alike, -, -, success⟩ := parse_reads_to_finish {} whole rfl
  obtain rfl : finish = first := Option.some.inj (congrArg (·[4]?) cut)
  obtain rfl : finish = second := Option.some.inj (congrArg (·[5]?) also)
  obtain ⟨all, written, last, -, reached, -⟩ := success items parsed
  exact ⟨failed, same.symm, items, parsed, alike.symm.trans parsed, all, written, last, reached⟩

end Reckon
