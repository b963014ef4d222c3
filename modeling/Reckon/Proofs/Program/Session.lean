import Reckon.Proofs.Rpn.Canonical
import Reckon.Session

set_option autoImplicit false

namespace Reckon

open Number (Format Scalar TypeRequest Value findFormat)

inductive Session.Turn (session : Session) : Request → Session × Reply → Prop
  | scan {source : String} {tokens : List Token} (scanned : Reckon.scan source = .ok tokens) :
      Session.Turn session (.scan source) (session.setTokens tokens)
  | scanMore {source : String} {tokens : List Token} (scanned : Reckon.scan source = .ok tokens) :
      Session.Turn session (.scanMore source) (session.setTokens (session.tokens ++ tokens))
  | cutTokens {start stop : Option Int} :
      Session.Turn session (.cutTokens start stop) (session.setTokens (openSlice session.tokens start stop))
  | cutItems {start stop : Option Int} :
      Session.Turn session (.cutItems start stop) (session.setItems (openSlice session.items start stop))
  | parse {settings : List (String × Given)} {options : Options} {items : List Item}
      (given : Options.strict settings = .ok options) (parsed : Reckon.parse options session.tokens = .ok items) :
      Session.Turn session (.parse settings) (session.setItems items)
  | append {source : String} {settings : List (String × Given)} {options : Options} {items : List Item}
      (given : Options.strict settings = .ok options) (parsed : rpnOf options source = .ok items) :
      Session.Turn session (.append source settings) (session.setItems (session.items ++ items))
  | push {items : List Item} : Session.Turn session (.push (.ok items)) (session.setItems (session.items ++ items))
  | evaluate {request : TypeRequest} {scalar : Scalar} (evaluated : Reckon.evaluate request session.items = .ok scalar) :
      Session.Turn session (.evaluate request) (session, .value scalar)
  | report : Session.Turn session .report (session, .report (reportOn session.items))
  | refused {request : Request} {error : SessionError} : Session.Turn session request (session, .refused error)

theorem map_error_ok {α ε δ : Type} {result : Except ε α} {fault : ε → δ} {value : α}
    (done : result.mapError fault = .ok value) : result = .ok value := by
  cases result with
  | error error => cases done
  | ok other => exact congrArg Except.ok (Except.ok.inj done)

theorem read_with {settings : List (String × Given)} {read : Options → Except Failure (List Item)}
    {items : List Item} (done : readWith settings read = .ok items) :
    ∃ options, Options.strict settings = .ok options ∧ read options = .ok items := by
  unfold readWith at done
  split at done
  · cases done
  · rename_i options strict
    exact ⟨options, strict, map_error_ok done⟩

theorem answer_turns (session : Session) (request : Request) : session.Turn request (session.answer request) := by
  cases request with
  | scan source =>
      rw [Session.answer]
      split
      · rename_i scanned
        exact .scan scanned
      · exact .refused
  | scanMore source =>
      rw [Session.answer]
      split
      · rename_i scanned
        exact .scanMore scanned
      · exact .refused
  | cutTokens start stop => exact .cutTokens
  | cutItems start stop => exact .cutItems
  | parse settings =>
      rw [Session.answer]
      split
      · rename_i parsed
        obtain ⟨options, given, read⟩ := read_with parsed
        exact .parse given (map_error_ok read)
      · exact .refused
  | append source settings =>
      rw [Session.answer]
      split
      · rename_i parsed
        obtain ⟨options, given, read⟩ := read_with parsed
        exact .append given read
      · exact .refused
  | push pushed =>
      cases pushed with
      | ok items => exact .push
      | error error => exact .refused
  | evaluate request =>
      rw [Session.answer]
      split
      · rename_i evaluated
        exact .evaluate evaluated
      · exact .refused
  | report => exact .report

variable {session : Session} {request : Request} {answered : Session × Reply}

theorem refused_unchanged {error : SessionError} (refused : (session.answer request).2 = .refused error) :
    (session.answer request).1 = session := by
  have turn := answer_turns session request
  generalize session.answer request = answered at turn refused
  cases turn with
  | evaluate _ | report | refused => rfl
  | scan _ | scanMore _ | cutTokens | cutItems | parse _ _ | append _ _ | push => cases refused

theorem answer_sets_one_list (session : Session) (request : Request) :
    ((session.answer request).1.tokens = session.tokens ∧
        ∀ count, (session.answer request).2 = .length count → (session.answer request).1.items.length = count) ∨
      (session.answer request).1.items = session.items ∧
        ∀ count, (session.answer request).2 = .length count → (session.answer request).1.tokens.length = count := by
  have turn := answer_turns session request
  generalize session.answer request = answered at turn
  cases turn with
  | scan _ | scanMore _ | cutTokens =>
      refine .inr ⟨rfl, fun count length => ?_⟩
      cases length
      rfl
  | cutItems | parse _ _ | append _ _ | push =>
      refine .inl ⟨rfl, fun count length => ?_⟩
      cases length
      rfl
  | evaluate _ | report | refused => exact .inl ⟨rfl, fun count length => by cases length⟩

def Reply.isRefused : Reply → Bool
  | .refused _ => true
  | _ => false

def Session.accepted (session : Session) : List Request → List Request
  | [] => []
  | request :: rest =>
      if (session.answer request).2.isRefused then (session.answer request).1.accepted rest
      else request :: (session.answer request).1.accepted rest

theorem trace_accepted (session : Session) (requests : List Request) :
    session.trace (session.accepted requests) = (session.trace requests).filter fun turn => !turn.2.isRefused := by
  induction requests generalizing session with
  | nil => rfl
  | cons request rest ih =>
      cases reply : (session.answer request).2.isRefused with
      | true =>
          have same : (session.answer request).1 = session := by
            cases kind : (session.answer request).2 with
            | refused error => exact refused_unchanged kind
            | _ => simp [kind, Reply.isRefused] at reply
          rw [Session.accepted, if_pos reply, Session.trace, List.filter_cons_of_neg (by simp [reply]), same]
          exact ih session
      | false =>
          rw [Session.accepted, if_neg (by simp [reply]), Session.trace, Session.trace,
            List.filter_cons_of_pos (by simp [reply]), ih]

theorem trace_keeps {Holds : Session → Prop} {Allowed : Request → Prop}
    (keeps : ∀ session request, Allowed request → Holds session → Holds (session.answer request).1)
    {requests : List Request} (allowed : ∀ request ∈ requests, Allowed request) (holds : Holds session) :
    ∀ turn ∈ session.trace requests, Holds turn.1 := by
  induction requests generalizing session with
  | nil =>
      intro turn member
      cases member
  | cons request rest ih =>
      have after := keeps session request (allowed request List.mem_cons_self) holds
      intro turn member
      rcases List.mem_cons.mp member with rfl | later
      · exact after
      · exact ih (fun other among => allowed other (List.mem_cons_of_mem _ among)) after turn later

theorem open_slice_subset {α : Type} {xs : List α} {start stop : Option Int} {x : α}
    (member : x ∈ openSlice xs start stop) : x ∈ xs :=
  List.mem_of_mem_drop (List.mem_of_mem_take member)

structure Session.Numeric (session : Session) : Prop where
  tokens : ∀ token ∈ session.tokens, token.kind = .number → token.span.Numeric
  items : ∀ span, .number span ∈ session.items → span.Numeric

def Request.Numeric : Request → Prop
  | .push (.ok items) => ∀ span, .number span ∈ items → span.Numeric
  | _ => True

theorem scan_numeric {source : String} {tokens : List Token} (scanned : scan source = .ok tokens) (token : Token)
    (member : token ∈ tokens) (isNumber : token.kind = .number) : token.span.Numeric := by
  rcases scanned_or_stopped source with ⟨known, -⟩ | ⟨error, stopped⟩
  · obtain ⟨body, same, cuts⟩ := scan_valid source known
    obtain rfl := Except.ok.inj (scanned.symm.trans same)
    rcases List.mem_append.mp member with inBody | last
    · obtain ⟨start, stop, same, run⟩ := lexeme_run (cuts.each token inBody).1 isNumber
      exact same ▸ run_numeric run
    · rw [List.mem_singleton.mp last] at isNumber
      cases isNumber
  · cases scanned.symm.trans stopped

theorem parse_numeric {options : Options} {tokens : List Token} {items : List Item}
    (parsed : parse options tokens = .ok items)
    (numeric : ∀ token ∈ tokens, token.kind = .number → token.span.Numeric) (span : Span)
    (member : .number span ∈ items) : span.Numeric := by
  have leaf : span ∈ leafSpans items := List.mem_filterMap.mpr ⟨.number span, member, rfl⟩
  rw [run_spans (parse_ran parsed).2] at leaf
  obtain ⟨token, among, rfl⟩ := List.mem_map.mp leaf
  obtain ⟨before, isNumber⟩ := List.mem_filter.mp among
  exact numeric token ((List.takeWhile_prefix _).mem before) (of_decide_eq_true isNumber)

theorem numeric_append {items more : List Item} (numeric : ∀ span, .number span ∈ items → span.Numeric)
    (alsoNumeric : ∀ span, .number span ∈ more → span.Numeric) (span : Span) (member : .number span ∈ items ++ more) :
    span.Numeric := by
  rcases List.mem_append.mp member with before | later
  · exact numeric span before
  · exact alsoNumeric span later

theorem answer_numeric (session : Session) (request : Request) (allowed : request.Numeric)
    (numeric : session.Numeric) : (session.answer request).1.Numeric := by
  have turn := answer_turns session request
  generalize session.answer request = answered at turn
  obtain ⟨tokens, items⟩ := numeric
  cases turn with
  | scan scanned => exact ⟨scan_numeric scanned, items⟩
  | scanMore scanned => exact ⟨List.forall_mem_append.mpr ⟨tokens, scan_numeric scanned⟩, items⟩
  | cutTokens => exact ⟨fun token member => tokens token (open_slice_subset member), items⟩
  | cutItems => exact ⟨tokens, fun span member => items span (open_slice_subset member)⟩
  | parse given parsed => exact ⟨tokens, parse_numeric parsed tokens⟩
  | append given parsed => exact ⟨tokens, numeric_append items (rpn_numeric parsed)⟩
  | push => exact ⟨tokens, numeric_append items allowed⟩
  | evaluate _ | report | refused => exact ⟨tokens, items⟩

theorem depths_alike {items others : List Item} (depth : Int) (same : items.map Item.label = others.map Item.label) :
    depthsFrom depth items = depthsFrom depth others := by
  induction items generalizing depth others with
  | nil => rw [List.map_eq_nil_iff.mp same.symm]
  | cons item rest ih =>
      cases others with
      | nil => cases same
      | cons other others =>
          obtain ⟨here, after⟩ := List.cons.inj same
          have effect : item.effect = other.effect := by
            cases item <;> cases other <;> first | rfl | cases here
          rw [depthsFrom, depthsFrom, effect, ih _ after]

theorem report_alike {items others : List Item} (same : items.map Item.label = others.map Item.label)
    (equal : format items = format others) : reportOn items = reportOn others := by
  have length : items.length = others.length := by
    simpa using congrArg List.length same
  have counted : depths items = depths others := depths_alike 0 same
  simp only [reportOn, equal, pieces_length, length, digest, counted, wellFormed]

-- Where two sessions show the same postfix text, reports and evaluations have the same answers, however the sessions
-- got there. Sequences that are pushed must have numbers of digits and dots.
theorem shown_text_decides_answers {requests others : List Request} (numeric : ∀ request ∈ requests, request.Numeric)
    (alsoNumeric : ∀ request ∈ others, request.Numeric) (first second : Session × Reply)
    (reached : first ∈ Session.trace {} requests) (alsoReached : second ∈ Session.trace {} others)
    (equal : format first.1.items = format second.1.items) :
    (first.1.answer .report).2 = (second.1.answer .report).2 ∧
      ∀ request, SameOutcome (evaluate request first.1.items) (evaluate request second.1.items) := by
  have empty : Session.Numeric {} := ⟨by simp, by simp⟩
  have held := trace_keeps answer_numeric numeric empty first reached
  have alsoHeld := trace_keeps answer_numeric alsoNumeric empty second alsoReached
  have labels : first.1.items.map Item.label = second.1.items.map Item.label := by
    rw [← read_format held.items, equal, read_format alsoHeld.items]
  exact ⟨congrArg Reply.report (report_alike labels equal), fun request => evaluate_alike request labels⟩

def Session.Gathered (session : Session) : Prop := ∃ trees, session.items = postorders trees

def Request.Gathers : Request → Prop
  | .cutItems .. => False
  | .push _ => False
  | _ => True

theorem parsed_tree {options : Options} {tokens : List Token} {items : List Item}
    (parsed : parse options tokens = .ok items) : ∃ tree : Tree, tree.items = items := by
  obtain ⟨ends, ran⟩ := parse_ran parsed
  exact phrase_tree ((run_ok_iff options.rules tokens items ends).mp ran)

theorem answer_gathers (session : Session) (request : Request) (allowed : request.Gathers)
    (gathered : session.Gathered) : (session.answer request).1.Gathered := by
  have turn := answer_turns session request
  generalize session.answer request = answered at turn
  obtain ⟨trees, same⟩ := gathered
  cases turn with
  | parse given parsed =>
      obtain ⟨tree, rfl⟩ := parsed_tree parsed
      exact ⟨[tree], rfl⟩
  | append given parsed =>
      obtain ⟨tokens, -, read⟩ := rpn_stages_done parsed
      obtain ⟨tree, rfl⟩ := parsed_tree read
      exact ⟨tree :: trees, congrArg (· ++ tree.items) same⟩
  | cutItems => exact allowed.elim
  | push => exact allowed.elim
  | scan _ | scanMore _ | cutTokens | evaluate _ | report | refused => exact ⟨trees, same⟩

theorem tree_evaluated (format : Format) (tree : Tree) :
    (∃ value, tree.evaluate format = .ok value) ∨ ∃ span, tree.evaluate format = .error (.malformed span) := by
  have outcome := evaluate_first_malformed format tree
  cases first : tree.firstMalformed format with
  | some span =>
      rw [first] at outcome
      exact .inr ⟨span, outcome⟩
  | none =>
      rw [first] at outcome
      exact .inl outcome

theorem postorders_performed (format : Format) (trees : List Tree) :
    (∃ stack, performAll format [] (postorders trees) = .ok stack ∧ stack.length = trees.length) ∨
      ∃ span, performAll format [] (postorders trees) = .error (.malformed span) := by
  induction trees with
  | nil => exact .inl ⟨[], rfl, rfl⟩
  | cons tree below ih =>
      rw [postorders, perform_all_append]
      rcases ih with ⟨stack, performed, length⟩ | ⟨span, failed⟩
      · rw [performed]
        change (∃ stack', performAll format stack tree.items = _ ∧ _) ∨ ∃ span, performAll format stack tree.items = _
        rw [perform_all_items]
        rcases tree_evaluated format tree with ⟨value, evaluated⟩ | ⟨span, failed⟩
        · rw [evaluated]
          exact .inl ⟨value :: stack, rfl, congrArg Nat.succ length⟩
        · rw [failed]
          exact .inr ⟨span, rfl⟩
      · rw [failed]
        exact .inr ⟨span, rfl⟩

theorem postorders_evaluated {request : TypeRequest} {format : Format} (found : findFormat request = .ok format)
    (trees : List Tree) :
    (∃ span, evaluate request (postorders trees) = .error (.malformed span)) ∨
      (trees.length = 1 ∧ ∃ value, evaluate request (postorders trees) = .ok ⟨format, value⟩) ∨
      trees.length ≠ 1 ∧ evaluate request (postorders trees) = .error (.leftover trees.length) := by
  simp only [evaluate, found, evaluateIn]
  rcases postorders_performed format trees with ⟨stack, performed, length⟩ | ⟨span, failed⟩
  · rw [performed, ← length]
    rcases stack with _ | ⟨value, _ | ⟨second, rest⟩⟩
    · exact .inr (.inr ⟨by simp, rfl⟩)
    · exact .inr (.inl ⟨rfl, value, rfl⟩)
    · exact .inr (.inr ⟨by simp, rfl⟩)
  · rw [failed]
    exact .inl ⟨span, rfl⟩

-- Without cutting and pushing no evaluation lacks an operand. It finds a number that cannot be read, or the value of a
-- single expression, or the number of the expressions.
theorem gathered_session_evaluates {requests : List Request} (gathers : ∀ request ∈ requests, request.Gathers)
    (turn : Session × Reply) (reached : turn ∈ Session.trace {} requests) :
    ∃ trees, turn.1.items = postorders trees ∧
      ∀ request format, findFormat request = .ok format →
        (∃ span, evaluate request turn.1.items = .error (.malformed span)) ∨
          (trees.length = 1 ∧ ∃ value, evaluate request turn.1.items = .ok ⟨format, value⟩) ∨
          trees.length ≠ 1 ∧ evaluate request turn.1.items = .error (.leftover trees.length) := by
  have empty : Session.Gathered {} := ⟨[], rfl⟩
  obtain ⟨trees, same⟩ := trace_keeps answer_gathers gathers empty turn reached
  refine ⟨trees, same, fun request format found => ?_⟩
  rw [same]
  exact postorders_evaluated found trees

end Reckon
