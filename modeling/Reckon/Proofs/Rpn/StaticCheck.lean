import Mathlib.Data.Nat.Find
import Reckon.Proofs.Tree.Reading

set_option autoImplicit false

namespace Reckon

open Number (Format Scalar TypeRequest Value findFormat)

-- Either a number that cannot be read, or too few values for what the item takes.
def StopsAt (format : Format) (depth : Int) (items : List Item) (index : Nat) : Prop :=
  (∃ span, items[index]? = some (.number span) ∧ format.read span.chars = none) ∨
    ∃ reached, (depthsFrom depth items)[index]? = some reached ∧ reached < 1

theorem depths_length (depth : Int) (items : List Item) : (depthsFrom depth items).length = items.length := by
  induction items generalizing depth with
  | nil => rfl
  | cons item rest ih => rw [depthsFrom, List.length_cons, List.length_cons, ih]

theorem depths_at (depth : Int) (before after : List Item) (item : Item) :
    (depthsFrom depth (before ++ item :: after))[before.length]? = some (depth + effects before + item.effect) := by
  have length := depths_length depth before
  rw [depths_append, List.getElem?_append_right (Nat.le_of_eq length), length, Nat.sub_self]
  rfl

theorem depth_has_item {depth : Int} {items : List Item} {index : Nat} {reached : Int}
    (counted : (depthsFrom depth items)[index]? = some reached) : ∃ item, items[index]? = some item := by
  obtain ⟨within, -⟩ := List.getElem?_eq_some_iff.mp counted
  rw [depths_length] at within
  exact ⟨_, List.getElem?_eq_getElem within⟩

inductive Performs (format : Format) : List Value → Item → List Value → Prop
  | number {stack : List Value} {span : Span} {value : Value} (read : format.read span.chars = some value) :
      Performs format stack (.number span) (value :: stack)
  | negate {value : Value} {rest : List Value} : Performs format (value :: rest) .negate (value.negate :: rest)
  | operation {op : BinaryOp} {left right : Value} {rest : List Value} :
      Performs format (right :: left :: rest) (.operation op) (op.apply format left right :: rest)

theorem perform_ok_iff {format : Format} {stack next : List Value} {item : Item} :
    perform format stack item = .ok next ↔ Performs format stack item next := by
  constructor
  · intro performed
    cases item with
    | number span =>
        cases read : format.read span.chars with
        | none => simp [perform, read] at performed
        | some value =>
            simp only [perform, read, Except.ok.injEq] at performed
            exact performed ▸ .number read
    | negate =>
        cases stack with
        | nil => cases performed
        | cons value rest =>
            cases performed
            exact .negate
    | operation op =>
        rcases stack with _ | ⟨right, _ | ⟨left, rest⟩⟩
        · cases performed
        · cases performed
        · cases performed
          exact .operation
  · intro performs
    cases performs with
    | number read => simp only [perform, read]
    | negate => rfl
    | operation => rfl

theorem perform_length (format : Format) (stack next : List Value) (item : Item)
    (performed : perform format stack item = .ok next) : (next.length : Int) = stack.length + item.effect := by
  cases perform_ok_iff.mp performed with
  | number _ => simp [Item.effect]
  | negate => simp [Item.effect]
  | operation =>
      simp only [List.length_cons, Item.effect]
      omega

theorem perform_all_cons (format : Format) (stack : List Value) (item : Item) (rest : List Item) :
    performAll format stack (item :: rest) = (perform format stack item).bind (performAll format · rest) := by
  unfold performAll
  rw [List.foldlM_cons]
  rfl

theorem perform_all_cons_ok {format : Format} {stack next : List Value} {item : Item} {rest : List Item}
    (performed : performAll format stack (item :: rest) = .ok next) :
    ∃ middle, perform format stack item = .ok middle ∧ performAll format middle rest = .ok next := by
  rw [perform_all_cons] at performed
  cases step : perform format stack item with
  | error error => simp [step, Except.bind] at performed
  | ok middle =>
      rw [step] at performed
      exact ⟨middle, rfl, performed⟩

theorem perform_all_length (format : Format) (stack next : List Value) (items : List Item)
    (performed : performAll format stack items = .ok next) : (next.length : Int) = stack.length + effects items := by
  induction items generalizing stack with
  | nil =>
      cases performed
      simp [effects]
  | cons item rest ih =>
      obtain ⟨middle, step, after⟩ := perform_all_cons_ok performed
      rw [ih middle after, perform_length format stack middle item step, effects, Int.add_assoc]

theorem perform_runs (format : Format) (stack : List Value) (item : Item)
    (legible : ∀ span, item = .number span → format.read span.chars ≠ none)
    (enough : 1 ≤ (stack.length : Int) + item.effect) : ∃ next, perform format stack item = .ok next := by
  cases item with
  | number span =>
      obtain ⟨value, read⟩ := Option.ne_none_iff_exists'.mp (legible span rfl)
      exact ⟨value :: stack, by simp [perform, read]⟩
  | negate =>
      cases stack with
      | nil => simp [Item.effect] at enough
      | cons value rest => exact ⟨value.negate :: rest, rfl⟩
  | operation op =>
      rcases stack with _ | ⟨right, _ | ⟨left, rest⟩⟩
      · simp [Item.effect] at enough
      · simp [Item.effect] at enough
      · exact ⟨op.apply format left right :: rest, rfl⟩

theorem perform_underflows (format : Format) (stack : List Value) (item : Item)
    (short : (stack.length : Int) + item.effect < 1) :
    (∀ span, item ≠ .number span) ∧ perform format stack item = .error (.underflow item) := by
  constructor
  · rintro span rfl
    simp only [Item.effect] at short
    omega
  · cases item with
    | number span =>
        simp only [Item.effect] at short
        omega
    | negate =>
        cases stack with
        | nil => rfl
        | cons value rest =>
            simp only [List.length_cons, Item.effect] at short
            omega
    | operation op =>
        rcases stack with _ | ⟨right, _ | ⟨left, rest⟩⟩
        · rfl
        · rfl
        · simp only [List.length_cons, Item.effect] at short
          omega

theorem stops_at_head (format : Format) (depth : Int) (item : Item) (rest : List Item)
    (runs : ¬ StopsAt format depth (item :: rest) 0) :
    (∀ span, item = .number span → format.read span.chars ≠ none) ∧ 1 ≤ depth + item.effect := by
  constructor
  · rintro span rfl unread
    exact runs (.inl ⟨span, rfl, unread⟩)
  · by_cases short : depth + item.effect < 1
    · exact absurd (.inr ⟨depth + item.effect, rfl, short⟩) runs
    · exact Int.not_lt.mp short

theorem stops_at_tail (format : Format) (depth : Int) (item : Item) (rest : List Item) (index : Nat) :
    StopsAt format depth (item :: rest) (index + 1) ↔ StopsAt format (depth + item.effect) rest index := by
  simp only [StopsAt, depthsFrom, List.getElem?_cons_succ]

theorem perform_all_runs (format : Format) (items : List Item) (stack : List Value)
    (runs : ∀ index < items.length, ¬ StopsAt format stack.length items index) :
    ∃ next, performAll format stack items = .ok next := by
  induction items generalizing stack with
  | nil => exact ⟨stack, rfl⟩
  | cons item rest ih =>
      obtain ⟨legible, enough⟩ := stops_at_head format _ item rest (runs 0 (by simp))
      obtain ⟨middle, stepped⟩ := perform_runs format stack item legible enough
      have length := perform_length format stack middle item stepped
      obtain ⟨next, performed⟩ := ih middle fun index before => by
        rw [length, ← stops_at_tail]
        exact runs (index + 1) (by simpa using before)
      exact ⟨next, by rw [perform_all_cons, stepped]; exact performed⟩

theorem stops_at_before (format : Format) (depth : Int) (before after : List Item) (index : Nat)
    (within : index < before.length) :
    StopsAt format depth (before ++ after) index ↔ StopsAt format depth before index := by
  have inDepths : index < (depthsFrom depth before).length := by rwa [depths_length]
  simp only [StopsAt, depths_append, List.getElem?_append_left within, List.getElem?_append_left inDepths]

theorem perform_all_reaches (format : Format) (before after : List Item) (item : Item)
    (runs : ∀ index < before.length, ¬ StopsAt format 0 (before ++ item :: after) index) :
    ∃ stack : List Value, (stack.length : Int) = effects before ∧
      performAll format [] (before ++ item :: after)
        = (perform format stack item).bind (performAll format · after) := by
  obtain ⟨stack, performed⟩ := perform_all_runs format before [] fun index within =>
    mt (stops_at_before format 0 before (item :: after) index within).mpr (runs index within)
  have length := perform_all_length format [] stack before performed
  refine ⟨stack, by simpa using length, ?_⟩
  rw [perform_all_append, performed]
  exact perform_all_cons format stack item after

theorem evaluate_error (request : TypeRequest) (format : Format) (items : List Item) (error : EvalError)
    (found : findFormat request = .ok format) (failed : performAll format [] items = .error error) :
    evaluate request items = .error error := by
  simp only [evaluate, found, evaluateIn, failed]

theorem evaluate_malformed (request : TypeRequest) (format : Format) (items : List Item) (index : Nat)
    (span : Span) (found : findFormat request = .ok format) (runs : ∀ earlier < index, ¬ StopsAt format 0 items earlier)
    (here : items[index]? = some (.number span)) (unread : format.read span.chars = none) :
    evaluate request items = .error (.malformed span) := by
  obtain ⟨before, after, rfl, rfl⟩ := split_at here
  obtain ⟨stack, -, reached⟩ := perform_all_reaches format before after _ runs
  refine evaluate_error request format _ _ found ?_
  rw [reached, perform, unread]
  rfl

theorem evaluate_underflow (request : TypeRequest) (format : Format) (items : List Item) (index : Nat)
    (item : Item) (depth : Int) (found : findFormat request = .ok format)
    (runs : ∀ earlier < index, ¬ StopsAt format 0 items earlier) (here : items[index]? = some item)
    (counted : (depths items)[index]? = some depth) (short : depth < 1) :
    (∀ span, item ≠ .number span) ∧ evaluate request items = .error (.underflow item) := by
  obtain ⟨before, after, rfl, rfl⟩ := split_at here
  obtain ⟨stack, length, reached⟩ := perform_all_reaches format before after item runs
  rw [depths, depths_at, Option.some.injEq, Int.zero_add] at counted
  obtain ⟨operator, underflow⟩ := perform_underflows format stack item (by omega)
  refine ⟨operator, evaluate_error request format _ _ found ?_⟩
  rw [reached, underflow]
  rfl

theorem depths_last_or_zero (items : List Item) : (depths items).getLast?.getD 0 = effects items := by
  by_cases empty : items = []
  · subst empty
    rfl
  · rw [depths, depths_last 0 items empty, Option.getD_some, Int.zero_add]

theorem no_stop_above {format : Format} {depth : Int} {items : List Item}
    (runs : ∀ index, ¬ StopsAt format depth items index) : ∀ reached ∈ depthsFrom depth items, 1 ≤ reached := by
  intro reached member
  obtain ⟨index, here⟩ := List.getElem?_of_mem member
  exact Int.not_lt.mp fun short => runs index (.inr ⟨reached, here, short⟩)

theorem evaluate_without_stop (request : TypeRequest) (format : Format) (items : List Item)
    (found : findFormat request = .ok format) (runs : ∀ index, ¬ StopsAt format 0 items index) :
    if wellFormed items then ∃ value, evaluate request items = .ok ⟨format, value⟩
    else ∃ count : Nat, (count : Int) = effects items ∧ evaluate request items = .error (.leftover count) := by
  obtain ⟨stack, performed⟩ := perform_all_runs format items [] fun index _ => runs index
  have length := perform_all_length format [] stack items performed
  simp only [List.length_nil, Int.natCast_zero, Int.zero_add] at length
  have formed : wellFormed items = true ↔ stack.length = 1 := by
    rw [well_formed_iff, ← length]
    constructor
    · rintro ⟨-, -, single⟩
      exact Int.ofNat.inj single
    · intro single
      refine ⟨no_stop_above runs, ?_, by rw [single]; rfl⟩
      rintro rfl
      simp [effects] at length
      simp [length] at single
  simp only [evaluate, found, evaluateIn, performed]
  rcases stack with _ | ⟨value, _ | ⟨second, rest⟩⟩
  · rw [if_neg (by rw [formed]; decide)]
    exact ⟨0, length, rfl⟩
  · rw [if_pos (formed.mpr rfl)]
    exact ⟨value, rfl⟩
  · rw [if_neg (by rw [formed]; simp)]
    exact ⟨_, length, rfl⟩

theorem evaluate_stopped (request : TypeRequest) (format : Format) (items : List Item) (index : Nat)
    (found : findFormat request = .ok format) (stops : StopsAt format 0 items index) :
    ∃ error, evaluate request items = .error error := by
  classical
  have any : ∃ index, StopsAt format 0 items index := ⟨index, stops⟩
  have runs : ∀ earlier < Nat.find any, ¬ StopsAt format 0 items earlier := fun _ => Nat.find_min any
  rcases Nat.find_spec any with ⟨span, here, unread⟩ | ⟨depth, counted, short⟩
  · exact ⟨_, evaluate_malformed request format items _ span found runs here unread⟩
  · obtain ⟨item, here⟩ := depth_has_item counted
    exact ⟨_, (evaluate_underflow request format items _ _ depth found runs here counted short).2⟩

theorem well_formed_never_stops (format : Format) (items : List Item) (formed : wellFormed items = true)
    (legible : ∀ span, .number span ∈ items → format.read span.chars ≠ none) (index : Nat) :
    ¬ StopsAt format 0 items index := by
  rintro (⟨span, here, unread⟩ | ⟨depth, counted, short⟩)
  · exact legible span (List.mem_of_getElem? here) unread
  · have enough := ((well_formed_iff items).mp formed).1 depth (List.mem_of_getElem? counted)
    omega

theorem evaluate_ok_iff (request : TypeRequest) (format : Format) (items : List Item)
    (found : findFormat request = .ok format)
    (legible : ∀ span, .number span ∈ items → format.read span.chars ≠ none) :
    (∃ scalar, evaluate request items = .ok scalar) ↔ wellFormed items = true := by
  constructor
  · rintro ⟨scalar, evaluated⟩
    have runs : ∀ index, ¬ StopsAt format 0 items index := by
      intro index stops
      obtain ⟨error, failed⟩ := evaluate_stopped request format items index found stops
      rw [failed] at evaluated
      cases evaluated
    have ended := evaluate_without_stop request format items found runs
    by_contra unformed
    rw [if_neg unformed] at ended
    obtain ⟨count, -, leftover⟩ := ended
    rw [leftover] at evaluated
    cases evaluated
  · intro formed
    have ended :=
      evaluate_without_stop request format items found (well_formed_never_stops format items formed legible)
    rw [if_pos formed] at ended
    obtain ⟨value, evaluated⟩ := ended
    exact ⟨_, evaluated⟩

-- The machine fails at the first stop, with the number or the operator that is there. Without a stop the static
-- check decides, and the last depth is what the machine finds in the end.
theorem evaluate_decided_by_depths (request : TypeRequest) (format : Format) (items : List Item)
    (found : findFormat request = .ok format) :
    (∀ index, (∀ earlier < index, ¬ StopsAt format 0 items earlier) →
      (∀ span, items[index]? = some (.number span) → format.read span.chars = none →
        evaluate request items = .error (.malformed span)) ∧
      ∀ depth, (depths items)[index]? = some depth → depth < 1 →
        ∃ item, items[index]? = some item ∧ (∀ span, item ≠ .number span) ∧
          evaluate request items = .error (.underflow item) ∧
          (EvalError.underflow item).message = "stack underflow at '" ++ item.text ++ "'") ∧
    ((∀ index, ¬ StopsAt format 0 items index) →
      (wellFormed items = true → ∃ value, evaluate request items = .ok ⟨format, value⟩) ∧
      (wellFormed items = false → ∃ count : Nat, (count : Int) = (depths items).getLast?.getD 0 ∧
        evaluate request items = .error (.leftover count) ∧
        (EvalError.leftover count).message = "expected 1 value after evaluation, found " ++ toString count)) ∧
    ((∀ span, .number span ∈ items → format.read span.chars ≠ none) →
      ((∃ scalar, evaluate request items = .ok scalar) ↔ wellFormed items = true)) := by
  refine ⟨?_, ?_, evaluate_ok_iff request format items found⟩
  · intro index runs
    refine ⟨fun span => evaluate_malformed request format items index span found runs, ?_⟩
    intro depth counted short
    obtain ⟨item, here⟩ := depth_has_item counted
    obtain ⟨operator, underflow⟩ :=
      evaluate_underflow request format items index item depth found runs here counted short
    exact ⟨item, here, operator, underflow, rfl⟩
  · intro runs
    have ended := evaluate_without_stop request format items found runs
    rw [depths_last_or_zero]
    refine ⟨fun formed => by rwa [if_pos formed] at ended, fun unformed => ?_⟩
    rw [if_neg (by rw [unformed]; decide)] at ended
    obtain ⟨count, counted, leftover⟩ := ended
    exact ⟨count, counted, leftover, rfl⟩

theorem early_underflow_decides :
    ∃ items : List Item, depths items = [1, 1, 0, 1, 2, 1] ∧ findFormat (.floating .single) = .ok .single ∧
      Format.single.read "1.2.3".toList = none ∧ evaluate (.floating .single) items = .error (.underflow (.operation .sub)) := by
  let items : List Item := [.number (Span.whole "7"), .negate, .operation .sub, .number (Span.whole "1.2.3"),
    .number (Span.whole "2"), .operation .add]
  have runs : ∀ earlier < 2, ¬ StopsAt .single 0 items earlier := by
    have numbers : ∀ earlier < 2, ∀ span, items[earlier]? = some (.number span) →
        Format.single.read span.chars ≠ none := by
      intro earlier before span here
      match earlier, before with
      | 0, _ =>
          cases here
          decide +kernel
      | 1, _ => cases here
    intro earlier before stops
    rcases stops with ⟨span, here, unread⟩ | ⟨reached, counted, short⟩
    · exact numbers earlier before span here unread
    · match earlier, before with
      | 0, _ => cases counted; exact absurd short (by decide)
      | 1, _ => cases counted; exact absurd short (by decide)
  obtain ⟨item, here, -, underflow, -⟩ :=
    ((evaluate_decided_by_depths (.floating .single) .single items rfl).1 2 runs).2 0 rfl (by decide)
  cases here
  exact ⟨items, rfl, rfl, by decide +kernel, underflow⟩

end Reckon
