import Reckon.Calculate
import Reckon.Proofs.Parse.Nesting
import Reckon.Proofs.Token.Cutting
import Reckon.Proofs.Tree.Reading

set_option autoImplicit false

namespace Reckon

def Tree.level : Tree → Nat
  | .leaf _ => 4
  | .negate _ => 3
  | .operation op _ _ => op.level

def BinaryOp.leftLevel : BinaryOp → Nat
  | .add => 0
  | .sub => 0
  | .mul => 1
  | .div => 1
  | .pow => 3

def BinaryOp.kind : BinaryOp → Kind
  | .add => .plus
  | .sub => .minus
  | .mul => .star
  | .div => .slash
  | .pow => .caret

def enclosed {α : Type} (opening closing : α) (needed level : Nat) (inner : List α) : List α :=
  if level < needed then opening :: (inner ++ [closing]) else inner

def Tree.print : Tree → List Char
  | .leaf span => span.chars
  | .negate operand => '-' :: enclosed '(' ')' 4 operand.level operand.print
  | .operation op left right =>
      enclosed '(' ')' op.leftLevel left.level left.print ++ op.sign.toList ++
        enclosed '(' ')' op.rightLevel right.level right.print

def Tree.written : Tree → List (Kind × List Char)
  | .leaf span => [(.number, span.chars)]
  | .negate operand =>
      (.minus, ['-']) :: enclosed (.opening, ['(']) (.closing, [')']) 4 operand.level operand.written
  | .operation op left right =>
      enclosed (.opening, ['(']) (.closing, [')']) op.leftLevel left.level left.written ++
        (op.kind, op.sign.toList) ::
          enclosed (.opening, ['(']) (.closing, [')']) op.rightLevel right.level right.written

inductive Label where
  | number (chars : List Char)
  | negate
  | operation (op : BinaryOp)
deriving DecidableEq, Repr

def Item.label : Item → Label
  | .number span => .number span.chars
  | .negate => .negate
  | .operation op => .operation op

def Span.Numeric (span : Span) : Prop := span.chars ≠ [] ∧ ∀ c ∈ span.chars, isNumberChar c = true

theorem sign_known (op : BinaryOp) : ∃ c, op.sign.toList = [c] ∧ kindOf c = some op.kind := by
  cases op <;> exact ⟨_, rfl, rfl⟩

theorem kind_chained (op : BinaryOp) (low : op.level < 2) : op.kind.chained = some op := by
  cases op with
  | pow => simp [BinaryOp.level] at low
  | _ => rfl

theorem spells_append {text more : List Char} {written other : List (Kind × List Char)}
    (spells : Spells text written) (rest : Spells more other) (parts : ∀ c ∈ more.head?, isNumberChar c = false) :
    Spells (text ++ more) (written ++ other) := by
  induction spells with
  | done => exact rest
  | blank space _ ih => exact .blank space ih
  | symbol known _ ih => exact .symbol known ih
  | @number digits text written nonempty numbers ends _ ih =>
      rw [List.append_assoc]
      refine .number nonempty numbers ?_ ih
      cases text with
      | nil => exact parts
      | cons c text => exact ends

theorem spells_enclosed {text : List Char} {written : List (Kind × List Char)} (needed level : Nat)
    (spells : Spells text written) :
    Spells (enclosed '(' ')' needed level text)
      (enclosed (.opening, ['(']) (.closing, [')']) needed level written) := by
  by_cases loose : level < needed
  · rw [enclosed, enclosed, if_pos loose, if_pos loose]
    have closed : Spells [')'] [(.closing, [')'])] := .symbol rfl .done
    exact .symbol rfl (spells_append spells closed fun c head => by cases head; rfl)
  · rwa [enclosed, enclosed, if_neg loose, if_neg loose]

theorem spells_print (tree : Tree) (numeric : ∀ span ∈ tree.leaves, span.Numeric) :
    Spells tree.print tree.written := by
  induction tree with
  | leaf span =>
      obtain ⟨nonempty, numbers⟩ := numeric span (List.mem_singleton.mpr rfl)
      have spelled := Spells.number nonempty numbers (fun c head => by cases head) .done
      rwa [List.append_nil] at spelled
  | negate operand ih => exact .symbol rfl (spells_enclosed 4 operand.level (ih numeric))
  | operation op left right leftIh rightIh =>
      obtain ⟨c, sign, known⟩ := sign_known op
      have first := spells_enclosed op.leftLevel left.level
        (leftIh fun span member => numeric span (List.mem_append_left _ member))
      have second := spells_enclosed op.rightLevel right.level
        (rightIh fun span member => numeric span (List.mem_append_right _ member))
      have joined := spells_append first (Spells.symbol known second) fun d head => by
        cases head
        exact (symbol_alone c op.kind known).2.1
      rw [Tree.print, Tree.written, sign, List.append_assoc]
      exact joined

-- Tokens written like this are read as items with these labels, wherever they stand and whatever the signs.
def Reads (level : Nat) (written : List (Kind × List Char)) (labels : List Label) : Prop :=
  ∀ word : List Token, word.map Token.written = written →
    ∃ items, items.map Item.label = labels ∧
      ∀ plus path, Phrase (fun _ => True) plus level path word items

theorem reads_looser {looser level : Nat} {written : List (Kind × List Char)} {labels : List Label}
    (loose : looser ≤ level) (reads : Reads level written labels) : Reads looser written labels := by
  intro word same
  obtain ⟨items, labelled, phrase⟩ := reads word same
  exact ⟨items, labelled, fun plus path => phrase_looser loose (phrase plus path)⟩

theorem written_cons {kind : Kind} {chars : List Char} {written : List (Kind × List Char)} {word : List Token}
    (same : word.map Token.written = (kind, chars) :: written) :
    ∃ token rest, word = token :: rest ∧ token.kind = kind ∧ token.span.chars = chars ∧
      rest.map Token.written = written := by
  obtain ⟨token, rest, rfl, first, others⟩ := List.map_eq_cons_iff.mp same
  cases first
  exact ⟨token, rest, rfl, rfl, rfl, others⟩

theorem written_group {written : List (Kind × List Char)} {word : List Token}
    (same : word.map Token.written = (.opening, ['(']) :: (written ++ [(.closing, [')'])])) :
    ∃ opening inner closing, word = opening :: (inner ++ [closing]) ∧ opening.kind = .opening ∧
      closing.kind = .closing ∧ inner.map Token.written = written := by
  obtain ⟨opening, rest, rfl, opens, -, others⟩ := written_cons same
  obtain ⟨inner, last, rfl, within, ended⟩ := List.map_eq_append_iff.mp others
  obtain ⟨closing, none, rfl, closes, -, nothing⟩ := written_cons ended
  obtain rfl := List.map_eq_nil_iff.mp nothing
  exact ⟨opening, inner, closing, rfl, opens, closes, within⟩

theorem reads_enclosed {needed level : Nat} {written : List (Kind × List Char)} {labels : List Label}
    (small : needed ≤ 3) (reads : Reads (min level 3) written labels) :
    Reads needed (enclosed (.opening, ['(']) (.closing, [')']) needed level written) labels := by
  by_cases loose : level < needed
  · rw [enclosed, if_pos loose]
    intro word same
    obtain ⟨opening, inner, closing, rfl, opens, closes, within⟩ := written_group same
    obtain ⟨items, labelled, phrase⟩ := reads inner within
    refine ⟨items, labelled, fun plus path => phrase_looser small ?_⟩
    exact phrase_group opens closes trivial (phrase_loosened (phrase plus path.inGroup))
  · rw [enclosed, if_neg loose]
    exact reads_looser (by omega) reads

theorem reads_number (chars : List Char) : Reads 3 [(.number, chars)] [.number chars] := by
  intro word same
  obtain ⟨token, rest, rfl, isNumber, rfl, nothing⟩ := written_cons same
  obtain rfl := List.map_eq_nil_iff.mp nothing
  exact ⟨[.number token.span], rfl, fun plus path => phrase_number isNumber⟩

theorem reads_negated_number (chars : List Char) :
    Reads 3 [(.minus, ['-']), (.number, chars)] [.number chars, .negate] := by
  intro word same
  obtain ⟨sign, rest, rfl, minus, -, others⟩ := written_cons same
  obtain ⟨token, rest, rfl, isNumber, rfl, nothing⟩ := written_cons others
  obtain rfl := List.map_eq_nil_iff.mp nothing
  refine ⟨[.number token.span, .negate], rfl, fun plus path => ?_⟩
  have signed : ∀ other ∈ [sign], other.kind.isSign plus = true := by simp [minus, Kind.isSign]
  simpa [negates, minus, negation] using Phrase.number signed isNumber

theorem reads_negated_group {written : List (Kind × List Char)} {labels : List Label}
    (reads : Reads 0 written labels) :
    Reads 3 ((.minus, ['-']) :: (.opening, ['(']) :: (written ++ [(.closing, [')'])])) (labels ++ [.negate]) := by
  intro word same
  obtain ⟨sign, rest, rfl, minus, -, others⟩ := written_cons same
  obtain ⟨opening, inner, closing, rfl, opens, closes, within⟩ := written_group others
  obtain ⟨items, rfl, phrase⟩ := reads inner within
  refine ⟨items ++ [.negate], List.map_append, fun plus path => ?_⟩
  have signed : ∀ other ∈ [sign], other.kind.isSign plus = true := by simp [minus, Kind.isSign]
  simpa [negates, minus, negation] using Phrase.group signed opens closes trivial (phrase plus path.inGroup)

theorem reads_operation {op : BinaryOp} {first second : List (Kind × List Char)} {before after : List Label}
    (left : Reads op.leftLevel first before) (right : Reads op.rightLevel second after) :
    Reads op.level (first ++ (op.kind, op.sign.toList) :: second) (before ++ after ++ [.operation op]) := by
  intro word same
  obtain ⟨leading, rest, rfl, leads, follows⟩ := List.map_eq_append_iff.mp same
  obtain ⟨sign, trailing, rfl, isSign, -, trails⟩ := written_cons follows
  obtain ⟨firstItems, rfl, leftPhrase⟩ := left leading leads
  obtain ⟨secondItems, rfl, rightPhrase⟩ := right trailing trails
  refine ⟨firstItems ++ secondItems ++ [.operation op], by simp [Item.label], fun plus path => ?_⟩
  by_cases chained : op.level < 2
  · have known : sign.kind.chained = some op := by rw [isSign, kind_chained op chained]
    have levels : op.leftLevel = op.level ∧ op.rightLevel = op.level + 1 := by
      cases op <;> simp_all [BinaryOp.level, BinaryOp.leftLevel, BinaryOp.rightLevel]
    rw [levels.1] at leftPhrase
    rw [levels.2] at rightPhrase
    have phrase := Phrase.chain rfl (Joint.sign known) (leftPhrase plus path) (rightPhrase plus path)
    rwa [List.append_assoc, List.singleton_append] at phrase
  · obtain rfl : op = .pow := by cases op <;> simp [BinaryOp.level] at chained ⊢
    exact .power isSign trivial (leftPhrase plus path) (rightPhrase plus path.inPower)

theorem reads_tree (tree : Tree) : Reads (min tree.level 3) tree.written (tree.items.map Item.label) := by
  induction tree with
  | leaf span => exact reads_number span.chars
  | negate operand ih =>
      rw [Tree.written, Tree.items, List.map_append]
      by_cases loose : operand.level < 4
      · rw [enclosed, if_pos loose]
        exact reads_negated_group (reads_looser (Nat.zero_le _) ih)
      · cases operand with
        | leaf span => exact reads_negated_number span.chars
        | negate operand => exact absurd (Nat.lt_succ_self 3) loose
        | operation op left right =>
            have below : op.level < 4 := by cases op <;> decide
            exact absurd below loose
  | operation op left right leftIh rightIh =>
      have small : op.leftLevel ≤ 3 ∧ op.rightLevel ≤ 3 ∧ op.level ≤ 3 := by cases op <;> decide
      obtain ⟨leftSmall, rightSmall, level⟩ := small
      have reads := reads_operation (reads_enclosed leftSmall leftIh) (reads_enclosed rightSmall rightIh)
      rw [Tree.items, List.map_append, List.map_append]
      exact reads_looser (Nat.min_le_left _ _) reads

theorem spells_without_end {text : List Char} {written : List (Kind × List Char)} (spells : Spells text written) :
    ∀ c ∈ text, c ≠ '\x00' := by
  induction spells with
  | done => exact nofun
  | blank space _ ih => exact List.forall_mem_cons.mpr ⟨(space_alone _ space).1, ih⟩
  | symbol known _ ih => exact List.forall_mem_cons.mpr ⟨(symbol_alone _ _ known).1, ih⟩
  | number _ numbers _ _ ih =>
      intro c member
      rcases List.mem_append.mp member with among | later
      · exact (number_char_alone c (numbers c among)).1
      · exact ih c later

theorem spelled_scan {text : List Char} {written : List (Kind × List Char)} (spells : Spells text written) :
    ∃ body finish, scan (String.ofList text) = .ok (body ++ [finish]) ∧ finish.kind = .finish ∧
      body.map Token.written = written := by
  have ends : sourceEnd text = text.length :=
    List.idxOf_eq_length fun member => spells_without_end spells _ member rfl
  have parted : Parted text 0 text := fun index c next => absurd next (Nat.succ_ne_zero index)
  have start : 0 + text.length = sourceEnd text := by rw [ends, Nat.zero_add]
  obtain ⟨body, scanned, -, same⟩ := scan_spelled spells [] 0 (by simp) start parted
  refine ⟨body, finishToken text (sourceEnd text), ?_, rfl, same⟩
  rw [scan, String.toList_ofList, scanned]

-- A text is read as items that do the same as others, and not only without limits, but whenever the limit on
-- levels is at least the nesting of the text and there are frames enough.
def IsReadAs (text : String) (items : List Item) : Prop :=
  ∃ tokens read, scan text = .ok tokens ∧ read.map Item.label = items.map Item.label ∧
    (∀ plus, (Rules.unlimited plus).parse tokens = .ok read) ∧
    ∀ (request : Number.TypeRequest) (limit : Quantity) (unaryPlus : Setting),
      limit.exceededBy (peakLevels unaryPlus.isTrue tokens) = false →
      peakFrames unaryPlus.isTrue tokens < frameBound →
      rpnOf ⟨request, .quantity limit, unaryPlus⟩ text = .ok read

theorem print_read (tree : Tree) (numeric : ∀ span ∈ tree.leaves, span.Numeric) :
    IsReadAs (String.ofList tree.print) tree.items := by
  obtain ⟨body, finish, scanned, isFinish, same⟩ := spelled_scan (spells_print tree numeric)
  obtain ⟨items, labelled, phrase⟩ := reads_looser (Nat.zero_le _) (reads_tree tree) body same
  have ends := ends_with_finish body finish isFinish
  have free := phrase_without_finish (phrase true .root)
  have unlimited (plus : Bool) : (Rules.unlimited plus).run .start (body ++ [finish]) = .ok items := by
    rw [run_start_ok_iff (Rules.unlimited plus) body [] finish items free isFinish]
    exact phrase_outward (phrase plus .root) (fun outer _ _ _ _ => unlimited_admits plus outer) .root
      (path_within_refl _)
  refine ⟨body ++ [finish], items, scanned, labelled, fun plus => ?_, ?_⟩
  · rw [Rules.parse, if_pos ends, unlimited plus]
  · intro request limit unaryPlus levels frames
    have admitted : (Options.mk request (.quantity limit) unaryPlus).rules.AdmitsUpTo
        ⟨peakLevels unaryPlus.isTrue (body ++ [finish]), peakFrames unaryPlus.isTrue (body ++ [finish])⟩ := by
      intro path _ within
      refine admits_outward _ _ _ within ⟨⟨limit, rfl, levels⟩, fun bound isBound => ?_⟩
      cases isBound
      exact frames
    have ran := run_limited (Options.mk request (.quantity limit) unaryPlus).rules (unlimited _) admitted
    exact rpn_parsed scanned (by simp only [parse, Rules.parse, if_pos ends, ran])

theorem leaf_item (tree : Tree) (span : Span) (member : span ∈ tree.leaves) : .number span ∈ tree.items := by
  induction tree with
  | leaf other => simpa [Tree.leaves, Tree.items] using member
  | negate operand ih => exact List.mem_append_left _ (ih member)
  | operation op left right leftIh rightIh =>
      refine List.mem_append_left _ ?_
      rcases List.mem_append.mp member with inLeft | inRight
      · exact List.mem_append_left _ (leftIh inLeft)
      · exact List.mem_append_right _ (rightIh inRight)

theorem printed_tree_read_back :
    (∀ tree : Tree, (∀ span ∈ tree.leaves, span.Numeric) → IsReadAs (String.ofList tree.print) tree.items) ∧
      ∀ items : List Item, wellFormed items = true → (∀ span, .number span ∈ items → span.Numeric) →
        ∃ text, IsReadAs text items := by
  refine ⟨print_read, fun items formed numeric => ?_⟩
  obtain ⟨tree, rfl⟩ := well_formed_tree items formed
  exact ⟨_, print_read tree fun span member => numeric span (leaf_item tree span member)⟩

def signedPowers : Tree :=
  .operation .sub
    (.operation .pow (.leaf (Span.whole "2"))
      (.operation .pow (.negate (.leaf (Span.whole "3"))) (.leaf (Span.whole "2"))))
    (.negate (.negate (.leaf (Span.whole "5"))))

theorem signed_powers_read_back :
    String.ofList signedPowers.print = "2^-3^2--(-5)" ∧
      (∃ items, rpnOf { maxDepth := .quantity (.whole 2) } "2^-3^2--(-5)" = .ok items ∧
        items.map Item.label = [.number ['2'], .number ['3'], .negate, .number ['2'], .operation .pow,
          .operation .pow, .number ['5'], .negate, .negate, .operation .sub]) ∧
      ∃ text, IsReadAs text [.number (Span.whole "1."), .negate, .number (Span.whole "2"), .operation .pow] := by
  have numeric : ∀ span ∈ signedPowers.leaves, span.Numeric := by
    intro span member
    simp only [signedPowers, Tree.leaves, List.mem_append, List.mem_singleton] at member
    rcases member with (rfl | rfl | rfl) | rfl <;> exact ⟨by decide, List.all_eq_true.mp (by decide)⟩
  obtain ⟨tokens, read, scanned, labelled, -, room⟩ := printed_tree_read_back.1 signedPowers numeric
  have deepest : (scan (String.ofList signedPowers.print)).map
      (fun tokens => (peakLevels true tokens, peakFrames true tokens)) = .ok (2, 6) := rfl
  rw [scanned] at deepest
  obtain ⟨levels, frames⟩ := Prod.mk.inj (Except.ok.inj deepest)
  refine ⟨rfl, ⟨read, room (.floating .double) (.whole 2) (.quantity (.flag true)) ?_ ?_, labelled⟩, ?_⟩
  · change decide ((2 : Int) < peakLevels true tokens) = false
    rw [levels]
    rfl
  · change peakFrames true tokens < frameBound
    rw [frames]
    decide
  · refine printed_tree_read_back.2 _ (by decide) fun span member => ?_
    simp only [List.mem_cons, Item.number.injEq, reduceCtorEq, List.not_mem_nil, or_false, false_or] at member
    rcases member with rfl | rfl <;> exact ⟨by decide, List.all_eq_true.mp (by decide)⟩

end Reckon
