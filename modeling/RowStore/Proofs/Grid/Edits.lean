import RowStore.Proofs.Grid.Batches
import RowStore.Proofs.Grid.Calls
import RowStore.Proofs.Grid.Revision

/-!
# Edits

* `Area` : a range in its written form; `Edit` : a change with arguments of the documented kinds, and
  `Edit.applied` : what it does to a sheet on its own;
* `Rows.foldl_clearFrom` : clearings one after another are one clearing from the first of their rows;
* `Realizes` : a call does what edits do one after another; `Batch.realizes` : the call of a batch does
  what its edits do, and a batch of edits of which the numbers have texts has a call.
-/

namespace RowStore

/-! ## One edit -/

/-- A range in its written form. -/
structure Area where
  text : Text
  range : Range
  reads : Range.named text = .ok range

/-- The area of a range. -/
def Area.ofRange (r : Range) : Area := ⟨r.a1, r, Range.named_a1 r⟩

/-- A change of a sheet with arguments of the documented kinds; rows are counted from 1. -/
inductive Edit
  | append (rows : Rows)
  | set (area : Area) (block : Rows)
  | delete (number : Int)
  | clear (number : Int) (positive : 1 ≤ number)

namespace Rows

/-- Writes rows of cells with the first cell at a row and a column, both counted from 0. -/
def overwrite (rows : Rows) (row col : Nat) : Rows → Rows
  | [] => rows
  | cells :: rest => overwrite (rows.changeRow (Row.setCells · col cells) row) (row + 1) col rest

/-- Clears all rows from the one with a number on, if there are as many that a clearing reaches. -/
def clearFrom (reach : Rows → Int) (rows : Rows) (number : Int) : Rows :=
  if reach rows < number then rows else rows.dropFrom number

theorem setRows_map_list (rows : Rows) (row col : Nat) (block : Rows) :
    rows.setRows row col (block.map .list) = (.ok (), rows.overwrite row col block) := by
  induction block generalizing rows row with
  | nil => rfl
  | cons cells rest ih => exact ih _ _

end Rows

namespace Area

/-- The block that overwrites the cells of an area. -/
def block (target : Area × Rows) : Block := ⟨.text target.1.text, target.2.value⟩

/-- Overwrites the cells of an area. -/
def overwritten (rows : Rows) (target : Area × Rows) : Rows :=
  rows.overwrite (target.1.range.row - 1) target.1.range.col target.2

theorem setBlock_block (rows : Rows) (target : Area × Rows) :
    rows.setBlock (block target) = (.ok (), overwritten rows target) := by
  have hparts : Rows.blockParts (block target) = .ok (target.1.range, target.2.map .list) := by
    have htext : (block target).range.expectText = .ok target.1.text := rfl
    simp only [Rows.blockParts, htext, bind, Except.bind, target.1.reads]
    rfl
  rw [Rows.setBlock, hparts]
  exact rows.setRows_map_list _ _ _

end Area

namespace Edit

/-- The change that is queued. -/
def change : Edit → Change
  | append rows => .appendRows rows
  | set area block => .set (Area.block (area, block))
  | delete number => .deleteRow number
  | clear number _ => .clearFrom number

/-- Whether the numbers that are written for an edit have numerals. Rows are deleted by number, and only the
row from which rows are cleared is written. -/
def hasText : Edit → Bool
  | clear number _ => hasNumeral number
  | _ => true

/-- What an edit does to a sheet on its own; `reach` says how many of its rows a clearing reaches. -/
def applied (reach : Rows → Int) (rows : Rows) : Edit → Rows
  | append more => rows ++ more
  | set area block => Area.overwritten rows (area, block)
  | delete number => rows.eraseRow number
  | clear number _ => rows.clearFrom reach number

end Edit

/-! ## Clearings -/

/-- How many rows of a sheet a clearing reaches; what a clearing has left, the next one reaches as far as
the first one has reached it. -/
def Reaches (reach : Rows → Int) : Prop :=
  ∀ rows number, 1 ≤ number →
    min (reach rows) (rows.dropFrom number).length ≤ reach (rows.dropFrom number)

namespace Rows

variable {reach : Rows → Int} {rows : Rows} {m n : Int}

theorem dropFrom_eq_take (h : 1 ≤ n) : rows.dropFrom n = rows.take (n.toNat - 1) := by
  have hbound : n - 1 = ((n.toNat - 1 : Nat) : Int) := by omega
  rw [dropFrom, hbound, Slice.upTo_natCast]

/-- Nothing is dropped from a number beyond the last row on. -/
theorem dropFrom_eq_self (h : rows.length < n) : rows.dropFrom n = rows := by
  rw [dropFrom_eq_take (by omega), List.take_of_length_le (by omega)]

theorem dropFrom_dropFrom (hm : 1 ≤ m) (hn : 1 ≤ n) :
    (rows.dropFrom m).dropFrom n = rows.dropFrom (min m n) := by
  rw [dropFrom_eq_take hm, dropFrom_eq_take hn, dropFrom_eq_take (by omega), List.take_take]
  congr 1
  omega

/-- A worksheet that never has fewer rows than the sheet. -/
theorem reaches_length : Reaches fun rows => rows.length := fun _ _ _ => Int.min_le_right _ _

/-- A worksheet with a fixed number of rows. -/
theorem reaches_min (count : Int) : Reaches fun rows => min count rows.length := by
  intro rows number _
  dsimp only
  omega

theorem clearFrom_of_lt (h : reach rows < n) : rows.clearFrom reach n = rows := if_pos h

theorem clearFrom_of_le (h : n ≤ reach rows) : rows.clearFrom reach n = rows.dropFrom n :=
  if_neg (Int.not_lt.mpr h)

/-- Two clearings are one from the first of their rows. -/
theorem clearFrom_clearFrom (hreach : Reaches reach) (hm : 1 ≤ m) (hn : 1 ≤ n) :
    (rows.clearFrom reach m).clearFrom reach n = rows.clearFrom reach (min m n) := by
  have hleft := hreach rows m hm
  have hlength : ((rows.dropFrom m).length : Int) ≤ m - 1 := by
    rw [dropFrom_eq_take hm, List.length_take]
    omega
  rcases Int.lt_or_le (reach rows) m with hrows | hrows
  · rw [clearFrom_of_lt hrows]
    rcases Int.lt_or_le (reach rows) n with hrows' | hrows'
    · rw [clearFrom_of_lt hrows', clearFrom_of_lt (by omega)]
    · rw [clearFrom_of_le hrows', clearFrom_of_le (by omega), Int.min_eq_right (by omega)]
  · rw [clearFrom_of_le hrows, clearFrom_of_le (show min m n ≤ reach rows by omega),
      ← dropFrom_dropFrom hm hn]
    rcases Int.lt_or_le (reach (rows.dropFrom m)) n with hleft' | hleft'
    · rw [clearFrom_of_lt hleft', dropFrom_eq_self (show ((rows.dropFrom m).length : Int) < n by omega)]
    · rw [clearFrom_of_le hleft']

/-- Clearings one after another are one clearing from the first of their rows. -/
theorem foldl_clearFrom (hreach : Reaches reach) (hm : 1 ≤ m) {others : List Int}
    (hothers : ∀ n ∈ others, 1 ≤ n) (rows : Rows) :
    others.foldl (clearFrom reach) (rows.clearFrom reach m) =
      rows.clearFrom reach (others.foldl min m) := by
  induction others generalizing m with
  | nil => rfl
  | cons n rest ih =>
    obtain ⟨hn, hrest⟩ := List.forall_mem_cons.mp hothers
    rw [List.foldl_cons, List.foldl_cons, clearFrom_clearFrom hreach hm hn]
    exact ih (by omega) hrest

end Rows

/-- The first of the rows is one of them, and none is before it. -/
theorem foldl_min_spec (m : Int) (ns : List Int) :
    ns.foldl min m ∈ m :: ns ∧ ∀ n ∈ m :: ns, ns.foldl min m ≤ n :=
  List.min?_eq_some_iff.mp List.min?_cons'

/-! ## Batches of edits -/

/-- Changes of one kind that edits are queued as show which edits these are. -/
theorem Edit.exists_map {γ δ : Type} (kind : γ → Change) (edit : δ → Edit) (value : δ → γ)
    (hkind : ∀ v e, kind v = Edit.change e → ∃ d, e = edit d ∧ v = value d) {vs : List γ}
    {es : List Edit} (h : vs.map kind = es.map change) :
    ∃ ds : List δ, es = ds.map edit ∧ vs = ds.map value := by
  induction vs generalizing es with
  | nil => exact ⟨[], List.map_eq_nil_iff.mp h.symm, rfl⟩
  | cons v rest ih =>
    obtain ⟨e, es, rfl, he, hrest⟩ := List.map_eq_cons_iff.mp h.symm
    obtain ⟨d, rfl, rfl⟩ := hkind v e he.symm
    obtain ⟨ds, rfl, rfl⟩ := ih hrest.symm
    exact ⟨d :: ds, rfl, rfl⟩

namespace Grid

theorem joined_map_value (parts : List Rows) :
    joined (parts.map Rows.value) = .ok (parts.flatten.map .list) := by
  have heach : (parts.map Rows.value).mapM Value.each = .ok (parts.map (List.map .list)) := by
    induction parts with
    | nil => rfl
    | cons rows rest ih =>
      rw [List.map_cons, List.mapM_cons, ih]
      rfl
  rw [joined, heach, List.map_flatten]
  rfl

/-- The least of integers is their minimum. -/
theorem least_map_int (m : Int) (ns : List Int) :
    least (.int m) (ns.map .int) = .ok (.int (ns.foldl min m)) := by
  induction ns generalizing m with
  | nil => rfl
  | cons n rest ih =>
    rw [List.map_cons, least, Value.before_int, List.foldl_cons]
    rcases Int.lt_or_le n m with h | h
    · rw [decide_eq_true h, Int.min_eq_right (Int.le_of_lt h)]
      exact ih n
    · rw [decide_eq_false (Int.not_lt.mpr h), Int.min_eq_left h]
      exact ih m

theorem clearing_int (number : Int) (size : Int × Int) :
    SheetCalls.clearing (.int number) size = .ok (if size.1 < number then none
      else some (.clear (SheetCalls.areaFrom (.int number) size.1 size.2))) := by
  rw [SheetCalls.clearing, Value.before_int]
  by_cases h : size.1 < number
  · rw [decide_eq_true h, if_pos h]
    rfl
  · rw [decide_eq_false h, if_neg h]
    rfl

end Grid

/-- An area that is all cells of a worksheet of a size from the first row of clearings on. -/
def Edit.Cleared (es : List Edit) (size : Int × Int) (area : String) : Prop :=
  ∃ number positive, .clear number positive ∈ es ∧
    (∀ other positive', .clear other positive' ∈ es → number ≤ other) ∧
    SheetCalls.Reaching area number size

/-- A call, or none, that does what edits do one after another, in a worksheet of a size; the sheet
does not refuse it, and an area that it clears is all cells from the first of their rows on. -/
structure Realizes (reach : Rows → Int) (size : Int × Int) (es : List Edit) (w? : Option SheetWrite) :
    Prop where
  accepted : ∀ w, w? = some w → ∀ rows : Rows, (rows.apply w).1 = .ok ()
  cleared : ∀ area, w? = some (.clear area) → Edit.Cleared es size area
  effect : ∀ l : Ledger, min size.1 l.rows.length = reach l.rows →
    (l.sending w?).rows = es.foldl (Edit.applied reach) l.rows

section
variable {reach : Rows → Int} {size : Int × Int} (first : {n : Int // 1 ≤ n}) (others : List {n : Int // 1 ≤ n})

/-- Clearings one after another clear from the first of their rows on. -/
theorem Edit.foldl_clear (hreach : Reaches reach) (rows : Rows) :
    ((first :: others).map fun n => Edit.clear n.1 n.2).foldl (Edit.applied reach) rows =
      rows.clearFrom reach ((others.map Subtype.val).foldl min first.1) := by
  have hothers : ∀ n ∈ others.map Subtype.val, 1 ≤ n := by
    intro n hn
    obtain ⟨n, -, rfl⟩ := List.mem_map.mp hn
    exact n.2
  rw [List.map_cons, List.foldl_cons, List.foldl_map, ← Rows.foldl_clearFrom hreach first.2 hothers rows,
    List.foldl_map]
  rfl

theorem Edit.cleared_areaFrom (h : (others.map Subtype.val).foldl min first.1 ≤ size.1) :
    Edit.Cleared ((first :: others).map fun n => .clear n.1 n.2) size
      (SheetCalls.areaFrom (.int ((others.map Subtype.val).foldl min first.1)) size.1 size.2) := by
  obtain ⟨hmem, hleast⟩ := foldl_min_spec first.1 (others.map Subtype.val)
  rw [← List.map_cons] at hmem
  obtain ⟨n, hn, hnumber⟩ := List.mem_map.mp hmem
  rw [← hnumber] at h hleast ⊢
  refine ⟨n.1, n.2, List.mem_map.mpr ⟨n, hn, rfl⟩, ?_, SheetCalls.reaching_areaFrom n.2 h⟩
  intro other positive hother
  obtain ⟨m, hm, heq⟩ := List.mem_map.mp hother
  cases heq
  exact hleast m.1 (List.mem_map_of_mem (f := Subtype.val) hm)

end

namespace Realizes

variable {reach : Rows → Int} {size : Int × Int} {es : List Edit}

theorem of_apply {w : SheetWrite} (hw : ∀ area, w ≠ .clear area)
    (h : ∀ rows : Rows, rows.apply w = (.ok (), es.foldl (Edit.applied reach) rows)) :
    Realizes reach size es (some w) where
  accepted := by
    rintro _ ⟨⟩ rows
    rw [h]
  cleared area harea := absurd (Option.some.inj harea) (hw area)
  effect l _ := by rw [Ledger.sending, Ledger.rows_after, h]

theorem append (parts : List Rows) : Realizes reach size (parts.map .append)
    (if parts.flatten = [] then none else some (.append parts.flatten)) := by
  have hfold : ∀ rows : Rows,
      (parts.map Edit.append).foldl (Edit.applied reach) rows = rows ++ parts.flatten := by
    intro rows
    rw [List.foldl_map]
    induction parts generalizing rows with
    | nil => exact (List.append_nil rows).symm
    | cons more rest ih =>
      rw [List.foldl_cons, ih, List.flatten_cons]
      exact List.append_assoc _ _ _
  split
  · next h => exact ⟨nofun, nofun, fun l _ => by rw [hfold, h, List.append_nil]; rfl⟩
  · exact of_apply nofun fun rows => by rw [hfold]; rfl

theorem set (targets : List (Area × Rows)) :
    Realizes reach size (targets.map fun d => .set d.1 d.2)
      (if targets = [] then none else some (.setBlocks (targets.map Area.block))) := by
  split
  · next h =>
    subst h
    exact ⟨nofun, nofun, fun _ _ => rfl⟩
  · refine of_apply nofun fun rows => ?_
    rw [List.foldl_map]
    exact (Rows.inTurn_map _ _ _ _).trans (Rows.inTurn_eq_foldl Area.setBlock_block _ _)

theorem delete (numbers : List Int) : Realizes reach size (numbers.map .delete)
    (if numbers = [] then none else some (.deleteSpans (numbers.map Revision.spanOf))) := by
  split
  · next h =>
    subst h
    exact ⟨nofun, nofun, fun _ _ => rfl⟩
  · refine of_apply nofun fun rows => ?_
    rw [List.foldl_map]
    exact (Rows.inTurn_map _ _ _ _).trans (Rows.inTurn_eq_foldl Rows.deleteSpan_spanOf _ _)

theorem clear (hreach : Reaches reach) (first : {n : Int // 1 ≤ n})
    (others : List {n : Int // 1 ≤ n}) :
    let number := (others.map Subtype.val).foldl min first.1
    Realizes reach size ((first :: others).map fun n => .clear n.1 n.2)
      (if size.1 < number then none
        else some (.clear (SheetCalls.areaFrom (.int number) size.1 size.2))) := by
  intro number
  have hfold := Edit.foldl_clear first others hreach
  by_cases h : size.1 < number
  · rw [if_pos h]
    refine ⟨nofun, nofun, fun l hl => ?_⟩
    rw [hfold, Rows.clearFrom_of_lt (show reach l.rows < number by omega)]
    rfl
  · rw [if_neg h]
    refine ⟨?_, ?_, fun l hl => ?_⟩
    · rintro _ ⟨⟩ rows
      rw [Rows.apply_areaFrom]
    · rintro _ ⟨⟩
      exact Edit.cleared_areaFrom first others (Int.not_lt.mp h)
    · have hrows : (l.sending (some (.clear (SheetCalls.areaFrom (.int number) size.1 size.2)))).rows =
          l.rows.dropFrom number := by
        rw [Ledger.sending, Ledger.rows_after, Rows.apply_areaFrom]
      rw [hfold, hrows]
      rcases Int.lt_or_le (reach l.rows) number with hl' | hl'
      · rw [Rows.clearFrom_of_lt hl', Rows.dropFrom_eq_self (by omega)]
      · rw [Rows.clearFrom_of_le hl']

end Realizes

/-- The first of the rows is written when they are cleared. -/
theorem Batch.call_clear (first : {n : Int // 1 ≤ n}) (others : List {n : Int // 1 ≤ n}) (size : Int × Int) :
    (Batch.clear (.int first.1) (others.map (Value.int ∘ Subtype.val))).call size =
      ((Value.int ((others.map Subtype.val).foldl min first.1)).checkText >>= fun _ =>
        SheetCalls.clearing (.int ((others.map Subtype.val).foldl min first.1)) size) := by
  have hleast := Grid.least_map_int first.1 (others.map Subtype.val)
  rw [List.map_map] at hleast
  rw [Batch.call, hleast]
  rfl

/-- A clearing of rows is sent once the first of them is written; the other ones need no numeral. -/
theorem Batch.call_clear_iff (first : {n : Int // 1 ≤ n}) (others : List {n : Int // 1 ≤ n}) (size : Int × Int)
    {w? : Option SheetWrite} :
    (Batch.clear (.int first.1) (others.map (Value.int ∘ Subtype.val))).call size = .ok w? ↔
      (Value.int ((others.map Subtype.val).foldl min first.1)).hasText = true ∧
        w? = if size.1 < (others.map Subtype.val).foldl min first.1 then none
          else some (.clear (SheetCalls.areaFrom (.int ((others.map Subtype.val).foldl min first.1)) size.1 size.2)) := by
  rw [Batch.call_clear, Grid.clearing_int]
  cases htext : (Value.int ((others.map Subtype.val).foldl min first.1)).hasText with
  | false =>
    rw [Value.checkText_of_not_hasText htext]
    exact iff_of_false (fun h => by cases h) fun h => by cases h.1
  | true =>
    rw [Value.checkText_of_hasText htext, and_iff_right rfl]
    constructor
    · rintro ⟨⟩
      rfl
    · rintro rfl
      rfl

/-- The call of a batch of edits does what they do one after another, and there is one if their numbers
have texts. -/
theorem Batch.realizes {reach : Rows → Int} (hreach : Reaches reach) {b : Batch} {es : List Edit}
    (hb : b.changes = es.map Edit.change) (size : Int × Int) :
    ∃ w?, Realizes reach size es w? ∧ (∀ sent, b.call size = .ok sent → sent = w?) ∧
      ((∀ e ∈ es, e.hasText = true) → b.call size = .ok w?) := by
  have of_call : ∀ {w? : Option SheetWrite}, Realizes reach size es w? → b.call size = .ok w? →
      ∃ w?, Realizes reach size es w? ∧ (∀ sent, b.call size = .ok sent → sent = w?) ∧
        ((∀ e ∈ es, e.hasText = true) → b.call size = .ok w?) :=
    fun hw hcall => ⟨_, hw, fun _ hsent => Except.ok.inj (hsent.symm.trans hcall), fun _ => hcall⟩
  cases b with
  | append parts =>
    obtain ⟨ds, rfl, rfl⟩ := Edit.exists_map .append .append Rows.value
      (by rintro v (_ | _ | _ | _) ⟨⟩; exact ⟨_, rfl, rfl⟩) hb
    refine of_call (Realizes.append ds) ?_
    rw [Batch.call, Grid.joined_map_value]
    by_cases h : ds.flatten = []
    · rw [if_pos h, h]
      rfl
    · have hrows : (ds.flatten.map Value.list).isEmpty = false := by simpa using h
      change (if (ds.flatten.map Value.list).isEmpty then _ else _) = _
      rw [if_neg h, hrows, if_neg Bool.false_ne_true, Rows.ofValues_map_list]
      rfl
  | set blocks =>
    obtain ⟨ds, rfl, rfl⟩ := Edit.exists_map .set (fun d => .set d.1 d.2) Area.block
      (by rintro v (_ | _ | _ | _) ⟨⟩; exact ⟨⟨_, _⟩, rfl, rfl⟩) hb
    refine of_call (Realizes.set ds) ?_
    rw [Batch.call]
    cases ds <;> rfl
  | delete rows =>
    obtain ⟨ds, rfl, rfl⟩ := Edit.exists_map .delete .delete .int
      (by rintro v (_ | _ | _ | _) ⟨⟩; exact ⟨_, rfl, rfl⟩) hb
    refine of_call (Realizes.delete ds) ?_
    rw [Batch.call, Grid.spansOf_map_int]
    cases ds <;> rfl
  | clear first others =>
    obtain ⟨ds, rfl, hvalues⟩ := Edit.exists_map .clear
      (fun n : {n : Int // 1 ≤ n} => .clear n.1 n.2) (fun n => .int n.1)
      (by rintro v (_ | _ | _ | _) ⟨⟩; exact ⟨⟨_, by assumption⟩, rfl, rfl⟩) hb
    obtain ⟨d, ds, rfl, rfl, rfl⟩ := List.map_eq_cons_iff.mp hvalues.symm
    refine ⟨_, Realizes.clear hreach d ds, fun sent hsent => ?_, fun htext => ?_⟩
    · exact ((Batch.call_clear_iff d ds size).mp hsent).2
    · have hmem := (foldl_min_spec d.1 (ds.map Subtype.val)).1
      rw [← List.map_cons] at hmem
      obtain ⟨n, hn, hnumber⟩ := List.mem_map.mp hmem
      have hnumeral := htext _ (List.mem_map_of_mem hn)
      exact (Batch.call_clear_iff d ds size).mpr ⟨hnumber ▸ hnumeral, rfl⟩
  | foreign v =>
    obtain ⟨e, -, -, he, -⟩ := List.map_eq_cons_iff.mp hb.symm
    cases e <;> cases he

/-- The maximal runs of edits of the same kind. -/
def Edit.runs (es : List Edit) : List (List Edit) := es.splitBy fun e next => e.change.alike next.change

/-- The batches of edits are their runs. -/
theorem Edit.map_changes_batches (es : List Edit) :
    (batches (es.map change)).map Batch.changes = (runs es).map (List.map change) := by
  rw [RowStore.map_changes_batches, splitBy_map]
  rfl

/-- Each batch of edits is the one of a run. -/
theorem Edit.exists_run {es : List Edit} {b : Batch} (hb : b ∈ batches (es.map change)) :
    ∃ run ∈ runs es, b.changes = run.map change := by
  have hmem := List.mem_map_of_mem (f := Batch.changes) hb
  rw [map_changes_batches] at hmem
  obtain ⟨run, hrun, heq⟩ := List.mem_map.mp hmem
  exact ⟨run, hrun, heq.symm⟩

end RowStore
