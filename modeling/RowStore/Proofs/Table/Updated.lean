import Mathlib.Data.List.Forall2
import RowStore.Proofs.Columns.Identifier
import RowStore.Proofs.Sheet.Cells
import RowStore.Proofs.Table.Matched

/-!
# Which cells an update changes

* `Columns.newValue c fields p`, `Columns.newCell c fields p` : what an update writes at a position;
* `Table.cellFields` : the fields of an update by their positions; they are distinct
  (`nodup_cellFields`) and hold exactly the new cells (`newCell_eq_some_iff`);
* `Table.foldl_cellsFor` : the cells of an update rewrite the rows that fulfil its conditions, and no
  other row;
* `run_updateMany` : an update of all rows that fulfil its conditions does just that, and gives their
  number, if its values can be written.
-/

namespace RowStore

/-- The names of a mapping: they may name entries, and no two of them are equal. -/
structure Entries.Named {α : Type} (entries : Entries α) : Prop where
  keys : ∀ e ∈ entries, e.1.isKey = true
  names : entries.Pairwise fun a b => a.1.equals b.1 = false

/-- The value that an update gives a position: the field of the header there, unless it is the header of the
identifier. -/
def Columns.newValue (c : Columns) (fields : Entries Value) (p : Nat) : Option Value := do
  let header ← c.headers[p]?
  if c.identifierHeader.any (·.equals header) then none else fields.find? header

/-- What an update writes at a position. -/
def Columns.newCell (c : Columns) (fields : Entries Value) (p : Nat) : Option Value :=
  (c.newValue fields p).map Value.toCell

variable {c : Columns} {fields : Entries Value} {p : Nat} {v : Value}

/-- Equal names of a mapping are one name. -/
theorem Entries.Named.eq_of_equals (hf : fields.Named) {e e' : Value × Value} {k : Value}
    (he : e ∈ fields) (he' : e' ∈ fields) (hk : k.isKey = true) (heq : k.equals e.1 = true)
    (heq' : k.equals e'.1 = true) : e = e' := by
  obtain ⟨i, hi, rfl⟩ := List.mem_iff_getElem.mp he
  obtain ⟨j, hj, rfl⟩ := List.mem_iff_getElem.mp he'
  have hpairs := List.pairwise_iff_getElem.mp hf.names
  have hij : fields[i].1.equals fields[j].1 = true :=
    Value.equals_trans (hf.keys _ he) (Value.equals_symm hk heq) heq'
  have hji : fields[j].1.equals fields[i].1 = true := Value.equals_symm (hf.keys _ he) hij
  rcases Nat.lt_trichotomy i j with hlt | rfl | hlt
  · rw [hpairs i j hi hj hlt] at hij
    cases hij
  · rfl
  · rw [hpairs j i hj hi hlt] at hji
    cases hji

/-- Beside the new cells a rewritten row has the texts of before. -/
theorem Row.Rewritten.textAt_eq {values : Nat → Option Value} {before after : Row}
    (h : Rewritten values before after) (hp : values p = none) : after.textAt p = before.textAt p := by
  rw [textAt, textAt]
  rcases Nat.lt_or_ge p before.length with hin | hout
  · rw [h.kept p hp hin]
  · have hmissing : before.cell? p = none := List.getElem?_eq_none hout
    rw [hmissing]
    rcases h.gained p hp hout with hafter | ⟨hafter, -⟩
    · rw [hafter]
    · rw [hafter]
      rfl

namespace Table

/-- The fields of an update by their positions, with what is written there. -/
def cellFields (c : Columns) (changes : Entries Value) : List (Nat × Value) :=
  changes.filterMap fun e => (c.positions.find? e.1).map fun p => (p, e.2.toCell)

/-- The fields that an update keeps: those of known headers other than the identifier's. -/
def changesOf (c : Columns) (fields : Entries Value) : Entries Value :=
  (known c fields).filter fun e => c.identifierHeader.all fun header => !e.1.equals header

theorem mem_cellFields {changes : Entries Value} : (p, v) ∈ cellFields c changes ↔
    ∃ e ∈ changes, c.positions.find? e.1 = some p ∧ e.2.toCell = v := by
  simp only [cellFields, List.mem_filterMap, Option.map_eq_some_iff, Prod.mk.injEq]
  exact ⟨fun ⟨e, he, _, hq, hp, hv⟩ => ⟨e, he, hp ▸ hq, hv⟩,
    fun ⟨e, he, hq, hv⟩ => ⟨e, he, p, hq, rfl, hv⟩⟩

theorem mem_changesOf {e : Value × Value} : e ∈ changesOf c fields ↔
    e ∈ fields ∧ c.positions.has e.1 = true ∧
      ∀ header, c.identifierHeader = some header → e.1.equals header = false := by
  simp only [changesOf, known, List.mem_filter, Option.all_eq_true, Bool.not_eq_true', and_assoc]

/-- No two fields of an update are for one position. -/
theorem nodup_cellFields (hc : Distinct c.list) (hf : fields.Named) :
    ((cellFields c (changesOf c fields)).map (·.1)).Nodup := by
  have hpairs : (changesOf c fields).Pairwise fun a b => a.1.equals b.1 = false :=
    (hf.names.filter _).filter _
  rw [List.Nodup, List.pairwise_map, cellFields, List.pairwise_filterMap]
  refine hpairs.imp_of_mem fun {a b} ha hb hne x hx y hy heq => ?_
  obtain ⟨q, hq, rfl⟩ := Option.map_eq_some_iff.mp hx
  obtain ⟨q', hq', rfl⟩ := Option.map_eq_some_iff.mp hy
  cases (heq : q = q')
  obtain ⟨header, hheader, ha'⟩ := (Columns.find?_positions_iff hc).mp hq
  obtain ⟨header', hheader', hb'⟩ := (Columns.find?_positions_iff hc).mp hq'
  cases hheader.symm.trans hheader'
  have hkey := Columns.isKey_of_headers hc hheader
  have hakey := hf.keys a (mem_changesOf.mp ha).1
  rw [Value.equals_trans hakey (Value.equals_symm hkey ha') hb'] at hne
  cases hne

/-- The fields that an update keeps hold the values that it writes, position by position. -/
theorem newValue_eq_some_iff (hc : Distinct c.list) (hf : fields.Named) : c.newValue fields p = some v ↔
    ∃ e ∈ changesOf c fields, c.positions.find? e.1 = some p ∧ e.2 = v := by
  constructor
  · intro hnew
    obtain ⟨header, hheader, hnew⟩ := Option.bind_eq_some_iff.mp hnew
    have hkey := Columns.isKey_of_headers hc hheader
    obtain ⟨hid, hv⟩ := Option.ite_none_left_eq_some.mp hnew
    obtain ⟨k, hk, heq⟩ := Entries.exists_of_find? hv
    have hkey' := hf.keys _ hk
    have hposition := (Columns.find?_positions_iff hc).mpr
      ⟨header, hheader, Value.equals_symm hkey' heq⟩
    refine ⟨(k, v), mem_changesOf.mpr ⟨hk, by rw [Entries.has, hposition]; rfl, ?_⟩, hposition, rfl⟩
    intro identifier hidentifier
    rw [hidentifier] at hid
    refine Bool.eq_false_iff.mpr fun hki => hid ?_
    exact Value.equals_symm hkey (Value.equals_trans hkey (Value.equals_symm hkey' heq) hki)
  · rintro ⟨e, he, hposition, rfl⟩
    obtain ⟨hmem, -, hid⟩ := mem_changesOf.mp he
    obtain ⟨header, hheader, heq⟩ := (Columns.find?_positions_iff hc).mp hposition
    have hkey := Columns.isKey_of_headers hc hheader
    have hfind : fields.find? header = some e.2 := by
      cases hw : fields.find? header with
      | none =>
        have hne := Entries.find?_eq_none_iff.mp hw e hmem
        rw [Value.equals_symm hkey heq] at hne
        cases hne
      | some w =>
        obtain ⟨k, hk, heq'⟩ := Entries.exists_of_find? hw
        have hsame := hf.eq_of_equals hk hmem hkey (Value.equals_symm (hf.keys _ hk) heq') heq
        rw [← hsame]
    have hother : ¬ c.identifierHeader.any (·.equals header) = true := by
      cases hidentifier : c.identifierHeader with
      | none => exact Bool.false_ne_true
      | some identifier =>
        intro hany
        obtain ⟨col, hcol, hcolheader⟩ := Columns.exists_of_identifierHeader hidentifier
        have hidkey : identifier.isKey = true := hcolheader ▸ hc.keys col hcol
        have hidentical := Value.equals_symm hidkey (Value.equals_trans hidkey hany heq)
        rw [hid identifier hidentifier] at hidentical
        cases hidentical
    rw [Columns.newValue, hheader]
    change (if _ then _ else _) = _
    rw [if_neg hother, hfind]

/-- They hold what it writes there. -/
theorem newCell_eq_some_iff (hc : Distinct c.list) (hf : fields.Named) :
    c.newCell fields p = some v ↔ (p, v) ∈ cellFields c (changesOf c fields) := by
  rw [mem_cellFields, Columns.newCell, Option.map_eq_some_iff]
  constructor
  · rintro ⟨w, hw, rfl⟩
    obtain ⟨e, he, hposition, rfl⟩ := (newValue_eq_some_iff hc hf).mp hw
    exact ⟨e, he, hposition, rfl⟩
  · rintro ⟨e, he, hposition, rfl⟩
    exact ⟨e.2, (newValue_eq_some_iff hc hf).mpr ⟨e, he, hposition, rfl⟩, rfl⟩

/-- All values can be written iff all fields that an update keeps can. -/
theorem forall_newValue_hasCell_iff (hc : Distinct c.list) (hf : fields.Named) :
    (∀ p v, c.newValue fields p = some v → v.hasCell = true) ↔
      ∀ e ∈ changesOf c fields, e.2.hasCell = true := by
  constructor
  · intro h e he
    obtain ⟨p, hp⟩ := Option.isSome_iff_exists.mp (mem_changesOf.mp he).2.1
    exact h p e.2 ((newValue_eq_some_iff hc hf).mpr ⟨e, he, hp, rfl⟩)
  · intro h p v hv
    obtain ⟨e, he, -, rfl⟩ := (newValue_eq_some_iff hc hf).mp hv
    exact h e he

/-! ## The cells of an update -/

/-- The cell of a known header in the row below the first `n` ones. -/
theorem cellFor_eq_ok {field : Value × Value} {n col : Nat} (hcol : c.positions.find? field.1 = some col)
    (hcell : field.2.hasCell = true) : cellFor c ((n + 1 : Nat) : Int) field =
      .ok (Range.cell (n + 1) col (Nat.succ_le_succ (Nat.zero_le n)), field.2.toCell) := by
  rw [cellFor, hcol, Value.cellOf_of_hasCell hcell]
  dsimp only
  rw [Range.between, dif_pos ⟨by omega, by omega⟩, dif_pos ⟨by omega, by omega⟩]
  rfl

theorem hasCell_of_cellFor {field : Value × Value} {number : Int} {cell : Range × Value}
    (h : cellFor c number field = .ok cell) : field.2.hasCell = true := by
  rw [cellFor] at h
  split at h
  · cases h
  · split at h
    · obtain ⟨_, hcell, -⟩ := bind_eq_ok h
      rw [Value.cellOf] at hcell
      split at hcell
      · assumption
      · cases hcell
    · cases h

/-- Where a field cannot be written, an update of some rows has no cells. -/
theorem exists_error_cellsFor {numbers : List Int} {changes : Entries Value} (hnumbers : numbers ≠ [])
    (hcells : ¬ ∀ e ∈ changes, e.2.hasCell = true) : ∃ fault, cellsFor c numbers changes = .error fault := by
  rcases mapM_cases (fun p => cellFor c p.1 p.2)
    (numbers.flatMap fun number => changes.map fun field => (number, field)) with ⟨cells, -, hall⟩ | ⟨fault, hfault, -⟩
  · obtain ⟨number, rest, rfl⟩ := List.exists_cons_of_ne_nil hnumbers
    refine absurd (fun e he => ?_) hcells
    have hmem : (number, e) ∈ (number :: rest).flatMap fun number => changes.map fun field => (number, field) :=
      List.mem_flatMap.mpr ⟨number, List.mem_cons_self, List.mem_map_of_mem he⟩
    obtain ⟨cell, hcell⟩ := hall _ hmem
    exact hasCell_of_cellFor hcell
  · exact ⟨fault, hfault⟩

/-- The cells of one row, written one after another, rewrite that row. -/
theorem exists_cells_of_row {changes : Entries Value} (hknown : ∀ e ∈ changes, c.positions.has e.1 = true)
    (hwritable : ∀ e ∈ changes, e.2.hasCell = true) (n : Nat) :
    ∃ cells, changes.mapM (fun field => cellFor c ((n + 1 : Nat) : Int) field) = .ok cells ∧
      ∀ (top : Rows) (row : Row) (rest : Rows), top.length = n →
        cells.foldl Rows.setCell (top ++ row :: rest) =
          top ++ row.setAll (cellFields c changes) :: rest := by
  induction changes with
  | nil => exact ⟨[], rfl, fun _ _ _ _ => rfl⟩
  | cons field changes ih =>
    obtain ⟨hcell, hrest⟩ := List.forall_mem_cons.mp hwritable
    obtain ⟨cells, hcells, hfold⟩ := ih (fun e he => hknown e (List.mem_cons_of_mem _ he)) hrest
    obtain ⟨col, hcol⟩ := Option.isSome_iff_exists.mp (hknown field List.mem_cons_self)
    refine ⟨(Range.cell (n + 1) col (Nat.succ_le_succ (Nat.zero_le n)), field.2.toCell) :: cells,
      ?_, fun top row rest htop => ?_⟩
    · rw [List.mapM_cons, cellFor_eq_ok hcol hcell, hcells]
      rfl
    · have hfields : cellFields c (field :: changes) =
          (col, field.2.toCell) :: cellFields c changes := by
        rw [cellFields, List.filterMap_cons, hcol]
        rfl
      have hrow : (Range.cell (n + 1) col (Nat.succ_le_succ (Nat.zero_le n))).row =
          top.length + 1 := congrArg (· + 1) htop.symm
      rw [List.foldl_cons, Rows.setCell_append top row rest _ hrow, hfold _ _ _ htop, hfields,
        Row.setAll_cons]
      rfl

/-- The cells of several rows come row by row. -/
theorem cellsFor_cons (number : Int) (numbers : List Int) (changes : Entries Value) :
    cellsFor c (number :: numbers) changes = do
      let cells ← changes.mapM fun field => cellFor c number field
      return cells ++ (← cellsFor c numbers changes) := by
  rw [cellsFor, List.flatMap_cons, List.mapM_append, List.mapM_map]
  rfl

/-- The cells of an update rewrite the rows that pass a test, and no other row. -/
theorem exists_cellsFor {changes : Entries Value} (hknown : ∀ e ∈ changes, c.positions.has e.1 = true)
    (hwritable : ∀ e ∈ changes, e.2.hasCell = true) (passes : Row → Bool) (top data : Rows) :
    ∃ cells, cellsFor c (Rows.numbersFrom passes top.length data) changes = .ok cells ∧
      cells.foldl Rows.setCell (top ++ data) =
        top ++ data.map fun row => if passes row then row.setAll (cellFields c changes) else row := by
  induction data generalizing top with
  | nil => exact ⟨[], rfl, rfl⟩
  | cons row rest ih =>
    cases hpass : passes row with
    | false =>
      obtain ⟨cells, hcells, hfold⟩ := ih (top ++ [row])
      rw [List.length_append, List.length_singleton] at hcells
      refine ⟨cells, by rw [Rows.numbersFrom_of_not_passes hpass, hcells], ?_⟩
      simpa [hpass] using hfold
    | true =>
      obtain ⟨first, hfirst, hrow⟩ := exists_cells_of_row hknown hwritable top.length
      obtain ⟨cells, hcells, hfold⟩ := ih (top ++ [row.setAll (cellFields c changes)])
      rw [List.length_append, List.length_singleton] at hcells
      refine ⟨first ++ cells, ?_, ?_⟩
      · rw [Rows.numbersFrom_of_passes hpass, cellsFor_cons, hfirst, hcells]
        rfl
      · rw [List.foldl_append, hrow top row rest rfl]
        simpa [hpass] using hfold

variable {σ : Type} {party : Party σ} {K : Keeper party} {t : Table} {conditions : Entries Value}
  {h : Nat} {top data : Rows}

/-- The plan of an update is to write the cells of its fields into the rows that fulfil its conditions. -/
theorem planned_updateMany_eq (hw : Writable K t h) (htop : top.length = h)
    (hnames : c.Names conditions) (hsome : 0 < data.countP (c.Fulfils conditions))
    (hchanges : changesOf c fields ≠ []) :
    t.planned c (.updateMany (.mapping conditions) (.mapping fields)) (top ++ data) =
      (cellsFor c (numbersOf c conditions h data) (changesOf c fields)).map fun cells =>
        (.cells cells, data.countP (c.Fulfils conditions)) := by
  have hkept : fieldsChanged c (.mapping fields) = .ok (changesOf c fields) := by
    cases fields with
    | nil => exact absurd rfl hchanges
    | cons e rest =>
      change (if (changesOf c (e :: rest)).isEmpty = true then _ else _) = _
      rw [if_neg fun hempty => hchanges (List.isEmpty_iff.mp hempty)]
      rfl
  have hintent : t.intent c (.updateMany (.mapping conditions) (.mapping fields)) =
      .ok (.set (changesOf c fields) (.mapping conditions) false) := by
    obtain ⟨e, he, -⟩ := hnames
    cases conditions with
    | nil => cases he
    | cons e rest =>
      rw [intent, updating, hkept]
      rfl
  have hmatched : t.matched c (top ++ data) (.mapping conditions) false =
      .ok (numbersOf c conditions h data) := by
    rw [matched_of_names hw htop hnames, if_neg (Nat.pos_iff_ne_zero.mp hsome)]
  have hpermits : ∀ cells, t.grid.permits (.cells cells) = .ok () := by
    rintro (_ | ⟨cell, rest⟩)
    · rfl
    · exact hw.allows _
  rw [planned, hintent]
  change t.grid.permitted (t.outline c (top ++ data) _) = _
  rw [outline, hmatched, ← length_numbersOf c conditions h data]
  change t.grid.permitted (cellsFor c _ _ >>= fun cells => pure (.cells cells, _)) = _
  cases cellsFor c (numbersOf c conditions h data) (changesOf c fields) with
  | error fault => rfl
  | ok cells =>
    change (do t.grid.permits (.cells cells); return (Revision.cells cells, _)) = _
    rw [hpermits cells]
    rfl

/-- Where no call fails, an update of all rows that fulfil its conditions rewrites these rows and gives their
number, if its values can be written. Every other row, the header rows among them, and the order of the rows
stay. If one of the values cannot be written, the update gives zero and leaves the sheet alone. -/
theorem run_updateMany (K : Keeper party) (hw : Writable K t h) {s : Session} (hs : Ready c s)
    (hc : c.isEmpty = false) (hdistinct : Distinct c.list) {st : σ} (hst : K.sound st)
    (htop : top.length = h) (hrows : (K.ledger st).rows = top ++ data) (hnames : c.Names conditions)
    (hsome : 0 < data.countP (c.Fulfils conditions)) (hfields : fields.Named)
    (hkept : ∃ p, (c.newCell fields p).isSome) :
    let writable := ∀ p v, c.newValue fields p = some v → v.hasCell = true
    let ended := Act.run party (t.perform (.updateMany (.mapping conditions) (.mapping fields))) s st
    (writable → ended.1 = .ok (.count (data.countP (c.Fulfils conditions))) ∧
      ∃ data', (K.ledger ended.2.2).rows = top ++ data' ∧ List.Forall₂ (fun before after =>
        if c.Fulfils conditions before then Row.Rewritten (c.newCell fields) before after
        else after = before) data data') ∧
    (¬ writable → ended.1 = .ok (.count 0) ∧ K.ledger ended.2.2 = K.ledger st) := by
  intro writable ended
  have hwritable : writable ↔ ∀ e ∈ changesOf c fields, e.2.hasCell = true :=
    forall_newValue_hasCell_iff hdistinct hfields
  have hknown : ∀ e ∈ changesOf c fields, c.positions.has e.1 = true :=
    fun e he => (mem_changesOf.mp he).2.1
  have hchanges : changesOf c fields ≠ [] := by
    obtain ⟨p, hp⟩ := hkept
    obtain ⟨v, hv⟩ := Option.isSome_iff_exists.mp hp
    obtain ⟨e, he, -⟩ := mem_cellFields.mp ((newCell_eq_some_iff hdistinct hfields).mp hv)
    exact List.ne_nil_of_mem he
  have hplanned := planned_updateMany_eq hw htop hnames hsome hchanges
  rw [← hrows] at hplanned
  constructor
  · intro hcan
    obtain ⟨cells, hcells, hfold⟩ := exists_cellsFor hknown (hwritable.mp hcan)
      (fun row => decide (c.Fulfils conditions row)) top data
    rw [htop] at hcells
    rw [numbersOf, hcells] at hplanned
    obtain ⟨houtcome, hafter⟩ := run_of_planned K hw hs hc rfl ⟨[], rfl⟩ hst hplanned id
    refine ⟨houtcome, _, hafter.trans (by rw [hrows]; exact hfold), ?_⟩
    rw [List.forall₂_map_right_iff, List.forall₂_same]
    intro row _
    by_cases hrow : c.Fulfils conditions row
    · rw [if_pos hrow, if_pos (decide_eq_true hrow)]
      exact Row.rewritten_setAll (nodup_cellFields hdistinct hfields) fun p v =>
        newCell_eq_some_iff hdistinct hfields
    · rw [if_neg hrow, if_neg (by simpa using hrow)]
  · intro hcannot
    have hnumbers : numbersOf c conditions h data ≠ [] := by
      rw [← List.length_pos_iff, length_numbersOf]
      exact hsome
    obtain ⟨fault, hfault⟩ := exists_error_cellsFor (c := c) hnumbers (mt hwritable.mpr hcannot)
    rw [hfault] at hplanned
    exact run_of_unplanned_of_ends K hw hs hc rfl ⟨[], rfl⟩ hst (ends_updating _ _ _) hplanned

open Sample in
/-- Two users have no name, one of them no cell for it: both get one, and keep their identifiers. -/
theorem run_updateMany_nameless :
    let data := [row "e1" "", row "e2" "Alice", [.text "e3"]]
    let conditions : Entries Value := [(.text "Name", .null)]
    let fields : Entries Value := [(.text "id", .text "e9"), (.text "Name", .text "Nobody")]
    let K := Scripted.keeper fun _ => false
    let ended := Act.run (Scripted.party fun _ => false)
      ((table (.int 30000)).perform (.updateMany (.mapping conditions) (.mapping fields))) session
      (Scripted.ofRows ([row "id" "Name"] ++ data))
    ended.1 = .ok (.count 2) ∧
      ∃ data', (K.ledger ended.2.2).rows = [row "id" "Name"] ++ data' ∧
        List.Forall₂ (fun before after =>
          if columns.Fulfils conditions before then
            Row.Rewritten (columns.newCell fields) before after
          else after = before) data data' := by
  intro data conditions fields K
  have hs : Ready columns session := ⟨rfl, rfl⟩
  have hdistinct : Distinct columns.list := ⟨by decide, by decide⟩
  have hst : K.sound (Scripted.ofRows ([row "id" "Name"] ++ data)) :=
    ⟨fun _ h => (nomatch h), fun _ h => nomatch h⟩
  have hfields : fields.Named := ⟨by decide, by decide⟩
  have hwritable : ∀ p v, columns.newValue fields p = some v → v.hasCell = true :=
    (forall_newValue_hasCell_iff hdistinct hfields).mpr (by decide)
  exact (run_updateMany K Writable.sample hs rfl hdistinct hst rfl rfl (by decide) (by decide) hfields
    ⟨1, rfl⟩).1 hwritable

end Table

end RowStore
