import Mathlib.Data.List.Nodup
import RowStore.Proofs.Columns.Identifier
import RowStore.Proofs.Table.Input

/-!
# The rows of new records

* `newRow? c record` : the row of a record that may be created as far as the record alone goes;
* `givenTexts`, `writtenTexts` : the identifier texts of records as they are given, which are compared with
  each other, and as they are written, which are compared with the sheet's (`textsIn`);
* `rowsOf_eq_ok_iff`, `outline_append_eq_ok_iff` : when records have rows, and when a sheet takes rows in;
* `Fits c data records rows` : the records have these rows, and none of their identifiers stands in the
  sheet; `fits_cons_iff` : a list of records fits if its first one does and the others fit after it.
-/

namespace RowStore.Table

variable {c : Columns} {header record : Value} {records : List Value} {row : Row} {rows data : Rows}
  {p : Nat}

/-! ## Identifiers -/

/-- The value of a record under a known header, such as the identifier's; null if it has none. -/
def identifierIn (c : Columns) (header record : Value) : Value :=
  match record with
  | .mapping entries => ((known c entries).find? header).getD .null
  | _ => .null

/-- The texts of the identifiers that records are given, without white space at their ends. -/
def givenTexts (c : Columns) (records : List Value) : List Text :=
  match c.identifierHeader with
  | some header => records.map fun record => Text.trim (identifierIn c header record).asText
  | none => []

/-- The texts of the cells into which the identifiers of records are written. -/
def writtenTexts (c : Columns) (records : List Value) : List Text :=
  match c.identifierHeader with
  | some header => records.map fun record => (identifierIn c header record).toCell.asText
  | none => []

/-- The texts of the cells in the identifier column. -/
def textsIn (c : Columns) (rows : Rows) : List Text :=
  match c.identifierHeader.bind c.positions.find? with
  | some p => (cellsAt p rows).map Value.asText
  | none => []

theorem givenTexts_nil (c : Columns) : givenTexts c [] = [] := by
  unfold givenTexts
  cases c.identifierHeader <;> rfl

theorem givenTexts_cons (c : Columns) (record : Value) (rest : List Value) :
    givenTexts c (record :: rest) = givenTexts c [record] ++ givenTexts c rest := by
  unfold givenTexts
  cases c.identifierHeader <;> rfl

theorem givenTexts_of_none (hid : c.identifierHeader = none) (records : List Value) : givenTexts c records = [] := by
  rw [givenTexts, hid]

theorem givenTexts_singleton (hid : c.identifierHeader = some header) (entries : Entries Value) :
    givenTexts c [.mapping entries] = [Text.trim (((known c entries).find? header).getD .null).asText] := by
  rw [givenTexts, hid]
  rfl

theorem writtenTexts_nil (c : Columns) : writtenTexts c [] = [] := by
  unfold writtenTexts
  cases c.identifierHeader <;> rfl

theorem writtenTexts_cons (c : Columns) (record : Value) (rest : List Value) :
    writtenTexts c (record :: rest) = writtenTexts c [record] ++ writtenTexts c rest := by
  unfold writtenTexts
  cases c.identifierHeader <;> rfl

theorem textsIn_append (c : Columns) (rows more : Rows) :
    textsIn c (rows ++ more) = textsIn c rows ++ textsIn c more := by
  unfold textsIn
  cases c.identifierHeader.bind c.positions.find? with
  | none => rfl
  | some p => simp only [cellsAt, List.filterMap_append, List.map_append]

/-- One record has at most one identifier. -/
theorem nodup_givenTexts_singleton (c : Columns) (record : Value) : (givenTexts c [record]).Nodup := by
  unfold givenTexts
  cases c.identifierHeader with
  | none => exact List.nodup_nil
  | some header => exact List.nodup_singleton _

theorem nodup_writtenTexts_singleton (c : Columns) (record : Value) :
    (writtenTexts c [record]).Nodup := by
  unfold writtenTexts
  cases c.identifierHeader with
  | none => exact List.nodup_nil
  | some header => exact List.nodup_singleton _

/-! ## Rows -/

/-- Under a header a record has the value that it has before its unknown fields are dropped. -/
theorem find?_known (hc : Distinct c.list) (hheader : header ∈ c.headers) (entries : Entries Value) :
    (known c entries).find? header = entries.find? header := by
  obtain ⟨p, hp⟩ := List.mem_iff_getElem?.mp hheader
  have hhas : ∀ e : Value × Value, e.1.equals header = true → c.positions.has e.1 = true := by
    intro e he
    have hkey := Value.isKey_of_equals (Columns.isKey_of_headers hc hp) he
    have hposition := (Columns.find?_positions_iff hc).mpr ⟨header, hp, Value.equals_symm hkey he⟩
    rw [Entries.has, hposition]
    rfl
  have hboth : (fun e : Value × Value => decide (c.positions.has e.1 = true ∧ e.1.equals header = true)) =
      fun e => e.1.equals header := by
    funext e
    rw [Bool.eq_iff_iff, decide_eq_true_iff, and_iff_right_of_imp (hhas e)]
  rw [Entries.find?_eq, Entries.find?_eq, known, List.find?_filter, hboth]

/-- Whether a record can be written: every value under a header has a cell, and the identifier has a text. -/
def hasCells (c : Columns) (record : Value) : Bool :=
  (c.headers.all fun header => (identifierIn c header record).hasCell) &&
    c.identifierHeader.all fun header => (identifierIn c header record).hasText

/-- The cells of fields that can be written, in the order of the headers. -/
def cellsIn (c : Columns) (entries : Entries Value) : Row :=
  c.headers.map fun header => ((entries.find? header).getD .null).toCell

/-- The row of a record with a known field and an identifier that is not blank, if it can be written. -/
def newRow? (c : Columns) (record : Value) : Option Row :=
  match record with
  | .mapping (e :: rest) =>
    let fields := known c (e :: rest)
    if fields = [] ∨ [] ∈ givenTexts c [record] ∨ hasCells c record = false then none
    else some (cellsIn c fields)
  | _ => none

theorem newRow?_eq_some (h : newRow? c record = some row) :
    ∃ entries, record = .mapping entries ∧ row = cellsIn c (known c entries) := by
  unfold newRow? at h
  split at h
  · obtain ⟨-, h⟩ := Option.ite_none_left_eq_some.mp h
    cases h
    exact ⟨_, rfl, rfl⟩
  · cases h

theorem mapM_cellOf_eq_ok_iff {values : List Value} {cells : List Value} :
    values.mapM Value.cellOf = .ok cells ↔
      (values.all Value.hasCell = true) ∧ cells = values.map Value.toCell := by
  induction values generalizing cells with
  | nil => simp [pure, Except.pure, eq_comm]
  | cons v rest ih =>
    rw [List.mapM_cons, List.all_cons, List.map_cons]
    cases hv : v.hasCell with
    | false =>
      rw [Value.cellOf_of_not_hasCell hv]
      exact ⟨fun h => (nomatch h), fun h => nomatch h.1⟩
    | true =>
      rw [Value.cellOf_of_hasCell hv]
      constructor
      · intro h
        obtain ⟨cell, hcell, h⟩ := bind_eq_ok h
        obtain ⟨more, hmore, h⟩ := bind_eq_ok h
        cases hcell
        cases h
        obtain ⟨hall, rfl⟩ := ih.mp hmore
        exact ⟨hall, rfl⟩
      · rintro ⟨hall, rfl⟩
        dsimp only [bind, Except.bind]
        rw [ih.mpr ⟨hall, rfl⟩]
        rfl

/-- The known fields of a record have cells if each value under a header has one. -/
theorem cellsOf_eq_ok_iff {entries : Entries Value} : cellsOf c (known c entries) = .ok row ↔
    (c.headers.all fun header => (identifierIn c header (.mapping entries)).hasCell) = true ∧
      row = cellsIn c (known c entries) := by
  have hvalues : cellsOf c (known c entries) =
      (c.headers.map fun header => identifierIn c header (.mapping entries)).mapM Value.cellOf := by
    rw [cellsOf, List.mapM_map]
    rfl
  rw [hvalues, mapM_cellOf_eq_ok_iff, List.all_map, List.map_map]
  rfl

theorem identifierText_eq_ok_iff {position : Nat} {entries : Entries Value} {before : List Text}
    {text : Text} : identifierText position header entries before = .ok text ↔
      ((entries.find? header).getD .null).hasText = true ∧
        Text.trim ((entries.find? header).getD .null).asText = text ∧ text ≠ [] ∧ text ∉ before := by
  rw [identifierText]
  cases htext : ((entries.find? header).getD .null).hasText with
  | false =>
    rw [Value.comparedText_of_not_hasText htext]
    exact ⟨fun h => (nomatch h), fun h => nomatch h.1⟩
  | true =>
    rw [Value.comparedText_of_hasText htext, and_iff_right rfl]
    change (if _ then _ else _) = _ ↔ _
    constructor
    · intro h
      split at h
      · cases h
      · rename_i hne
        split at h
        · cases h
        · rename_i hnew
          cases h
          exact ⟨rfl, mt List.isEmpty_iff.mpr hne, mt List.contains_iff_mem.mpr hnew⟩
    · rintro ⟨rfl, hne, hnew⟩
      rw [if_neg (mt List.isEmpty_iff.mp hne), if_neg (mt List.contains_iff_mem.mp hnew)]
      rfl

/-- A record with a known field has a row if its identifier is not blank and its fields can be written. -/
theorem newRow?_mapping_eq_some_iff {entries : Entries Value} (hknown : known c entries ≠ []) :
    newRow? c (.mapping entries) = some row ↔ [] ∉ givenTexts c [.mapping entries] ∧
      hasCells c (.mapping entries) = true ∧ row = cellsIn c (known c entries) := by
  cases entries with
  | nil => exact absurd rfl hknown
  | cons e rest =>
    rw [newRow?, Option.ite_none_left_eq_some, not_or, not_or, and_iff_right hknown, Bool.not_eq_false, and_assoc,
      Option.some.injEq, eq_comm (a := cellsIn _ _)]

/-- The row of a record with a known field, and the texts of identifiers after it. -/
theorem rowFor_mapping_eq_ok_iff {position : Nat} {before texts : List Text} {entries : Entries Value}
    (hknown : known c entries ≠ []) :
    rowFor c position before (.mapping entries) = .ok (row, texts) ↔ newRow? c (.mapping entries) = some row ∧
      before.Disjoint (givenTexts c [.mapping entries]) ∧ texts = before ++ givenTexts c [.mapping entries] := by
  cases entries with
  | nil => exact absurd rfl hknown
  | cons e rest =>
    rw [rowFor, if_neg (mt List.isEmpty_iff.mp hknown), newRow?_mapping_eq_some_iff hknown, hasCells]
    cases hid : c.identifierHeader with
    | none =>
      rw [givenTexts_of_none hid, List.append_nil, Option.all_none, Bool.and_true, ← cellsOf_eq_ok_iff]
      constructor
      · intro h
        obtain ⟨cells, hcells, h⟩ := bind_eq_ok h
        cases h
        exact ⟨⟨List.not_mem_nil, hcells⟩, List.disjoint_nil_right _, rfl⟩
      · rintro ⟨⟨-, hcells⟩, -, rfl⟩
        change (cellsOf c (known c (e :: rest)) >>= _) = _
        rw [hcells]
        rfl
    | some header =>
      rw [givenTexts_singleton hid, List.disjoint_singleton, Option.all_some, Bool.and_eq_true, List.mem_singleton]
      constructor
      · intro h
        obtain ⟨text, htext, h⟩ := bind_eq_ok h
        obtain ⟨cells, hcells, h⟩ := bind_eq_ok h
        obtain ⟨hhas, rfl, hne, hnew⟩ := identifierText_eq_ok_iff.mp htext
        obtain ⟨hall, rfl⟩ := cellsOf_eq_ok_iff.mp hcells
        cases h
        exact ⟨⟨hne.symm, ⟨hall, hhas⟩, rfl⟩, hnew, rfl⟩
      · rintro ⟨⟨hne, ⟨hall, hhas⟩, rfl⟩, hnew, rfl⟩
        have htext : identifierText position header (known c (e :: rest)) before = .ok _ :=
          identifierText_eq_ok_iff.mpr ⟨hhas, rfl, fun h => hne h.symm, hnew⟩
        dsimp only
        rw [htext]
        change (cellsOf c (known c (e :: rest)) >>= _) = _
        rw [cellsOf_eq_ok_iff.mpr ⟨hall, rfl⟩]
        rfl

/-- A record has a row after other ones if it has one by itself and its identifier is none of theirs. -/
theorem rowFor_eq_ok_iff {position : Nat} {before texts : List Text} :
    rowFor c position before record = .ok (row, texts) ↔ newRow? c record = some row ∧
      before.Disjoint (givenTexts c [record]) ∧ texts = before ++ givenTexts c [record] := by
  have refused (hfor : rowFor c position before record ≠ .ok (row, texts)) (hnone : newRow? c record = none) :
      rowFor c position before record = .ok (row, texts) ↔ newRow? c record = some row ∧
        before.Disjoint (givenTexts c [record]) ∧ texts = before ++ givenTexts c [record] := by
    rw [hnone]
    exact iff_of_false hfor fun h => by cases h.1
  by_cases hrecord : ∃ e rest, record = .mapping (e :: rest)
  · obtain ⟨e, rest, rfl⟩ := hrecord
    by_cases hknown : known c (e :: rest) = []
    · refine refused (fun h => ?_) ?_
      · rw [rowFor, if_pos (List.isEmpty_iff.mpr hknown)] at h
        cases h
      · rw [newRow?, if_pos (Or.inl hknown)]
    · exact rowFor_mapping_eq_ok_iff hknown
  · have hrecord := fun e rest h => hrecord ⟨e, rest, h⟩
    refine refused (fun h => ?_) ?_
    · rw [rowFor] at h
      · cases h
      · exact hrecord
    · rw [newRow?]
      exact hrecord

theorem mapM_newRow?_cons_eq_some {rest : List Value} :
    (record :: rest).mapM (newRow? c) = some rows ↔
      ∃ row more, newRow? c record = some row ∧ rest.mapM (newRow? c) = some more ∧ rows = row :: more := by
  rw [List.mapM_cons]
  simp only [Option.bind_eq_bind, Option.bind_eq_some_iff, Option.pure_def, Option.some.injEq]
  grind

/-- Records have rows if each of them does, and no identifier is given twice, or is one of those before. -/
theorem rowsThrough_eq_ok_iff {position : Nat} {before : List Text} (hbefore : before.Nodup) :
    rowsThrough c position before records = .ok rows ↔
      records.mapM (newRow? c) = some rows ∧ (before ++ givenTexts c records).Nodup := by
  induction records generalizing position before rows with
  | nil =>
    rw [givenTexts_nil, List.append_nil]
    simp [rowsThrough, hbefore, eq_comm]
  | cons record rest ih =>
    have hnodup : (before ++ givenTexts c [record]).Nodup ↔ before.Disjoint (givenTexts c [record]) := by
      rw [List.nodup_append']
      exact ⟨fun h => h.2.2, fun h => ⟨hbefore, nodup_givenTexts_singleton c record, h⟩⟩
    rw [mapM_newRow?_cons_eq_some, givenTexts_cons, ← List.append_assoc]
    constructor
    · intro h
      obtain ⟨⟨row, texts⟩, hfor, h⟩ := bind_eq_ok h
      obtain ⟨more, hthrough, h⟩ := bind_eq_ok h
      cases h
      obtain ⟨hrow, hdisjoint, rfl⟩ := rowFor_eq_ok_iff.mp hfor
      obtain ⟨hmore, hnew⟩ := (ih (hnodup.mpr hdisjoint)).mp hthrough
      exact ⟨⟨row, more, hrow, hmore, rfl⟩, hnew⟩
    · rintro ⟨⟨row, more, hrow, hmore, rfl⟩, hnew⟩
      have hbefore' := (List.nodup_append'.mp hnew).1
      have hfor : rowFor c position before record = .ok (row, _) :=
        rowFor_eq_ok_iff.mpr ⟨hrow, hnodup.mp hbefore', rfl⟩
      have hthrough : rowsThrough c (position + 1) _ rest = .ok more :=
        (ih hbefore').mpr ⟨hmore, hnew⟩
      rw [rowsThrough, hfor]
      dsimp only [bind, Except.bind]
      rw [hthrough]
      rfl

theorem rowsOf_eq_ok_iff (hrecords : records ≠ []) : rowsOf c records = .ok rows ↔
    records.mapM (newRow? c) = some rows ∧ (givenTexts c records).Nodup := by
  rw [rowsOf, if_neg (mt List.isEmpty_iff.mp hrecords), rowsThrough_eq_ok_iff List.nodup_nil,
    List.nil_append]

/-- The row of a record has the cell of its identifier in the identifier column. -/
theorem cell?_of_newRow? (hid : c.IdentifierAt header p) (h : newRow? c record = some row) :
    row.cell? p = some (identifierIn c header record).toCell := by
  obtain ⟨entries, rfl, rfl⟩ := newRow?_eq_some h
  rw [Row.cell?, cellsIn, List.getElem?_map, hid.getElem?_headers]
  rfl

/-- In the identifier column stand the texts that are written there. -/
theorem textsIn_of_newRows (hc : Distinct c.list) (h : records.mapM (newRow? c) = some rows) :
    textsIn c rows = writtenTexts c records := by
  cases hheader : c.identifierHeader with
  | none => rw [textsIn, writtenTexts, hheader, Option.bind_none]
  | some header =>
    obtain ⟨p, hid⟩ := Columns.exists_identifierAt hc hheader
    rw [textsIn, writtenTexts, hheader, Option.bind_some, hid.position]
    dsimp only
    induction records generalizing rows with
    | nil =>
      cases h
      rfl
    | cons record rest ih =>
      obtain ⟨row, more, hrow, hmore, rfl⟩ := mapM_newRow?_cons_eq_some.mp h
      have hcells : cellsAt p (row :: more) = (identifierIn c header record).toCell :: cellsAt p more :=
        List.filterMap_cons_some (cell?_of_newRow? hid hrow)
      rw [hcells, List.map_cons, List.map_cons, ih hmore]

/-! ## Appending -/

theorem checkTaken_eq_ok_iff {existing : Rows} : checkTaken p existing rows = .ok () ↔
    ((cellsAt p existing).map Value.asText).Disjoint ((cellsAt p rows).map Value.asText) := by
  rw [checkTaken]
  split
  · rename_i hempty
    refine ⟨fun _ t ht ht' => ?_, fun _ => rfl⟩
    obtain ⟨v, hv, rfl⟩ := List.mem_map.mp ht'
    have hmem : v ∈ (cellsAt p rows).filter fun v =>
        ((cellsAt p existing).map Value.asText).contains v.asText :=
      List.mem_filter.mpr ⟨hv, List.contains_iff_mem.mpr ht⟩
    rw [List.isEmpty_iff.mp hempty] at hmem
    cases hmem
  · rename_i hsome
    refine ⟨fun h => (nomatch h), fun h => absurd ?_ hsome⟩
    refine List.isEmpty_iff.mpr (List.filter_eq_nil_iff.mpr fun v hv ht => ?_)
    exact h (List.contains_iff_mem.mp ht) (List.mem_map_of_mem hv)

/-- A sheet takes rows in if none of their identifiers stands in it. -/
theorem outline_append_eq_ok_iff {t : Table} {sheet : Rows} (hseen : t.grid.seen sheet = .ok data)
    {plan : Revision × Nat} : t.outline c sheet (.append rows) = .ok plan ↔
      plan = (.append rows, rows.length) ∧ (textsIn c data).Disjoint (textsIn c rows) := by
  rw [outline, textsIn, textsIn]
  cases c.identifierHeader.bind c.positions.find? with
  | none => simp [pure, Except.pure, eq_comm]
  | some p =>
    dsimp only
    rw [hseen, ← checkTaken_eq_ok_iff]
    dsimp only [bind, Except.bind]
    cases checkTaken p data rows with
    | error fault => simp
    | ok _ => simp [pure, Except.pure, eq_comm]

/-- The records have these rows, and none of their identifiers stands in the sheet. -/
structure Fits (c : Columns) (data : Rows) (records : List Value) (rows : Rows) : Prop where
  rows : records.mapM (newRow? c) = some rows
  new : (textsIn c data).Disjoint (writtenTexts c records)

theorem length_of_newRows (h : records.mapM (newRow? c) = some rows) : rows.length = records.length := by
  induction records generalizing rows with
  | nil =>
    cases h
    rfl
  | cons record rest ih =>
    obtain ⟨row, more, -, hmore, rfl⟩ := mapM_newRow?_cons_eq_some.mp h
    rw [List.length_cons, List.length_cons, ih hmore]

theorem fits_nil_iff : Fits c data [] rows ↔ rows = [] := by
  constructor
  · intro h
    exact (Option.some.inj h.rows).symm
  · rintro rfl
    refine ⟨rfl, ?_⟩
    rw [writtenTexts_nil]
    exact List.disjoint_nil_right _

/-- Records have one list of rows, whatever sheet they fit. -/
theorem Fits.unique {data' rows' : Rows} (h : Fits c data records rows)
    (h' : Fits c data' records rows') : rows = rows' := Option.some.inj (h.rows.symm.trans h'.rows)

/-- One record has one row. -/
theorem Fits.exists_eq_singleton (h : Fits c data [record] rows) : ∃ row, rows = [row] :=
  List.length_eq_one_iff.mp (length_of_newRows h.rows)

/-- Records fit with distinct identifiers if the first one fits, and the others fit in this way once its
row is there. -/
theorem fits_cons_iff (hc : Distinct c.list) {rest : List Value} :
    (Fits c data (record :: rest) rows ∧ (writtenTexts c (record :: rest)).Nodup) ↔
      ∃ row more, rows = row :: more ∧ Fits c data [record] [row] ∧
        Fits c (data ++ [row]) rest more ∧ (writtenTexts c rest).Nodup := by
  have hone : ∀ row, [record].mapM (newRow? c) = some [row] ↔ newRow? c record = some row := by
    intro row
    rw [mapM_newRow?_cons_eq_some]
    simp
  -- The identifiers of the others are new if they are none of the sheet's and not the first one.
  have hnew : ∀ row, newRow? c record = some row →
      ((textsIn c (data ++ [row])).Disjoint (writtenTexts c rest) ↔
        (textsIn c data).Disjoint (writtenTexts c rest) ∧
          (writtenTexts c [record]).Disjoint (writtenTexts c rest)) := by
    intro row hrow
    rw [textsIn_append, textsIn_of_newRows hc ((hone row).mpr hrow), List.disjoint_append_left]
  rw [writtenTexts_cons, List.nodup_append']
  constructor
  · rintro ⟨⟨hrows, hdisjoint⟩, -, hnodup, hfirst⟩
    rw [writtenTexts_cons, List.disjoint_append_right] at hdisjoint
    obtain ⟨row, more, hrow, hmore, rfl⟩ := mapM_newRow?_cons_eq_some.mp hrows
    exact ⟨row, more, rfl, ⟨(hone row).mpr hrow, hdisjoint.1⟩,
      ⟨hmore, (hnew row hrow).mpr ⟨hdisjoint.2, hfirst⟩⟩, hnodup⟩
  · rintro ⟨row, more, rfl, ⟨hrow, hfirst⟩, ⟨hmore, hrest⟩, hnodup⟩
    have hrow := (hone row).mp hrow
    obtain ⟨hrest, hapart⟩ := (hnew row hrow).mp hrest
    refine ⟨⟨mapM_newRow?_cons_eq_some.mpr ⟨row, more, hrow, hmore, rfl⟩, ?_⟩,
      nodup_writtenTexts_singleton c record, hnodup, hapart⟩
    rw [writtenTexts_cons, List.disjoint_append_right]
    exact ⟨hfirst, hrest⟩

end RowStore.Table
