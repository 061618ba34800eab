import Mathlib.Data.List.Nodup
import RowStore.Proofs.Columns.Identifier
import RowStore.Proofs.Sheet.Identifiers
import RowStore.Proofs.Table.NewRows

/-!
# Writes keep identifiers distinct

* `Operation.PlainIdentifiers` : the identifiers of new records are texts, numbers, truth values or
  null;
* `nodup_of_rowsOf` : the rows of new records have distinct identifiers; `not_mem_of_checkTaken` : and
  none that the sheet has already;
* `Guarded.applied` : the revision that a write makes of a guarded sheet keeps it guarded.
-/

namespace RowStore

/-- A text, a number, a truth value or null. -/
def Value.isPlain : Value → Bool
  | null | bool _ | int _ | real _ | text _ => true
  | _ => false

/-- In a cell a plain value has the text that it has on its own. -/
theorem Value.asText_toCell {v : Value} (hv : v.isPlain = true) : v.toCell.asText = v.asText := by
  cases v with
  | null | bool _ | int _ | real _ | text _ => rfl
  | _ => cases hv

/-- The identifiers of a record are plain values. -/
def Value.PlainIdentifiers (record header : Value) : Prop :=
  ∀ entries, record = .mapping entries → ∀ e ∈ entries, e.1.equals header = true → e.2.isPlain = true

/-- The identifiers of new records are plain values. -/
def Operation.PlainIdentifiers (header : Value) (op : Operation) : Prop :=
  ∀ records, op.records = .ok records → ∀ record ∈ records, record.PlainIdentifiers header

theorem Operation.PlainIdentifiers.create {header record : Value}
    (h : record.PlainIdentifiers header) : (Operation.create record).PlainIdentifiers header := by
  rintro _ ⟨⟩ r hr
  rw [List.mem_singleton.mp hr]
  exact h

theorem Operation.PlainIdentifiers.of_no_records {header : Value} {op : Operation}
    (h : op.records = .ok []) : op.PlainIdentifiers header := by
  intro records hrecords
  rw [h] at hrecords
  cases hrecords
  exact fun _ hr => nomatch hr

namespace Table

variable {c : Columns} {header : Value} {p : Nat}

/-! ## New rows -/

/-- The text of the identifier in the row of a record is the one that it is given. -/
theorem textAt_of_newRow? (hid : c.IdentifierAt header p) {record : Value} {row : Row}
    (hplain : record.PlainIdentifiers header) (h : newRow? c record = some row) :
    row.textAt p = (identifierIn c header record).asText := by
  rw [Row.textAt, cell?_of_newRow? hid h, Option.getD_some]
  refine Value.asText_toCell ?_
  obtain ⟨entries, rfl, -⟩ := newRow?_eq_some h
  rw [identifierIn]
  cases hfind : (known c entries).find? header with
  | none => rfl
  | some v =>
    obtain ⟨k, hk, heq⟩ := Entries.exists_of_find? hfind
    exact hplain _ rfl _ (List.mem_filter.mp hk).1 heq

/-- Without white space at their ends, these are the texts that records are given. -/
theorem map_trim_textAt (hid : c.IdentifierAt header p) {records : List Value} {rows : Rows}
    (hplain : ∀ record ∈ records, record.PlainIdentifiers header)
    (h : records.mapM (newRow? c) = some rows) :
    (rows.map fun row => Text.trim (row.textAt p)) = givenTexts c records := by
  rw [givenTexts, hid.isHeader]
  dsimp only
  induction records generalizing rows with
  | nil =>
    cases h
    rfl
  | cons record rest ih =>
    obtain ⟨hfirst, hrest⟩ := List.forall_mem_cons.mp hplain
    obtain ⟨row, more, hrow, hmore, rfl⟩ := mapM_newRow?_cons_eq_some.mp h
    rw [List.map_cons, List.map_cons, ih hrest hmore, textAt_of_newRow? hid hfirst hrow]

theorem nodup_of_rowsOf (hid : c.IdentifierAt header p) {records : List Value} {rows : Rows}
    (hplain : ∀ record ∈ records, record.PlainIdentifiers header)
    (h : rowsOf c records = .ok rows) : (Rows.identifiers p rows).Nodup := by
  have hrecords : records ≠ [] := by
    rintro rfl
    cases h
  obtain ⟨hrows, hgiven⟩ := (rowsOf_eq_ok_iff hrecords).mp h
  rw [← map_trim_textAt hid hplain hrows] at hgiven
  have htexts : (rows.map (Row.textAt p)).Nodup := by
    refine List.Nodup.of_map Text.trim ?_
    rw [List.map_map]
    exact hgiven
  exact htexts.filter _

theorem exists_of_mem_identifiers {rows : Rows} {t : Text} (h : t ∈ Rows.identifiers p rows) :
    ∃ v ∈ cellsAt p rows, v.asText = t := by
  obtain ⟨row, hrow, rfl, hne⟩ := Rows.mem_identifiers.mp h
  cases hcell : row.cell? p with
  | none => exact absurd (by rw [Row.textAt, hcell]; rfl) hne
  | some v => exact ⟨v, List.mem_filterMap.mpr ⟨row, hrow, hcell⟩, by rw [Row.textAt, hcell]; rfl⟩

/-- Rows that pass the check have no identifier of the sheet. -/
theorem not_mem_of_checkTaken {existing rows : Rows} (h : checkTaken p existing rows = .ok ()) :
    ∀ t ∈ Rows.identifiers p rows, t ∉ Rows.identifiers p existing := by
  intro t ht ht'
  obtain ⟨v, hv, rfl⟩ := exists_of_mem_identifiers ht
  obtain ⟨v', hv', heq⟩ := exists_of_mem_identifiers ht'
  exact checkTaken_eq_ok_iff.mp h (List.mem_map.mpr ⟨v', hv', heq⟩) (List.mem_map_of_mem hv)

/-! ## Changed and erased rows -/

variable {t : Table} {h : Nat} {rows : Rows}

theorem seen_eq {below : Rows} (hh : t.grid.headerRow.integer? = some (h : Int))
    (hseen : t.grid.seen rows = .ok below) : below = rows.drop h := by
  obtain ⟨_, -, hbelow⟩ := bind_eq_ok hseen
  unfold Grid.rowsBelow at hbelow
  split at hbelow
  · rename_i hnull
    rw [hnull] at hh
    cases hh
  · rw [hh] at hbelow
    cases hbelow
    exact Slice.onward_natCast h rows

/-- The rows that match lie below the headers. -/
theorem lt_of_mem_matched (hh : t.grid.headerRow.integer? = some (h : Int)) {conditions : Value}
    {firstOnly : Bool} {numbers : List Int}
    (hmatched : t.matched c rows conditions firstOnly = .ok numbers) :
    ∀ number ∈ numbers, (h : Int) < number := by
  obtain ⟨positions, -, hmatched⟩ := bind_eq_ok hmatched
  obtain ⟨-, hmatched⟩ := of_guard_eq_ok hmatched
  cases hmatched
  intro number hnumber
  obtain ⟨position, -, rfl⟩ := List.mem_map.mp hnumber
  rw [Grid.rowNumber, Grid.headerRowNumber, hh, Option.getD_some]
  omega

/-- An update changes no identifier. -/
theorem equals_eq_false_of_fieldsChanged (hheader : c.identifierHeader = some header) {fields : Value}
    {changes : Entries Value} (hchanges : fieldsChanged c fields = .ok changes) :
    ∀ e ∈ changes, e.1.equals header = false := by
  unfold fieldsChanged at hchanges
  split at hchanges
  · obtain ⟨-, hchanges⟩ := of_guard_eq_ok hchanges
    cases hchanges
    intro e he
    simpa [hheader] using (List.mem_filter.mp he).2
  · cases hchanges

/-- The cells of an update lie below the headers and beside the identifiers. -/
theorem of_mem_cellsFor (hid : c.IdentifierAt header p) {numbers : List Int} {changes : Entries Value}
    (hnumbers : ∀ number ∈ numbers, (h : Int) < number)
    (hchanges : ∀ e ∈ changes, e.1.equals header = false) {cells : List (Range × Value)}
    (hcells : cellsFor c numbers changes = .ok cells) :
    ∀ cell ∈ cells, h < cell.1.row ∧ cell.1.col ≠ p := by
  intro cell hcell
  obtain ⟨⟨number, field⟩, hmem, hcell⟩ := exists_of_mem_mapM hcells cell hcell
  obtain ⟨number', hnumber, hmem⟩ := List.mem_flatMap.mp hmem
  obtain ⟨field', hfield, heq⟩ := List.mem_map.mp hmem
  cases heq
  have hlt := hnumbers number hnumber
  have hne := hchanges field hfield
  rw [cellFor] at hcell
  cases hfind : c.positions.find? field.1 with
  | none =>
    rw [hfind] at hcell
    cases hcell
  | some col =>
    have hcol : col ≠ p := by
      rintro rfl
      rw [hid.equals_of_find? hfind] at hne
      cases hne
    rw [hfind] at hcell
    dsimp only at hcell
    rw [Range.between, dif_pos ⟨by omega, by omega⟩, dif_pos ⟨by omega, by omega⟩] at hcell
    obtain ⟨_, _, hcell⟩ := bind_eq_ok hcell
    cases hcell
    exact ⟨by simp; omega, by simpa using hcol⟩

end Table

/-! ## Guarded sheets -/

namespace Guarded

variable {h p : Nat} {top rows : Rows}

/-- Changes that keep a sheet guarded, one after another. -/
theorem foldl {α : Type} {f : Rows → α → Rows} {as : List α} (hg : Guarded h p top rows)
    (hf : ∀ a ∈ as, ∀ rows, Guarded h p top rows → Guarded h p top (f rows a)) :
    Guarded h p top (as.foldl f rows) := by
  induction as generalizing rows with
  | nil => exact hg
  | cons a rest ih =>
    exact ih (hf a List.mem_cons_self rows hg) fun a ha => hf a (List.mem_cons_of_mem _ ha)

/-- The revision that a write makes of a guarded sheet keeps it guarded. -/
theorem applied (hg : Guarded h p top rows) {t : Table} {c : Columns} {header : Value}
    (hid : c.IdentifierAt header p) (hh : t.grid.headerRow.integer? = some (h : Int)) {op : Operation}
    (hplain : op.PlainIdentifiers header) {i : Intent} (hi : t.intent c op = .ok i)
    {rev : Revision} {n : Nat} (hrev : t.outline c rows i = .ok (rev, n)) :
    Guarded h p top (rev.applied rows) := by
  rcases Table.intent_cases hi with ⟨records, more, hrecords, hmore, rfl⟩ |
      ⟨_, changes, _, _, hchanges, rfl⟩ | ⟨_, _, rfl⟩ | rfl
  · obtain ⟨rfl, -, htaken⟩ := Table.outline_append_eq_ok hrev
    have hposition : c.identifierHeader.bind c.positions.find? = some p := by
      rw [hid.isHeader]
      exact hid.position
    obtain ⟨below, hbelow, htaken⟩ := htaken p hposition
    rw [Table.seen_eq hh hbelow] at htaken
    exact hg.append (Table.nodup_of_rowsOf hid (hplain records hrecords) hmore)
      (Table.not_mem_of_checkTaken htaken)
  · obtain ⟨numbers, hnumbers, hrev⟩ := bind_eq_ok hrev
    obtain ⟨cells, hcells, hrev⟩ := bind_eq_ok hrev
    cases hrev
    have hbeside := Table.of_mem_cellsFor hid (Table.lt_of_mem_matched hh hnumbers)
      (Table.equals_eq_false_of_fieldsChanged hid.isHeader hchanges) hcells
    exact hg.foldl fun cell hcell rows hg => hg.setCell (hbeside cell hcell).1 (hbeside cell hcell).2
  · obtain ⟨numbers, hnumbers, hrev⟩ := bind_eq_ok hrev
    cases hrev
    exact hg.foldl fun number hnumber rows hg =>
      hg.eraseRow (Table.lt_of_mem_matched hh hnumbers number (List.mem_reverse.mp hnumber))
  · cases hrev
    rw [Revision.applied, Grid.headerRowNumber, hh]
    exact hg.dropFrom

end Guarded

end RowStore
