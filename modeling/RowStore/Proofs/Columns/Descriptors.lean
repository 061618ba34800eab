import Mathlib.Data.List.Forall2
import RowStore.Proofs.Columns.Identifier

/-!
# Columns and their descriptors

* `Column.IsOf col descriptor` : the column is the one that the descriptor describes;
* `forall₂_ofDescriptors` : columns that have been read are those of their descriptors, one by one;
* `Coded` : distinct columns with codes that are names, no two of them equal; `coded_ofDescriptors`.
-/

namespace RowStore

/-- The column that a descriptor with these fields describes. -/
structure Column.HasFields (col : Column) (fields : Entries Value) : Prop where
  code : col.code = Value.get fields "id"
  given : col.code.isBlank = false
  header : Columns.headerOf (Value.get fields "label") col.code = .ok col.header
  type : col.type = TypeTag.ofValue (Value.get fields "type")
  isKey : col.header.isKey = true ∧ col.code.isKey = true

/-- The column that a descriptor describes. -/
def Column.IsOf (col : Column) (descriptor : Value) : Prop :=
  ∃ fields : Entries Value, descriptor = .mapping fields ∧ col.HasFields fields

namespace Columns

/-- The descriptor of a column with a code, a label and a type. -/
def described (code label type : String) : Value :=
  .mapping [(.text "id", .text code), (.text "label", .text label), (.text "type", .text type)]

variable {descriptors : List Value} {identifier : Value} {c : Columns}

theorem isOf_of_readColumn {before : List Column} {descriptor : Value} {col : Column}
    (h : readColumn before descriptor = .ok col) : col.IsOf descriptor := by
  cases descriptor with
  | mapping fields =>
    obtain ⟨hgiven, h⟩ := of_guard_eq_ok h
    obtain ⟨header, hheader, h⟩ := bind_eq_ok h
    obtain ⟨hkey, h⟩ := of_guard_eq_ok h
    obtain ⟨-, h⟩ := of_guard_eq_ok h
    obtain ⟨hcode, h⟩ := of_guard_eq_ok h
    cases h
    exact ⟨fields, rfl, rfl, by simpa using hgiven, hheader, rfl,
      by simpa using hkey, by simpa using hcode⟩
  | _ => cases h

theorem forall₂_readColumns {before columns : List Column}
    (h : readColumns before descriptors = .ok columns) :
    ∃ read, columns = before ++ read ∧
      List.Forall₂ (fun descriptor col => col.IsOf descriptor) descriptors read := by
  induction descriptors generalizing before with
  | nil =>
    cases h
    exact ⟨[], (List.append_nil _).symm, .nil⟩
  | cons descriptor rest ih =>
    obtain ⟨col, hcol, h⟩ := bind_eq_ok h
    obtain ⟨read, rfl, hread⟩ := ih h
    exact ⟨col :: read, by simp, .cons (isOf_of_readColumn hcol) hread⟩

/-- Columns that have been read are those of their descriptors, one by one. -/
theorem forall₂_ofDescriptors (h : ofDescriptors descriptors identifier = .ok c) :
    List.Forall₂ (fun descriptor col => col.IsOf descriptor) descriptors c.list := by
  obtain ⟨columns, hread, h⟩ := bind_eq_ok h
  cases h
  obtain ⟨read, rfl, hread⟩ := forall₂_readColumns hread
  exact hread

/-- A column that has been read is that of a descriptor. -/
theorem exists_isOf (h : ofDescriptors descriptors identifier = .ok c) {col : Column}
    (hcol : col ∈ c.list) : ∃ descriptor ∈ descriptors, col.IsOf descriptor := by
  obtain ⟨i, hi, rfl⟩ := List.mem_iff_getElem.mp hcol
  have hread := forall₂_ofDescriptors h
  have hi' : i < descriptors.length := hread.length_eq ▸ hi
  exact ⟨descriptors[i], List.getElem_mem hi', List.Forall₂.get hread hi' hi⟩

end Columns

/-- Distinct columns whose codes are names, too, and no two of them are equal. -/
structure Coded (columns : List Column) : Prop extends Distinct columns where
  codeKeys : ∀ col ∈ columns, col.code.isKey = true
  codes : columns.Pairwise fun a b => a.code.equals b.code = false

theorem coded_ofDescriptors {descriptors : List Value} {identifier : Value} {c : Columns}
    (h : Columns.ofDescriptors descriptors identifier = .ok c)
    (hcodes : c.list.Pairwise fun a b => a.code.equals b.code = false) : Coded c.list where
  toDistinct := distinct_ofDescriptors h
  codeKeys col hcol := by
    obtain ⟨descriptor, -, fields, -, hfields⟩ := Columns.exists_isOf h hcol
    exact hfields.isKey.2
  codes := hcodes

end RowStore
