import RowStore.Proofs.Sheet.Cells
import RowStore.Value.Cell

/-!
# Identifiers of rows

* `Rows.identifiers p` : the texts of the cells at the position `p`, the empty ones left out;
* `Guarded h p top rows` : the first `h` rows are `top`, and below them no identifier occurs twice;
* `Guarded.append`, `Guarded.setCell`, `Guarded.eraseRow`, `Guarded.dropFrom` : the changes that keep
  a sheet guarded.
-/

namespace RowStore

/-- The text of the cell at a position; a cell that is missing has the empty text. -/
def Row.textAt (p : Nat) (row : Row) : Text := ((row.cell? p).getD .null).asText

/-- Cells written beside a position leave its text alone. -/
theorem Row.textAt_setCells {p col : Nat} (hp : col ≠ p) (row : Row) (v : Value) :
    (row.setCells col [v]).textAt p = row.textAt p := by
  rw [textAt, textAt, cell?_setCells, if_neg hp.symm]
  by_cases hin : p < row.length
  · rw [if_pos hin]
  · have hmissing : row.cell? p = none := List.getElem?_eq_none (Nat.le_of_not_lt hin)
    rw [if_neg hin, hmissing]
    by_cases hlt : p < col
    · rw [if_pos hlt]
      rfl
    · rw [if_neg hlt]

theorem Row.textAt_setAll {p : Nat} {targets : List (Nat × Value)} (h : ∀ target ∈ targets, target.1 ≠ p)
    (row : Row) : (row.setAll targets).textAt p = row.textAt p := by
  induction targets generalizing row with
  | nil => rfl
  | cons target rest ih =>
    obtain ⟨hfirst, hrest⟩ := List.forall_mem_cons.mp h
    rw [setAll_cons, ih hrest, textAt_setCells hfirst]

namespace Rows

/-- The texts by which rows are told apart. -/
def identifiers (p : Nat) (rows : Rows) : List Text := (rows.map (Row.textAt p)).filter (· ≠ [])

@[simp] theorem identifiers_append (p : Nat) (rows more : Rows) :
    identifiers p (rows ++ more) = identifiers p rows ++ identifiers p more := by
  rw [identifiers, List.map_append, List.filter_append]
  rfl

theorem identifiers_sublist {p : Nat} {rows rows' : Rows} (h : rows.Sublist rows') :
    (identifiers p rows).Sublist (identifiers p rows') := (h.map _).filter _

theorem mem_identifiers {p : Nat} {rows : Rows} {t : Text} :
    t ∈ identifiers p rows ↔ ∃ row ∈ rows, row.textAt p = t ∧ t ≠ [] := by
  simp only [identifiers, List.mem_filter, List.mem_map, decide_eq_true_eq]
  exact ⟨fun ⟨⟨row, hrow, ht⟩, hne⟩ => ⟨row, hrow, ht, hne⟩,
    fun ⟨row, hrow, ht, hne⟩ => ⟨⟨row, hrow, ht⟩, hne⟩⟩

/-- A changed row with the text of before has the identifier of before; rows that are added to reach
it have none. -/
theorem identifiers_changeRow {p : Nat} {f : Row → Row} (hf : ∀ row, (f row).textAt p = row.textAt p)
    (rows : Rows) (n : Nat) : identifiers p (rows.changeRow f n) = identifiers p rows := by
  have hempty : Row.textAt p [] = [] := rfl
  induction n generalizing rows with
  | zero =>
    cases rows with
    | nil => simp [changeRow, identifiers, hf, hempty]
    | cons row rest => simp only [changeRow, identifiers, List.map_cons, hf]
  | succ n ih =>
    cases rows with
    | nil =>
      have hrest := ih []
      simp only [changeRow, identifiers, List.map_cons, hempty] at hrest ⊢
      simpa using hrest
    | cons row rest =>
      have hrest := ih rest
      simp only [changeRow, identifiers, List.map_cons, List.filter_cons] at hrest ⊢
      rw [hrest]

/-- A change below the first rows leaves them alone. -/
theorem changeRow_below (f : Row → Row) {rows : Rows} {h n : Nat} (hlength : h ≤ rows.length)
    (hn : h ≤ n) : rows.changeRow f n = rows.take h ++ changeRow f (rows.drop h) (n - h) := by
  induction h generalizing rows n with
  | zero => simp
  | succ h ih =>
    cases rows with
    | nil => simp at hlength
    | cons row rest =>
      cases n with
      | zero => omega
      | succ n =>
        rw [changeRow, ih (by simpa using hlength) (by omega), Nat.add_sub_add_right]
        rfl

end Rows

/-- The first rows are as given, and below them no identifier occurs twice. -/
structure Guarded (h p : Nat) (top rows : Rows) : Prop where
  length : h ≤ rows.length
  header : rows.take h = top
  distinct : (Rows.identifiers p (rows.drop h)).Nodup

namespace Guarded

variable {h p : Nat} {top rows : Rows}

/-- A sheet with other rows below the first ones. -/
theorem of_append (hg : Guarded h p top rows) {below : Rows}
    (hbelow : (Rows.identifiers p below).Nodup) : Guarded h p top (rows.take h ++ below) := by
  have hlength : (rows.take h).length = h := List.length_take_of_le hg.length
  refine ⟨by simp [hlength], ?_, ?_⟩
  · rw [List.take_append_of_le_length (Nat.le_of_eq hlength.symm), List.take_take, Nat.min_self]
    exact hg.header
  · rw [List.drop_append_of_le_length (Nat.le_of_eq hlength.symm), List.drop_take, Nat.sub_self]
    exact hbelow

/-- Rows are added whose identifiers are new. -/
theorem append (hg : Guarded h p top rows) {more : Rows} (hmore : (Rows.identifiers p more).Nodup)
    (hnew : ∀ t ∈ Rows.identifiers p more, t ∉ Rows.identifiers p (rows.drop h)) :
    Guarded h p top (rows ++ more) := by
  have hrows : rows ++ more = rows.take h ++ (rows.drop h ++ more) := by
    rw [← List.append_assoc, List.take_append_drop]
  rw [hrows]
  refine hg.of_append ?_
  rw [Rows.identifiers_append, List.nodup_append]
  refine ⟨hg.distinct, hmore, fun t ht t' ht' heq => ?_⟩
  exact hnew t' ht' (heq ▸ ht)

/-- A cell beside the identifiers is overwritten. -/
theorem setCell (hg : Guarded h p top rows) {cell : Range × Value} (hrow : h < cell.1.row)
    (hcol : cell.1.col ≠ p) : Guarded h p top (rows.setCell cell) := by
  rw [Rows.setCell, Rows.changeRow_below _ hg.length (by omega)]
  refine hg.of_append ?_
  rw [Rows.identifiers_changeRow fun row => Row.textAt_setCells hcol row cell.2]
  exact hg.distinct

/-- A row below the first ones is taken out. -/
theorem eraseRow (hg : Guarded h p top rows) {number : Int} (hnumber : (h : Int) < number) :
    Guarded h p top (rows.eraseRow number) := by
  obtain ⟨k, rfl⟩ : ∃ k : Nat, number = (h + k + 1 : Nat) := ⟨(number - h - 1).toNat, by omega⟩
  have herase : rows.eraseRow ((h + k + 1 : Nat) : Int) =
      rows.take h ++ (rows.drop h).eraseIdx k := by
    have hbefore : ((h + k + 1 : Nat) : Int) - 1 = ((h + k : Nat) : Int) := by omega
    have hlength : (rows.take h).length = h := List.length_take_of_le hg.length
    rw [Rows.eraseRow, hbefore, Slice.without_natCast]
    conv => lhs; rw [← List.take_append_drop h rows]
    rw [List.eraseIdx_append_of_length_le (by omega), hlength, Nat.add_sub_cancel_left]
  rw [herase]
  exact hg.of_append (hg.distinct.sublist (Rows.identifiers_sublist (List.eraseIdx_sublist _ _)))

/-- All rows below the first ones are dropped. -/
theorem dropFrom (hg : Guarded h p top rows) : Guarded h p top (rows.dropFrom (h + 1)) := by
  have hdrop : rows.dropFrom (h + 1) = rows.take h ++ [] := by
    rw [Rows.dropFrom, Int.add_sub_cancel, Slice.upTo_natCast, List.append_nil]
  rw [hdrop]
  exact hg.of_append List.nodup_nil

end Guarded

end RowStore
