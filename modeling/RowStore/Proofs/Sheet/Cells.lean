import RowStore.Proofs.Grid.Revision

/-!
# Cells of a row

* `Row.cell?_setCells` : the cells of a row after one of them has been written;
* `Row.setAll` : cells written one after another; `cell?_setAll_of_mem`, `cell?_setAll_of_ne` : at
  distinct positions each of them stays, and beside them the row is as it was, filled up with empty
  texts as far as it has grown;
* `Row.setAll_setAll` : written a second time, they change nothing;
* `Row.Rewritten values before after` : all that this says of the row, as one statement.
-/

namespace RowStore

namespace Row

variable {row : Row} {p : Nat} {v : Value} {targets : List (Nat × Value)}

theorem length_setCells (row : Row) (col : Nat) (v : Value) :
    (row.setCells col [v]).length = max row.length (col + 1) := by
  simp only [setCells, List.length_append, List.length_take, List.length_replicate,
    List.length_singleton, List.length_drop]
  omega

/-- A row after a cell has been written: missing cells before it hold the empty text. -/
theorem cell?_setCells (row : Row) (col : Nat) (v : Value) (p : Nat) :
    (row.setCells col [v]).cell? p =
      if p = col then some v
      else if p < row.length then row.cell? p
      else if p < col then some (.text "") else none := by
  simp only [cell?, setCells, List.getElem?_append, List.getElem?_take, List.length_append,
    List.length_take, List.length_replicate, List.getElem?_replicate, List.length_singleton,
    List.getElem?_drop, List.getElem?_singleton]
  -- The position lies before the written one, is that one, or lies behind it.
  rcases Nat.lt_trichotomy p col with hlt | rfl | hgt
  · rw [if_pos (by omega), if_neg (Nat.ne_of_lt hlt), if_pos hlt]
    by_cases hin : p < row.length
    · rw [if_pos (by omega), if_pos (by omega), if_pos hin]
    · rw [if_pos (by omega), if_neg (by omega), if_pos (by omega), if_neg hin, if_pos hlt]
  · rw [if_pos (by omega), if_neg (by omega), if_pos (by omega), if_pos rfl]
  · rw [if_neg (by omega), if_neg (Nat.ne_of_gt hgt), if_neg (Nat.lt_asymm hgt)]
    by_cases hin : p < row.length
    · rw [if_pos hin]
      congr 1
      omega
    · rw [if_neg hin, List.getElem?_eq_none (by omega)]

/-- Writes cells one after another. -/
def setAll (row : Row) (targets : List (Nat × Value)) : Row :=
  targets.foldl (fun row target => row.setCells target.1 [target.2]) row

@[simp] theorem setAll_nil (row : Row) : row.setAll [] = row := rfl

@[simp] theorem setAll_cons (row : Row) (target : Nat × Value) (rest : List (Nat × Value)) :
    row.setAll (target :: rest) = (row.setCells target.1 [target.2]).setAll rest := rfl

/-- Beside the written positions a row is as it was, filled up with empty texts. -/
theorem cell?_setAll_of_ne (h : ∀ target ∈ targets, target.1 ≠ p) :
    (row.setAll targets).cell? p =
      if p < row.length then row.cell? p
      else if ∃ target ∈ targets, p < target.1 then some (.text "") else none := by
  induction targets generalizing row with
  | nil =>
    by_cases hin : p < row.length
    · rw [if_pos hin, setAll_nil]
    · rw [if_neg hin, if_neg (by simp), setAll_nil]
      exact List.getElem?_eq_none (Nat.le_of_not_lt hin)
  | cons target rest ih =>
    have hne : p ≠ target.1 := (h target List.mem_cons_self).symm
    rw [setAll_cons, ih fun t ht => h t (List.mem_cons_of_mem _ ht), length_setCells,
      cell?_setCells, if_neg hne]
    by_cases hin : p < row.length
    · rw [if_pos (by omega), if_pos hin, if_pos hin]
    · rw [if_neg hin, if_neg hin]
      by_cases hlt : p < target.1
      · rw [if_pos (by omega), if_pos hlt, if_pos ⟨target, List.mem_cons_self, hlt⟩]
      · have hfar : (∃ t ∈ target :: rest, p < t.1) ↔ ∃ t ∈ rest, p < t.1 := by
          simp [hlt]
        simp only [if_neg (show ¬ p < max row.length (target.1 + 1) by omega), hfar]

/-- A cell that is written once holds what has been written. -/
theorem cell?_setAll_of_mem (h : (targets.map (·.1)).Nodup) (hmem : (p, v) ∈ targets) :
    (row.setAll targets).cell? p = some v := by
  induction targets generalizing row with
  | nil => cases hmem
  | cons target rest ih =>
    obtain ⟨hnew, hrest⟩ := List.nodup_cons.mp h
    rw [setAll_cons]
    rcases List.mem_cons.mp hmem with rfl | hmem
    · have hne : ∀ target ∈ rest, target.1 ≠ p :=
        fun target htarget heq => hnew (List.mem_map.mpr ⟨target, htarget, heq⟩)
      rw [cell?_setAll_of_ne hne, length_setCells, if_pos (by omega), cell?_setCells, if_pos rfl]
    · exact ih hrest hmem

/-! ## Cells that are held already -/

/-- A cell that holds the value already is written in vain. -/
theorem setCells_of_held {col : Nat} (h : row.cell? col = some v) : row.setCells col [v] = row := by
  have hcol : col < row.length := (List.getElem?_eq_some_iff.mp h).1
  refine List.ext_getElem? fun p => (cell?_setCells row col v p).trans ?_
  by_cases hp : p = col
  · rw [if_pos hp, hp]
    exact h.symm
  · rw [if_neg hp]
    by_cases hin : p < row.length
    · rw [if_pos hin]
      rfl
    · rw [if_neg hin, if_neg (by omega), List.getElem?_eq_none (Nat.le_of_not_lt hin)]

theorem setAll_of_held (h : ∀ target ∈ targets, row.cell? target.1 = some target.2) :
    row.setAll targets = row := by
  induction targets with
  | nil => rfl
  | cons target rest ih =>
    obtain ⟨hfirst, hrest⟩ := List.forall_mem_cons.mp h
    rw [setAll_cons, setCells_of_held hfirst, ih hrest]

/-- To write cells at distinct positions a second time changes nothing. -/
theorem setAll_setAll (h : (targets.map (·.1)).Nodup) (row : Row) :
    (row.setAll targets).setAll targets = row.setAll targets :=
  setAll_of_held fun _ htarget => cell?_setAll_of_mem h htarget

/-! ## Rewritten rows -/

/-- A row and what has become of it: it holds the new values at their positions and its own cells
elsewhere, and where it has grown it holds empty texts, up to a new value. -/
structure Rewritten (values : Nat → Option Value) (before after : Row) : Prop where
  written : ∀ p v, values p = some v → after.cell? p = some v
  kept : ∀ p, values p = none → p < before.length → after.cell? p = before.cell? p
  gained : ∀ p, values p = none → before.length ≤ p → after.cell? p = none ∨
    (after.cell? p = some (.text "") ∧ ∃ q, p < q ∧ (values q).isSome)

theorem rewritten_setAll {values : Nat → Option Value} (h : (targets.map (·.1)).Nodup)
    (hvalues : ∀ p v, values p = some v ↔ (p, v) ∈ targets) :
    Rewritten values row (row.setAll targets) := by
  have hne : ∀ p, values p = none → ∀ target ∈ targets, target.1 ≠ p := by
    rintro p hp ⟨_, v⟩ htarget rfl
    rw [(hvalues _ v).mpr htarget] at hp
    cases hp
  refine ⟨fun p v hp => cell?_setAll_of_mem h ((hvalues p v).mp hp), fun p hp hin => ?_,
    fun p hp hout => ?_⟩
  · rw [cell?_setAll_of_ne (hne p hp), if_pos hin]
  · rw [cell?_setAll_of_ne (hne p hp), if_neg (Nat.not_lt.mpr hout)]
    by_cases hfar : ∃ target ∈ targets, p < target.1
    · obtain ⟨⟨q, v⟩, htarget, hlt⟩ := hfar
      have hq : (values q).isSome := by rw [(hvalues q v).mpr htarget]; rfl
      exact Or.inr ⟨if_pos ⟨(q, v), htarget, hlt⟩, q, hlt, hq⟩
    · exact Or.inl (if_neg hfar)

end Row

end RowStore
