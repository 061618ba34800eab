import RowStore.Proofs.Grid.Revision

/-!
# Rows by their numbers

* `Rows.numbersFrom passes n rows` : the numbers of the rows that pass a test, where `n` rows stand
  above them;
* `Rows.foldl_eraseRow_reverse` : taken out from the last one on, exactly these rows are missing;
  `Rows.foldl_eraseRow_first` : of the first one alone, just it;
* `Rows.setCell_append` : a cell is written into the row that has its number.
-/

namespace RowStore.Rows

variable {passes : Row → Bool} {n : Nat} {row : Row} {top rest : Rows}

/-- The numbers of the rows that pass a test, where `n` rows stand above the first one. -/
def numbersFrom (passes : Row → Bool) (n : Nat) : Rows → List Int
  | [] => []
  | row :: rest =>
    if passes row then ((n + 1 : Nat) : Int) :: numbersFrom passes (n + 1) rest
    else numbersFrom passes (n + 1) rest

theorem numbersFrom_of_passes (h : passes row = true) :
    numbersFrom passes n (row :: rest) =
      ((n + 1 : Nat) : Int) :: numbersFrom passes (n + 1) rest := if_pos h

theorem numbersFrom_of_not_passes (h : passes row = false) :
    numbersFrom passes n (row :: rest) = numbersFrom passes (n + 1) rest := by
  rw [numbersFrom, h, if_neg Bool.false_ne_true]

theorem length_numbersFrom (passes : Row → Bool) (n : Nat) (rows : Rows) :
    (numbersFrom passes n rows).length = rows.countP passes := by
  induction rows generalizing n with
  | nil => rfl
  | cons row rest ih =>
    cases h : passes row with
    | false => rw [numbersFrom_of_not_passes h, List.countP_cons_of_neg (by simp [h]), ih]
    | true => rw [numbersFrom_of_passes h, List.countP_cons_of_pos h, List.length_cons, ih]

/-- The positions of the rows that pass, counted on from `k` rows, make their numbers. -/
theorem map_positions (passes : Row → Bool) (k n : Nat) (rows : Rows) :
    (((rows.zipIdx k).filter fun p => passes p.1).map (·.2)).map
        (fun position : Nat => (n : Int) + 1 + position) = numbersFrom passes (n + k) rows := by
  induction rows generalizing k with
  | nil => rfl
  | cons row rest ih =>
    have hrest := ih (k + 1)
    rw [← Nat.add_assoc] at hrest
    rw [List.zipIdx_cons, List.filter_cons]
    cases h : passes row with
    | false => rw [numbersFrom_of_not_passes h, ← hrest, if_neg Bool.false_ne_true]
    | true =>
      rw [numbersFrom_of_passes h, ← hrest, if_pos rfl, List.map_cons, List.map_cons]
      congr 1
      omega

/-! ## Rows that are taken out -/

/-- The row with the number after the first `top.length` ones is the next row. -/
theorem eraseRow_append (top : Rows) (row : Row) (rest : Rows) :
    (top ++ row :: rest).eraseRow ((top.length + 1 : Nat) : Int) = top ++ rest := by
  have hbefore : ((top.length + 1 : Nat) : Int) - 1 = (top.length : Int) := by omega
  rw [eraseRow, hbefore, Slice.without_natCast, List.eraseIdx_append_of_length_le (Nat.le_refl _),
    Nat.sub_self, List.eraseIdx_cons_zero]

/-- Rows that pass a test, taken out from the last one on, leave the others in their order. -/
theorem foldl_eraseRow_reverse (passes : Row → Bool) (top data : Rows) :
    (numbersFrom passes top.length data).reverse.foldl eraseRow (top ++ data) =
      top ++ data.filter (!passes ·) := by
  rw [List.foldl_reverse]
  -- The rows behind a row are taken out before it, and its own number has stayed the same.
  induction data generalizing top with
  | nil => rfl
  | cons row rest ih =>
    have hrest := ih (top ++ [row])
    rw [List.length_append, List.length_singleton, List.append_assoc, List.append_assoc,
      List.singleton_append, List.singleton_append] at hrest
    cases h : passes row with
    | false => rw [numbersFrom_of_not_passes h, hrest, List.filter_cons_of_pos (by simp [h])]
    | true =>
      rw [numbersFrom_of_passes h, List.foldr_cons, hrest, eraseRow_append,
        List.filter_cons_of_neg (by simp [h])]

/-- The first row that passes a test, taken out alone. -/
theorem foldl_eraseRow_first (passes : Row → Bool) (top data : Rows) :
    ((numbersFrom passes top.length data).take 1).reverse.foldl eraseRow (top ++ data) =
      top ++ data.eraseP passes := by
  induction data generalizing top with
  | nil => rfl
  | cons row rest ih =>
    cases h : passes row with
    | false =>
      have hrest := ih (top ++ [row])
      rw [List.length_append, List.length_singleton, List.append_assoc, List.append_assoc,
        List.singleton_append, List.singleton_append] at hrest
      rw [numbersFrom_of_not_passes h, hrest, List.eraseP_cons_of_neg (by simp [h])]
    | true =>
      rw [numbersFrom_of_passes h, List.take_succ_cons, List.take_zero, List.reverse_singleton,
        List.foldl_cons, List.foldl_nil, eraseRow_append, List.eraseP_cons_of_pos h]

/-! ## Cells that are written -/

/-- A cell with the number after the first `top.length` ones is written into the next row. -/
theorem setCell_append (top : Rows) (row : Row) (rest : Rows) {cell : Range} (v : Value)
    (hrow : cell.row = top.length + 1) :
    (top ++ row :: rest).setCell (cell, v) = top ++ row.setCells cell.col [v] :: rest := by
  rw [setCell, hrow, Nat.add_sub_cancel]
  clear hrow
  induction top with
  | nil => rfl
  | cons first top ih => exact congrArg (first :: ·) ih

end RowStore.Rows
