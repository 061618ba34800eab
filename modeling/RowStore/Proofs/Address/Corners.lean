import RowStore.Proofs.Address.Order
import RowStore.Proofs.Value.Equality

/-!
# Corners written and read back

Whole numbers are accepted as corners just where a range lies between them, and are then written as that
range is, unless a row number is too long. The text of a range is read back, so no two ranges share one.

* `Corners.of_ints` : whole numbers are taken and refused as corners as `Range.between` does;
* `Range.a1_corners` : the corners of a range are written as the range is;
* `Range.colon_mem_a1_iff` : a colon stands in the text of a range that is more than one cell;
* `Range.corners_read_back` : the ranges that whole numbers give are read back from their texts.
-/

namespace RowStore

/-- A whole number, or null where none is given. -/
def Value.ofInt? : Option Int → Value
  | some n => .int n
  | none => .null

/-- Two numbers stand at one place if they are equal. -/
theorem Value.standsAt_int (m n : Int) : (Value.int m).standsAt (.int n) = decide (m = n) := by
  have hunits : (Binary64.unitsPerOne : Int) ≠ 0 :=
    Int.natCast_ne_zero.mpr (Nat.pos_iff_ne_zero.mp Binary64.unitsPerOne_pos)
  have hplace : ∀ n : Int, (Value.int n).place? = some (0, n * Binary64.unitsPerOne) := fun _ => rfl
  rw [standsAt, hplace, hplace, Bool.eq_iff_iff, decide_eq_true_iff, ← Int.mul_eq_mul_right_iff hunits]
  simp only [beq_iff_eq, Prod.mk.injEq, true_and]

namespace Range

variable {r q : Range}

/-- The corners of a range, as numbers. -/
def corners (r : Range) : Corners := ⟨.int r.row, .int r.col, .int r.rowEnd, .int r.colEnd⟩

/-- Whether a range is a single cell. -/
def IsCell (r : Range) : Prop := r.row = r.rowEnd ∧ r.col = r.colEnd

/-- A range lies between two corners if they are cells and the second one is neither above the first one
nor to the left of it. -/
theorem between_eq_ok_iff {row col rowEnd colEnd : Int} :
    between row col rowEnd colEnd = .ok r ↔
      row = r.row ∧ col = r.col ∧ rowEnd = r.rowEnd ∧ colEnd = r.colEnd := by
  constructor
  · intro h
    rw [between] at h
    split at h
    case isFalse => cases h
    split at h
    case isFalse => cases h
    rename_i hstart hend
    cases h
    dsimp only
    omega
  · rintro ⟨rfl, rfl, rfl, rfl⟩
    exact between_corners r

end Range

/-! ## Corners of whole numbers -/

namespace Corners

theorem endOf_int (start : Int) (stop : Option Int) :
    endOf (.int start) (.ofInt? stop) = .int (stop.getD start) := by
  cases stop <;> rfl

/-- One of two numbers lies before its bound unless both of them reach theirs. -/
theorem before_or_before (m n k l : Int) :
    ((Value.int m).before (.int n) <||> (Value.int k).before (.int l)) =
      .ok (!decide (n ≤ m ∧ l ≤ k)) := by
  rw [Value.before_int, Value.before_int, ← decide_not]
  by_cases hm : m < n
  · rw [decide_eq_true hm, decide_eq_true (show ¬ (n ≤ m ∧ l ≤ k) by omega)]
    rfl
  · have hk : k < l ↔ ¬ (n ≤ m ∧ l ≤ k) := by omega
    rw [decide_eq_false hm, ← decide_eq_decide.mpr hk]
    rfl

/-- Whole numbers are the corners of the range between them, and are refused where there is none. -/
theorem of_ints (row col : Int) (rowEnd colEnd : Option Int) :
    of (.int row) (.int col) (.ofInt? rowEnd) (.ofInt? colEnd) =
      ((Range.between row col (rowEnd.getD row) (colEnd.getD col)).mapError .address).map
        Range.corners := by
  rw [of, before_or_before, endOf_int, endOf_int]
  dsimp only
  rw [before_or_before, Range.between]
  by_cases hstart : 1 ≤ row ∧ 0 ≤ col
  · rw [dif_pos hstart, decide_eq_true hstart]
    by_cases hend : row ≤ rowEnd.getD row ∧ col ≤ colEnd.getD col
    · rw [dif_pos hend, decide_eq_true hend]
      change Except.ok _ = Except.ok (Range.corners _)
      simp only [Range.corners, Int.toNat_of_nonneg (show 0 ≤ row by omega), Int.toNat_of_nonneg hstart.2,
        Int.toNat_of_nonneg (show 0 ≤ rowEnd.getD row by omega),
        Int.toNat_of_nonneg (show 0 ≤ colEnd.getD col by omega)]
    · rw [dif_neg hend, decide_eq_false hend]
      rfl
  · rw [dif_neg hstart, decide_eq_false hstart]
    rfl

theorem cellA1_natCast (row col : Nat) : cellA1 (.int row) (.int col) =
    (Value.int row).checkText.map fun _ => Range.cellA1 row col := by
  rw [cellA1, Column.lettersOf_natCast]
  generalize hcheck : (Value.int row).checkText = check
  have hwritten : (Value.int row).written = toString row := rfl
  rw [hwritten]
  cases check <;> rfl

end Corners

namespace Range

variable {r q : Range}

/-- The corners of a range are written as the range is, if its rows have numerals. -/
theorem a1_corners (h : r.hasText = true) : r.corners.a1 = .ok r.a1 := by
  have hrow : (Value.int r.row).checkText = .ok () := Value.checkText_of_hasText (hasNumeral_row h)
  have hrowEnd : (Value.int r.rowEnd).checkText = .ok () := Value.checkText_of_hasText h
  rw [Corners.a1, corners, Corners.cellA1_natCast, Corners.cellA1_natCast, Value.standsAt_int,
    Value.standsAt_int, hrow, hrowEnd, a1, ← Bool.decide_and]
  by_cases hcell : r.row = r.rowEnd ∧ r.col = r.colEnd
  · rw [if_pos hcell, decide_eq_true (by omega)]
    rfl
  · rw [if_neg hcell, decide_eq_false (by omega)]
    rfl

/-- The corners of a range with a longer row number cannot be written. -/
theorem a1_corners_of_long (h : r.hasText = false) : r.corners.a1 = .error .malformed := by
  have hrowEnd : (Value.int r.rowEnd).checkText = .error .malformed := Value.checkText_of_not_hasText h
  rw [Corners.a1, corners, Corners.cellA1_natCast, Corners.cellA1_natCast, Value.standsAt_int,
    Value.standsAt_int, hrowEnd, ← Bool.decide_and]
  cases hrow : hasNumeral r.row with
  | false =>
    rw [Value.checkText_of_not_hasText (v := .int r.row) hrow]
    rfl
  | true =>
    have hrows : ¬ r.row = r.rowEnd := fun heq => by
      rw [heq] at hrow
      rw [hasText, hrow] at h
      cases h
    rw [Value.checkText_of_hasText (v := .int r.row) hrow, decide_eq_false (by omega)]
    rfl

/-- Corners are written only as their range is. -/
theorem a1_of_corners {t : String} (h : r.corners.a1 = .ok t) : r.a1 = t := by
  cases htext : r.hasText with
  | false =>
    rw [a1_corners_of_long htext] at h
    cases h
  | true =>
    rw [a1_corners htext] at h
    exact Except.ok.inj h

/-- A colon stands between two cells, and in no text of one. -/
theorem colon_mem_a1_iff : ':' ∈ r.a1.toList ↔ ¬ r.IsCell := by
  rw [toList_a1, IsCell]
  split
  case isTrue hcell =>
    refine iff_of_false (fun hmem => ?_) (not_not_intro hcell)
    exact (isAddressChar_cellChars _ hmem).2 rfl
  case isFalse hcells =>
    exact iff_of_true (List.mem_append_right _ List.mem_cons_self) hcells

theorem a1_inj : r.a1 = q.a1 ↔ r = q := by
  constructor
  · intro h
    exact Except.ok.inj (by rw [← named_a1 r, h, named_a1])
  · exact fun h => h ▸ rfl

/-- Whole numbers are accepted as corners just if they are those of a range. A range of which the rows have
numerals is written as its corners are and read back from that text, which has no colon if the range is one
cell; of other ranges the corners cannot be written. Ranges with one text are one range. -/
theorem corners_read_back :
    (∀ (row col : Int) (rowEnd colEnd : Option Int) (c : Corners),
      Corners.of (.int row) (.int col) (.ofInt? rowEnd) (.ofInt? colEnd) = .ok c ↔
        ∃ r : Range, c = r.corners ∧ row = r.row ∧ col = r.col ∧
          rowEnd.getD row = r.rowEnd ∧ colEnd.getD col = r.colEnd) ∧
    (∀ r : Range, r.rowEnd < 10 ^ longestNumeral →
      r.corners.a1 = .ok r.a1 ∧ ofA1 r.a1 = .ok r ∧ (':' ∈ r.a1.toList ↔ ¬ r.IsCell)) ∧
    (∀ r : Range, 10 ^ longestNumeral ≤ r.rowEnd → r.corners.a1 = .error .malformed) ∧
    ∀ (r q : Range) (t : String), r.corners.a1 = .ok t → q.corners.a1 = .ok t → r = q := by
  refine ⟨fun row col rowEnd colEnd c => ?_, fun r hr => ?_, fun r hr => ?_, fun r q t hr hq => ?_⟩
  · rw [Corners.of_ints]
    constructor
    · intro h
      cases hr : between row col (rowEnd.getD row) (colEnd.getD col) with
      | error fault =>
        rw [hr] at h
        cases h
      | ok r =>
        rw [hr] at h
        cases h
        exact ⟨r, rfl, between_eq_ok_iff.mp hr⟩
    · rintro ⟨r, rfl, hr⟩
      rw [between_eq_ok_iff.mpr hr]
      rfl
  · have htext := hasText_iff.mpr hr
    exact ⟨a1_corners htext, ofA1_a1 r htext, colon_mem_a1_iff⟩
  · exact a1_corners_of_long (hasText_eq_false_iff.mpr hr)
  · exact a1_inj.mp ((a1_of_corners hr).trans (a1_of_corners hq).symm)

/-- A range over several rows and a column of two letters. -/
theorem corners_read_back_sheet : let r : Range := ⟨2, 0, 1000, 27, by decide, by decide, by decide⟩
    r.rowEnd < 10 ^ longestNumeral ∧ r.corners.a1 = .ok "A2:AB1000" ∧ ofA1 "A2:AB1000" = .ok r := by
  intro r
  have htext : r.a1 = "A2:AB1000" := by decide +kernel
  have hlength : r.rowEnd < 10 ^ longestNumeral :=
    Nat.lt_of_lt_of_le (show 1000 < 10 ^ 4 by decide) (Nat.pow_le_pow_right (by decide) (by decide))
  obtain ⟨hcorners, hread, -⟩ := corners_read_back.2.1 r hlength
  exact ⟨hlength, htext ▸ hcorners, htext ▸ hread⟩

/-- The cell in the first row that is too long to be written. -/
theorem corners_unwritten :
    ∃ r : Range, Corners.of (.int (10 ^ longestNumeral : Nat)) (.int 0) .null .null = .ok r.corners ∧
      r.corners.a1 = .error .malformed := by
  have hpos : 1 ≤ 10 ^ longestNumeral := Nat.pow_pos (by decide)
  refine ⟨cell (10 ^ longestNumeral) 0 hpos, ?_, a1_corners_of_long hasNumeral_power⟩
  have h := (Corners.of_ints (10 ^ longestNumeral : Nat) 0 none none).trans
    (congrArg (fun r => (Except.mapError Fault.address r).map corners)
      (between_corners (cell (10 ^ longestNumeral) 0 hpos)))
  exact h

end Range

end RowStore
