import RowStore.Proofs.Address.RoundTrip
import RowStore.Proofs.Number.Written
import RowStore.Sheet.Calls

/-!
# The area of a clearing

* `SheetCalls.Reaching area number size` : an area is all cells of a worksheet of a size from a row on;
* `SheetCalls.reaching_areaFrom` : the area with which rows are cleared is that one;
* `Rows.apply_areaFrom` : a sheet drops the rows from that row on.
-/

namespace RowStore

/-- The text of an area before and after its colon. -/
theorem SheetCalls.toList_areaFrom (number lastRow columnCount : Int) :
    (areaFrom (.int number) lastRow columnCount).toList =
      'A' :: ((toString number).toList ++
        ':' :: (Column.letterChars ((max columnCount 1).toNat - 1) ++ (toString lastRow).toList)) := by
  have hwritten : (Value.int number).written = toString number := rfl
  have hletter : ("A" : String).toList = ['A'] := rfl
  have hcolon : (":" : String).toList = [':'] := rfl
  rw [areaFrom, hwritten, Column.letters]
  simp only [String.toList_append, hletter, hcolon, String.toList_ofList, List.cons_append,
    List.nil_append, List.append_assoc]

namespace Rows

/-- A character of an integer's text is neither a capital nor a colon. -/
theorem not_capital_of_mem_toString {number : Int} {c : Char} (hc : c ∈ (toString number).toList) :
    Column.isCapital c = false ∧ c ≠ ':' := by
  have hnumeral := isNumeralChar_toString number c hc
  rw [isNumeralChar, Bool.or_eq_true] at hnumeral
  rcases hnumeral with hdigit | hmark
  · have hcode := toNat_of_isDigit hdigit
    refine ⟨Bool.eq_false_iff.mpr fun hcapital => ?_, by rintro rfl; cases hdigit⟩
    have := Column.isCapital_iff.mp hcapital
    omega
  · simp only [List.contains_cons, List.contains_nil, Bool.or_eq_true, beq_iff_eq, or_false,
      Bool.false_eq_true] at hmark
    rcases hmark with rfl | rfl | rfl | rfl <;> decide

/-- What stands between the letters and the colon of an area is its row. -/
theorem rowChars_areaFrom (number lastRow columnCount : Int) :
    ((SheetCalls.areaFrom (.int number) lastRow columnCount).toList.dropWhile Column.isCapital).takeWhile
      (· ≠ ':') = (toString number).toList := by
  have hne : (toString number).toList ≠ [] := by
    rw [toList_toString_int]
    split
    · exact Nat.toDigits_ne_nil
    · exact List.cons_ne_nil _ _
  obtain ⟨c, rest, hcs⟩ := List.exists_cons_of_ne_nil hne
  have hc := (not_capital_of_mem_toString (hcs ▸ List.mem_cons_self)).1
  have hdrop : (SheetCalls.areaFrom (.int number) lastRow columnCount).toList.dropWhile Column.isCapital =
      (toString number).toList ++ ':' :: (Column.letterChars ((max columnCount 1).toNat - 1) ++
        (toString lastRow).toList) := by
    rw [SheetCalls.toList_areaFrom, List.dropWhile_cons_of_pos (by decide), hcs, List.cons_append,
      List.dropWhile_cons_of_neg (by rw [hc]; exact Bool.false_ne_true)]
  rw [hdrop, List.takeWhile_append_of_pos fun c hc => decide_eq_true (not_capital_of_mem_toString hc).2,
    List.takeWhile_cons_of_neg (by decide), List.append_nil]

/-- The number of an integer's text is read as far as the colon. -/
theorem firstRow?_areaFrom (number lastRow columnCount : Int) :
    firstRow? (SheetCalls.areaFrom (.int number) lastRow columnCount) = some number := by
  have hdigits : (Nat.toDigits 10 number.natAbs).all Char.isDigit = true :=
    List.all_eq_true.mpr fun c hc => isDigit_toDigits hc
  have hempty : (Nat.toDigits 10 number.natAbs).isEmpty = false :=
    List.isEmpty_eq_false_iff.mpr Nat.toDigits_ne_nil
  rw [firstRow?, rowChars_areaFrom, splitSign_toString]
  dsimp only
  rw [hdigits, hempty, digitsValue_toDigits, if_neg (by decide), Option.some.injEq]
  by_cases hneg : number < 0
  · rw [decide_eq_true hneg, if_pos rfl]
    omega
  · rw [decide_eq_false hneg, if_neg Bool.false_ne_true]
    omega

/-- A sheet drops the rows from the first one of the area on. -/
theorem apply_areaFrom (rows : Rows) (number lastRow columnCount : Int) :
    rows.apply (.clear (SheetCalls.areaFrom (.int number) lastRow columnCount)) =
      (.ok (), rows.dropFrom number) := by
  rw [apply, firstRow?_areaFrom]

end Rows

namespace SheetCalls

/-- An area that is all cells of a worksheet of a size from a row on. -/
def Reaching (area : String) (number : Int) (size : Int × Int) : Prop :=
  ∃ r, Range.named area = .ok r ∧ (r.row : Int) = number ∧ r.col = 0 ∧ (r.rowEnd : Int) = size.1 ∧
    (r.colEnd : Int) + 1 = max size.2 1

/-- The area with which rows are cleared is all cells from the first of them on. -/
theorem reaching_areaFrom {number : Int} {size : Int × Int} (hpos : 1 ≤ number) (hlast : number ≤ size.1) :
    Reaching (areaFrom (.int number) size.1 size.2) number size := by
  obtain ⟨lastRow, columnCount⟩ := size
  obtain ⟨row, rfl⟩ := Int.eq_ofNat_of_zero_le (show 0 ≤ number by omega)
  obtain ⟨rowEnd, rfl⟩ := Int.eq_ofNat_of_zero_le (show 0 ≤ lastRow by dsimp only at hlast; omega)
  dsimp only at hlast ⊢
  let r : Range := ⟨row, 0, rowEnd, (max columnCount 1).toNat - 1, by omega, by omega, Nat.zero_le _⟩
  have htext : (areaFrom (.int row) rowEnd columnCount).toList =
      Range.cellChars r.row r.col ++ ':' :: Range.cellChars r.rowEnd r.colEnd := by
    have hzero : Column.letterChars 0 = ['A'] := by
      rw [Column.letterChars]
      rfl
    rw [toList_areaFrom, toList_toString_int, toList_toString_int, if_pos (Int.natCast_nonneg _),
      if_pos (Int.natCast_nonneg _), Range.cellChars, Range.cellChars]
    simp only [r, hzero, Int.natAbs_natCast, List.cons_append, List.nil_append]
  refine ⟨r, ?_, rfl, rfl, rfl, ?_⟩
  · refine Range.read_of_corners ?_ ?_
    · rw [htext]
      exact Range.isAddressChar_colon
    · rw [htext]
      exact Range.readCorners_colon rfl rfl
  · change (((max columnCount 1).toNat - 1 : Nat) : Int) + 1 = max columnCount 1
    omega

end SheetCalls

end RowStore
