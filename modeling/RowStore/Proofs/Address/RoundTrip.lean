import Mathlib.Data.List.TakeWhile
import RowStore.Address.Range
import RowStore.Proofs.Number.Numeral
import RowStore.Proofs.Text.Split

/-!
# Addresses read back

* `wordValue_letterChars` : the letters of a column have its value;
* `Range.named_a1`, `Range.ofA1_a1` : reading the text of a range gives that range.
-/

namespace RowStore

/-! ## Letters -/

namespace Column

theorem isCapital_iff {c : Char} : isCapital c = true ↔ 0x41 ≤ c.toNat ∧ c.toNat ≤ 0x5A := by
  simp only [isCapital, Bool.and_eq_true, decide_eq_true_eq, Char.le_def, UInt32.le_iff_toNat_le]
  exact Iff.rfl

theorem toNat_letter {d : Nat} (h : d < 26) : (letter d).toNat = 0x41 + d := by
  have hall : ∀ d : Fin 26, (letter d).toNat = 0x41 + d := by decide
  exact hall ⟨d, h⟩

theorem isCapital_letter {d : Nat} (h : d < 26) : isCapital (letter d) = true := by
  rw [isCapital_iff, toNat_letter h]
  omega

theorem letterChars_ne_nil (n : Nat) : letterChars n ≠ [] := by
  rw [letterChars]
  split <;> simp

theorem isCapital_letterChars (n : Nat) : ∀ c ∈ letterChars n, isCapital c = true := by
  fun_induction letterChars n with
  | case1 n h =>
    intro c hc
    rw [List.mem_singleton.mp hc]
    exact isCapital_letter h
  | case2 n h ih =>
    intro c hc
    rcases List.mem_append.mp hc with hc | hc
    · exact ih c hc
    · rw [List.mem_singleton.mp hc]
      exact isCapital_letter (Nat.mod_lt n (by decide))

theorem wordValue_append (cs : List Char) (c : Char) :
    wordValue (cs ++ [c]) = wordValue cs * 26 + (c.toNat - 0x40) := by
  simp [wordValue, List.foldl_append]

theorem wordValue_letterChars (n : Nat) : wordValue (letterChars n) = n + 1 := by
  fun_induction letterChars n with
  | case1 n h =>
    change 0 * 26 + ((letter n).toNat - 0x40) = n + 1
    rw [toNat_letter h]
    omega
  | case2 n h ih =>
    rw [wordValue_append, ih, toNat_letter (Nat.mod_lt n (by decide))]
    omega

end Column

/-! ## Characters of addresses -/

namespace Text

theorem upper_ofChars {cs : List Char} (h : ∀ c ∈ cs, upperChar c = [c]) :
    upper (ofChars cs) = ofChars cs := by
  induction cs with
  | nil => rfl
  | cons c rest ih =>
    have hrest := ih fun c hc => h c (List.mem_cons_of_mem _ hc)
    simp only [upper, ofChars, List.map_cons, List.flatMap_cons] at hrest ⊢
    rw [hrest, h c List.mem_cons_self]
    rfl

end Text

namespace Range

/-- The characters of an address: capital letters, digits and the colon between two cells. -/
def isAddressChar (c : Char) : Bool := Column.isCapital c || c.isDigit || c == ':'

theorem toNat_of_isAddressChar {c : Char} (h : isAddressChar c = true) :
    0x30 ≤ c.toNat ∧ c.toNat ≤ 0x5A := by
  simp only [isAddressChar, Bool.or_eq_true, beq_iff_eq] at h
  rcases h with (h | h) | rfl
  · have := Column.isCapital_iff.mp h
    omega
  · have := toNat_of_isDigit h
    omega
  · decide

theorem isBlank_of_isAddressChar {c : Char} (h : isAddressChar c = true) :
    Text.isBlank c = false := by
  have hc := toNat_of_isAddressChar h
  exact Text.isBlank_of_visible (by omega)

theorem upperChar_of_isAddressChar {c : Char} (h : isAddressChar c = true) :
    Text.upperChar c = [c] := by
  have hc := toNat_of_isAddressChar h
  have hupper : c.toUpper = c := by
    refine dif_neg fun h' => ?_
    have := UInt32.le_iff_toNat_le.mp h'.1
    change 97 ≤ c.toNat at this
    omega
  rw [Text.upperChar_ascii c (by omega), hupper]

theorem normalized_ofChars {cs : List Char} (h : ∀ c ∈ cs, isAddressChar c = true) :
    Column.normalized (Text.ofChars cs) = Text.ofChars cs := by
  rw [Column.normalized, Text.trim, Text.trimBy_of_none, Text.upper_ofChars]
  · exact fun c hc => upperChar_of_isAddressChar (h c hc)
  · intro p hp
    obtain ⟨c, hc, rfl⟩ := List.mem_map.mp hp
    exact isBlank_of_isAddressChar (h c hc)

/-! ## Cells and ranges -/

/-- The characters of a cell's text. -/
def cellChars (row col : Nat) : List Char := Column.letterChars col ++ Nat.toDigits 10 row

theorem toList_cellA1 (row col : Nat) : (cellA1 row col).toList = cellChars row col := by
  rw [cellA1, String.toList_append, Column.letters, String.toList_ofList, Nat.toString_eq_repr,
    Nat.toList_repr, cellChars]

theorem isAddressChar_cellChars {row col : Nat} : ∀ c ∈ cellChars row col,
    isAddressChar c = true ∧ c ≠ ':' := by
  intro c hc
  rcases List.mem_append.mp hc with hc | hc
  · have h := Column.isCapital_letterChars col c hc
    refine ⟨by simp [isAddressChar, h], ?_⟩
    rintro rfl
    revert h
    decide
  · have h := isDigit_toDigits hc
    refine ⟨by simp [isAddressChar, h], ?_⟩
    rintro rfl
    revert h
    decide

theorem takeWhile_isCapital (row col : Nat) :
    (cellChars row col).takeWhile Column.isCapital = Column.letterChars col ∧
      (cellChars row col).dropWhile Column.isCapital = Nat.toDigits 10 row := by
  have hdigits : ∀ c ∈ Nat.toDigits 10 row, Column.isCapital c = false := by
    intro c hc
    have h := toNat_of_isDigit (isDigit_toDigits hc)
    rw [Bool.eq_false_iff, ne_eq, Column.isCapital_iff]
    omega
  have hne : (Nat.toDigits 10 row).takeWhile Column.isCapital = [] ∧
      (Nat.toDigits 10 row).dropWhile Column.isCapital = Nat.toDigits 10 row := by
    rcases h : Nat.toDigits 10 row with _ | ⟨c, rest⟩
    · exact ⟨rfl, rfl⟩
    · have hc := hdigits c (by rw [h]; exact List.mem_cons_self)
      rw [List.takeWhile_cons, List.dropWhile_cons, hc]
      exact ⟨rfl, rfl⟩
  constructor
  · rw [cellChars, List.takeWhile_append_of_pos (Column.isCapital_letterChars col), hne.1,
      List.append_nil]
  · rw [cellChars, List.dropWhile_append_of_pos (Column.isCapital_letterChars col), hne.2]

theorem cellParts?_cellChars (row col : Nat) :
    cellParts? (cellChars row col) = some (Nat.toDigits 10 row, col) := by
  have hblank : Text.trimBy Text.isBlank (cellChars row col) = cellChars row col :=
    Text.trimBy_of_none fun c hc => isBlank_of_isAddressChar (isAddressChar_cellChars c hc).1
  have hdigits : ∀ c ∈ Nat.toDigits 10 row, c.isDigit = true := fun c hc => isDigit_toDigits hc
  have hall : (Nat.toDigits 10 row).all Text.isDigit = true :=
    List.all_eq_true.mpr fun c hc => Text.isDigit_of_ascii c (hdigits c hc)
  obtain ⟨htake, hdrop⟩ := takeWhile_isCapital row col
  simp [cellParts?, hblank, htake, hdrop, hall, map_plainDigit hdigits,
    Column.wordValue_letterChars, Column.letterChars_ne_nil, Nat.toDigits_ne_nil]

section Reading

variable {fits : Nat → Bool} {t : Text} {row col rowEnd colEnd : Nat}

theorem readCell_cellChars (h : fits (Nat.toDigits 10 row).length = true) :
    readCell fits t (cellChars row col) = .ok (row, col) := by
  rw [readCell, cellParts?_cellChars]
  dsimp only
  rw [if_pos h, digitsValue_toDigits]

theorem readCorners_cellChars (h : fits (Nat.toDigits 10 row).length = true) :
    readCorners fits t (cellChars row col) = .ok ((row, col), (row, col)) := by
  have hdrop : (cellChars row col).dropWhile (· ≠ ':') = [] :=
    List.dropWhile_eq_nil_iff.mpr fun c hc => decide_eq_true (isAddressChar_cellChars c hc).2
  rw [readCorners, hdrop]
  dsimp only
  rw [readCell_cellChars h]
  rfl

theorem readCorners_colon (h : fits (Nat.toDigits 10 row).length = true)
    (hEnd : fits (Nat.toDigits 10 rowEnd).length = true) :
    readCorners fits t (cellChars row col ++ ':' :: cellChars rowEnd colEnd) =
      .ok ((row, col), (rowEnd, colEnd)) := by
  have hne : ∀ c ∈ cellChars row col, decide (c ≠ ':') = true :=
    fun c hc => decide_eq_true (isAddressChar_cellChars c hc).2
  have hdrop : (cellChars row col ++ ':' :: cellChars rowEnd colEnd).dropWhile (· ≠ ':') =
      ':' :: cellChars rowEnd colEnd := by
    rw [List.dropWhile_append_of_pos hne]
    simp
  have htake : (cellChars row col ++ ':' :: cellChars rowEnd colEnd).takeWhile (· ≠ ':') =
      cellChars row col := by
    rw [List.takeWhile_append_of_pos hne]
    simp
  have hcolon : ¬ (cellChars rowEnd colEnd).contains ':' = true := fun hmem =>
    (isAddressChar_cellChars _ (List.contains_iff_mem.mp hmem)).2 rfl
  rw [readCorners, hdrop]
  dsimp only
  rw [if_neg hcolon, htake, readCell_cellChars h, readCell_cellChars hEnd]
  rfl

end Reading

theorem toList_a1 (r : Range) : r.a1.toList =
    if r.row = r.rowEnd ∧ r.col = r.colEnd then cellChars r.row r.col
    else cellChars r.row r.col ++ ':' :: cellChars r.rowEnd r.colEnd := by
  rw [a1]
  split
  · exact toList_cellA1 r.row r.col
  · rw [String.toList_append, String.toList_append, toList_cellA1, toList_cellA1,
      List.append_assoc]
    rfl

theorem isAddressChar_colon {row col rowEnd colEnd : Nat} :
    ∀ c ∈ cellChars row col ++ ':' :: cellChars rowEnd colEnd, isAddressChar c = true := by
  intro c hc
  rcases List.mem_append.mp hc with hc | hc
  · exact (isAddressChar_cellChars c hc).1
  · rcases List.mem_cons.mp hc with rfl | hc
    · decide
    · exact (isAddressChar_cellChars c hc).1

theorem isAddressChar_a1 (r : Range) : ∀ c ∈ r.a1.toList, isAddressChar c = true := by
  intro c hc
  rw [toList_a1] at hc
  split at hc
  · exact (isAddressChar_cellChars c hc).1
  · exact isAddressChar_colon c hc

theorem between_corners (r : Range) : between r.row r.col r.rowEnd r.colEnd = .ok r := by
  have h1 := r.row_pos
  have h2 := r.row_le
  have h3 := r.col_le
  rw [between, dif_pos ⟨by omega, by omega⟩, dif_pos ⟨by omega, by omega⟩]
  rfl

/-- A text without white space and small letters is read as the range of which it names the corners. -/
theorem read_of_corners {fits : Nat → Bool} {text : String} {r : Range}
    (hchars : ∀ c ∈ text.toList, isAddressChar c = true)
    (h : readCorners fits text text.toList = .ok ((r.row, r.col), (r.rowEnd, r.colEnd))) :
    read fits text = .ok r := by
  rw [read, Text.ofString, normalized_ofChars hchars, Text.chars?_ofChars]
  dsimp only
  rw [← Text.ofString, h]
  exact between_corners r

/-- A reader that takes the row numbers of a range reads its text as that range. -/
theorem read_a1 {fits : Nat → Bool} (r : Range) (hstart : fits (Nat.toDigits 10 r.row).length = true)
    (hlast : fits (Nat.toDigits 10 r.rowEnd).length = true) : read fits r.a1 = .ok r := by
  refine read_of_corners (isAddressChar_a1 r) ?_
  rw [toList_a1]
  split
  · rename_i h
    rw [readCorners_cellChars hstart, ← h.1, ← h.2]
  · exact readCorners_colon hstart hlast

/-- A sheet reads the text of a range as that range. -/
theorem named_a1 (r : Range) : named r.a1 = .ok r := read_a1 r rfl rfl

theorem hasText_iff {r : Range} : r.hasText = true ↔ r.rowEnd < 10 ^ longestNumeral :=
  hasNumeral_natCast

theorem hasText_eq_false_iff {r : Range} : r.hasText = false ↔ 10 ^ longestNumeral ≤ r.rowEnd := by
  rw [← Bool.not_eq_true, hasText_iff, Nat.not_lt]

/-- The first row of a range has a numeral where the last one has. -/
theorem hasNumeral_row {r : Range} (h : r.hasText = true) : hasNumeral r.row = true :=
  hasNumeral_natCast.mpr (Nat.lt_of_le_of_lt r.row_le (hasText_iff.mp h))

/-- Reading the text of a range gives that range. -/
theorem ofA1_a1 (r : Range) (h : r.hasText = true) : ofA1 r.a1 = .ok r :=
  read_a1 r (decide_eq_true (length_toDigits_le_iff.mpr (hasNumeral_row h)))
    (decide_eq_true (length_toDigits_le_iff.mpr h))

end Range

end RowStore
