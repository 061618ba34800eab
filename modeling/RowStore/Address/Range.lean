import RowStore.Address.Column
import RowStore.Number.Reading

/-!
# Ranges of cells

A `Range` is a rectangle of cells: rows are counted from 1 and columns from 0, and the end lies
neither above nor to the left of the start. `Range.a1` writes `B4` for one cell and `A2:D10` for
more; `Range.read` reads both forms, in either case and with white space around each cell. Integers are
written and read with at most `longestNumeral` digits: `Range.hasText` says which ranges have a text, and
`Range.ofA1` refuses longer numerals, while a sheet takes row numbers of any length (`Range.named`).
-/

namespace RowStore

/-- A rectangle of cells, both corners included. -/
structure Range where
  row : Nat
  col : Nat
  rowEnd : Nat
  colEnd : Nat
  row_pos : 0 < row
  row_le : row ≤ rowEnd
  col_le : col ≤ colEnd
  deriving DecidableEq

namespace Range

/-- The rectangle between two corners. -/
def between (row col rowEnd colEnd : Int) : Except AddressFault Range :=
  if h : 1 ≤ row ∧ 0 ≤ col then
    if h' : row ≤ rowEnd ∧ col ≤ colEnd then
      .ok ⟨row.toNat, col.toNat, rowEnd.toNat, colEnd.toNat, by omega, by omega, by omega⟩
    else .error .endBeforeStart
  else .error .beforeFirstCell

/-- One cell. -/
def cell (row col : Nat) (h : 1 ≤ row) : Range :=
  ⟨row, col, row, col, h, Nat.le_refl _, Nat.le_refl _⟩

/-- The text of one cell. -/
def cellA1 (row col : Nat) : String := Column.letters col ++ toString row

/-- The text of a range; a range of one cell is written as that cell. Whether the row numbers are too long to
be written is asked of `hasText`. -/
def a1 (r : Range) : String :=
  if r.row = r.rowEnd ∧ r.col = r.colEnd then cellA1 r.row r.col
  else cellA1 r.row r.col ++ ":" ++ cellA1 r.rowEnd r.colEnd

/-- Whether the row numbers of a range have numerals; the last row has the longer one. -/
def hasText (r : Range) : Bool := hasNumeral r.rowEnd

/-- A cell's text in its parts, the digits of its row and the column: capital letters, then digits of any
script. -/
def cellParts? (cs : List Char) : Option (List Char × Nat) :=
  let body := Text.trimBy Text.isBlank cs
  let letters := body.takeWhile Column.isCapital
  let digits := body.dropWhile Column.isCapital
  if letters.isEmpty || digits.isEmpty || !digits.all Text.isDigit then none
  else some (digits.map plainDigit, Column.wordValue letters - 1)

/-! A reader of addresses may have a limit on the number of digits of a row: `fits` says which numbers it
takes, and `t` is the text that it reads. -/

section Reading

variable (fits : Nat → Bool) (t : Text)

/-- The row and the column of a cell's text. -/
def readCell (cs : List Char) : Except AddressFault (Nat × Nat) :=
  match cellParts? cs with
  | none => .error (.notARange t)
  | some (digits, col) =>
    if fits digits.length then .ok (digitsValue digits, col)
    else .error (.numeralTooLong digits.length)

/-- The corners that a normalized text names: one cell, or two with a colon between. -/
def readCorners (cs : List Char) : Except AddressFault ((Nat × Nat) × (Nat × Nat)) :=
  match cs.dropWhile (· ≠ ':') with
  | [] => do
    let corner ← readCell fits t cs
    return (corner, corner)
  | _ :: second =>
    if second.contains ':' then .error (.notARange t)
    else do
      let start ← readCell fits t (cs.takeWhile (· ≠ ':'))
      let last ← readCell fits t second
      return (start, last)

/-- The range that a text names. -/
def read : Except AddressFault Range :=
  match (Column.normalized t).chars? with
  | none => .error (.notARange t)
  | some cs => do
    let ((row, col), rowEnd, colEnd) ← readCorners fits t cs
    between row col rowEnd colEnd

end Reading

/-- The range that a text names, as it is read here: with row numbers that have a numeral. -/
def ofA1 (t : Text) : Except AddressFault Range := read (· ≤ longestNumeral) t

/-- The range that a text names to a sheet, which has no limit on numerals. -/
def named (t : Text) : Except AddressFault Range := read (fun _ => true) t

/-- The text that shows a range with the given cells among other values. -/
def shown (cells : String) : String := "Range(" ++ Text.quoted cells ++ ")"

/-- The text that shows a range among other values. -/
def written (r : Range) : String := shown r.a1

end Range

end RowStore
