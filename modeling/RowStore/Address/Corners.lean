import RowStore.Fault.Basic

/-!
# Corners as they are given

A rectangle may be asked for with any values as its corners. `Corners.of` compares them with the first
cell and with each other and keeps them as they are, so a boolean or a NaN passes where the number
that it is compared as does. `Corners.a1` writes them; only whole columns have letters, and a row has to have a
text.
-/

namespace RowStore

/-- The letters of a column that a value gives. A NaN is not below the first column, but it has no
letters. -/
def Column.lettersOf (v : Value) : Except Fault String := do
  if ← v.before (.int 0) then throw (.address .negativeColumn)
  match v with
  | .real (.nan _) => return ""
  | v => return Column.letters (← Value.expected v.integer?).toNat

/-- The corners of a rectangle, rows counted from 1 and columns from 0. -/
structure Corners where
  row : Value
  col : Value
  rowEnd : Value
  colEnd : Value

namespace Corners

/-- The second corner is where the first one is, unless it is given. -/
def endOf (start stop : Value) : Value :=
  match stop with
  | .null => start
  | stop => stop

/-- Checked corners; null for an end stands for the start. -/
def of (row col rowEnd colEnd : Value) : Except Fault Corners := do
  if ← row.before (.int 1) <||> col.before (.int 0) then throw (.address .beforeFirstCell)
  let c : Corners := ⟨row, col, endOf row rowEnd, endOf col colEnd⟩
  if ← c.rowEnd.before c.row <||> c.colEnd.before c.col then throw (.address .endBeforeStart)
  return c

/-- The text of one corner. -/
def cellA1 (row col : Value) : Except Fault String := do
  let letters ← Column.lettersOf col
  row.checkText
  return letters ++ row.written

/-- The text of the corners; equal ones are written once. -/
def a1 (c : Corners) : Except Fault String := do
  let start ← cellA1 c.row c.col
  if c.row.standsAt c.rowEnd && c.col.standsAt c.colEnd then return start
  return start ++ ":" ++ (← cellA1 c.rowEnd c.colEnd)

end Corners

end RowStore
