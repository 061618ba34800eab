import RowStore.Fault.Basic
import RowStore.Sheet.Slice

/-!
# Rows of a sheet

A sheet is a list of rows, and a row a list of cells; rows may have different lengths. A `SheetWrite`
is one call that changes a sheet, and `Rows.apply` says how: rows go to the end, blocks of cells
overwrite what is there, spans of rows are taken out one after another, and a clearing drops all rows
from the first row of its area on. Ranges and areas are told to a sheet as texts. A call that fails on
the way keeps what it has done so far.
-/

namespace RowStore

abbrev Row := List Value

abbrev Rows := List Row

/-- Rows of cells to be written from the first cell of a range on, as they are given. -/
structure Block where
  range : Value
  rows : Value

/-- Rows that follow each other, by their bounds counted from 0; the second bound is not included. -/
structure Span where
  first : Value
  after : Value

/-- A call that changes a sheet. -/
inductive SheetWrite
  | append (rows : Rows)
  | setBlocks (blocks : List Block)
  | deleteSpans (spans : List Span)
  | clear (area : String)

namespace Row

/-- Puts cells one after another from a position on; missing cells before it become empty texts. -/
def setCells (row : Row) (position : Nat) (values : List Value) : Row :=
  row.take position ++ List.replicate (position - row.length) (.text "") ++ values ++
    row.drop (position + values.length)

/-- The cell at a position, if the row is long enough. -/
def cell? (row : Row) (position : Nat) : Option Value := row[position]?

end Row

namespace Rows

/-- Changes the row at a position; missing rows before it become empty. -/
def changeRow (f : Row → Row) : Rows → Nat → Rows
  | [], 0 => [f []]
  | [], n + 1 => [] :: changeRow f [] n
  | r :: rest, 0 => f r :: rest
  | r :: rest, n + 1 => r :: changeRow f rest n

/-- Writes rows of cells with the first cell at a row and a column, both counted from 0. -/
def setRows (rows : Rows) (row col : Nat) : List Value → Except Fault Unit × Rows
  | [] => (.ok (), rows)
  | v :: rest =>
    match v.each with
    | .ok values => setRows (rows.changeRow (Row.setCells · col values) row) (row + 1) col rest
    | .error fault => (.error fault, rows.changeRow id row)

/-- The first cell and the rows of a block. -/
def blockParts (block : Block) : Except Fault (Range × List Value) := do
  match Range.named (← block.range.expectText) with
  | .ok target => return (target, ← block.rows.each)
  | .error fault => throw (.address fault)

/-- Writes a block. -/
def setBlock (rows : Rows) (block : Block) : Except Fault Unit × Rows :=
  match blockParts block with
  | .ok (target, values) => rows.setRows (target.row - 1) target.col values
  | .error fault => (.error fault, rows)

/-- Makes changes one after another, up to the first one that fails. -/
def inTurn {α : Type} (change : Rows → α → Except Fault Unit × Rows) (rows : Rows) :
    List α → Except Fault Unit × Rows
  | [] => (.ok (), rows)
  | a :: rest =>
    match change rows a with
    | (.ok (), rows) => inTurn change rows rest
    | (.error fault, rows) => (.error fault, rows)

/-- Takes out a span of rows. -/
def deleteSpan (rows : Rows) (span : Span) : Except Fault Unit × Rows :=
  match span.first.integer?, span.after.integer? with
  | some first, some after => (.ok (), Slice.without first after rows)
  | _, _ => (.error .unsuitable, rows)

/-- Drops all rows from the one with a number on. -/
def dropFrom (rows : Rows) (number : Int) : Rows := Slice.upTo (number - 1) rows

/-- The number of the first row of an area: it stands between the letters of the first cell and the colon,
and a sheet takes one with a sign, too. -/
def firstRow? (area : String) : Option Int :=
  let (negative, digits) := splitSign ((area.toList.dropWhile Column.isCapital).takeWhile (· ≠ ':'))
  if digits.isEmpty || !digits.all Char.isDigit then none
  else some (if negative then -(digitsValue digits : Int) else digitsValue digits)

/-- What a call does to a sheet. -/
def apply (rows : Rows) : SheetWrite → Except Fault Unit × Rows
  | .append more => (.ok (), rows ++ more)
  | .setBlocks blocks => rows.inTurn setBlock blocks
  | .deleteSpans spans => rows.inTurn deleteSpan spans
  | .clear area =>
    match firstRow? area with
    | some number => (.ok (), rows.dropFrom number)
    | none => (.error .malformed, rows)

/-- The rows as one value. -/
def value (rows : Rows) : Value := .list (rows.map .list)

/-- The rows that a list of values holds, each of them a sequence of cells. -/
def ofValues (vs : List Value) : Except Fault Rows := vs.mapM Value.each

/-- The length of the longest row. -/
def width (rows : Rows) : Nat := rows.foldl (fun n row => max n row.length) 0

theorem ofValues_map_list (rows : Rows) : ofValues (rows.map .list) = .ok rows := by
  induction rows with
  | nil => rfl
  | cons row rest ih =>
    simp only [ofValues, List.map_cons, List.mapM_cons] at ih ⊢
    rw [ih]
    rfl

end Rows

end RowStore
