import RowStore.Sheet.Rows
import RowStore.Value.Entries

/-!
# Changes and batches

A `Change` is one queued alteration of a sheet. It keeps its arguments as they are given: whether they
are rows and numbers shows only when it is sent. Changes of the same kind that follow each other are
sent in one call: `batches` puts them together. A change of a foreign kind is kept in the queue but
cannot be sent.
-/

namespace RowStore

/-- A queued alteration of a sheet; rows are counted from 1. -/
inductive Change
  | append (rows : Value)
  | set (block : Block)
  | delete (row : Value)
  | clear (startRow : Value)
  | foreign (v : Value)

namespace Change

/-- The change that adds rows at the end. -/
def appendRows (rows : Rows) : Change := append (Rows.value rows)

/-- The change that writes one cell. -/
def setCell (cell : Range) (v : Value) : Change := set ⟨.text cell.a1, Rows.value [[v]]⟩

/-- The change that takes out the row with a number. -/
def deleteRow (number : Int) : Change := delete (.int number)

/-- The change that clears all rows from the one with a number on. -/
def clearFrom (number : Int) : Change := clear (.int number)

/-- The parts of a change by name; a foreign one has none. -/
def parts? : Change → Option (Entries Value)
  | append rows => some [(.text "type", .text "AppendRows"), (.text "values", rows)]
  | set block =>
    some [(.text "type", .text "SetValues"), (.text "range", block.range),
      (.text "values", block.rows)]
  | delete row => some [(.text "type", .text "DeleteRows"), (.text "row", row)]
  | clear startRow => some [(.text "type", .text "ClearRows"), (.text "start_row", startRow)]
  | foreign _ => none

/-- A change as it is shown: its parts, or a foreign one as it is. -/
def shown : Change → Value
  | foreign v => v
  | change => .mapping (change.parts?.getD [])

end Change

/-- Changes that are sent in one call. -/
inductive Batch
  | append (parts : List Value)
  | set (blocks : List Block)
  | delete (rows : List Value)
  | clear (first : Value) (others : List Value)
  | foreign (v : Value)

namespace Batch

/-- The batch of one change. -/
def single : Change → Batch
  | .append rows => append [rows]
  | .set block => set [block]
  | .delete row => delete [row]
  | .clear startRow => clear startRow []
  | .foreign v => foreign v

/-- Puts a change in front of batches, into the first of them if it is of the same kind. -/
def cons (c : Change) (batches : List Batch) : List Batch :=
  match c, batches with
  | .append rows, append more :: rest => append (rows :: more) :: rest
  | .set block, set more :: rest => set (block :: more) :: rest
  | .delete row, delete more :: rest => delete (row :: more) :: rest
  | .clear startRow, clear next more :: rest => clear startRow (next :: more) :: rest
  | c, batches => single c :: batches

end Batch

/-- The batches in which a queue is sent. -/
def batches (changes : List Change) : List Batch := changes.foldr Batch.cons []

end RowStore
