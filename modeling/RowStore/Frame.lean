import RowStore.Fault.Basic
import RowStore.Value.Entries

/-!
# Frames

A frame shows records as a table: a list of column names and one row of values for each record.
`Frame.ofRecords` takes the known headers that occur in a record first, in their order, and then all
other names in the order in which they first occur; if no record has a name, it takes all headers.

A data frame is made from that by a package, which is a parameter here: `Frame.Library` has its functions, and
`Frame.Library.ofValue` calls it.
-/

namespace RowStore

/-- A table of values; `none` marks a value that a record does not have, or has as null. -/
structure Frame where
  columns : List Value
  rows : List (List (Option Value))

namespace Frame

/-- Whether a name is among others. -/
def isIn (names : List Value) (name : Value) : Bool := names.any (·.equals name)

/-- Adds a name at the end unless it is there. -/
def addName (names : List Value) (name : Value) : List Value :=
  if isIn names name then names else names ++ [name]

/-- The different names of a list, in the order of their first occurrence. -/
def firstSeen (names : List Value) : List Value := names.foldl addName []

/-- The columns for names that occur: known headers first, then the others; all headers when no name
occurs. -/
def order (seen headers : List Value) : List Value :=
  let known := headers.filter (isIn seen)
  let columns := known ++ seen.filter fun name => !isIn known name
  if columns.isEmpty then headers else columns

/-- The value of a record in a column; null is no value. -/
def valueAt (record : Entries Value) (column : Value) : Option Value :=
  (record.find? column).filter (!·.isNull)

/-- The frame of records, with the known headers first. -/
def ofRecords (records : List (Entries Value)) (headers : List Value) : Frame :=
  let columns := order (firstSeen (records.flatMap Entries.names)) headers
  ⟨columns, records.map fun record => columns.map (valueAt record)⟩

/-- The frame of a value that holds records. A record without any name may have any form. -/
def ofValue (records : Value) (headers : List Value) : Except Fault Frame := do
  let items ← records.each
  let names ← items.mapM Value.each
  if (order (firstSeen names.flatten) headers).isEmpty then return ⟨[], items.map fun _ => []⟩
  else return ofRecords (← items.mapM Value.expectEntries) headers

/-- The rows as they are given away, with null for no value. -/
def given (f : Frame) : List (List Value) := f.rows.map fun row => row.map (·.getD .null)

/-- A package of data frames. It makes them from rows and the names of the columns; a data frame has labels on its
columns, a number of rows, and cells, some of which are missing. -/
structure Library (D : Type) where
  make (rows : List (List Value)) (columns : List Value) : Except Fault D
  labels : D → List Value
  size : D → Nat
  cell : D → Nat → Nat → Option Value

/-- The data frame of a value that holds records. -/
def Library.ofValue {D : Type} (lib : Library D) (records : Value) (headers : List Value) : Except Fault D := do
  let f ← Frame.ofValue records headers
  lib.make f.given f.columns

end Frame

end RowStore
