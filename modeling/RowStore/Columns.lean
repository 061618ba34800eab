import RowStore.Envelope
import RowStore.Text.Blank
import RowStore.Text.Case

/-!
# Columns

What the query service says of a sheet's columns: for each a header, a positional code and the type
of its values. `Columns.ofDescriptors` reads the descriptors of an answer; a column without a label
is named by its code, so every column has a header, and no header occurs twice. The mappings between
headers, codes and positions are derived from the list of columns.
-/

namespace RowStore

/-- The types of values that the query service knows. -/
inductive TypeTag
  | string
  | number
  | boolean
  | date
  | datetime
  | timeofday
  | unknown
  deriving DecidableEq, Repr

namespace TypeTag

def all : List TypeTag := [string, number, boolean, date, datetime, timeofday, unknown]

def name : TypeTag → String
  | string => "string"
  | number => "number"
  | boolean => "boolean"
  | date => "date"
  | datetime => "datetime"
  | timeofday => "timeofday"
  | unknown => "unknown"

/-- The type with a name, in any case; every other name is the unknown type. -/
def ofName (t : Text) : TypeTag := (all.find? (·.name == Text.lower t)).getD unknown

/-- The type that a descriptor's value names. -/
def ofValue (v : Value) : TypeTag := ofName v.plain

theorem ofName_name (t : TypeTag) : ofName t.name = t := by cases t <;> decide +kernel

end TypeTag

/-- A column of a sheet. -/
structure Column where
  header : Value
  code : Value
  type : TypeTag

/-- The columns of a sheet in order, and the header that names the identifier. -/
structure Columns where
  list : List Column
  identifier : Value

namespace Columns

def isEmpty (c : Columns) : Bool := c.list.isEmpty

def headers (c : Columns) : List Value := c.list.map (·.header)

/-- The code of each header. -/
def codes (c : Columns) : Entries Value := c.list.map fun col => (col.header, col.code)

/-- The header of each code; of several columns with one code the last one names it. -/
def headersByCode (c : Columns) : Entries Value :=
  Entries.ofList (c.list.map fun col => (col.code, col.header))

/-- The position of each header, counted from 0. -/
def positions (c : Columns) : Entries Nat :=
  c.list.zipIdx.map fun p => (p.1.header, p.2)

/-- The type under each header and under each code; of equal names the last one counts. -/
def types (c : Columns) : Entries TypeTag :=
  Entries.ofList (c.list.flatMap fun col => [(col.header, col.type), (col.code, col.type)])

/-- The type of the column with this header or code. -/
def typeOf (c : Columns) (name : Value) : TypeTag := (c.types.find? name).getD .unknown

/-- The type of the column that a value names; a value that can be no name does not suit. -/
def lookup (c : Columns) (name : Value) : Except Fault TypeTag :=
  if name.isKey then .ok (c.typeOf name) else .error .unsuitable

/-- The code of the identifier column, if the sheet has one. -/
def identifierCode (c : Columns) : Option Value := c.codes.find? c.identifier

/-- The header of the identifier column, if the sheet has one. -/
def identifierHeader (c : Columns) : Option Value := do
  let code ← c.identifierCode
  c.headersByCode.find? code

/-- The text of a label, without white space at its ends; a blank value is an empty label. -/
def labelText (label : Value) : Except Fault Text :=
  if label.isBlank then .ok [] else do return Text.trim (← label.expectText)

/-- The header of a column: its label, or its code when the label is blank. -/
def headerOf (label code : Value) : Except Fault Value := do
  let text ← labelText label
  return if text.isEmpty then code else .text text

/-- Reads one descriptor, given the columns before it. -/
def readColumn (before : List Column) (descriptor : Value) : Except Fault Column :=
  match descriptor with
  | .mapping fields => do
    let code := Value.get fields "id"
    if code.isBlank then throw (.parse (.columnWithoutCode before.length))
    let header ← headerOf (Value.get fields "label") code
    if !header.isKey then throw .unsuitable
    if before.any (·.header.equals header) then throw (.parse (.duplicateHeader header code))
    if !code.isKey then throw .unsuitable
    return ⟨header, code, TypeTag.ofValue (Value.get fields "type")⟩
  | _ => .error (.parse (.columnWithoutCode before.length))

/-- Reads descriptors one after another onto the columns before them. -/
def readColumns (before : List Column) : List Value → Except Fault (List Column)
  | [] => .ok before
  | descriptor :: rest => do
    let column ← readColumn before descriptor
    readColumns (before ++ [column]) rest

/-- The columns of a list of descriptors. -/
def ofDescriptors (descriptors : List Value) (identifier : Value) : Except Fault Columns := do
  return ⟨← readColumns [] descriptors, identifier⟩

/-- The columns of a value that holds descriptors. -/
def ofValue (descriptors : Value) (identifier : Value) : Except Fault Columns := do
  ofDescriptors (← descriptors.each) identifier

/-- The column descriptors in an answer's payload. -/
def descriptorsOf (payload : Entries Value) : Except Fault (List Value) :=
  let table := Value.get payload "table"
  if table.isBlank then .ok []
  else match table with
    | .mapping fields =>
      let cols := Value.get fields "cols"
      if cols.isBlank then .ok []
      else match cols with
        | .list descriptors => .ok descriptors
        | _ => .error (.parse .columnsNotAList)
    | _ => .error (.parse .tableNotAnObject)

/-- The columns that an answer of the query service describes. -/
def ofAnswer (answer : Value) (identifier : Value) : Except Fault Columns := do
  let payload ← Envelope.unwrap answer
  let descriptors ← descriptorsOf payload
  ofDescriptors descriptors identifier

end Columns

end RowStore
