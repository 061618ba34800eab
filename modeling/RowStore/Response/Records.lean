import RowStore.Response.Cell

/-!
# Records of an answer

`Response.parse` decodes an answer of the query service into records, one per row and in the order
of the rows. A column's values stand under its label or, when it has none, under the header that the
known columns give to its code; a column with neither is left out.
-/

namespace RowStore.Response

/-- Values under the headers of their columns. -/
abbrev Record := Entries Value

/-- A decoded answer. -/
structure Answer where
  records : List Record
  warnings : List Value

/-- The name under which a column's values stand in a record, if it has one. -/
def keyOf (columns : Option Columns) (descriptor : Value) : Except Fault (Option Value) :=
  match descriptor with
  | .mapping fields => do
    let text ← Columns.labelText (Value.get fields "label")
    if !text.isEmpty then return some (.text text)
    else match columns with
      | none => return none
      | some c =>
        let code := Value.get fields "id"
        if code.isKey then return c.headersByCode.find? code else throw .unsuitable
  | _ => .ok none

/-- The type of a column's values. -/
def typeOf (descriptor : Value) : TypeTag :=
  match descriptor with
  | .mapping fields => TypeTag.ofValue (Value.get fields "type")
  | _ => .unknown

/-- A column of an answer: its position, its name and its type. -/
structure Slot where
  position : Nat
  key : Value
  type : TypeTag

/-- The columns that have a name. -/
def slotsOf (columns : Option Columns) (descriptors : List Value) : Except Fault (List Slot) := do
  let keys ← descriptors.mapM (keyOf columns)
  return (keys.zip descriptors).zipIdx.filterMap fun p =>
    p.1.1.map fun key => ⟨p.2, key, typeOf p.1.2⟩

/-- The cell of a row at a position; a row that is too short has none there. -/
def cellAt (cells : Value) (position : Nat) : Except Fault Value :=
  if cells.isBlank then .ok .null
  else match cells with
    | .list items => .ok (items.getD position .null)
    | .text _ => .ok .null
    | .mapping entries => if position < entries.length then .error .unsuitable else .ok .null
    | _ => .error .unsuitable

/-- The cells of a row. -/
def cellsOf (row : Value) : Value :=
  match row with
  | .mapping fields => Value.get fields "c"
  | _ => .null

/-- The record of a row. -/
def recordOf (slots : List Slot) (row : Value) : Noted Record :=
  slots.foldlM (fun record slot => do
    let cell ← cellAt (cellsOf row) slot.position
    let v ← decodeCell cell slot.type
    return record.insert slot.key v) []

/-- The records of a table that has columns and rows. -/
def recordsOf (columns : Option Columns) (cols rows : Value) : Noted (List Record) := do
  let descriptors ← cols.eachGiven
  let slots ← slotsOf columns descriptors
  let items ← rows.eachGiven
  items.mapM (recordOf slots)

/-- The records of a payload's table. -/
def tableRecords (columns : Option Columns) (table : Value) : Noted (List Record) :=
  if table.isBlank then return []
  else match table with
    | .mapping fields =>
      let cols := Value.get fields "cols"
      let rows := Value.get fields "rows"
      if cols.isBlank || rows.isBlank then return [] else recordsOf columns cols rows
    | _ => throw (.parse .tableNotAnObject)

/-- Decodes an answer of the query service. -/
def parse (columns : Option Columns) (answer : Value) : Noted Answer := do
  let payload ← Envelope.unwrap answer
  let warnings ← (Value.get payload "warnings").eachGiven
  if (Value.get payload "status").equals (.text "warning") then
    Noted.note .warning ("Query service returned warnings: " ++ Value.writtenList warnings)
  let records ← tableRecords columns (Value.get payload "table")
  return ⟨records, warnings⟩

end RowStore.Response
