import RowStore.Table.Basic
import RowStore.Value.Cell

/-!
# Writing records

Every write validates its input first and then runs as one locked write: it reads the rows that it
depends on, queues its changes and sends them. A refused input is a note in the log and takes no lock.
The identifier of a record is never changed, and no two records of one write share an identifier.
-/

namespace RowStore.Table

/-! ## Creating -/

/-- The text of a record's identifier, which must not be blank or among the ones before. -/
def identifierText (position : Nat) (header : Value) (known : Entries Value)
    (before : List Text) : Except Fault Text := do
  let text := Text.trim (← ((known.find? header).getD .null).comparedText)
  if text.isEmpty then throw (.validation (.recordWithoutIdentifier position header))
  if before.contains text then throw (.validation (.identifierRepeated text))
  return text

/-- The cells of a record in the order of the headers. -/
def cellsOf (c : Columns) (known : Entries Value) : Except Fault Row :=
  c.headers.mapM fun h => ((known.find? h).getD .null).cellOf

/-- The cells of a record, and the identifier texts with the record's own. -/
def rowOf (c : Columns) (position : Nat) (before : List Text) (record : Value) :
    Noted (Row × List Text) := do
  match record with
  | .mapping (e :: rest) =>
    let entries : Entries Value := e :: rest
    let known ← knownFields c ("record " ++ toString position) entries
    if known.isEmpty then
      throw (Fault.worded (.validation (.recordUnknown position entries.names)))
    match c.identifierHeader with
    | some header =>
      let text ← identifierText position header known before
      return (← cellsOf c known, before ++ [text])
    | none => return (← cellsOf c known, before)
  | _ => throw (.validation (.recordEmpty position))

/-- The rows of records, from a position and the identifier texts before it on. -/
def rowsFrom (c : Columns) (position : Nat) (before : List Text) :
    List Value → Noted Rows
  | [] => return []
  | record :: rest => do
    let (row, texts) ← rowOf c position before record
    return row :: (← rowsFrom c (position + 1) texts rest)

/-- The rows of the records to be created. -/
def rowsFor (c : Columns) (records : List Value) : Noted Rows :=
  if records.isEmpty then throw (.validation .noRecords) else rowsFrom c 0 [] records

/-- The cells at a position in the rows that have one. -/
def cellsAt (position : Nat) (rows : Rows) : List Value := rows.filterMap (·.cell? position)

/-- Refuses rows whose identifier is in the sheet already. -/
def checkTaken (position : Nat) (existing : Rows) (rows : Rows) : Except Fault Unit :=
  let texts := (cellsAt position existing).map Value.asText
  let taken := (cellsAt position rows).filter fun v => texts.contains v.asText
  if taken.isEmpty then .ok () else .error (.validation (.identifierTaken taken))

/-- Queues the rows unless one of their identifiers is in the sheet already. -/
def appendRows (t : Table) (c : Columns) (rows : Rows) : Act Nat := do
  match c.identifierHeader.bind c.positions.find? with
  | some position => checkTaken position (← t.grid.readData) rows
  | none => pure ()
  Grid.queue (.appendRows rows)
  return rows.length

/-- Notes how many rows a successful write has changed. -/
def noteCount (operation done : String) (result : Except Fault Nat) : Act Unit := do
  match result with
  | .ok n => Act.note .info (operation ++ ": " ++ done ++ " " ++ toString n ++ " row(s)")
  | .error _ => return ()

/-- Runs an action under the write lock and notes what it has changed. -/
def write (t : Table) (operation done : String) (action : Act Nat) :
    Act (Except Fault Nat) := do
  let result ← t.writer.execute operation action
  noteCount operation done result
  return result

/-- Creates records in one write. -/
def insert (t : Table) (operation : String) (records : List Value) :
    Act (Except Fault Nat) := do
  let prepared ← catchingRefusal operation do
    let c ← t.requireColumns
    return (c, ← rowsFor c records)
  match prepared with
  | .error fault => return .error fault
  | .ok (c, rows) => t.write operation "appended" (t.appendRows c rows)

/-- Whether a write succeeded. -/
def succeeded (result : Except Fault Nat) : Bool := result.toOption.isSome

/-- How many rows a write has changed. -/
def countOf (result : Except Fault Nat) : Nat := result.toOption.getD 0

/-- Creates one record. -/
def create (t : Table) (record : Value) : Act Bool := do
  return succeeded (← t.insert "create" [record])

/-- Creates all of the records or none; gives their number. -/
def createMany (t : Table) (records : Value) : Act Nat := do
  return countOf (← t.insert "create_many" (← records.eachGiven))

/-! ## Updating and deleting -/

/-- The numbers of the rows that match; there has to be one. -/
def matchingRows (t : Table) (c : Columns) (conditions : Value) (firstOnly : Bool) :
    Act (List Int) := do
  let read : Act (List Value) := do return (← t.grid.readData).map .list
  let positions ← Match.positions (some c) read conditions firstOnly
  if positions.isEmpty then throw (Fault.worded (.noRowMatches conditions))
  return positions.map t.grid.rowNumber

/-- Drops the identifier from the fields of an update, and says so. -/
def withoutIdentifier (c : Columns) (known : Entries Value) : Noted (Entries Value) := do
  match c.identifierHeader with
  | none => return known
  | some header =>
    if known.has header then
      Noted.note .warning
        ("Ignoring identifier field " ++ header.written ++ " in update payload")
      return known.filter fun e => !e.1.equals header
    else return known

/-- The fields that an update changes. -/
def fieldsFor (c : Columns) (fields : Value) : Noted (Entries Value) := do
  match fields with
  | .mapping (e :: rest) =>
    let known ← knownFields c "update payload" (e :: rest)
    let changes ← withoutIdentifier c known
    if changes.isEmpty then throw (.validation .payloadUnknown)
    return changes
  | _ => throw (.validation .payloadEmpty)

/-- Refuses conditions that are blank. -/
def checkConditions (conditions : Value) (cause : ValidationFault) : Except Fault Unit :=
  if conditions.isBlank then .error (.validation cause) else .ok ()

/-- The change that writes a value into the cell of a header. The rows of a sheet are in memory, so their
numbers have numerals. -/
def cellChange (c : Columns) (row : Int) (field : Value × Value) : Except Fault Change :=
  match c.positions.find? field.1 with
  | none => .error .unsuitable
  | some col =>
    match Range.between row col row col with
    | .ok cell => do return .setCell cell (← field.2.cellOf)
    | .error cause => .error (.address cause)

/-- The changes of an update, row by row. -/
def cellChanges (c : Columns) (rows : List Int) (fields : Entries Value) :
    Except Fault (List Change) :=
  (rows.flatMap fun row => fields.map fun field => (row, field)).mapM fun p =>
    cellChange c p.1 p.2

/-- Queues the changes of an update. -/
def setFields (t : Table) (c : Columns) (fields : Entries Value) (conditions : Value)
    (firstOnly : Bool) : Act Nat := do
  let rows ← t.matchingRows c conditions firstOnly
  Grid.queueAll (← cellChanges c rows fields)
  return rows.length

/-- Updates the records that fulfil the conditions, or the first of them. -/
def change (t : Table) (operation : String) (conditions fields : Value) (firstOnly : Bool) :
    Act (Except Fault Nat) := do
  let prepared ← catchingRefusal operation do
    let c ← t.requireColumns
    checkConditions conditions .noUpdateConditions
    return (c, ← fieldsFor c fields)
  match prepared with
  | .error fault => return .error fault
  | .ok (c, changes) =>
    t.write operation "updated" (t.setFields c changes conditions firstOnly)

/-- Queues the deletion of matching rows, the last one first, so that the numbers of the others stay
valid. -/
def deleteRows (t : Table) (c : Columns) (conditions : Value) (firstOnly : Bool) : Act Nat := do
  let rows ← t.matchingRows c conditions firstOnly
  Grid.queueAll (rows.reverse.map .deleteRow)
  return rows.length

/-- Deletes the records that fulfil the conditions, or the first of them. -/
def erase (t : Table) (operation : String) (conditions : Value) (firstOnly : Bool) :
    Act (Except Fault Nat) := do
  let prepared ← catchingRefusal operation do
    let c ← t.requireColumns
    checkConditions conditions .noDeleteConditions
    return c
  match prepared with
  | .error fault => return .error fault
  | .ok c => t.write operation "deleted" (t.deleteRows c conditions firstOnly)

/-- The condition that the identifier has a value, if the table can look for it. -/
def identifierCondition (t : Table) (operation : String) (id : Value) :
    Act (Option Value) := do
  match ← catchingRefusal operation (t.requireIdentifier id) with
  | .ok header => return some (.mapping [(header, id)])
  | .error _ => return none

/-- Updates the record with an identifier. -/
def updateById (t : Table) (id fields : Value) : Act Bool := do
  match ← t.identifierCondition "update_by_id" id with
  | some condition => return succeeded (← t.change "update_by_id" condition fields true)
  | none => return false

/-- Updates the first record that fulfils the conditions. -/
def update (t : Table) (conditions fields : Value) : Act Bool := do
  return succeeded (← t.change "update" conditions fields true)

/-- Updates all records that fulfil the conditions; gives their number. -/
def updateMany (t : Table) (conditions fields : Value) : Act Nat := do
  return countOf (← t.change "update_many" conditions fields false)

/-- Deletes the record with an identifier. -/
def deleteById (t : Table) (id : Value) : Act Bool := do
  match ← t.identifierCondition "delete_by_id" id with
  | some condition => return succeeded (← t.erase "delete_by_id" condition true)
  | none => return false

/-- Deletes the first record that fulfils the conditions. -/
def delete (t : Table) (conditions : Value) : Act Bool := do
  return succeeded (← t.erase "delete" conditions true)

/-- Deletes all records that fulfil the conditions; gives their number. -/
def deleteMany (t : Table) (conditions : Value) : Act Nat := do
  return countOf (← t.erase "delete_many" conditions false)

/-- Clears all rows below the headers. -/
def clearData (t : Table) : Act Bool := do
  match ← t.writer.execute "clear_data" (Grid.queue (.clearFrom (t.grid.headerRowNumber + 1))) with
  | .ok _ =>
    Act.note .info "clear_data: cleared all data rows"
    return true
  | .error _ => return false

end RowStore.Table
