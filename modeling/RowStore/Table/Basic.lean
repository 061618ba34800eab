import RowStore.Endpoint
import RowStore.Frame
import RowStore.Match
import RowStore.Settings
import RowStore.Writer

/-!
# Tables

A `Table` gives access to the records of one worksheet. Its columns are fetched by one query and kept
in the session until they are dropped; `Table.knownColumns` gives the kept ones or fetches them. What
every operation checks before it does anything is here too: that there are columns, that there is an
identifier column, and that a record's names are known.
-/

namespace RowStore

/-- Where the answers to queries come from. -/
inductive QuerySource
  /-- A party that is asked with the text of the query alone. -/
  | service
  | endpoint (e : Endpoint)

/-- Access to the records of one worksheet. -/
structure Table where
  identifier : Value
  writer : Writer
  source : QuerySource

namespace Table

variable {α : Type}

def grid (t : Table) : Grid := t.writer.grid

/-- The answer to a query. -/
def fetch (t : Table) (query : Text) : Act Value :=
  match t.source with
  | .service => Act.ofAnswer (Act.ask (.query query))
  | .endpoint e => e.fetch query

/-- Leaves a note and gives the fault as a value, if it is one of the given ones. -/
def catching (holds : Fault.Kind → Bool) (level : NoteLevel) (label : String) (m : Act α) :
    Act (Except Fault α) := do
  match ← Act.observe m with
  | .ok a => return .ok a
  | .error fault =>
    if holds fault.kind then
      Act.note level (label ++ fault.message)
      return .error fault
    else throw fault

/-- Notes refused input under the name of an operation, and gives the fault as a value. -/
def catchingRefusal (operation : String) (m : Act α) : Act (Except Fault α) :=
  catching Fault.Kind.isValidation .warning (operation ++ ": ") m

/-! ## Columns -/

/-- The query whose answer describes the columns. -/
def columnsQuery : String := "select * limit 1"

/-- The note about a sheet that has no identifier column. -/
def noIdentifierNote (c : Columns) : String :=
  "Identifier header " ++ c.identifier.written ++ " not found among " ++
    Value.writtenList c.headers ++ "; id-based operations are disabled"

/-- Notes what has been fetched. -/
def noteColumns (c : Columns) : Act Unit := do
  if c.identifierCode.isNone && !c.isEmpty then Act.note .warning (noIdentifierNote c)
  Act.note .debug ("Fetched " ++ toString c.list.length ++ " column(s): " ++
    Value.writtenList c.headers)

/-- Fetches the columns and keeps them; if that fails, none are kept. -/
def fetchColumns (t : Table) : Act (Except Fault Columns) := do
  Act.setColumns none
  let outcome ← catching Fault.Kind.isRecordKind .warning "Column metadata fetch failed: " do
    let answer ← t.fetch columnsQuery
    Columns.ofAnswer answer t.identifier
  match outcome with
  | .error fault => return .error fault
  | .ok c =>
    noteColumns c
    Act.setColumns (some c)
    return .ok c

/-- The kept columns, or freshly fetched ones when none or an empty list is kept. -/
def getColumns (t : Table) : Act (Except Fault Columns) := do
  match (← Act.columns).filter (!·.isEmpty) with
  | some c => return .ok c
  | none => t.fetchColumns

/-- The columns, if there are any to be had. -/
def knownColumns (t : Table) : Act (Option Columns) := do
  return (← t.getColumns).toOption

/-- Drops the kept columns. -/
def invalidate : Act Unit := Act.setColumns none

/-- Fetches the columns anew; says whether that succeeded. -/
def refresh (t : Table) : Act Bool := do
  return (← t.fetchColumns).toOption.isSome

/-! ## Checks -/

/-- The columns of a sheet that has some. -/
def requireColumns (t : Table) : Act Columns := do
  match (← t.knownColumns).filter (!·.isEmpty) with
  | some c => return c
  | none => throw (.validation .noColumns)

/-- A value that may identify a record. -/
def isIdentifier (v : Value) : Bool := !(Text.trim v.asText).isEmpty

/-- The header of the identifier column, for an identifier that has a text which is not empty. -/
def requireIdentifier (t : Table) (id : Value) : Act Value := do
  id.checkText
  if !isIdentifier id then throw (.validation .identifierEmpty)
  match (← t.requireColumns).identifierHeader with
  | some header => return header
  | none => throw (Fault.worded (.validation (.identifierColumnMissing t.identifier)))

/-- The conditions of a mapping that is not empty and names known headers only. -/
def requireConditions (t : Table) (conditions : Value) : Act (Entries Value) := do
  match conditions with
  | .mapping (e :: rest) =>
    let entries : Entries Value := e :: rest
    let c ← t.requireColumns
    let unknown := entries.names.filter fun name => !c.codes.has name
    if unknown.isEmpty then return entries
    else throw (Fault.worded (.validation (.unknownConditions unknown)))
  | _ => throw (.validation .noConditions)

/-- The entries whose names are headers; the other ones leave a note. -/
def knownFields (c : Columns) (what : String) (entries : Entries Value) :
    Noted (Entries Value) := do
  let unknown := entries.filter fun e => !c.positions.has e.1
  if !unknown.isEmpty then
    Noted.note .warning ("Dropping unknown columns " ++
      Value.writtenList (Entries.names unknown) ++ " from " ++ what)
  return entries.filter fun e => c.positions.has e.1

end Table

end RowStore
