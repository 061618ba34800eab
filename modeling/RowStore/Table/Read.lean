import RowStore.Query.Bracket
import RowStore.Query.Clauses
import RowStore.Response.Records
import RowStore.Table.Basic

/-!
# Reading records

Reads go through the query service: a request is compiled to a query, and the answer is decoded into
records. A refused request and a failed read are notes in the log; the caller gets nothing instead of
records. `find` and `findById` never send a query with fewer conditions than they were given, while
`findMany` drops unknown names.
-/

namespace RowStore

open Query Response

namespace Table

/-- Sends a query and decodes the answer. -/
def read (t : Table) (query : Text) : Act (Except Fault (List Record)) :=
  catching Fault.Kind.isRecordKind .warning ("Query " ++ Text.quoted query ++ " failed: ") do
    let answer ← t.fetch query
    let columns ← Act.columns
    return (← parse columns answer).records

/-- The first record with the given values. -/
def findFirst (t : Table) (operation : String) (conditions : Entries Value) :
    Act (Option Record) := do
  let query ← compile (← Act.columns) (Descriptor.first conditions)
  match ← t.read query with
  | .ok (record :: _) => return some record
  | .ok [] =>
    Act.note .debug (operation ++ ": no record matches " ++ (Value.mapping conditions).written)
    return none
  | .error _ => return none

/-- The record with an identifier. -/
def findById (t : Table) (id : Value) : Act (Option Record) := do
  match ← catchingRefusal "find_by_id" (t.requireIdentifier id) with
  | .ok header => t.findFirst "find_by_id" [(header, id)]
  | .error _ => return none

/-- The first record that fulfils all conditions. -/
def find (t : Table) (conditions : Value) : Act (Option Record) := do
  match ← catchingRefusal "find" (t.requireConditions conditions) with
  | .ok entries => t.findFirst "find" entries
  | .error _ => return none

/-- The records that a request asks for. -/
def findMany (t : Table) (request : Value) : Act (Option (List Record)) := do
  match ← catchingRefusal "find_many" (Descriptor.requested request) with
  | .ok descriptor =>
    let query ← compile (← t.knownColumns) descriptor
    return (← t.read query).toOption
  | .error _ => return none

/-- All records, or none if they cannot be read. -/
def getAll (t : Table) : Act (List Record) := do
  return (← t.findMany .null).getD []

/-- The records that a query with bracketed headers asks for. -/
def query (t : Table) (text : Value) : Act (Option (List Record)) := do
  let resolved ← catchingRefusal "query" do
    let columns ← t.knownColumns
    Bracket.resolve columns text
  match resolved with
  | .ok query => return (← t.read query).toOption
  | .error _ => return none

/-- Records as a frame with the known headers first; all records when none are given. -/
def toFrame (t : Table) (records : Value) : Act Frame := do
  let records ← match records with
    | .null => do pure (Value.list ((← t.getAll).map .mapping))
    | v => pure v
  let headers := ((← Act.columns).map Columns.headers).getD []
  Frame.ofValue records headers

end Table

end RowStore
