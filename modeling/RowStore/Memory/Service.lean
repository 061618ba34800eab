import RowStore.Lock.File
import RowStore.Lock.Mutex
import RowStore.Memory.Script

/-!
# A service in memory

`Service` answers the requests of a program from memory: a sheet is a list of rows, faults and the
answers to queries are scripted, and every call is recorded. A call is recorded first, then its
scripted fault is raised, and only without one it takes effect.
-/

namespace RowStore.Memory

/-- How the write lock behaves. -/
inductive LockState
  /-- The given outcomes one by one, and success after them. -/
  | scripted (outcomes : List Bool)
  | mutex (m : Mutex)
  | file (f : LockFile)

/-- The state of a service in memory, and what has been asked of it. -/
structure Service where
  rows : Rows
  store : Value
  title : Value
  sheetId : Value
  rowCount : Option Int
  columnCount : Option Int
  faults : FaultScripts
  lock : LockState
  /-- The replies to the query for the columns, if they have a script of their own. -/
  columnReplies : Option (List Reply)
  dataReplies : List Reply
  credentials : Credentials
  renewals : List (Except Fault Value)
  calls : List Value
  queries : List Value
  lockCalls : List Value
  webCalls : List Value
  waits : List Value

namespace Service

/-- A service with a sheet, where nothing fails. -/
def ofRows (rows : Rows) : Service where
  rows
  store := .text "1AbC"
  title := .text "Users"
  sheetId := .int 7
  rowCount := none
  columnCount := none
  faults := []
  lock := .scripted []
  columnReplies := none
  dataReplies := []
  credentials := ⟨true, .null⟩
  renewals := []
  calls := []
  queries := []
  lockCalls := []
  webCalls := []
  waits := []

/-- The handle of the table's own lock. -/
def ownHandle : Nat := 0

/-- The handle of another party on the same lock file. -/
def otherHandle : Nat := 1

/-- Records a call and takes its scripted fault. -/
def record (s : Service) (name : String) (arguments : List Value) : Option Fault × Service :=
  let (fault, faults) := s.faults.next name
  (fault, { s with faults, calls := s.calls ++ [.list (.text name :: arguments)] })

/-- The part of a request that takes out a span of rows. -/
def deleteRequest (sheetId : Value) (span : Span) : Value :=
  .mapping [(.text "deleteDimension", .mapping [(.text "range", .mapping [
    (.text "sheetId", sheetId), (.text "dimension", .text "ROWS"),
    (.text "startIndex", span.first), (.text "endIndex", span.after)])])]

/-- The name and the arguments of a call that changes the sheet. -/
def callOf (sheetId : Value) : SheetWrite → String × List Value
  | .append rows => ("append_rows", [Rows.value rows, .text "USER_ENTERED"])
  | .setBlocks blocks =>
    ("batch_update", [.list (blocks.map fun b => .list [b.range, b.rows]), .bool false])
  | .deleteSpans spans =>
    ("delete_dimension", [.mapping [(.text "requests",
      .list (spans.map (deleteRequest sheetId)))]])
  | .clear area => ("batch_clear", [.list [.text area]])

/-- Answers a call that changes the sheet. -/
def write (s : Service) (w : SheetWrite) : Except Fault Unit × Service :=
  let (name, arguments) := callOf s.sheetId w
  match s.record name arguments with
  | (some fault, s) => (.error fault, s)
  | (none, s) =>
    let (outcome, rows) := s.rows.apply w
    (outcome, { s with rows })

/-- The outcome of taking the lock. -/
def acquire (s : Service) (seconds : Binary64) : Except Fault Bool × Service :=
  match s.lock with
  | .scripted outcomes =>
    let outcome := outcomes.headD true
    (.ok outcome, { s with
      lock := .scripted outcomes.tail
      lockCalls := s.lockCalls ++ [.list [.text "acquire", .real seconds, .bool outcome]] })
  | .mutex m =>
    let (outcome, m) := m.acquire seconds
    (outcome, { s with lock := .mutex m })
  | .file f =>
    let (outcome, f) := f.acquire ownHandle seconds
    (outcome, { s with lock := .file f })

def release (s : Service) : Except Fault Unit × Service :=
  match s.lock with
  | .scripted _ => (.ok (), { s with lockCalls := s.lockCalls ++ [.list [.text "release"]] })
  | .mutex m =>
    let (outcome, m) := m.release
    (outcome, { s with lock := .mutex m })
  | .file f => (.ok (), { s with lock := .file (f.release ownHandle) })

/-- The replies that a query is answered from, if they are those for the columns. -/
def repliesForColumns (s : Service) (query : Value) : Option (List Reply) :=
  if query.equals (.text "select * limit 1") then s.columnReplies else none

/-- The next reply to a query. -/
def reply (s : Service) (query : Value) : Reply × Service :=
  match s.repliesForColumns query with
  | some replies =>
    let (next, later) := nextLasting replies
    (next.getD (.bare .null), { s with columnReplies := some later })
  | none =>
    let (next, dataReplies) := nextLasting s.dataReplies
    (next.getD (.bare .null), { s with dataReplies })

/-- A request to a web address as it is recorded. -/
def webCall (r : WebRequest) : Value :=
  .mapping [(.text "url", .text r.url), (.text "params", .mapping r.params),
    (.text "headers", .mapping r.headers), (.text "timeout", r.timeout)]

/-- Renews the credentials with the next token of the script. -/
def renew (s : Service) : Except Fault Unit × Service :=
  let (_, s) := s.record "refresh" []
  match nextLasting s.renewals with
  | (some (.error fault), renewals) => (.error fault, { s with renewals })
  | (some (.ok token), renewals) => (.ok (), { s with renewals, credentials := ⟨true, token⟩ })
  | (none, renewals) => (.ok (), { s with renewals, credentials := ⟨true, .null⟩ })

/-- A result, unless a fault is raised. -/
def unlessFault {α : Type} (fault : Option Fault) (a : α) : Except Fault α :=
  match fault with
  | some f => .error f
  | none => .ok a

/-- Answers a request. -/
def answer {β : Type} : Request β → Service → β × Service
  | .acquire seconds, s => s.acquire seconds
  | .release, s => s.release
  | .openStore byAddress locator, s =>
    let (fault, s) := s.record (if byAddress then "open_by_url" else "open_by_key") [.text locator]
    (unlessFault fault s.store, s)
  | .openSheet .null, s =>
    let (fault, s) := s.record "sheet1" []
    (unlessFault fault s.title, s)
  | .openSheet title, s =>
    let (fault, s) := s.record "worksheet" [title]
    (unlessFault fault title, s)
  | .extent, s => ((s.rowCount.getD s.rows.length, s.columnCount.getD s.rows.width), s)
  | .readRows, s =>
    let (fault, s) :=
      s.record "get_all_values" [.text "UNFORMATTED_VALUE", .text "FORMATTED_STRING"]
    (unlessFault fault s.rows, s)
  | .write w, s => s.write w
  | .query text, s =>
    let (next, s) := reply { s with queries := s.queries ++ [.text text] } (.text text)
    (next.text, s)
  | .credentials, s => (s.credentials, s)
  | .refreshCredentials, s => s.renew
  | .get r, s =>
    let (next, s) := reply { s with webCalls := s.webCalls ++ [webCall r] } (Value.get r.params "tq")
    (next.whole, s)
  | .wait seconds, s => (.ok (), { s with waits := s.waits ++ [seconds] })

/-- The service as the party that answers. -/
def party : Party Service := ⟨answer⟩

end Service

end RowStore.Memory
