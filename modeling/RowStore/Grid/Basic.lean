import RowStore.Sheet.Calls

/-!
# The grid

The cells of one worksheet: `Grid.readData` reads the rows below the headers, `Grid.queue` adds a
change to the queue, `Grid.discard` empties the queue and `Grid.flush` sends it. Calls that may safely
be made twice are repeated when the service fails, after a pause that doubles each time; rows are
appended and deleted by one call only. A flush empties the queue even if a call fails.
-/

namespace RowStore

/-- A worksheet and the way its calls are repeated. -/
structure Grid where
  title : Value
  headerRow : Value
  maxRetries : Value
  baseDelay : Value

namespace Grid

variable {α : Type}

/-- The grid of a worksheet with headers in the first row and three repeated calls. -/
def standard (title : Value) : Grid :=
  ⟨title, .int 1, .int 3, .real ((Binary64.ofInt? 1).getD Binary64.zero)⟩

/-- The number of the row with the headers. -/
def headerRowNumber (g : Grid) : Int := g.headerRow.integer?.getD 0

/-- The number of the data row at a position. -/
def rowNumber (g : Grid) (position : Nat) : Int := g.headerRowNumber + 1 + position

/-- A number of seconds times a power of two; for a double the power has to have a double, too. -/
def delayOf (base : Value) (attempt : Nat) : Except Fault Value :=
  match base with
  | .real x =>
    if (Binary64.ofInt? (2 ^ attempt)).isSome then .ok (.real (x.times (2 ^ attempt)))
    else .error .overflow
  | v => do return .int ((← Value.expected v.integer?) * 2 ^ attempt)

/-- A number of seconds with one decimal place; an integer has to have a double next to it. -/
def delayText (delay : Value) : Except Fault String :=
  match delay with
  | .real x => .ok (x.fixedText 1)
  | v => (Value.inRange (Binary64.ofInt? (v.integer?.getD 0))).map (·.fixedText 1)

/-- The note before a call is repeated. -/
def retryNote (description : Text) (attempt : Nat) (delay : String) (fault : Fault) : Text :=
  "Failed to " ++ description ++ " (attempt " ++ toString (attempt + 1) ++ "), retrying in " ++
    delay ++ "s: " ++ fault.message

/-- Notes a failed call and waits before the next one; `attempt` calls have been made before it. -/
def pause (g : Grid) (description : Text) (attempt : Nat) (fault : Fault) : Act Unit := do
  let delay ← delayOf g.baseDelay attempt
  let text ← delayText delay
  Act.note .warning (retryNote description attempt text fault)
  Act.ofAnswer (Act.ask (.wait delay))

/-- Makes a call up to `left` more times, until it does not fail for a passing reason. `attempt` calls
have been made, the last of them with the fault `last`. -/
def attempts (g : Grid) (description : Text) (call : Act α) :
    (left attempt : Nat) → (last : Option Fault) → Act α
  | 0, attempt, last =>
    throw (Fault.worded (.service (.attemptsFailed description attempt (last.map Fault.message))))
  | left + 1, attempt, _ => do
    match ← Act.observe call with
    | .ok a => return a
    | .error fault =>
      if fault.kind.isTransient then
        if left ≠ 0 then g.pause description attempt fault
        attempts g description call left (attempt + 1) (some fault)
      else throw fault

/-- Makes a call, and repeats it as often as the grid allows. -/
def retrying (g : Grid) (description : Text) (call : Act α) : Act α := do
  let retries ← Value.expected g.maxRetries.integer?
  if retries < 0 then
    throw (Fault.worded (.service (.attemptsFailed description (retries + 1) none)))
  attempts g description call (retries.toNat + 1) 0 none

/-- The rows below the headers; without a header row, all rows. -/
def rowsBelow (headerRow : Value) (rows : Rows) : Except Fault Rows :=
  match headerRow with
  | .null => .ok rows
  | v => do return Slice.onward (← Value.expected v.integer?) rows

/-- Reads the rows below the headers. -/
def readData (g : Grid) : Act Rows := do
  let rows ← g.retrying ("read values from " ++ g.title.plain) (SheetCalls.readRows g.title.plain)
  rowsBelow g.headerRow rows

/-- Adds a change to the queue. -/
def queue (change : Change) : Act Unit := do
  Act.setPending ((← Act.pending) ++ [change])

/-- Adds changes to the queue, in their order. -/
def queueAll (changes : List Change) : Act Unit := do
  Act.setPending ((← Act.pending) ++ changes)

/-- Drops all waiting changes. -/
def discard : Act Unit := do
  let changes ← Act.pending
  if !changes.isEmpty then
    Act.note .debug ("Discarding " ++ toString changes.length ++ " queued operation(s)")
  Act.setPending []

/-- The least of the given values; of equal ones the first. -/
def least (v : Value) : List Value → Except Fault Value
  | [] => .ok v
  | w :: rest => do if ← w.before v then least w rest else least v rest

/-- The rows of all parts. -/
def joined (parts : List Value) : Except Fault (List Value) := do
  return (← parts.mapM Value.each).flatten

/-- Sends one batch. -/
def sendBatch (g : Grid) : Batch → Act Unit
  | .set blocks =>
    g.retrying ("batch update " ++ toString blocks.length ++ " value ranges to " ++ g.title.plain)
      (SheetCalls.setBlocks blocks)
  | .append parts => do
    SheetCalls.appendRows g.title.plain (← joined parts)
  | .delete rows => SheetCalls.deleteRows g.title.plain rows
  | .clear first others => do
    let startRow ← least first others
    startRow.checkText
    g.retrying ("clear rows from " ++ startRow.plain ++ " in " ++ g.title.plain)
      (SheetCalls.clearRows g.title.plain startRow)
  | .foreign v => throw (.unknownChange v.typeName)

/-- Sends the waiting changes in their order, in batches. -/
def flush (g : Grid) : Act Unit := do
  let changes ← Act.pending
  Act.setPending []
  (batches changes).forM g.sendBatch

end Grid

end RowStore
