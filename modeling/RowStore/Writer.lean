import RowStore.Grid.Basic
import RowStore.Lock.File

/-!
# Locked writes

Every change of the sheet is made by `Writer.execute`: it takes the write lock, runs an action that
queues changes, sends them, and releases the lock on every way out. If the action or the sending
fails, the waiting changes are dropped and the fault becomes the result.
-/

namespace RowStore

/-- What a locked write needs: the grid, the longest wait, and the lock file if there is one. -/
structure Writer where
  grid : Grid
  waitMs : Value
  lockPath : Option Text

namespace Writer

variable {α : Type}

/-- How long a writer waits for the lock unless told otherwise. -/
def standardWaitMs : Value := .int 30000

/-- A number of milliseconds as a double. -/
def millisOf (waitMs : Value) : Except Fault Binary64 :=
  match waitMs with
  | .real x => .ok x
  | v =>
    match v.integer? with
    | none => .error .unsuitable
    | some ms =>
      match Binary64.ofInt? ms with
      | some x => .ok x
      | none => .error .overflow

/-- The wait in seconds. -/
def waitSeconds (waitMs : Value) : Except Fault Binary64 := do
  return (← millisOf waitMs).dividedBy 1000

/-- Takes the write lock; says whether it was taken. -/
def takeLock (w : Writer) (seconds : Binary64) : Act Bool := do
  if let some path := w.lockPath then LockFile.checkPath path
  let taken ← Act.ofAnswer (Act.ask (.acquire seconds))
  match taken, w.lockPath with
  | false, some path =>
    let n := LockFile.timeoutNote seconds path
    Act.note n.level n.text
    return false
  | taken, _ => return taken

/-- Notes why a write failed: a record that is missing is nothing unusual. -/
def noteFault (description : Text) (fault : Fault) : Act Unit :=
  if fault.kind = .notFound then Act.note .debug (description ++ ": " ++ fault.message)
  else if fault.isRecordFault then
    Act.note .warning (description ++ " failed: " ++ fault.message)
  else Act.note .error (description ++ " failed unexpectedly")

/-- What follows an action: its value is the result, or the waiting changes are dropped. -/
def settle (description : Text) (outcome : Except Fault α) : Act (Except Fault α) := do
  match outcome with
  | .ok a => return .ok a
  | .error fault =>
    Grid.discard
    noteFault description fault
    return .error fault

/-- Runs an action under the write lock and sends the changes that it queues. -/
def execute (w : Writer) (description : Text) (action : Act α) : Act (Except Fault α) := do
  let seconds ← waitSeconds w.waitMs
  if ← w.takeLock seconds then
    let outcome ← Act.observe do
      let a ← action
      w.grid.flush
      return a
    let result ← settle description outcome
    Act.ofAnswer (Act.ask .release)
    return result
  else
    let fault := Fault.lockTimeout description w.waitMs
    Act.note .warning fault.message
    return .error fault

end Writer

end RowStore
