import RowStore.Session

/-!
# Calls of the sheet service

Each call of the service, with its errors made faults of this library: an answer with an error names
the call that failed, and a spreadsheet or worksheet that does not exist is a fault of the
configuration. Calls that would change nothing are not made.
-/

namespace RowStore.SheetCalls

variable {α : Type}

/-- Rewords the faults for which a rule is given; the others stay as they are. -/
def rewording (m : Act α) (reword : Fault → Option Fault) : Act α := do
  match ← Act.observe m with
  | .ok a => return a
  | .error fault => throw ((reword fault).getD fault)

/-- Rewords an error of the service. -/
def serviceError (cause : Text → ServiceFault) (fault : Fault) : Option Fault :=
  if fault.kind = .api then some (.service (cause fault.message)) else none

/-- A locator that is a web address rather than a key. -/
def isAddress (locator : Text) : Bool := ("http" : Text).isPrefixOf locator

/-- Opens a spreadsheet; gives its key. -/
def openStore (locator : Value) : Act Value := do
  let t ← locator.expectText
  rewording (Act.ofAnswer (Act.ask (.openStore (isAddress t) t))) fun fault =>
    if fault.kind = .storeMissing ∨ fault.kind = .addressWithoutKey then
      some (.configuration (.storeNotFound t))
    else serviceError (.openStoreFailed t) fault

/-- Opens a worksheet, or the first one for null; gives its title. -/
def openSheet (title : Value) : Act Value :=
  rewording (Act.ofAnswer (Act.ask (.openSheet title))) fun fault =>
    if fault.kind = .sheetMissing then some (Fault.worded (.configuration (.sheetNotFound title)))
    else (serviceError (.openSheetFailed title) fault).map Fault.worded

/-- All rows of a worksheet. -/
def readRows (title : Text) : Act Rows :=
  rewording (Act.ofAnswer (Act.ask .readRows)) (serviceError (.readFailed title))

/-- Sends a call that changes the worksheet. -/
def send (w : SheetWrite) (cause : Text → ServiceFault) : Act Unit :=
  rewording (Act.ofAnswer (Act.ask (.write w))) (serviceError cause)

/-- Adds rows at the end; each of them has to be a sequence of cells. -/
def appendRows (title : Text) (rows : List Value) : Act Unit :=
  if rows.isEmpty then return ()
  else do send (.append (← Rows.ofValues rows)) (.appendFailed rows.length title)

def setBlocks (blocks : List Block) : Act Unit :=
  if blocks.isEmpty then return () else send (.setBlocks blocks) (.blocksFailed blocks.length)

/-- The span of the row with a number. -/
def spanOf (row : Value) : Except Fault Span := do
  return ⟨← Value.expected (row.plusInt? (-1)), row⟩

def spansOf (rows : List Value) : Except Fault (List Span) := rows.mapM spanOf

/-- Takes out rows, each by its number at the time when the rows before it are gone. -/
def deleteRows (title : Text) (rows : List Value) : Act Unit :=
  if rows.isEmpty then return ()
  else do send (.deleteSpans (← spansOf rows)) (.deleteFailed rows.length title)

/-- The area from a row to the last cell of a worksheet. The numbers of a worksheet's rows and columns come
as JSON, where every integer has a numeral. -/
def areaFrom (startRow : Value) (lastRow columnCount : Int) : String :=
  "A" ++ startRow.written ++ ":" ++ Column.letters ((max columnCount 1).toNat - 1) ++
    toString lastRow

/-- Clears all rows from one on, if the worksheet has that row. -/
def clearRows (title : Text) (startRow : Value) : Act Unit := do
  let (lastRow, columnCount) ← Act.ask .extent
  if ← (Value.int lastRow).before startRow then return ()
  else
    let area := areaFrom startRow lastRow columnCount
    send (.clear area) (.clearFailed area title)

end RowStore.SheetCalls
