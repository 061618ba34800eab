import RowStore.Table.Read
import RowStore.Table.Write

/-!
# Opening a table

`Opening.run` opens the spreadsheet and the worksheet that the settings name and puts a table
together: its grid, the endpoint for its queries, and the lock file that all writers of the worksheet
share.
-/

namespace RowStore.Opening

/-- An opened table and the settings it was opened with. -/
structure Opened where
  settings : Settings
  endpoint : Endpoint
  lockPath : Text
  table : Table

/-- The name under which whole settings may stand among the options. -/
def settingsName : String := "config"

/-- The names that options cannot have, since they name what is given apart from them. -/
def reservedNames : List Text := ["gc", "token_provider"]

/-- Options have to have texts as names, and not the reserved ones. -/
def checkName (name : Value) : Except Fault Unit := do
  if reservedNames.contains (← name.expectText) then throw .unsuitable

/-- Takes the option for whole settings out of the others. Only null is accepted there: it stands for
no settings, and any other value is not of their type. -/
def withoutSettings (given : Option Settings) (options : Entries Value) :
    Except Fault (Entries Value) :=
  let others := options.filter fun e => !e.1.equals (.text settingsName)
  match options.findText? settingsName, given with
  | none, _ => .ok options
  | some .null, none => .ok others
  | some _, none =>
    if others.isEmpty then .error .unsuitable else .error (.configuration .twoConfigurations)
  | some _, some _ => .error .unsuitable

/-- The settings: given ones, or those that the options describe, but not both. -/
def settingsOf (given : Option Settings) (options : Entries Value) : Except Fault Settings := do
  options.names.forM checkName
  let options ← withoutSettings given options
  match given with
  | none => Settings.ofOptions (.mapping options)
  | some s => if options.isEmpty then return s else throw (.configuration .twoConfigurations)

/-- Makes a failed call of the service a fault of the configuration. -/
def notOpened (fault : Fault) : Option Fault :=
  if fault.kind = .service then some (.configuration (.sheetNotOpened fault.message)) else none

/-- Opens the spreadsheet and the worksheet; gives the key of the one and the title of the other. -/
def openSheet (s : Settings) (environment : Option Text) : Act (Value × Value) :=
  SheetCalls.rewording (do
    let locator ← s.locator environment
    let store ← SheetCalls.openStore locator
    let title ← SheetCalls.openSheet s.sheet
    return (store, title)) notOpened

/-- The grid of an opened worksheet. -/
def gridOf (s : Settings) (title : Value) : Grid :=
  { Grid.standard title with headerRow := s.headerRow }

/-- Opens a table. -/
def run (given : Option Settings) (options : Entries Value) (environment : Option Text)
    (tokens : TokenSource) : Act Opened := do
  let s ← settingsOf given options
  let (store, title) ← openSheet s environment
  let e : Endpoint := ⟨store, title, tokens, s.headerRow, Endpoint.standardTimeout⟩
  let path ← LockFile.pathOf store.plain title.plain s.lockFolder
  let writer : Writer := ⟨gridOf s title, s.lockWaitMs, some path⟩
  return ⟨s, e, path, ⟨.text s.identifier, writer, .endpoint e⟩⟩

end RowStore.Opening
