import RowStore.Fault.Basic
import RowStore.Text.Blank
import RowStore.Value.Entries

/-!
# Settings of a table

Which sheet a table works on, which header names the identifier, and how its write lock is taken.
`Settings.ofOptions` reads them from a mapping; an option may be spelled in two ways. The numbers of
the settings are kept as they were given, since messages and requests show them so.
-/

namespace RowStore

/-- The settings of a table. -/
structure Settings where
  store : Value
  sheet : Value
  identifier : Text
  headerRow : Value
  lockWaitMs : Value
  lockFolder : Value

namespace Settings

/-- The options and their names in either spelling. -/
inductive Key
  | store
  | sheet
  | identifier
  | headerRow
  | lockWaitMs
  | lockFolder
  deriving DecidableEq

namespace Key

def all : List Key := [store, sheet, identifier, headerRow, lockWaitMs, lockFolder]

def name : Key → String
  | store => "store_locator"
  | sheet => "sheet_name"
  | identifier => "id_field"
  | headerRow => "header_row"
  | lockWaitMs => "lock_wait_ms"
  | lockFolder => "lock_dir"

def otherName : Key → String
  | store => "storeLocator"
  | sheet => "sheetName"
  | identifier => "idField"
  | headerRow => "headerRow"
  | lockWaitMs => "lockWaitMs"
  | lockFolder => "lockDir"

/-- The option that a name stands for. -/
def ofName? (v : Value) : Option Key :=
  v.text?.bind fun t => all.find? fun k => k.name == t || k.otherName == t

end Key

/-- What an option is when it is not given. -/
def fallback : Key → Value
  | .identifier => .text "id"
  | .headerRow => .int 1
  | .lockWaitMs => .int 30000
  | _ => .null

/-- Replaces the unknown names by their options. -/
def keyed (options : Entries Value) : Except Fault (List (Key × Value)) :=
  options.mapM fun e =>
    match Key.ofName? e.1 with
    | some k => .ok (k, e.2)
    | none => .error (Fault.worded (.configuration (.unknownOption e.1)))

/-- The last value given for an option. -/
def lastOf (given : List (Key × Value)) (k : Key) : Value :=
  match given.reverse.find? (·.1 == k) with
  | some p => p.2
  | none => fallback k

/-- An identifier has to be a text that is not blank. -/
def identifierOf (v : Value) : Except Fault Text :=
  match v with
  | .text t =>
    if (Text.trim t).isEmpty then .error (.configuration .identifierBlank) else .ok t
  | _ => .error (.configuration .identifierBlank)

/-- The headers have to stand in the first row. -/
def checkHeaderRow (v : Value) : Except Fault Unit :=
  match v.integer? with
  | none => .error (.configuration .headerRowNotPositive)
  | some n =>
    if n < 1 then .error (.configuration .headerRowNotPositive)
    else if n = 1 then .ok ()
    else .error (Fault.worded (.configuration (.headerRowUnsupported v)))

def checkLockWait (v : Value) : Except Fault Unit :=
  match v.integer? with
  | none => .error (.configuration .lockWaitNotPositive)
  | some n => if n ≤ 0 then .error (.configuration .lockWaitNotPositive) else .ok ()

/-- The settings that a list of options gives. -/
def ofKeyed (given : List (Key × Value)) : Except Fault Settings := do
  let identifier ← identifierOf (lastOf given .identifier)
  checkHeaderRow (lastOf given .headerRow)
  checkLockWait (lastOf given .lockWaitMs)
  return {
    store := lastOf given .store
    sheet := lastOf given .sheet
    identifier
    headerRow := lastOf given .headerRow
    lockWaitMs := lastOf given .lockWaitMs
    lockFolder := lastOf given .lockFolder }

/-- The settings that a mapping describes; a blank value describes none of them. -/
def ofOptions (options : Value) : Except Fault Settings :=
  if options.isBlank then ofKeyed [] else do ofKeyed (← keyed (← options.expectEntries))

/-- The settings when no option is given. -/
def standard : Settings := ⟨.null, .null, "id", .int 1, .int 30000, .null⟩

theorem ofKeyed_nil : ofKeyed [] = .ok standard := by
  simp [ofKeyed, lastOf, fallback, identifierOf, checkHeaderRow, checkLockWait, standard,
    Value.integer?, show (Text.trim "id").isEmpty = false by decide +kernel]
  rfl

/-- The row of the headers. -/
def headerRowNumber (s : Settings) : Int := s.headerRow.integer?.getD 1

/-- The spreadsheet to open: the given one, or else the one that the environment names. -/
def locator (s : Settings) (environment : Option Text) : Except Fault Value :=
  if !s.store.isBlank then .ok s.store
  else match environment with
    | some name =>
      if name.isEmpty then .error (.configuration .noStore) else .ok (.text name)
    | none => .error (.configuration .noStore)

/-- The settings under the names of their options. -/
def entries (s : Settings) : Entries Value := [
  (.text Key.store.name, s.store), (.text Key.sheet.name, s.sheet),
  (.text Key.identifier.name, .text s.identifier), (.text Key.headerRow.name, s.headerRow),
  (.text Key.lockWaitMs.name, s.lockWaitMs), (.text Key.lockFolder.name, s.lockFolder)]

end Settings

end RowStore
