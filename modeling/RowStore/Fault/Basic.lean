import RowStore.Fault.Cause
import RowStore.Value.Order

/-!
# Faults

What can go wrong, by kind. The kinds of this library's own faults are those with
`Fault.Kind.isRecordKind`; the others come from the services that it calls or mean that an argument
does not suit. A fault that a service reports is `told`: its kind and its text are all that is known.
-/

namespace RowStore

/-- The kinds of faults, which decide who handles them. -/
inductive Fault.Kind
  | record
  | configuration
  | validation
  | bracket
  | notFound
  | transport
  | service
  | parse
  | lockTimeout
  /-- A text or numbers that are no cell address. -/
  | address
  /-- A queued change that the grid does not know. -/
  | unknownChange
  /-- A value of a type for which the step at hand has no meaning. -/
  | unsuitable
  /-- A number beyond what the step at hand can hold. -/
  | overflow
  /-- A value of a suitable type that does not have the form the step needs. -/
  | malformed
  | runtime
  /-- A text that has no encoding as bytes. -/
  | encoding
  /-- A path that names no file. -/
  | fileSystem
  /-- An error that the sheet service answers with. -/
  | api
  | storeMissing
  | addressWithoutKey
  | sheetMissing
  | connection
  | requestTimeout
  | request
  | credentialRefresh
  | credentialTransport
  deriving DecidableEq, Repr

namespace Fault.Kind

/-- The kinds that this library raises for its callers and turns into results. -/
def isRecordKind : Kind → Bool
  | record | configuration | validation | bracket | notFound | transport | service | parse
  | lockTimeout => true
  | _ => false

/-- Refused input, which includes a query with headers that are not known. -/
def isValidation : Kind → Bool
  | validation | bracket => true
  | _ => false

/-- Failures of a call that a repeated call may not have. -/
def isTransient : Kind → Bool
  | api | service => true
  | _ => false

/-- Failures to send a request or to get its answer. -/
def isRequest : Kind → Bool
  | connection | requestTimeout | request => true
  | _ => false

/-- Failures to renew an access token. -/
def isCredential : Kind → Bool
  | credentialRefresh | credentialTransport => true
  | _ => false

end Fault.Kind

/-- A fault with its cause. -/
inductive Fault
  | configuration (cause : ConfigurationFault)
  | validation (cause : ValidationFault)
  | bracket (cause : BracketFault)
  | noRowMatches (conditions : Value)
  | transport (cause : TransportFault)
  | service (cause : ServiceFault)
  | parse (cause : ParseFault)
  | lockTimeout (description : Text) (waitMs : Value)
  | address (cause : AddressFault)
  | unknownChange (typeName : String)
  | unsuitable
  | overflow
  | malformed
  | unencodable
  | unheldLock
  /-- A wait without limit for a lock that the waiting process itself holds. -/
  | deadlock
  | pathTooLong
  | told (kind : Fault.Kind) (text : Text) (status : Value) (errors : List Value)

namespace Fault

def kind : Fault → Kind
  | configuration _ => .configuration
  | validation _ => .validation
  | bracket _ => .bracket
  | noRowMatches _ => .notFound
  | transport _ => .transport
  | service _ => .service
  | parse _ => .parse
  | lockTimeout .. => .lockTimeout
  | address _ => .address
  | unknownChange _ => .unknownChange
  | unsuitable => .unsuitable
  | overflow => .overflow
  | malformed => .malformed
  | unencodable => .encoding
  | unheldLock => .runtime
  | deadlock => .runtime
  | pathTooLong => .fileSystem
  | told kind .. => kind

def message : Fault → Text
  | configuration cause => cause.message
  | validation cause => cause.message
  | bracket cause => cause.message
  | noRowMatches conditions => "No row matches " ++ conditions.written
  | transport cause => cause.message
  | service cause => cause.message
  | parse cause => cause.message
  | lockTimeout description waitMs =>
    description ++ ": write lock not acquired within " ++ waitMs.plain ++ " ms"
  | address cause => cause.message
  | unknownChange typeName => "Unknown grid operation: " ++ typeName
  | unsuitable => "unsuitable value"
  | overflow => "number out of range"
  | malformed => "malformed value"
  | unencodable => "text that has no bytes"
  | unheldLock => "release of a lock that is not held"
  | deadlock => "endless wait for a lock that this process holds"
  | pathTooLong => "path too long"
  | told _ text .. => text

/-- The status of the answer that the fault is about, or null. -/
def status : Fault → Value
  | transport (.badStatus status _) => status
  | told _ _ status _ => status
  | _ => .null

/-- The errors that the query service listed. -/
def errors : Fault → List Value
  | parse (.reported _ errors) => errors
  | told _ _ _ errors => errors
  | _ => []

/-- An error answer of the sheet service. -/
def ofApi (code : Value) (text : Text) : Fault :=
  told .api ("APIError: [" ++ code.plain ++ "]: " ++ text) .null []

/-- Whether the message can be written: the numbers in it have numerals. -/
def hasMessage : Fault → Bool
  | configuration cause => cause.hasMessage
  | validation cause => cause.hasMessage
  | bracket cause => cause.hasMessage
  | noRowMatches conditions => conditions.hasText
  | transport cause => cause.hasMessage
  | service cause => cause.hasMessage
  | parse cause => cause.hasMessage
  | lockTimeout _ waitMs => waitMs.hasText
  | _ => true

/-- The fault that is raised for a cause. Its message is written first, and if that fails, the fault is
that a number is too long. Causes that show only numbers read from an answer or written before are raised
as they are: these numbers have numerals. -/
def worded (f : Fault) : Fault := if f.hasMessage then f else malformed

theorem worded_of_hasMessage {f : Fault} (h : f.hasMessage = true) : f.worded = f := if_pos h

theorem worded_of_not_hasMessage {f : Fault} (h : f.hasMessage = false) : f.worded = malformed :=
  if_neg (Bool.eq_false_iff.mp h)

/-- Whether the fault is one of this library's own kinds. -/
def isRecordFault (f : Fault) : Bool := f.kind.isRecordKind

@[simp] theorem isRecordFault_validation (c : ValidationFault) :
    (validation c).isRecordFault = true := rfl

@[simp] theorem isRecordFault_parse (c : ParseFault) : (parse c).isRecordFault = true := rfl

end Fault

namespace Value

/-- What a value has to be for the step at hand. -/
def expected {α : Type} : Option α → Except Fault α
  | some a => .ok a
  | none => .error .unsuitable

/-- A value that has to have a text. -/
def checkText (v : Value) : Except Fault Unit := if v.hasText then .ok () else .error .malformed

/-- A number that the step at hand has to be able to hold. -/
def inRange {α : Type} : Option α → Except Fault α
  | some a => .ok a
  | none => .error .overflow

/-- A value that has to be a text. -/
def expectText (v : Value) : Except Fault Text := expected v.text?

/-- A value that has to be a mapping. -/
def expectEntries (v : Value) : Except Fault (List (Value × Value)) := expected v.entries?

/-- The values that going through a value gives; a value that holds none does not suit. -/
def each (v : Value) : Except Fault (List Value) := expected v.items?

/-- Whether one value comes before another, which it has to be comparable with. -/
def before (v w : Value) : Except Fault Bool := expected (v.precedes? w)

theorem checkText_of_hasText {v : Value} (h : v.hasText = true) : v.checkText = .ok () := if_pos h

theorem checkText_of_not_hasText {v : Value} (h : v.hasText = false) : v.checkText = .error .malformed :=
  if_neg (Bool.eq_false_iff.mp h)

/-- The values of a value, where a blank one has none. -/
def eachGiven (v : Value) : Except Fault (List Value) := if v.isBlank then .ok [] else v.each

end Value

end RowStore
