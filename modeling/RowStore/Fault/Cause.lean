import RowStore.Value.Text

/-!
# Causes of faults

One type per kind of fault, with a constructor for each cause; `message` words it. What a message
quotes from elsewhere (the text of an answer, the text of another fault) is an argument of its cause.
A message that shows a number too long to be written cannot be worded: `hasMessage` says which can.
-/

namespace RowStore

/-- Texts in single quotes, without escapes. -/
def inQuotes (t : Text) : Text := "'" ++ t ++ "'"

/-- Why a table cannot be set up. -/
inductive ConfigurationFault
  | identifierBlank
  | headerRowNotPositive
  | headerRowUnsupported (row : Value)
  | lockWaitNotPositive
  | unknownOption (name : Value)
  | noStore
  | storeNotFound (locator : Text)
  | sheetNotFound (name : Value)
  | sheetNotOpened (reason : Text)
  | twoConfigurations
  | collaboratorMissing

def ConfigurationFault.message : ConfigurationFault → Text
  | identifierBlank => "id_field must be a non-empty string"
  | headerRowNotPositive => "header_row must be a positive integer"
  | headerRowUnsupported row =>
    "header_row=" ++ row.plain ++ " is not supported; headers must be in row 1"
  | lockWaitNotPositive => "lock_wait_ms must be a positive integer"
  | unknownOption name => "Unknown option: " ++ name.written
  | noStore => "No spreadsheet configured: pass store_locator or set $SHEETRECORDS_STORE"
  | storeNotFound locator =>
    "Spreadsheet " ++ inQuotes locator ++ " not found or not accessible"
  | sheetNotFound name => "Worksheet " ++ inQuotes name.plain ++ " not found in spreadsheet"
  | sheetNotOpened reason => "Could not open worksheet: " ++ reason
  | twoConfigurations => "Pass either a SheetConfig or keyword options, not both"
  | collaboratorMissing => "SheetTable needs both a grid and a transport"

def ConfigurationFault.hasMessage : ConfigurationFault → Bool
  | headerRowUnsupported row => row.hasText
  | unknownOption name => name.hasText
  | sheetNotFound name => name.hasText
  | _ => true

/-- Why a caller's input is refused. -/
inductive ValidationFault
  | noColumns
  | noConditions
  | unknownConditions (names : List Value)
  | identifierEmpty
  | identifierColumnMissing (name : Value)
  | noRecords
  | recordEmpty (position : Nat)
  | recordUnknown (position : Nat) (names : List Value)
  | recordWithoutIdentifier (position : Nat) (header : Value)
  | identifierRepeated (text : Text)
  | identifierTaken (values : List Value)
  | noUpdateConditions
  | noDeleteConditions
  | payloadEmpty
  | payloadUnknown
  | unknownDescriptorKeys (keys : List Value)
  | unsupportedDescriptor (typeName : String)

def ValidationFault.message : ValidationFault → Text
  | noColumns => "Column metadata unavailable"
  | noConditions => "Conditions are empty"
  | unknownConditions names => "Unknown condition columns: " ++ Value.writtenList names
  | identifierEmpty => "Identifier value is empty"
  | identifierColumnMissing name => "Identifier column " ++ inQuotes name.plain ++ " not found"
  | noRecords => "No records given"
  | recordEmpty n => "Record " ++ toString n ++ " is empty or not a mapping"
  | recordUnknown n names =>
    "Record " ++ toString n ++ " has no known columns: " ++ Value.writtenList names
  | recordWithoutIdentifier n header =>
    "Record " ++ toString n ++ " has no " ++ inQuotes header.plain ++ " value"
  | identifierRepeated text => "Identifier " ++ Text.quoted text ++ " repeats within the batch"
  | identifierTaken values => "Identifier(s) already exist: " ++ Value.writtenList values
  | noUpdateConditions => "Update conditions are empty"
  | noDeleteConditions => "Delete conditions are empty"
  | payloadEmpty => "Update payload is empty"
  | payloadUnknown => "Update payload has no updatable columns"
  | unknownDescriptorKeys keys => "Unknown query descriptor keys: " ++ Value.writtenList keys
  | unsupportedDescriptor typeName => "Unsupported query descriptor: " ++ typeName

def ValidationFault.hasMessage : ValidationFault → Bool
  | unknownConditions names => Value.haveTexts names
  | identifierColumnMissing name => name.hasText
  | recordUnknown _ names => Value.haveTexts names
  | recordWithoutIdentifier _ header => header.hasText
  | identifierTaken values => Value.haveTexts values
  | unknownDescriptorKeys keys => Value.haveTexts keys
  | _ => true

/-- Why the bracketed headers of a query cannot be resolved. -/
inductive BracketFault
  | noColumns
  | unknownHeader (name : Text) (headers : List Value)

def BracketFault.message : BracketFault → Text
  | noColumns => "Cannot translate query: column metadata unavailable"
  | unknownHeader name headers =>
    "Unknown column [" ++ name ++ "] in query; known headers: " ++ Value.writtenList headers

def BracketFault.hasMessage : BracketFault → Bool
  | noColumns => true
  | unknownHeader _ headers => Value.haveTexts headers

/-- Why a query could not be sent or was not answered. -/
inductive TransportFault
  | tokenFailed (reason : Text)
  | requestFailed (reason : Text)
  | badStatus (status : Value) (sheet : Value)

def TransportFault.message : TransportFault → Text
  | tokenFailed reason => "Could not obtain an access token: " ++ reason
  | requestFailed reason => "Query request failed: " ++ reason
  | badStatus status sheet =>
    "Query endpoint returned HTTP " ++ status.plain ++ " for sheet " ++ inQuotes sheet.plain

def TransportFault.hasMessage : TransportFault → Bool
  | badStatus status sheet => status.hasText && sheet.hasText
  | _ => true

/-- Which call of the sheet service failed. -/
inductive ServiceFault
  | openStoreFailed (locator : Text) (reason : Text)
  | openSheetFailed (name : Value) (reason : Text)
  | readFailed (title : Text) (reason : Text)
  | appendFailed (count : Nat) (title : Text) (reason : Text)
  | blocksFailed (count : Nat) (reason : Text)
  | deleteFailed (count : Nat) (title : Text) (reason : Text)
  | clearFailed (area : Text) (title : Text) (reason : Text)
  | attemptsFailed (description : Text) (attempts : Int) (reason : Option Text)

def ServiceFault.message : ServiceFault → Text
  | openStoreFailed locator reason =>
    "Failed to open spreadsheet " ++ inQuotes locator ++ ": " ++ reason
  | openSheetFailed name reason =>
    "Failed to open worksheet " ++ inQuotes name.plain ++ ": " ++ reason
  | readFailed title reason => "Failed to read values from " ++ inQuotes title ++ ": " ++ reason
  | appendFailed count title reason =>
    "Failed to append " ++ toString count ++ " row(s) to " ++ inQuotes title ++ ": " ++ reason
  | blocksFailed count reason =>
    "Failed to batch update " ++ toString count ++ " value ranges: " ++ reason
  | deleteFailed count title reason =>
    "Failed to delete " ++ toString count ++ " row(s) from " ++ inQuotes title ++ ": " ++ reason
  | clearFailed area title reason =>
    "Failed to clear range " ++ inQuotes area ++ " in " ++ inQuotes title ++ ": " ++ reason
  | attemptsFailed description attempts reason =>
    "Failed to " ++ description ++ " after " ++ toString attempts ++ " attempts: " ++
      reason.getD "None"

def ServiceFault.hasMessage : ServiceFault → Bool
  | openSheetFailed name _ => name.hasText
  | attemptsFailed _ attempts _ => hasNumeral attempts
  | _ => true

/-- Why an answer of the query service is refused. -/
inductive ParseFault
  | notText (typeName : String)
  | noFraming
  | notJson
  | notAnObject
  | reported (details : Text) (errors : List Value)
  | unknownStatus (status : Value)
  | tableNotAnObject
  | columnsNotAList
  | columnWithoutCode (position : Nat)
  | duplicateHeader (header : Value) (code : Value)

def ParseFault.message : ParseFault → Text
  | notText typeName => "Expected envelope text, got " ++ typeName
  | noFraming => "Envelope framing not found"
  | notJson => "Envelope payload is not valid JSON"
  | notAnObject => "Envelope payload is not an object"
  | reported details _ => "Query service reported an error: " ++ details
  | unknownStatus status => "Unknown envelope status: " ++ status.written
  | tableNotAnObject => "Envelope table is not an object"
  | columnsNotAList => "Envelope table.cols is not a list"
  | columnWithoutCode position =>
    "Column descriptor " ++ toString position ++ " has no positional code"
  | duplicateHeader header code =>
    "Duplicate header name " ++ header.written ++ " at column " ++ code.plain

def ParseFault.hasMessage : ParseFault → Bool
  | unknownStatus status => status.hasText
  | duplicateHeader header code => header.hasText && code.hasText
  | _ => true

end RowStore
