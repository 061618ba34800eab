import RowStore.Session

/-!
# The query endpoint

Queries are sent to a web address of the spreadsheet, with the worksheet, the query and the number of
header rows as parameters and an access token in a header. The body of an answer with status 200 is
the answer to the query.
-/

namespace RowStore

/-- Where access tokens come from. -/
inductive TokenSource
  | fixed (token : Value)
  | failing (fault : Fault)
  /-- The credentials of the sheet service, renewed when they are no longer valid. -/
  | credentials

/-- The address to which the queries of one worksheet are sent. -/
structure Endpoint where
  store : Value
  sheet : Value
  tokens : TokenSource
  headerRows : Value
  timeout : Value

namespace Endpoint

/-- The time that an answer may take, in seconds, unless another one is given. -/
def standardTimeout : Value := .real ((Binary64.ofInt? 30).getD Binary64.zero)

def url (e : Endpoint) : Text :=
  "https://docs.google.com/spreadsheets/d/" ++ e.store.plain ++ "/gviz/tq"

/-- A current access token. -/
def token : TokenSource → Act Value
  | .fixed t => return t
  | .failing fault => throw fault
  | .credentials => do
    let now ← Act.ask .credentials
    if now.valid then return now.token
    else
      Act.ofAnswer (Act.ask .refreshCredentials)
      return (← Act.ask .credentials).token

/-- The request that sends a query. -/
def request (e : Endpoint) (query : Text) (token : Value) : WebRequest where
  url := e.url
  params := [(.text "sheet", e.sheet), (.text "tq", .text query), (.text "headers", e.headerRows)]
  headers := [(.text "Authorization", .text ("Bearer " ++ token.plain))]
  timeout := e.timeout

/-- A fault that is reworded when it is of the kinds that a rule names. -/
def rewordedIf (holds : Fault.Kind → Bool) (cause : Text → TransportFault) (fault : Fault) :
    Fault :=
  if holds fault.kind then .transport (cause fault.message) else fault

/-- The status that an answer has to have. -/
def goodStatus : Value := .int 200

/-- The answer to a query. -/
def fetch (e : Endpoint) (query : Text) : Act Value := do
  match ← Act.observe (token e.tokens) with
  | .error fault => throw (rewordedIf Fault.Kind.isCredential .tokenFailed fault)
  | .ok t =>
    match ← Act.ask (.get (e.request query t)) with
    | .error fault => throw (rewordedIf Fault.Kind.isRequest .requestFailed fault)
    | .ok answer =>
      if answer.status.equals goodStatus then
        let size ← Value.expected answer.text.size?
        Act.note .debug ("Query " ++ Text.quoted query ++ " returned " ++ toString size ++ " bytes")
        return answer.text
      else throw (.transport (.badStatus answer.status e.sheet))

end Endpoint

end RowStore
