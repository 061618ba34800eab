import RowStore.Fault.Basic
import RowStore.Json.Reader

/-!
# Envelopes

The query service answers with a JSON object inside a call: everything between the first `(` and the
last `)` of the text is the payload. `Envelope.unwrap` takes it out, decodes it and refuses it unless
its status is `ok` or `warning`.
-/

namespace RowStore.Envelope

/-- What stands between the first opening and the last closing parenthesis. -/
def framed? (t : Text) : Option Text :=
  match t.dropWhile (· ≠ .char '(') with
  | [] => none
  | _ :: rest =>
    match rest.reverse.dropWhile (· ≠ .char ')') with
    | [] => none
    | _ :: inner => some inner.reverse

/-- The first of these values that is not blank, or the last one. -/
def firstGiven : List Value → Value → Value
  | [], last => last
  | v :: rest, last => if v.isBlank then firstGiven rest last else v

/-- The text of one reported error; it has to be a text when it is taken from an object. -/
def describe (entry : Value) : Except Fault Text :=
  match entry with
  | .mapping fields =>
    (firstGiven
      [Value.get fields "detailed_message", Value.get fields "message", Value.get fields "reason"]
      (.text entry.plain)).expectText
  | v => .ok v.plain

/-- The fault of an answer with status `error`. -/
def reportedFault (payload : Entries Value) : Fault :=
  let errors := Value.get payload "errors"
  if errors.isBlank then .parse (.reported "no details" [])
  else
    match errors.items? with
    | none => .unsuitable
    | some items =>
      match items.mapM describe with
      | .error fault => fault
      | .ok texts =>
        let details := Text.join "; " texts
        .parse (.reported (if details.isEmpty then "no details" else details) items)

/-- The payload of an answer. -/
def unwrap (answer : Value) : Except Fault (Entries Value) :=
  match answer with
  | .text s =>
    match framed? s with
    | none => .error (.parse .noFraming)
    | some payloadText =>
      match Json.read? payloadText with
      | none => .error (.parse .notJson)
      | some (.mapping payload) =>
        let status := Value.get payload "status"
        if status.equals (.text "error") then .error (reportedFault payload)
        else if status.equals (.text "ok") || status.equals (.text "warning") then .ok payload
        else .error (.parse (.unknownStatus status))
      | some _ => .error (.parse .notAnObject)
  | v => .error (.parse (.notText v.typeName))

end RowStore.Envelope
