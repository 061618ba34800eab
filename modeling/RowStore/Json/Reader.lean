import RowStore.Json.Literal
import RowStore.Value.Entries

/-!
# Reading JSON

`Json.read?` reads a whole text as one value. A name that occurs twice in an object keeps its first
place and takes its last value. The readers of one value, of the items of an array and of the members
of an object call each other; each call uses up one unit of fuel, and a text of `n` code points never
needs more than `2 n + 2`.

Arrays and objects are read however deep they are nested. A reader that works on a stack of limited depth
ends with an error on a text that is nested beyond it; wherever this project says exactly which
texts are read, or which errors a read can end with, it takes for granted that the stack is deep enough.
-/

namespace RowStore.Json

/-- White space between the tokens. -/
def isSpace (c : Char) : Bool := c == ' ' || c == '\t' || c == '\n' || c == '\r'

def skip (t : Text) : Text := t.dropWhile (CodePoint.isOf isSpace)

mutual

/-- The value at the start of a text, and what follows it. -/
def readValue : Nat → Text → Option (Value × Text)
  | 0, _ => none
  | fuel + 1, t =>
    match t with
    | .char '"' :: rest => (scanString? rest).map fun p => (.text p.1, p.2)
    | .char '[' :: rest =>
      match skip rest with
      | .char ']' :: after => some (.list [], after)
      | items => (readItems fuel items).map fun p => (.list p.1, p.2)
    | .char '\x7b' :: rest =>
      match skip rest with
      | .char '\x7d' :: after => some (.mapping [], after)
      | members => (readMembers fuel members).map fun p => (.mapping (Entries.ofList p.1), p.2)
    | _ => (scanWord? t).or (scanNumber? t)

/-- The items of an array up to its closing bracket, and what follows it. -/
def readItems : Nat → Text → Option (List Value × Text)
  | 0, _ => none
  | fuel + 1, t =>
    match readValue fuel t with
    | none => none
    | some (v, rest) =>
      match skip rest with
      | .char ']' :: after => some ([v], after)
      | .char ',' :: more => (readItems fuel (skip more)).map fun p => (v :: p.1, p.2)
      | _ => none

/-- The members of an object up to its closing brace, and what follows it. -/
def readMembers : Nat → Text → Option (List (Value × Value) × Text)
  | 0, _ => none
  | fuel + 1, t =>
    match t with
    | .char '"' :: rest =>
      match scanString? rest with
      | none => none
      | some (name, afterName) =>
        match skip afterName with
        | .char ':' :: afterColon =>
          match readValue fuel (skip afterColon) with
          | none => none
          | some (v, afterValue) =>
            match skip afterValue with
            | .char '\x7d' :: after => some ([(.text name, v)], after)
            | .char ',' :: more =>
              (readMembers fuel (skip more)).map fun p => ((.text name, v) :: p.1, p.2)
            | _ => none
        | _ => none
    | _ => none

end

/-- The value that a whole text holds. -/
def read? (t : Text) : Option Value :=
  match readValue (2 * t.length + 2) (skip t) with
  | some (v, rest) => if (skip rest).isEmpty then some v else none
  | none => none

end RowStore.Json
