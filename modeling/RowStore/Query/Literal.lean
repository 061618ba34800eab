import RowStore.Columns
import RowStore.Noted
import RowStore.Number.Reading

/-!
# Literals of the query language

A column of numbers is compared with a bare number, a column of booleans with `true` or `false`, and
every other column with a text in single quotes. A value that cannot be read as a number or a boolean
is quoted in any column. `Literal.ofValue` chooses the literal, for a value that has a text, and
`Literal.render` writes it.
-/

namespace RowStore.Query

/-- A constant in a query. -/
inductive Literal
  | integer (n : Int)
  | decimal (x : Binary64)
  | truth (b : Bool)
  | quoted (t : Text)
  deriving DecidableEq

namespace Literal

/-- A code point between single quotes: the quote and the backslash follow a backslash. -/
def escapePoint (p : CodePoint) : Text :=
  if p = .char '\\' ∨ p = .char '\'' then [.char '\\', p] else [p]

/-- The text of a literal. -/
def render : Literal → Text
  | integer n => toString n
  | decimal x => x.text
  | truth b => if b then "true" else "false"
  | quoted t => .char '\'' :: (t.flatMap escapePoint ++ [.char '\''])

/-- The literal of a double: an integer when it has no fraction. -/
def ofReal (x : Binary64) : Literal :=
  if x.isIntegral then
    match x.truncate? with
    | some n => integer n
    | none => decimal x
  else decimal x

/-- The double that a value is read as. -/
def realOf? (v : Value) : Option Binary64 :=
  match v with
  | .real x => some x
  | v => (Text.trim v.plain).chars?.bind readReal?

/-- The number that a value is in a column of numbers. Only a value that is no finite number leaves
a note. -/
def numberOf? (v : Value) : Noted (Option Literal) :=
  match v with
  | .bool _ => return none
  | .int n => return some (integer n)
  | v =>
    match (realOf? v).filter Binary64.isFinite with
    | some x => return some (ofReal x)
    | none => do
      Noted.note .warning ("Value " ++ v.written ++ " is not a finite number; quoting it")
      return none

/-- The boolean that a value is in a column of booleans. -/
def truthOf? (v : Value) : Option Bool :=
  match v with
  | .bool b => some b
  | v =>
    let word := Text.lower (Text.trim v.plain)
    if word = "true" then some true else if word = "false" then some false else none

/-- The literal with which a value is compared in a column of a type. -/
def ofValue (v : Value) (type : TypeTag) : Noted Literal := do
  v.checkText
  match type with
  | .number => return (← numberOf? v).getD (quoted v.plain)
  | .boolean => return match truthOf? v with
    | some b => truth b
    | none => quoted v.plain
  | _ => return quoted v.plain

end Literal

end RowStore.Query
