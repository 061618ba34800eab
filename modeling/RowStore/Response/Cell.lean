import RowStore.Columns
import RowStore.Noted
import RowStore.Number.Reading

/-!
# Cells of an answer

A cell is an object with a value `v` and a display text `f`. In a column of dates the value reads
`Date(year, month, day, …)` with up to four more numbers and months counted from 0; in a column of
times it is a list of hour, minute, second and perhaps milliseconds. `decodeCell` turns both into
dates and texts, takes the display text of a value that it does not recognize, and leaves every other
value as it is.
-/

namespace RowStore.Response

/-- Digits, perhaps after a minus sign. -/
def isSignedDigits (cs : List Char) : Bool :=
  let digits := match cs with
    | '-' :: rest => rest
    | _ => cs
  !digits.isEmpty && digits.all Text.isDigit

/-- What stands in the parentheses of `Date(…)`. -/
def dateArguments? (cs : List Char) : Option (List Char) :=
  match Text.trimBy Text.isBlank cs with
  | 'D' :: 'a' :: 't' :: 'e' :: '(' :: rest =>
    match rest.reverse with
    | ')' :: inner => some (Text.trimBy Text.isBlank inner.reverse)
    | _ => none
  | _ => none

/-- The texts of three to seven numbers between commas. -/
def dateNumerals? (cs : List Char) : Option (List (List Char)) := do
  let inner ← dateArguments? cs
  let parts := Text.pieces ',' inner
  if 3 ≤ parts.length ∧ parts.length ≤ 7 ∧
      parts.all (fun p => isSignedDigits (Text.trimBy Text.isBlank p)) then some parts
  else none

/-- Whether a number fits a signed word of 32 bits. -/
def fitsWord (n : Int) : Bool := -(2 ^ (31 : Nat)) ≤ n && n < 2 ^ (31 : Nat)

/-- The moment of three to seven numbers; missing ones are zero. A number that does not fit a word of
32 bits overflows, whatever the others are. -/
def momentOf (numbers : List Int) : Except Fault (Option Moment) :=
  match numbers ++ [0, 0, 0, 0] with
  | year :: month :: day :: hour :: minute :: second :: millis :: _ =>
    if [year, month + 1, day, hour, minute, second, millis * 1000].all fitsWord then
      .ok (Moment.of? year (month + 1) day hour minute second (millis * 1000))
    else .error .overflow
  | _ => .ok none

/-- The moment that a value in a column of dates stands for, if it has that form. -/
def dateOf (v : Value) : Except Fault (Option Moment) :=
  match v with
  | .text t =>
    match t.chars?.bind dateNumerals? with
    | none => .ok none
    | some numerals =>
      match numerals.mapM readInt? with
      | some numbers => momentOf numbers
      | none => .error .malformed
  | _ => .ok none

/-- The whole number that a value stands for; an infinite one overflows. -/
def wholeOf (v : Value) : Except Fault (Option Int) :=
  match v with
  | .real (.infinite _) => .error .overflow
  | .real x => .ok x.truncate?
  | .text t => .ok (t.chars?.bind readInt?)
  | v => .ok v.integer?

/-- A number with at least two characters. -/
def twoDigits (n : Int) : String :=
  if n < 0 then toString n else zeroPadded 2 n.toNat

/-- The text of a time of day given as a list of numbers, if the value has that form. -/
def timeOf (v : Value) : Except Fault (Option String) :=
  match v with
  | .list items => ofItems items
  | .tuple items => ofItems items
  | _ => .ok none
where
  ofItems (items : List Value) : Except Fault (Option String) :=
    match items with
    | [hour, minute, second] => ofNumbers hour minute second
    | [hour, minute, second, _] => ofNumbers hour minute second
    | _ => .ok none
  ofNumbers (hour minute second : Value) : Except Fault (Option String) := do
    let some h ← wholeOf hour | return none
    let some m ← wholeOf minute | return none
    let some s ← wholeOf second | return none
    return some (twoDigits h ++ ":" ++ twoDigits m ++ ":" ++ twoDigits s)

/-- The display text of a cell, or its value when there is none; leaves a note. -/
def displayOf (what : String) (fields : Entries Value) (v : Value) : Noted Value := do
  Noted.note .debug
    ("Unrecognized " ++ what ++ " cell " ++ v.written ++ "; using display value")
  return (fields.findText? "f").getD v

/-- The value of a cell in a column of a type. -/
def decodeCell (cell : Value) (type : TypeTag) : Noted Value :=
  match cell with
  | .mapping fields =>
    match Value.get fields "v" with
    | .null => return .null
    | v =>
      match type with
      | .date | .datetime => do
        let some t ← dateOf v | displayOf "date" fields v
        return .moment t
      | .timeofday => do
        let some s ← timeOf v | displayOf "timeofday" fields v
        return .text s
      | _ => return v
  | _ => return .null

end RowStore.Response
