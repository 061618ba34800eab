import RowStore.Number.Reading
import RowStore.Text.Basic
import RowStore.Value.Basic

/-!
# Strings, numbers and words of JSON

A string literal is read piece by piece (`scanPieces?`) and then put together (`joinPieces`), since
two escapes of code units may form one character; a unit that finds no partner stays half of a pair.
A number without a fraction and an exponent is an integer; any other one is the nearest double, an
infinity beyond the largest. `NaN` and the infinities are words.
-/

namespace RowStore.Json

/-- The value of a hexadecimal digit. -/
def hexDigit? (c : Char) : Option Nat :=
  if c.isDigit then some (c.toNat - 0x30)
  else if 'a' ≤ c && c ≤ 'f' then some (c.toNat - 0x57)
  else if 'A' ≤ c && c ≤ 'F' then some (c.toNat - 0x37)
  else none

/-- The value of four hexadecimal digits. -/
def hexUnit? (a b c d : Char) : Option Nat := do
  let a ← hexDigit? a
  let b ← hexDigit? b
  let c ← hexDigit? c
  let d ← hexDigit? d
  some (((a * 16 + b) * 16 + c) * 16 + d)

/-- The character that a backslash and one letter stand for. -/
def shortEscape? (c : Char) : Option Char :=
  if c = '"' ∨ c = '\\' ∨ c = '/' then some c
  else if c = 'b' then some '\x08'
  else if c = 'f' then some '\x0c'
  else if c = 'n' then some '\n'
  else if c = 'r' then some '\r'
  else if c = 't' then some '\t'
  else none

/-- A piece of a string literal: a code point as it stands, or an escaped code unit. -/
inductive Piece
  | point (p : CodePoint)
  | unit (n : Nat)

/-- The pieces of a string up to its closing quote, and what follows it. -/
def scanPieces? : Text → Option (List Piece × Text)
  | [] => none
  | .char '"' :: rest => some ([], rest)
  | .char '\\' :: .char 'u' :: .char a :: .char b :: .char c :: .char d :: rest =>
    match hexUnit? a b c d with
    | some n => (scanPieces? rest).map fun p => (.unit n :: p.1, p.2)
    | none => none
  | .char '\\' :: .char c :: rest =>
    match shortEscape? c with
    | some c => (scanPieces? rest).map fun p => (.point (.char c) :: p.1, p.2)
    | none => none
  | p :: rest =>
    if p = .char '\\' ∨ p.number < 0x20 then none
    else (scanPieces? rest).map fun q => (.point p :: q.1, q.2)

/-- The first unit of a pair. -/
def isHighUnit (n : Nat) : Bool := 0xD800 ≤ n && n < 0xDC00

/-- The second unit of a pair. -/
def isLowUnit (n : Nat) : Bool := 0xDC00 ≤ n && n < 0xE000

/-- The text of a list of pieces; a high and a low unit in a row form one character. -/
def joinPieces : List Piece → Text
  | [] => []
  | .point p :: rest => p :: joinPieces rest
  | .unit high :: .unit low :: rest =>
    if isHighUnit high && isLowUnit low then
      .ofNumber (0x10000 + (high - 0xD800) * 0x400 + (low - 0xDC00)) :: joinPieces rest
    else .ofNumber high :: joinPieces (.unit low :: rest)
  | .unit n :: rest => .ofNumber n :: joinPieces rest

/-- The string after an opening quote, and what follows it. -/
def scanString? (t : Text) : Option (Text × Text) :=
  (scanPieces? t).map fun p => (joinPieces p.1, p.2)

/-- The digits before a point: a single zero, or digits that start with another one. -/
def scanWhole? (t : Text) : Option (List Char × Text) :=
  match t with
  | .char '0' :: rest => some (['0'], rest)
  | _ => match Text.span Char.isDigit t with
    | ([], _) => none
    | found => some found

/-- The digits after a point, if there are any. -/
def scanFraction (t : Text) : List Char × Text :=
  match t with
  | .char '.' :: rest => match Text.span Char.isDigit rest with
    | ([], _) => ([], t)
    | found => found
  | _ => ([], t)

/-- The sign of an exponent, if there is one, and the rest. -/
def scanSign : Text → Bool × Text
  | .char '-' :: rest => (true, rest)
  | .char '+' :: rest => (false, rest)
  | t => (false, t)

/-- An exponent, if there is one. -/
def scanExponent (t : Text) : Option Int × Text :=
  match t with
  | .char c :: rest =>
    if c = 'e' ∨ c = 'E' then
      let (negative, body) := scanSign rest
      match Text.span Char.isDigit body with
      | ([], _) => (none, t)
      | (digits, after) =>
        let n : Int := digitsValue digits
        (some (if negative then -n else n), after)
    else (none, t)
  | _ => (none, t)

/-- A number without its sign. -/
def scanUnsigned? (negative : Bool) (t : Text) : Option (Value × Text) := do
  let (whole, afterWhole) ← scanWhole? t
  let (fraction, afterFraction) := scanFraction afterWhole
  let (exponent, rest) := scanExponent afterFraction
  if fraction.isEmpty && exponent.isNone then
    return (.int (← readDigits? negative whole), rest)
  else
    some (.real (Binary64.ofDecimal negative (digitsValue (whole ++ fraction))
      (exponent.getD 0 - fraction.length)), rest)

def scanNumber? (t : Text) : Option (Value × Text) :=
  match t with
  | .char '-' :: rest => scanUnsigned? true rest
  | _ => scanUnsigned? false t

/-- The words and what they stand for. -/
def words : List (Text × Value) := [
  ("null", .null), ("true", .bool true), ("false", .bool false), ("NaN", .real (.nan 0)),
  ("Infinity", .real (.infinite false)), ("-Infinity", .real (.infinite true))]

def scanWord? (t : Text) : Option (Value × Text) :=
  words.findSome? fun (word, v) =>
    if word.isPrefixOf t then some (v, t.drop word.length) else none

end RowStore.Json
