import RowStore.Address.Fault
import RowStore.Text.Blank
import RowStore.Text.Case

/-!
# Column letters

Columns are counted from 0 and written with letters: `A` to `Z`, then `AA`, `AB` and so on. This is
a positional system with the digits 1 to 26 and no zero. `Column.letters` writes a column and
`Column.index` reads one, in either case and with white space around it.
-/

namespace RowStore.Column

/-- The letter of a digit from 0 to 25. -/
def letter (d : Nat) : Char := Char.ofNat (0x41 + d)

/-- The letters of column `n`. -/
def letterChars (n : Nat) : List Char :=
  if n < 26 then [letter n] else letterChars (n / 26 - 1) ++ [letter (n % 26)]
termination_by n
decreasing_by omega

/-- The letters of column `n`, as text. -/
def letters (n : Nat) : String := String.ofList (letterChars n)

/-- A capital ASCII letter. -/
def isCapital (c : Char) : Bool := 'A' ≤ c && c ≤ 'Z'

/-- The value of a word of capital letters, with `A` as 1. -/
def wordValue (cs : List Char) : Nat :=
  cs.foldl (fun n c => n * 26 + (c.toNat - 0x40)) 0

/-- The column of a non-empty word of capital letters. -/
def ofCapitals? (cs : List Char) : Option Nat :=
  if !cs.isEmpty && cs.all isCapital then some (wordValue cs - 1) else none

/-- The text as it is read: without white space at the ends, in upper case. -/
def normalized (t : Text) : Text := Text.upper (Text.trim t)

/-- The column that a text names. -/
def index (t : Text) : Except AddressFault Nat :=
  match (normalized t).chars?.bind ofCapitals? with
  | some n => .ok n
  | none => .error (.notAColumn (normalized t))

end RowStore.Column
