import RowStore.Number.Binary64
import RowStore.Text.Blank
import RowStore.Text.Digit

/-!
# Reading numbers

The numerals a list of characters may hold: white space at the ends, a sign, digits of any script, and
single underscores between digits. `readInt?` reads an integer of at most `longestNumeral` digits;
`readReal?` reads a decimal number with an optional fraction and exponent, or `inf`, `infinity` and
`nan` in any case, and gives the nearest double.
-/

namespace RowStore

/-- The value of a list of ASCII digits. -/
def digitsValue (cs : List Char) : Nat :=
  cs.foldl (fun n c => 10 * n + (c.toNat - 0x30)) 0

/-- A digit of any script becomes the ASCII digit of its value. -/
def plainDigit (c : Char) : Char :=
  match Text.digitValue? c with
  | some d => Char.ofNat (0x30 + d)
  | none => c

/-- The characters of a numeral: no white space at the ends, and ASCII digits. -/
def numeralChars (cs : List Char) : List Char :=
  (Text.trimBy Text.isNumeralBlank cs).map plainDigit

/-- Drops the underscores; each of them must stand between two digits. -/
def dropUnderscores? : List Char → Option (List Char)
  | [] => some []
  | c :: '_' :: rest =>
    if c.isDigit then
      match rest with
      | d :: _ => if d.isDigit then (dropUnderscores? rest).map (c :: ·) else none
      | [] => none
    else none
  | c :: rest => if c = '_' then none else (dropUnderscores? rest).map (c :: ·)

/-- A sign, if there is one, and the rest. -/
def splitSign : List Char → Bool × List Char
  | '-' :: rest => (true, rest)
  | '+' :: rest => (false, rest)
  | cs => (false, cs)

/-- The most digits that the numeral of an integer may have. -/
def longestNumeral : Nat := 4300

/-- The value of the digits of an integer, if they are not too many. -/
def readDigits? (negative : Bool) (digits : List Char) : Option Int :=
  if longestNumeral < digits.length then none
  else
    let n := digitsValue digits
    some (if negative then -(n : Int) else (n : Int))

/-- Whether an integer has a numeral that is not too long. -/
@[irreducible]
def hasNumeral (n : Int) : Bool := n.natAbs < 10 ^ longestNumeral

theorem hasNumeral_iff {n : Int} : hasNumeral n = true ↔ n.natAbs < 10 ^ longestNumeral := by
  unfold hasNumeral
  exact decide_eq_true_iff

/-- An integer in base ten. -/
def readInt? (numeral : List Char) : Option Int := do
  let cs ← dropUnderscores? (numeralChars numeral)
  let (negative, digits) := splitSign cs
  if digits.isEmpty || !digits.all Char.isDigit then none else readDigits? negative digits

/-- The double nearest to `digits · 10 ^ exponent`. Beyond 310 digits before the point a number
overflows, and with 330 zeros after the point it is nearer to zero than to any other double. -/
def Binary64.ofDecimal (negative : Bool) (digits : Nat) (exponent : Int) : Binary64 :=
  let width := (Nat.toDigits 10 digits).length
  if digits = 0 then Binary64.pack negative 0 0
  else if 310 < width + exponent then .infinite negative
  else if width + exponent < -330 then Binary64.pack negative 0 0
  else if 0 ≤ exponent then Binary64.ofRatio negative (digits * 10 ^ exponent.toNat) 1
  else Binary64.ofRatio negative digits (10 ^ (-exponent).toNat)

/-- The exponent after the digits of a decimal number: nothing, or `e`, a sign and digits. -/
def readExponent? : List Char → Option Int
  | [] => some 0
  | c :: rest =>
    if c = 'e' ∨ c = 'E' then
      let (negative, digits) := splitSign rest
      if digits.isEmpty || !digits.all Char.isDigit then none
      else some (if negative then -(digitsValue digits : Int) else (digitsValue digits : Int))
    else none

/-- Digits with an optional point among them, and an optional exponent. -/
def readDecimal? (negative : Bool) (cs : List Char) : Option Binary64 :=
  let whole := cs.takeWhile Char.isDigit
  let afterWhole := cs.dropWhile Char.isDigit
  let (fraction, tail) := match afterWhole with
    | '.' :: rest => (rest.takeWhile Char.isDigit, rest.dropWhile Char.isDigit)
    | _ => ([], afterWhole)
  if whole.isEmpty && fraction.isEmpty then none
  else (readExponent? tail).map fun e =>
    Binary64.ofDecimal negative (digitsValue (whole ++ fraction)) (e - fraction.length)

/-- A decimal number, an infinity or a NaN. -/
def readReal? (numeral : List Char) : Option Binary64 := do
  let cs ← dropUnderscores? (numeralChars numeral)
  let (negative, body) := splitSign cs
  let name := String.ofList (body.map Char.toLower)
  if name = "inf" ∨ name = "infinity" then some (.infinite negative)
  else if name = "nan" then some (.nan 0)
  else readDecimal? negative body

end RowStore
