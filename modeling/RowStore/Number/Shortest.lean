import RowStore.Number.Binary64

/-!
# The shortest decimal text of a double

Of the decimal numbers that round to a given double, `shortest` finds one with the fewest digits,
and of those the nearest to the double. For 1, 2, … 17 digits it looks at the two neighbours of the
value on the decimal grid with that many digits, in exact arithmetic.

`Layout` says how digits and exponent are written out; `Layout.standard` is positional from `10⁻⁴`
up to `10¹⁶` and writes an exponent with a sign and two digits elsewhere. `fixedText` writes a value
with a given number of places instead.
-/

namespace RowStore

/-- The number `digits · 10 ^ exponent`. -/
structure Decimal where
  digits : Nat
  exponent : Int
  deriving DecidableEq, Repr

namespace Decimal

/-- The digits of a number in base ten, most significant first. -/
def digitChars (n : Nat) : List Char := Nat.toDigits 10 n

/-- Drops up to `fuel` zeros at the end of the digits. -/
def dropZeros : (fuel : Nat) → Decimal → Decimal
  | 0, d => d
  | fuel + 1, d =>
    if d.digits ≠ 0 ∧ d.digits % 10 = 0 then dropZeros fuel ⟨d.digits / 10, d.exponent + 1⟩ else d

/-- The same number with no zero at the end of its digits. -/
def reduced (d : Decimal) : Decimal := dropZeros (digitChars d.digits).length d

end Decimal

namespace Binary64

/-- `n · 10 ^ k` as numerator and denominator over `d`. -/
def scaleTen (n d : Nat) (k : Int) : Nat × Nat :=
  if 0 ≤ k then (n * 10 ^ k.toNat, d) else (n, d * 10 ^ (-k).toNat)

/-- The exponent of the first digit of `n / d`, for positive `n` and `d`. -/
def leadingExponent (n d : Nat) : Int :=
  if d ≤ n then ((Decimal.digitChars (n / d)).length : Int) - 1
  else
    let guess := (Decimal.digitChars (d / n)).length
    if d ≤ n * 10 ^ (guess - 1) then -((guess - 1 : Nat) : Int) else -(guess : Int)

/-- The reals that round to `m · 2 ^ q` units, as bounds in quarters of a unit. -/
structure RoundingInterval where
  low : Nat
  high : Nat
  closed : Bool

/-- Halfway to the neighbours on both sides; the ends belong to an even significand. -/
def RoundingInterval.of (m q : Nat) : RoundingInterval where
  low := if m = 2 ^ (52 : Nat) ∧ 0 < q then (4 * m - 1) * 2 ^ q else (4 * m - 2) * 2 ^ q
  high := (4 * m + 2) * 2 ^ q
  closed := m % 2 == 0

/-- Whether `n / d` quarters of a unit lie in the interval. -/
def RoundingInterval.contains (i : RoundingInterval) (n d : Nat) : Bool :=
  if i.closed then i.low * d ≤ n && n ≤ i.high * d else i.low * d < n && n < i.high * d

/-- The neighbour of `m · 2 ^ q` units on the grid of `count` digits that rounds to it, if any. -/
def shortestWith (m q : Nat) (lead : Int) (count : Nat) : Option Decimal :=
  let exponent := lead + 1 - (count : Int)
  -- the value in grid steps is `n / d`
  let (n, d) := scaleTen (m * 2 ^ q) unitsPerOne (-exponent)
  let below := n / d
  let twice := 2 * (n % d)
  -- a point `k` of the grid, in quarters of a unit, is `k * u / v`
  let (u, v) := scaleTen (4 * unitsPerOne) 1 exponent
  let interval := RoundingInterval.of m q
  let lower := 0 < below && interval.contains (below * u) v
  let upper := interval.contains ((below + 1) * u) v
  if lower && upper then
    if twice < d || (twice == d && below % 2 == 0) then some ⟨below, exponent⟩
    else some ⟨below + 1, exponent⟩
  else if lower then some ⟨below, exponent⟩
  else if upper then some ⟨below + 1, exponent⟩
  else none

/-- The fewest digits that read back as `m · 2 ^ q` units, for a positive `m`. -/
def shortest (m q : Nat) : Decimal :=
  let lead := leadingExponent (m * 2 ^ q) unitsPerOne
  match (List.range 17).findSome? fun k => shortestWith m q lead (k + 1) with
  | some d => d.reduced
  | none => ⟨0, 0⟩

end Binary64

/-- How a decimal number is written: where positional writing ends, and the exponent's form. -/
structure Layout where
  /-- The least power of ten of a leading digit that is written positionally. -/
  least : Int
  /-- The greatest power of ten of a leading digit that is written positionally. -/
  greatest : Int
  /-- The least number of digits in an exponent. -/
  exponentWidth : Nat

namespace Layout

/-- Positional from `10⁻⁴` to below `10¹⁶`, and two digits in an exponent. -/
def standard : Layout := ⟨-4, 15, 2⟩

/-- An exponent with its sign, padded with zeros. -/
def exponentText (l : Layout) (e : Int) : List Char :=
  let digits := Decimal.digitChars e.natAbs
  (if e < 0 then '-' else '+') :: (List.replicate (l.exponentWidth - digits.length) '0' ++ digits)

/-- A positive decimal number; positional texts always have a fractional part. -/
def render (l : Layout) (d : Decimal) : List Char :=
  let digits := Decimal.digitChars d.digits
  let lead := d.exponent + (digits.length : Int) - 1
  if l.least ≤ lead ∧ lead ≤ l.greatest then
    if 0 ≤ d.exponent then
      digits ++ List.replicate d.exponent.toNat '0' ++ ['.', '0']
    else if 0 ≤ lead then
      let whole := (lead + 1).toNat
      digits.take whole ++ '.' :: digits.drop whole
    else
      '0' :: '.' :: (List.replicate ((-lead).toNat - 1) '0' ++ digits)
  else
    let mantissa := match digits with
      | [c] => [c]
      | c :: rest => c :: '.' :: rest
      | [] => []
    mantissa ++ 'e' :: l.exponentText lead

end Layout

namespace Binary64

/-- The shortest text that reads back as the same double. -/
def text : Binary64 → String
  | .nan _ => "nan"
  | .infinite negative => if negative then "-inf" else "inf"
  | .finite negative m q _ =>
    let body := if m = 0 then ['0', '.', '0'] else Layout.standard.render (shortest m q)
    String.ofList (if negative then '-' :: body else body)

/-- The value rounded to `places` digits after the point, ties to even. -/
def fixedText (places : Nat) : Binary64 → String
  | .nan _ => "nan"
  | .infinite negative => if negative then "-inf" else "inf"
  | .finite negative m q _ =>
    let scaled := divHalfEven (m * 2 ^ q * 10 ^ places) unitsPerOne
    let digits := Decimal.digitChars scaled
    let padded := List.replicate (places + 1 - digits.length) '0' ++ digits
    let whole := padded.take (padded.length - places)
    let fraction := padded.drop (padded.length - places)
    let body := if places = 0 then whole else whole ++ '.' :: fraction
    String.ofList (if negative then '-' :: body else body)

end Binary64

end RowStore
