import RowStore.Text.Basic

/-!
# White space

`isBlank` is the white space of Unicode text, with the four separators `U+001C` to `U+001F`; it does
not hold the zero-width characters. `trim` drops it at both ends. Numerals have a narrower set,
`isNumeralBlank`, without those four separators.
-/

namespace RowStore.Text

/-- The white space above ASCII. -/
def isWideBlank (c : Char) : Bool :=
  let n := c.toNat
  n == 0x85 || n == 0xA0 || n == 0x1680 || (0x2000 ≤ n && n ≤ 0x200A) || n == 0x2028 ||
    n == 0x2029 || n == 0x202F || n == 0x205F || n == 0x3000

/-- White space in names, keys and dates. -/
def isBlank (c : Char) : Bool :=
  let n := c.toNat
  (0x09 ≤ n && n ≤ 0x0D) || (0x1C ≤ n && n ≤ 0x20) || isWideBlank c

/-- White space around a numeral. -/
def isNumeralBlank (c : Char) : Bool :=
  let n := c.toNat
  (0x09 ≤ n && n ≤ 0x0D) || n == 0x20 || isWideBlank c

/-- Drops the elements of a class at both ends of a list. -/
def trimBy {α : Type} (drop : α → Bool) (xs : List α) : List α :=
  ((xs.dropWhile drop).reverse.dropWhile drop).reverse

/-- Drops the white space at both ends. -/
def trim (t : Text) : Text := trimBy (CodePoint.isOf isBlank) t

end RowStore.Text
