/-!
# Texts

A `Text` is a list of code points. Nearly all of them are characters, but a text that comes as code
units of 16 bits may hold half of a surrogate pair without its other half, and that is no character.
A string counts as the text of its characters (`Text.ofString`), and `Text.string?` gives back the
string of a text without halves.
-/

namespace RowStore

/-- A code point: a character, or half of a surrogate pair that stands alone. -/
inductive CodePoint
  | char (c : Char)
  | half (h : Fin 2048)
  deriving DecidableEq, Repr

namespace CodePoint

/-- The number of the first half. -/
def firstHalf : Nat := 0xD800

/-- The number of a code point; those of the halves lie between `U+D7FF` and `U+E000`. -/
def number : CodePoint → Nat
  | char c => c.toNat
  | half h => firstHalf + h

/-- The code point with a number. -/
def ofNumber (n : Nat) : CodePoint :=
  if h : firstHalf ≤ n ∧ n - firstHalf < 2048 then half ⟨n - firstHalf, h.2⟩
  else char (Char.ofNat n)

/-- Whether a code point is a character of a class; a half belongs to none. -/
def isOf (p : Char → Bool) : CodePoint → Bool
  | char c => p c
  | half _ => false

def char? : CodePoint → Option Char
  | char c => some c
  | half _ => none

end CodePoint

/-- A list of code points. -/
abbrev Text := List CodePoint

namespace Text

/-- The text of a list of characters. -/
def ofChars (cs : List Char) : Text := cs.map .char

/-- The text of a string. -/
def ofString (s : String) : Text := ofChars s.toList

instance : Coe String Text := ⟨ofString⟩

/-- The characters of a text without halves. -/
def chars? (t : Text) : Option (List Char) := t.mapM CodePoint.char?

/-- The string of a text without halves. -/
def string? (t : Text) : Option String := t.chars?.map String.ofList

/-- Texts one after another, with a separator between them. -/
def join (separator : Text) (parts : List Text) : Text := separator.intercalate parts

/-- The leading characters of a class, and what follows them. -/
def span (p : Char → Bool) : Text → List Char × Text
  | .char c :: rest =>
    if p c then (c :: (span p rest).1, (span p rest).2) else ([], .char c :: rest)
  | t => ([], t)

/-- The pieces of a list between the occurrences of a separator. -/
def pieces {α : Type} [DecidableEq α] (separator : α) : List α → List (List α)
  | [] => [[]]
  | a :: rest =>
    if a = separator then [] :: pieces separator rest
    else match pieces separator rest with
      | piece :: more => (a :: piece) :: more
      | [] => [[a]]

@[simp] theorem chars?_ofChars (cs : List Char) : chars? (ofChars cs) = some cs := by
  induction cs with
  | nil => rfl
  | cons c rest ih =>
    simp only [chars?, ofChars, List.map_cons, List.mapM_cons] at ih ⊢
    rw [ih]
    rfl

@[simp] theorem string?_ofString (s : String) : string? (ofString s) = some s := by
  simp [string?, ofString]

/-- Strings with the same text are the same. -/
theorem ofString_inj {s t : String} : ofString s = ofString t ↔ s = t :=
  ⟨fun h => Option.some.inj (by rw [← string?_ofString s, h, string?_ofString]),
    fun h => h ▸ rfl⟩

end Text

end RowStore
