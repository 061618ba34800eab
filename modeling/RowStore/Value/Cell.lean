import RowStore.Fault.Basic

/-!
# Values in cells

`toCell` is what is written into a cell for a value, and `asText` the text by which cells are
compared: a number with no fraction is compared as an integer, so `10`, `10.0` and the text `10` are
the same. The cells of a sheet come as JSON, where every integer has a numeral; a value that a caller
gives may have none, and is then neither compared (`comparedText`) nor written as a text (`cellOf`).
-/

namespace RowStore.Value

/-- The content of a cell: dates and times become text, to the second, and null an empty text. -/
def toCell : Value → Value
  | null => text ""
  | bool b => bool b
  | int n => int n
  | real x => real x
  | text s => text s
  | moment t => text t.cellText
  | date d => text d.iso
  | clock c => text c.seconds
  | v => text v.plain

/-- The text by which cells are compared. -/
def asText : Value → Text
  | null => ""
  | bool b => if b then "TRUE" else "FALSE"
  | real x =>
    if x.isIntegral then
      match x.truncate? with
      | some n => toString n
      | none => x.text
    else x.text
  | v => v.plain

/-- The text by which a given value is compared with cells, if it has one. -/
def comparedText (v : Value) : Except Fault Text := do
  v.checkText
  return v.asText

/-- Whether a value can be written into a cell. An integer is written as it is, and needs no text. -/
def hasCell : Value → Bool
  | int _ => true
  | v => v.hasText

/-- What is written into a cell for a given value, if that can be written. -/
def cellOf (v : Value) : Except Fault Value := if v.hasCell then .ok v.toCell else .error .malformed

theorem comparedText_of_hasText {v : Value} (h : v.hasText = true) : v.comparedText = .ok v.asText := by
  rw [comparedText, checkText_of_hasText h]
  rfl

theorem comparedText_of_not_hasText {v : Value} (h : v.hasText = false) : v.comparedText = .error .malformed := by
  rw [comparedText, checkText_of_not_hasText h]
  rfl

theorem cellOf_of_hasCell {v : Value} (h : v.hasCell = true) : v.cellOf = .ok v.toCell := if_pos h

theorem cellOf_of_not_hasCell {v : Value} (h : v.hasCell = false) : v.cellOf = .error .malformed :=
  if_neg (Bool.eq_false_iff.mp h)

/-- What has a text can be written into a cell. -/
theorem hasCell_of_hasText {v : Value} (h : v.hasText = true) : v.hasCell = true := by
  cases v <;> first | rfl | exact h

@[simp] theorem asText_null : asText null = [] := rfl

@[simp] theorem asText_text (t : Text) : asText (text t) = t := rfl

@[simp] theorem asText_int (n : Int) : asText (int n) = toString n := rfl

end RowStore.Value
