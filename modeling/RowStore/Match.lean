import RowStore.Session
import RowStore.Value.Cell

/-!
# Rows that match

Changes act on rows of the sheet itself, so the rows are found by comparing cells: a row matches when
for every condition on a known header its cell has the text of the expected value, and a cell that is
missing has the empty text. `Match.positions` gives the positions of the matching rows in ascending
order. A row may be any sequence of cells; one that is none is a fault once the search comes to it.
-/

namespace RowStore.Match

/-- A condition on the cell at a position. -/
structure Test where
  position : Nat
  text : Text

/-- The cell at a position of a row, or null beyond its end. In a mapping it stands under its
position. -/
def cellAt (row : Value) (position : Nat) : Except Fault Value :=
  match row with
  | .mapping entries =>
    if position < entries.length then
      Value.expected (Entries.find? entries (.int position))
    else .ok .null
  | row => do return (Row.cell? (← row.each) position).getD .null

/-- Whether a row passes a test. -/
def Test.holds (t : Test) (row : Value) : Except Fault Bool := do
  return (← cellAt row t.position).asText == t.text

/-- The test of a condition, whose value has to have a text; a header that is not known leaves a note. -/
def test? (columns : Columns) (header expected : Value) : Noted (Option Test) :=
  match columns.positions.find? header with
  | some position => return some ⟨position, ← expected.comparedText⟩
  | none => do
    Noted.note .warning ("Dropping unknown column " ++ header.written ++ " from conditions")
    return none

/-- The tests of all conditions. -/
def tests (columns : Columns) (conditions : Entries Value) : Noted (List Test) :=
  conditions.filterMapM fun e => test? columns e.1 e.2

/-- Whether a row passes all tests; the tests after one that it does not pass are not made. -/
def holds (row : Value) : List Test → Except Fault Bool
  | [] => .ok true
  | t :: rest => do if ← t.holds row then holds row rest else return false

/-- The positions of the rows that pass all tests, where the first row has a given position. The
search may end with the first of them. -/
def positionsFrom (ts : List Test) (firstOnly : Bool) (position : Nat) :
    List Value → Except Fault (List Nat)
  | [] => .ok []
  | row :: rest => do
    if ← holds row ts then
      if firstOnly then return [position]
      else return position :: (← positionsFrom ts firstOnly (position + 1) rest)
    else positionsFrom ts firstOnly (position + 1) rest

/-- The positions of the matching rows; the rows are read only if there is something to compare. -/
def positions (columns : Option Columns) (read : Act (List Value)) (conditions : Value)
    (firstOnly : Bool) : Act (List Nat) := do
  if conditions.isBlank then
    Act.note .warning "Refusing to match rows without conditions"
    return []
  match columns.filter (!·.isEmpty) with
  | none =>
    Act.note .warning "Column metadata unavailable; no rows matched"
    return []
  | some columns =>
    let entries : Entries Value ← conditions.expectEntries
    let ts ← tests columns entries
    if ts.isEmpty then
      Act.note .warning ("None of the condition columns " ++ Value.writtenList entries.names ++
        " exist; no rows matched")
      return []
    positionsFrom ts firstOnly 0 (← read)

/-! ## Rows of cells -/

/-- Whether a row of cells passes a test. -/
def Test.passes (t : Test) (row : Row) : Bool :=
  ((row.cell? t.position).getD .null).asText == t.text

/-- Whether a row of cells passes all tests. -/
def passes (ts : List Test) (row : Row) : Bool := ts.all (·.passes row)

@[simp] theorem holds_list (row : Row) (ts : List Test) :
    holds (.list row) ts = .ok (passes ts row) := by
  induction ts with
  | nil => rfl
  | cons t rest ih =>
    have h : t.holds (.list row) = .ok (t.passes row) := rfl
    rw [holds, h, passes, List.all_cons]
    cases t.passes row with
    | false => rfl
    | true => exact ih

/-- Among rows of cells the search gives the positions of those that pass. -/
theorem positionsFrom_all (ts : List Test) (position : Nat) (rows : Rows) :
    positionsFrom ts false position (rows.map .list) =
      .ok (((rows.zipIdx position).filter fun p => passes ts p.1).map (·.2)) := by
  induction rows generalizing position with
  | nil => rfl
  | cons row rest ih =>
    simp only [List.map_cons, positionsFrom, holds_list, ih, List.zipIdx_cons, List.filter_cons]
    cases passes ts row <;> rfl

/-- The first of them is found when only one is wanted. -/
theorem positionsFrom_first (ts : List Test) (position : Nat) (rows : Rows) :
    positionsFrom ts true position (rows.map .list) =
      .ok ((((rows.zipIdx position).filter fun p => passes ts p.1).map (·.2)).take 1) := by
  induction rows generalizing position with
  | nil => rfl
  | cons row rest ih =>
    simp only [List.map_cons, positionsFrom, holds_list, ih, List.zipIdx_cons, List.filter_cons]
    cases passes ts row <;> rfl

end RowStore.Match
