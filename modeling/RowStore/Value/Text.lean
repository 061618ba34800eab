import RowStore.Number.Shortest
import RowStore.Text.Quoted
import RowStore.Value.Basic

/-!
# The text of a value

`Value.written` is how a value is shown inside other values and in messages: texts are quoted and
containers bracketed. `Value.plain` differs from it on texts, which stand for themselves, and on
dates and times, which have their usual text. Both go on for integers of any size; an integer is really
written only if its numeral is not too long, so a step that needs the text of a value asks for
`Value.hasText` first.
-/

namespace RowStore.Value

/-- Texts joined by a comma and a blank. -/
def commaList (texts : List String) : String := ", ".intercalate texts

/-- A name with arguments in parentheses. -/
def call (name : String) (arguments : List Nat) : String :=
  name ++ "(" ++ commaList (arguments.map toString) ++ ")"

/-- The numbers of a time of day; zero seconds and a zero fraction at the end are left out. -/
def clockNumbers (c : Clock) : List Nat :=
  if c.micro ≠ 0 then [c.hour, c.minute, c.second, c.micro]
  else if c.second ≠ 0 then [c.hour, c.minute, c.second]
  else [c.hour, c.minute]

/-- The numbers of a date. -/
def dateNumbers (d : Date) : List Nat := [d.year, d.month, d.day]

/-- The texts of a tuple's items in parentheses; a single one is followed by a comma. -/
def tupleText : List String → String
  | [one] => "(" ++ one ++ ",)"
  | texts => "(" ++ commaList texts ++ ")"

mutual

/-- The text of a value inside another one. -/
def written : Value → String
  | null => "None"
  | bool b => if b then "True" else "False"
  | int n => toString n
  | real x => x.text
  | text s => Text.quoted s
  | list items => "[" ++ commaList (writtenItems items) ++ "]"
  | tuple items => tupleText (writtenItems items)
  | mapping entries => "\x7b" ++ commaList (writtenEntries entries) ++ "\x7d"
  | moment t => call "datetime.datetime" (dateNumbers t.date ++ clockNumbers t.clock)
  | date d => call "datetime.date" (dateNumbers d)
  | clock c => call "datetime.time" (clockNumbers c)
  | range r => r.written
  | request select conditions order limit offset =>
    "QueryDescriptor(select=" ++ written select ++ ", where=" ++ written conditions ++
      ", order_by=" ++ written order ++ ", limit=" ++ written limit ++
      ", offset=" ++ written offset ++ ")"

def writtenItems : List Value → List String
  | [] => []
  | v :: rest => written v :: writtenItems rest

def writtenEntries : List (Value × Value) → List String
  | [] => []
  | (k, v) :: rest => (written k ++ ": " ++ written v) :: writtenEntries rest

end

/-- The text of a value on its own. -/
def plain : Value → Text
  | text s => s
  | moment t => t.iso
  | date d => d.iso
  | clock c => c.iso
  | v => v.written

/-- The text of a list of values. -/
def writtenList (items : List Value) : String := (list items).written

mutual

/-- Whether a value has a text: no integer in it is too long to be written. -/
def hasText : Value → Bool
  | int n => hasNumeral n
  | list items => haveTexts items
  | tuple items => haveTexts items
  | mapping entries => entriesHaveTexts entries
  | range r => r.hasText
  | request select conditions order limit offset =>
    hasText select && hasText conditions && hasText order && hasText limit && hasText offset
  | _ => true

def haveTexts : List Value → Bool
  | [] => true
  | v :: rest => hasText v && haveTexts rest

def entriesHaveTexts : List (Value × Value) → Bool
  | [] => true
  | (k, v) :: rest => hasText k && hasText v && entriesHaveTexts rest

end

@[simp] theorem hasText_int (n : Int) : (int n).hasText = hasNumeral n := rfl

@[simp] theorem hasText_range (r : Range) : (range r).hasText = hasNumeral r.rowEnd := rfl

@[simp] theorem hasText_mapping (entries : List (Value × Value)) :
    (mapping entries).hasText = entriesHaveTexts entries := rfl

@[simp] theorem hasText_list (items : List Value) : (list items).hasText = haveTexts items := rfl

theorem haveTexts_iff {items : List Value} : haveTexts items = true ↔ ∀ v ∈ items, v.hasText = true := by
  induction items with
  | nil => exact ⟨fun _ _ => nofun, fun _ => rfl⟩
  | cons v rest ih => rw [haveTexts, Bool.and_eq_true, ih, List.forall_mem_cons]

theorem entriesHaveTexts_iff {entries : List (Value × Value)} :
    entriesHaveTexts entries = true ↔ ∀ e ∈ entries, e.1.hasText = true ∧ e.2.hasText = true := by
  induction entries with
  | nil => exact ⟨fun _ _ => nofun, fun _ => rfl⟩
  | cons e rest ih => rw [entriesHaveTexts, Bool.and_eq_true, Bool.and_eq_true, ih, List.forall_mem_cons]

/-- What going through a value gives has texts if the value has one. -/
theorem hasText_of_items? {v : Value} {items : List Value} (h : v.items? = some items) (hv : v.hasText = true) :
    ∀ item ∈ items, item.hasText = true := by
  cases v with
  | list vs =>
    cases h
    exact haveTexts_iff.mp hv
  | tuple vs =>
    cases h
    exact haveTexts_iff.mp hv
  | text t =>
    cases h
    intro item hitem
    obtain ⟨p, -, rfl⟩ := List.mem_map.mp hitem
    rfl
  | mapping entries =>
    cases h
    intro item hitem
    obtain ⟨e, he, rfl⟩ := List.mem_map.mp hitem
    exact (entriesHaveTexts_iff.mp hv e he).1
  | _ => cases h

end RowStore.Value
