import RowStore.Value.Basic

/-!
# Entries in insertion order

An `Entries α` is a list of named values in the order in which the names first came. `insert` keeps
the place of a name that is there already and takes its new value; `find?` looks a name up. Names
are compared with `Value.equals`.
-/

namespace RowStore

/-- Named values, in the order of their names' first insertion. -/
abbrev Entries (α : Type) := List (Value × α)

namespace Entries

variable {α β : Type}

/-- The value of a name. -/
def find? : Entries α → Value → Option α
  | [], _ => none
  | (k, v) :: rest, name => if k.equals name then some v else find? rest name

/-- Whether a name has a value. -/
def has (entries : Entries α) (name : Value) : Bool := (entries.find? name).isSome

/-- Gives a name a value; a new name goes to the end. -/
def insert : Entries α → Value → α → Entries α
  | [], name, value => [(name, value)]
  | (k, v) :: rest, name, value =>
    if k.equals name then (k, value) :: rest else (k, v) :: insert rest name value

/-- Inserts pairs one after another. -/
def ofList (pairs : List (Value × α)) : Entries α :=
  pairs.foldl (fun entries p => insert entries p.1 p.2) []

/-- The value of a name given as text. -/
def findText? (entries : Entries α) (name : Text) : Option α := entries.find? (.text name)

/-- The names, in order. -/
def names (entries : Entries α) : List Value := entries.map (·.1)

@[simp] theorem find?_nil (name : Value) : find? ([] : Entries α) name = none := rfl

end Entries

namespace Value

/-- The value of a name in a mapping; null when the name is missing. -/
def get (entries : Entries Value) (name : Text) : Value :=
  (entries.findText? name).getD .null

end Value

end RowStore
