import RowStore.Address.Range
import RowStore.Calendar.Moment
import RowStore.Number.Binary64

/-!
# Values

What a record's field, a cell, an option or a decoded answer may hold. `Value.equals` compares
numbers by value, so `1`, `1.0` and `true` are equal, and mappings without regard to order.
`isKey` says which values may name an entry of a mapping.
-/

namespace RowStore

/-- A dynamic value; the entries of a mapping keep the order in which they were inserted. -/
inductive Value
  | null
  | bool (b : Bool)
  | int (n : Int)
  | real (x : Binary64)
  | text (t : Text)
  | list (items : List Value)
  | tuple (items : List Value)
  | mapping (entries : List (Value × Value))
  | moment (t : Moment)
  | date (d : Date)
  | clock (c : Clock)
  | range (r : Range)
  /-- A read request, part by part. -/
  | request (select conditions order limit offset : Value)
  deriving Inhabited

namespace Value

/-- The integer that a number counts as: an integer or a boolean. -/
def integer? : Value → Option Int
  | bool b => some (if b then 1 else 0)
  | int n => some n
  | _ => none

/-- Whether a value is a number: an integer, a boolean or a double. -/
def isNumber : Value → Bool
  | bool _ => true
  | int _ => true
  | real _ => true
  | _ => false

/-- Equality of two numbers by value. -/
def numbersEqual (v w : Value) : Bool :=
  match v.integer?, w.integer? with
  | some m, some n => m == n
  | some m, none => match w with
    | real y => y.equalsInt m
    | _ => false
  | none, some n => match v with
    | real x => x.equalsInt n
    | _ => false
  | none, none => match v, w with
    | real x, real y => x.equals y
    | _, _ => false

mutual

/-- Equality by value. -/
def equals : Value → Value → Bool
  | null, w => match w with
    | null => true
    | _ => false
  | text s, w => match w with
    | text t => s == t
    | _ => false
  | list xs, w => match w with
    | list ys => equalItems xs ys
    | _ => false
  | tuple xs, w => match w with
    | tuple ys => equalItems xs ys
    | _ => false
  | mapping xs, w => match w with
    | mapping ys => xs.length == ys.length && entriesWithin xs ys
    | _ => false
  | moment t, w => match w with
    | moment u => t == u
    | _ => false
  | date d, w => match w with
    | date e => d == e
    | _ => false
  | clock c, w => match w with
    | clock d => c == d
    | _ => false
  | range r, w => match w with
    | range q => r == q
    | _ => false
  | request s c o l f, w => match w with
    | request s' c' o' l' f' =>
      equals s s' && equals c c' && equals o o' && equals l l' && equals f f'
    | _ => false
  | v, w => numbersEqual v w

/-- Equality item by item. -/
def equalItems : List Value → List Value → Bool
  | [], ys => ys.isEmpty
  | x :: xs, ys => match ys with
    | [] => false
    | y :: ys => equals x y && equalItems xs ys

/-- Every entry of the first list has an equal one in the second. -/
def entriesWithin : List (Value × Value) → List (Value × Value) → Bool
  | [], _ => true
  | (k, v) :: rest, ys =>
    (ys.any fun e => equals k e.1 && equals v e.2) && entriesWithin rest ys

end

mutual

/-- Whether a value may name an entry: anything but a list, a mapping, a range or a request, also
inside a tuple. -/
def isKey : Value → Bool
  | list _ => false
  | mapping _ => false
  | range _ => false
  | request .. => false
  | tuple items => areKeys items
  | _ => true

def areKeys : List Value → Bool
  | [] => true
  | v :: rest => isKey v && areKeys rest

end

/-- The values that count as nothing given: null, false, zero, and whatever is empty. -/
def isBlank : Value → Bool
  | null => true
  | bool b => !b
  | int n => n == 0
  | real x => x.isFinite && x.units == 0
  | text t => t.isEmpty
  | list items => items.isEmpty
  | tuple items => items.isEmpty
  | mapping entries => entries.isEmpty
  | _ => false

/-- The name of a value's type, as messages give it. -/
def typeName : Value → String
  | null => "NoneType"
  | bool _ => "bool"
  | int _ => "int"
  | real _ => "float"
  | text _ => "str"
  | list _ => "list"
  | tuple _ => "tuple"
  | mapping _ => "dict"
  | moment _ => "datetime"
  | date _ => "date"
  | clock _ => "time"
  | range _ => "Range"
  | request .. => "QueryDescriptor"

/-- The code points of a text, each as a text. -/
def points (t : Text) : List Value := t.map fun p => text [p]

/-- The values that going through this one gives: items, code points, or the keys of a mapping. -/
def items? : Value → Option (List Value)
  | list items => some items
  | tuple items => some items
  | text t => some (points t)
  | mapping entries => some (entries.map (·.1))
  | _ => none

/-- How many items or code points a value has, if it has such. -/
def size? : Value → Option Nat
  | list items => some items.length
  | tuple items => some items.length
  | text t => some t.length
  | mapping entries => some entries.length
  | _ => none

/-- A number increased by an integer. -/
def plusInt? (v : Value) (n : Int) : Option Value :=
  match v with
  | real x => some (real (x.plusInt n))
  | v => v.integer?.map fun m => int (m + n)

def isNull : Value → Bool
  | null => true
  | _ => false

/-- The text of a value that is one. -/
def text? : Value → Option Text
  | text t => some t
  | _ => none

/-- The entries of a value that is a mapping. -/
def entries? : Value → Option (List (Value × Value))
  | mapping entries => some entries
  | _ => none

end Value

end RowStore
