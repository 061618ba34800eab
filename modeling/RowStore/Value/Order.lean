import RowStore.Value.Basic

/-!
# The order of values

Numbers are ordered by value, texts by the numbers of their code points, dates and times by the
calendar, and lists and tuples by their first items that differ. Values of different kinds cannot be
compared: `Value.precedes?` gives nothing for them. `sorted?` sorts values of which any two can be
compared.
-/

namespace RowStore

/-- Whether one sequence of numbers comes before another. -/
def numbersBefore (xs ys : List Nat) : Bool := decide (xs < ys)

/-- Whether one day comes before another. -/
def Date.isBefore (d e : Date) : Bool :=
  numbersBefore [d.year, d.month, d.day] [e.year, e.month, e.day]

/-- Whether one time of day comes before another. -/
def Clock.isBefore (c d : Clock) : Bool :=
  numbersBefore [c.hour, c.minute, c.second, c.micro] [d.hour, d.minute, d.second, d.micro]

/-- Whether one moment comes before another. -/
def Moment.isBefore (t u : Moment) : Bool :=
  t.date.isBefore u.date || (t.date == u.date && t.clock.isBefore u.clock)

namespace Value

/-- Where a number stands among all numbers; a NaN stands nowhere. -/
def place? : Value → Option (Int × Int)
  | real x => x.place?
  | v => v.integer?.map fun n => (0, n * Binary64.unitsPerOne)

/-- Whether one place lies before another. -/
def placeBefore (p q : Int × Int) : Bool := p.1 < q.1 || (p.1 == q.1 && p.2 < q.2)

/-- Whether one number is less than another; with a NaN, nothing is. -/
def isLess (v w : Value) : Bool :=
  match v.place?, w.place? with
  | some p, some q => placeBefore p q
  | _, _ => false

/-- Whether two numbers are equal; a NaN is not equal to itself. -/
def standsAt (v w : Value) : Bool :=
  match v.place?, w.place? with
  | some p, some q => p == q
  | _, _ => false

mutual

/-- Whether one value comes before another, if they can be compared. -/
def precedes? : Value → Value → Option Bool
  | text s, w => match w with
    | text t => some (numbersBefore (s.map CodePoint.number) (t.map CodePoint.number))
    | _ => none
  | list xs, w => match w with
    | list ys => itemsPrecede? xs ys
    | _ => none
  | tuple xs, w => match w with
    | tuple ys => itemsPrecede? xs ys
    | _ => none
  | moment t, w => match w with
    | moment u => some (t.isBefore u)
    | _ => none
  | date d, w => match w with
    | date e => some (d.isBefore e)
    | _ => none
  | clock c, w => match w with
    | clock d => some (c.isBefore d)
    | _ => none
  | v, w => if v.isNumber && w.isNumber then some (v.isLess w) else none

/-- The order of the first items that differ; a list comes before its continuations. -/
def itemsPrecede? : List Value → List Value → Option Bool
  | [], ys => some (!ys.isEmpty)
  | x :: xs, ys => match ys with
    | [] => some false
    | y :: ys => if x.equals y then itemsPrecede? xs ys else precedes? x y

end

/-- Whether any two of these values can be compared. -/
def areComparable (vs : List Value) : Bool :=
  vs.all fun v => vs.all fun w => (v.precedes? w).isSome

/-- The values in ascending order, if any two of them can be compared; equal ones keep their order. -/
def sorted? (vs : List Value) : Option (List Value) :=
  if vs.length ≤ 1 then some vs
  else if areComparable vs then some (vs.mergeSort fun v w => w.precedes? v != some true)
  else none

end Value

end RowStore
