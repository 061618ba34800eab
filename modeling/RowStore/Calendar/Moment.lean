import RowStore.Calendar.Date

/-!
# Times of day and moments

A `Clock` is a time of day to the microsecond and a `Moment` a date with one; neither has a time
zone. `iso` is the usual text of each; the fraction of a second is written with six digits when it
is not zero.
-/

namespace RowStore

/-- A time of day. -/
structure Clock where
  hour : Nat
  minute : Nat
  second : Nat
  micro : Nat
  hour_lt : hour < 24
  minute_lt : minute < 60
  second_lt : second < 60
  micro_lt : micro < 1000000
  deriving DecidableEq

/-- A time of day on a date. -/
structure Moment where
  date : Date
  clock : Clock
  deriving DecidableEq

namespace Clock

/-- The time of day with these numbers, if there is one. -/
def of? (hour minute second micro : Int) : Option Clock :=
  if h : (0 ≤ hour ∧ hour.toNat < 24) ∧ (0 ≤ minute ∧ minute.toNat < 60) ∧
      (0 ≤ second ∧ second.toNat < 60) ∧ 0 ≤ micro ∧ micro.toNat < 1000000 then
    some ⟨hour.toNat, minute.toNat, second.toNat, micro.toNat,
      h.1.2, h.2.1.2, h.2.2.1.2, h.2.2.2.2⟩
  else none

/-- `HH:MM:SS`. -/
def seconds (c : Clock) : String :=
  zeroPadded 2 c.hour ++ ":" ++ zeroPadded 2 c.minute ++ ":" ++ zeroPadded 2 c.second

/-- `HH:MM:SS`, followed by `.ffffff` when there is a fraction. -/
def iso (c : Clock) : String :=
  if c.micro = 0 then c.seconds else c.seconds ++ "." ++ zeroPadded 6 c.micro

theorem of?_self (c : Clock) : of? c.hour c.minute c.second c.micro = some c := by
  have h := c.hour_lt; have h1 := c.minute_lt; have h2 := c.second_lt; have h3 := c.micro_lt
  simp [of?, h, h1, h2, h3]

end Clock

namespace Moment

/-- The moment with these numbers, if there is one. -/
def of? (year month day hour minute second micro : Int) : Option Moment := do
  let date ← Date.of? year month day
  let clock ← Clock.of? hour minute second micro
  some ⟨date, clock⟩

/-- `YYYY-MM-DD HH:MM:SS`, followed by `.ffffff` when there is a fraction. -/
def iso (t : Moment) : String := t.date.iso ++ " " ++ t.clock.iso

/-- The text of a cell: whole seconds, and a year without padding. -/
def cellText (t : Moment) : String :=
  toString t.date.year ++ "-" ++ zeroPadded 2 t.date.month ++ "-" ++ zeroPadded 2 t.date.day ++
    " " ++ t.clock.seconds

theorem of?_self (t : Moment) :
    of? t.date.year t.date.month t.date.day t.clock.hour t.clock.minute t.clock.second
      t.clock.micro = some t := by
  simp [of?, Date.of?_self, Clock.of?_self]

end Moment

end RowStore
