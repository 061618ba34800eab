/-!
# Calendar dates

A `Date` is a day of the Gregorian calendar in the years 1 to 9999; its fields carry the proof that
the day exists. `Date.of?` checks three integers, and `Date.iso` writes `YYYY-MM-DD`.
-/

namespace RowStore

/-- The decimal digits of a number, padded with zeros to a width. -/
def zeroPadded (width n : Nat) : String :=
  let digits := Nat.toDigits 10 n
  String.ofList (List.replicate (width - digits.length) '0' ++ digits)

/-- Every fourth year, but of the full centuries only every fourth one. -/
def isLeapYear (year : Nat) : Bool :=
  year % 4 == 0 && (year % 100 != 0 || year % 400 == 0)

/-- The number of days of a month, counted from 1. -/
def daysInMonth (year month : Nat) : Nat :=
  if month = 2 then if isLeapYear year then 29 else 28
  else if month = 4 ∨ month = 6 ∨ month = 9 ∨ month = 11 then 30
  else 31

/-- A day of the calendar. -/
structure Date where
  year : Nat
  month : Nat
  day : Nat
  year_pos : 1 ≤ year
  year_le : year ≤ 9999
  month_pos : 1 ≤ month
  month_le : month ≤ 12
  day_pos : 1 ≤ day
  day_le : day ≤ daysInMonth year month
  deriving DecidableEq

namespace Date

/-- The day with these numbers, if there is one. -/
def of? (year month day : Int) : Option Date :=
  if h : (1 ≤ year.toNat ∧ year.toNat ≤ 9999) ∧ (1 ≤ month.toNat ∧ month.toNat ≤ 12) ∧
      1 ≤ day.toNat ∧ day.toNat ≤ daysInMonth year.toNat month.toNat then
    some ⟨year.toNat, month.toNat, day.toNat, h.1.1, h.1.2, h.2.1.1, h.2.1.2, h.2.2.1, h.2.2.2⟩
  else none

/-- `YYYY-MM-DD`. -/
def iso (d : Date) : String :=
  zeroPadded 4 d.year ++ "-" ++ zeroPadded 2 d.month ++ "-" ++ zeroPadded 2 d.day

theorem of?_self (d : Date) : of? d.year d.month d.day = some d := by
  have h := d.year_pos; have h1 := d.year_le; have h2 := d.month_pos
  have h3 := d.month_le; have h4 := d.day_pos; have h5 := d.day_le
  simp [of?, h, h1, h2, h3, h4, h5]

end Date

end RowStore
