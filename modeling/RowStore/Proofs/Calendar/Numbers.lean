import RowStore.Calendar.Moment

/-!
# Moments and their numbers

* `Date.of?_eq_some_iff`, `Clock.of?_eq_some_iff`, `Moment.of?_eq_some_iff` : there is a moment with some numbers
  iff they are its own;
* `Moment.HasNumbers` : the year, the month counted from 0, and so on down to the milliseconds of a moment;
* `exists_hasNumbers_iff` : there is such a moment iff the numbers keep within the calendar (`InCalendar`).
-/

namespace RowStore

theorem Date.of?_eq_some_iff {year month day : Int} {d : Date} : Date.of? year month day = some d ↔
    (d.year : Int) = year ∧ (d.month : Int) = month ∧ (d.day : Int) = day := by
  constructor
  · intro h
    rw [Date.of?] at h
    split at h
    · rename_i hvalid
      cases h
      refine ⟨?_, ?_, ?_⟩ <;> exact Int.toNat_of_nonneg (by omega)
    · cases h
  · rintro ⟨rfl, rfl, rfl⟩
    exact d.of?_self

theorem Clock.of?_eq_some_iff {hour minute second micro : Int} {c : Clock} :
    Clock.of? hour minute second micro = some c ↔ (c.hour : Int) = hour ∧ (c.minute : Int) = minute ∧
      (c.second : Int) = second ∧ (c.micro : Int) = micro := by
  constructor
  · intro h
    rw [Clock.of?] at h
    split at h
    · rename_i hvalid
      cases h
      refine ⟨?_, ?_, ?_, ?_⟩ <;> exact Int.toNat_of_nonneg (by omega)
    · cases h
  · rintro ⟨rfl, rfl, rfl, rfl⟩
    exact c.of?_self

namespace Moment

theorem of?_eq_some_iff {year month day hour minute second micro : Int} {m : Moment} :
    of? year month day hour minute second micro = some m ↔
      ((m.date.year : Int) = year ∧ (m.date.month : Int) = month ∧ (m.date.day : Int) = day) ∧
      (m.clock.hour : Int) = hour ∧ (m.clock.minute : Int) = minute ∧ (m.clock.second : Int) = second ∧
        (m.clock.micro : Int) = micro := by
  rw [← Date.of?_eq_some_iff, ← Clock.of?_eq_some_iff]
  constructor
  · intro h
    obtain ⟨date, hdate, h⟩ := Option.bind_eq_some_iff.mp h
    obtain ⟨clock, hclock, h⟩ := Option.bind_eq_some_iff.mp h
    cases h
    exact ⟨hdate, hclock⟩
  · rintro ⟨hdate, hclock⟩
    rw [of?, hdate, hclock]
    rfl

/-- The numbers of a moment: months are counted from 0, the fraction is in milliseconds, and missing numbers
are zero. -/
structure HasNumbers (m : Moment) (numbers : List Int) : Prop where
  year : (m.date.year : Int) = numbers.getD 0 0
  month : (m.date.month : Int) = numbers.getD 1 0 + 1
  day : (m.date.day : Int) = numbers.getD 2 0
  hour : (m.clock.hour : Int) = numbers.getD 3 0
  minute : (m.clock.minute : Int) = numbers.getD 4 0
  second : (m.clock.second : Int) = numbers.getD 5 0
  micro : (m.clock.micro : Int) = numbers.getD 6 0 * 1000

end Moment

/-- Numbers that keep within the calendar. -/
structure InCalendar (numbers : List Int) : Prop where
  year : 1 ≤ numbers.getD 0 0 ∧ numbers.getD 0 0 ≤ 9999
  month : 0 ≤ numbers.getD 1 0 ∧ numbers.getD 1 0 ≤ 11
  day : 1 ≤ numbers.getD 2 0 ∧
    numbers.getD 2 0 ≤ daysInMonth (numbers.getD 0 0).toNat (numbers.getD 1 0 + 1).toNat
  hour : 0 ≤ numbers.getD 3 0 ∧ numbers.getD 3 0 < 24
  minute : 0 ≤ numbers.getD 4 0 ∧ numbers.getD 4 0 < 60
  second : 0 ≤ numbers.getD 5 0 ∧ numbers.getD 5 0 < 60
  millis : 0 ≤ numbers.getD 6 0 ∧ numbers.getD 6 0 ≤ 999

/-- There is a moment with these numbers iff they keep within the calendar. -/
theorem exists_hasNumbers_iff {numbers : List Int} :
    (∃ m : Moment, m.HasNumbers numbers) ↔ InCalendar numbers := by
  constructor
  · rintro ⟨⟨date, clock⟩, h⟩
    have hyear := h.year
    have hmonth := h.month
    have hday := h.day
    have hhour := h.hour
    have hminute := h.minute
    have hsecond := h.second
    have hmicro := h.micro
    dsimp only at hyear hmonth hday hhour hminute hsecond hmicro
    have hyears := date.year_le
    have hmonths := date.month_le
    have hhours := clock.hour_lt
    have hminutes := clock.minute_lt
    have hseconds := clock.second_lt
    have hmicros := clock.micro_lt
    have hdays := date.day_le
    have hpos := And.intro date.year_pos (And.intro date.month_pos date.day_pos)
    have hlength : daysInMonth (numbers.getD 0 0).toNat (numbers.getD 1 0 + 1).toNat =
        daysInMonth date.year date.month := by
      rw [← hyear, ← hmonth, Int.toNat_natCast, Int.toNat_natCast]
    refine ⟨by omega, by omega, ?_, by omega, by omega, by omega, by omega⟩
    rw [hlength]
    omega
  · intro h
    obtain ⟨⟨hy, hy'⟩, ⟨hmo, hmo'⟩, ⟨hd, hd'⟩, ⟨hh, hh'⟩, ⟨hmi, hmi'⟩, ⟨hs, hs'⟩, hms, hms'⟩ := h
    refine ⟨⟨⟨(numbers.getD 0 0).toNat, (numbers.getD 1 0 + 1).toNat, (numbers.getD 2 0).toNat, by omega,
      by omega, by omega, by omega, by omega, by omega⟩, ⟨(numbers.getD 3 0).toNat, (numbers.getD 4 0).toNat,
      (numbers.getD 5 0).toNat, (numbers.getD 6 0 * 1000).toNat, by omega, by omega, by omega, by omega⟩⟩, ?_⟩
    constructor <;> dsimp only <;> omega

end RowStore
