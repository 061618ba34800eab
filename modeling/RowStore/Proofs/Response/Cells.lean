import RowStore.Proofs.Fault.Outcome
import RowStore.Proofs.Json.Documents
import RowStore.Proofs.Noted.Gives
import RowStore.Response.Cell

/-!
# Cells written and decoded

* `Datum` : what a cell holds, and `Datum.cell` how the query service sends it: a moment as
  `Date(…)` with months counted from 0, a time of day as a list of numbers;
* `dateOf_dateText`, `timeOf_clockNumbers` : both are read back;
* `decodeCell_cell` : a cell is decoded to the value that it was written from, in a column of a type
  that suits it.
-/

namespace RowStore

theorem daysInMonth_le (year month : Nat) : daysInMonth year month ≤ 31 := by
  unfold daysInMonth
  split
  · split <;> decide
  · split <;> decide

namespace Response

open Json

/-! ## Small numbers -/

/-- Every number of a date or a time of day has a numeral. -/
theorem lt_pow_longestNumeral {n : Nat} (h : n < 10000) : n < 10 ^ longestNumeral :=
  have hfour : 10 ^ 4 ≤ 10 ^ longestNumeral := Nat.pow_le_pow_right (by decide) (by decide)
  Nat.lt_of_lt_of_le h hfour

theorem hasNumeral_of_lt {n : Nat} (h : n < 10000) : hasNumeral n = true :=
  hasNumeral_natCast.mpr (lt_pow_longestNumeral h)

theorem fitsWord_of_lt {n : Int} (h : 0 ≤ n ∧ n < 1000000) : fitsWord n = true := by
  simp only [fitsWord, Bool.and_eq_true, decide_eq_true_eq]
  omega

theorem twoDigits_natCast (n : Nat) : twoDigits n = zeroPadded 2 n := by
  rw [twoDigits, if_neg (by omega), Int.toNat_natCast]

/-! ## Moments -/

/-- The numbers of a moment; months are counted from 0 and the fraction is in milliseconds. -/
def momentNumbers (t : Moment) : List Nat :=
  [t.date.year, t.date.month - 1, t.date.day, t.clock.hour, t.clock.minute, t.clock.second,
    t.clock.micro / 1000]

/-- Numbers with commas between them. -/
def numberList (numbers : List Nat) : List Char := [','].intercalate (numbers.map (Nat.toDigits 10))

/-- `Date(…)`. -/
def dateText (numbers : List Nat) : List Char :=
  ['D', 'a', 't', 'e', '('] ++ (numberList numbers ++ [')'])

theorem momentNumbers_lt (t : Moment) : ∀ n ∈ momentNumbers t, n < 10000 := by
  have hyear := t.date.year_le
  have hmonth := t.date.month_le
  have hday := Nat.le_trans t.date.day_le (daysInMonth_le _ _)
  have hhour := t.clock.hour_lt
  have hminute := t.clock.minute_lt
  have hsecond := t.clock.second_lt
  have hmicro := t.clock.micro_lt
  simp only [momentNumbers, List.forall_mem_cons]
  refine ⟨by omega, by omega, by omega, by omega, by omega, by omega, by omega, ?_⟩
  exact fun n hn => absurd hn List.not_mem_nil

theorem mem_numberList {numbers : List Nat} {c : Char} (h : c ∈ numberList numbers) :
    c = ',' ∨ c.isDigit = true := by
  induction numbers with
  | nil => cases h
  | cons n rest ih =>
    cases rest with
    | nil =>
      rw [numberList, List.map_cons, List.map_nil, List.intercalate_singleton] at h
      exact Or.inr (isDigit_toDigits h)
    | cons m rest =>
      rw [numberList, List.map_cons, List.map_cons, List.intercalate_cons_cons, ← List.map_cons] at h
      simp only [List.mem_append, List.mem_singleton] at h
      rcases h with (h | h) | h
      · exact Or.inr (isDigit_toDigits h)
      · exact Or.inl h
      · exact ih h

theorem isBlank_of_mem_numberList {numbers : List Nat} {c : Char} (h : c ∈ numberList numbers) :
    Text.isBlank c = false := by
  apply Text.isBlank_of_visible
  rcases mem_numberList h with rfl | h
  · decide
  · have := toNat_of_isDigit h
    omega

theorem dateArguments?_dateText (numbers : List Nat) :
    dateArguments? (dateText numbers) = some (numberList numbers) := by
  have hblank : ∀ c ∈ dateText numbers, Text.isBlank c = false := by
    intro c hc
    rcases List.mem_append.mp hc with hc | hc
    · have hword : ['D', 'a', 't', 'e', '('].all (fun c => !Text.isBlank c) = true := by decide
      simpa using List.all_eq_true.mp hword c hc
    · rcases List.mem_append.mp hc with hc | hc
      · exact isBlank_of_mem_numberList hc
      · rw [List.mem_singleton.mp hc]
        decide
  have hreverse : (numberList numbers ++ [')']).reverse = ')' :: (numberList numbers).reverse := by
    rw [List.reverse_append]
    rfl
  rw [dateArguments?, Text.trimBy_of_none hblank]
  simp only [dateText, List.cons_append, List.nil_append, hreverse, List.reverse_reverse]
  rw [Text.trimBy_of_none fun c hc => isBlank_of_mem_numberList hc]

theorem isSignedDigits_toDigits (n : Nat) :
    isSignedDigits (Text.trimBy Text.isBlank (Nat.toDigits 10 n)) = true := by
  have hdigits := isDigits_toDigits n
  have hblank : ∀ c ∈ Nat.toDigits 10 n, Text.isBlank c = false := by
    intro c hc
    have := toNat_of_isDigit (isDigit_toDigits hc)
    exact Text.isBlank_of_visible (by omega)
  rw [Text.trimBy_of_none hblank]
  obtain ⟨c, rest, hcons, hc⟩ := exists_cons_of_isDigits hdigits
  rw [hcons] at hdigits ⊢
  have hall := (isDigits_iff.mp hdigits).2
  rw [isSignedDigits]
  · simpa using fun d hd => Text.isDigit_of_ascii d (hall d hd)
  · intro more hmore
    cases hmore
    exact hc rfl

theorem dateNumerals?_dateText {numbers : List Nat}
    (h : 3 ≤ numbers.length ∧ numbers.length ≤ 7) :
    dateNumerals? (dateText numbers) = some (numbers.map (Nat.toDigits 10)) := by
  have hpieces : Text.pieces ',' (numberList numbers) = numbers.map (Nat.toDigits 10) := by
    apply Text.pieces_intercalate
    · intro hnil
      rw [List.map_eq_nil_iff.mp hnil] at h
      exact absurd h.1 (by decide)
    · intro part hpart hmem
      obtain ⟨n, -, rfl⟩ := List.mem_map.mp hpart
      exact absurd (isDigit_toDigits hmem) (by decide)
  rw [dateNumerals?, dateArguments?_dateText]
  simp only [Option.bind_eq_bind, Option.bind_some, hpieces]
  rw [if_pos]
  refine ⟨by simpa using h.1, by simpa using h.2, ?_⟩
  rw [List.all_map, List.all_eq_true]
  exact fun n _ => isSignedDigits_toDigits n

theorem momentOf_momentNumbers {t : Moment} (h : t.clock.micro % 1000 = 0) :
    momentOf ((momentNumbers t).map Int.ofNat) = .ok (some t) := by
  have hlt := momentNumbers_lt t
  simp only [momentNumbers, List.forall_mem_cons] at hlt
  obtain ⟨hyear, hmonth, hday, hhour, hminute, hsecond, hmillis, -⟩ := hlt
  have hpos := t.date.month_pos
  have hmicro := t.clock.micro_lt
  have hmonths : Int.ofNat (t.date.month - 1) + 1 = t.date.month := by
    simp only [Int.ofNat_eq_natCast]
    omega
  have hmicros : Int.ofNat (t.clock.micro / 1000) * 1000 = t.clock.micro := by
    simp only [Int.ofNat_eq_natCast]
    omega
  have hfits : [Int.ofNat t.date.year, Int.ofNat (t.date.month - 1) + 1, Int.ofNat t.date.day,
      Int.ofNat t.clock.hour, Int.ofNat t.clock.minute, Int.ofNat t.clock.second,
      Int.ofNat (t.clock.micro / 1000) * 1000].all fitsWord = true := by
    rw [hmonths, hmicros, List.all_eq_true]
    simp only [List.forall_mem_cons, Int.ofNat_eq_natCast]
    refine ⟨?_, ?_, ?_, ?_, ?_, ?_, ?_, by simp⟩ <;> exact fitsWord_of_lt (by omega)
  simp only [momentOf, momentNumbers, List.map_cons, List.map_nil, List.cons_append,
    List.nil_append]
  rw [if_pos hfits, hmonths, hmicros]
  exact congrArg Except.ok (Moment.of?_self t)

/-- A moment of whole milliseconds is read back. -/
theorem dateOf_dateText {t : Moment} (h : t.clock.micro % 1000 = 0) :
    dateOf (.text (Text.ofChars (dateText (momentNumbers t)))) = .ok (some t) := by
  have hlength : (momentNumbers t).length = 7 := rfl
  have hseven : 3 ≤ (momentNumbers t).length ∧ (momentNumbers t).length ≤ 7 := by omega
  have hnumerals := dateNumerals?_dateText hseven
  have hread : ((momentNumbers t).map (Nat.toDigits 10)).mapM readInt? =
      some ((momentNumbers t).map Int.ofNat) := by
    rw [List.mapM_map]
    exact mapM_eq_pure fun n hn => readInt?_toDigits (lt_pow_longestNumeral (momentNumbers_lt t n hn))
  rw [dateOf, Text.chars?_ofChars, Option.bind_some, hnumerals]
  dsimp only
  rw [hread]
  exact momentOf_momentNumbers h

/-! ## Times of day -/

/-- The numbers of a time of day; the fraction is in milliseconds. -/
def clockNumbers (c : Clock) : List Nat := [c.hour, c.minute, c.second, c.micro / 1000]

theorem timeOf_clockNumbers (c : Clock) :
    timeOf (.list ((clockNumbers c).map fun n => .int n)) = .ok (some c.seconds) := by
  change Except.ok (some (twoDigits c.hour ++ ":" ++ twoDigits c.minute ++ ":" ++
    twoDigits c.second)) = _
  rw [twoDigits_natCast, twoDigits_natCast, twoDigits_natCast]
  rfl

/-! ## Cells -/

/-- What a cell holds. -/
inductive Datum
  | null
  | bool (b : Bool)
  | int (n : Int) (short : hasNumeral n = true)
  | text (s : Str)
  /-- A moment of whole milliseconds. -/
  | moment (t : Moment) (whole : t.clock.micro % 1000 = 0)
  | clock (c : Clock)

namespace Datum

/-- The value that stands for it in a record. -/
def value : Datum → Value
  | null => .null
  | bool b => .bool b
  | int n _ => .int n
  | text s => .text s.text
  | moment t _ => .moment t
  | clock c => .text c.seconds

/-- The columns that may hold it. -/
def Suits : Datum → TypeTag → Prop
  | null, _ => True
  | moment .., type => type = .date ∨ type = .datetime
  | clock _, type => type = .timeofday
  | _, type => type ≠ .date ∧ type ≠ .datetime ∧ type ≠ .timeofday

/-- A small number in a document. -/
def number (n : Nat) (h : n < 10000) : Document := .int n (hasNumeral_of_lt h)

/-- The cell that holds it. -/
def cell : Datum → Document
  | null => .null
  | bool b => .object [("v", .bool b)]
  | int n short => .object [("v", .int n short)]
  | text s => .object [("v", .text s)]
  | moment t _ => .object [("v", .text (.ofChars (dateText (momentNumbers t))))]
  | clock c => .object [("v", .list [
      number c.hour (Nat.lt_trans c.hour_lt (by decide)),
      number c.minute (Nat.lt_trans c.minute_lt (by decide)),
      number c.second (Nat.lt_trans c.second_lt (by decide)),
      number (c.micro / 1000) (Nat.lt_of_le_of_lt
        (Nat.div_le_div_right (Nat.le_of_lt c.micro_lt)) (by decide))])]

end Datum

section
variable {type : TypeTag} {v : Value}

/-- A value in a column of a type that leaves it as it is. -/
theorem decodeCell_plain (hv : v ≠ .null)
    (h : type ≠ .date ∧ type ≠ .datetime ∧ type ≠ .timeofday) :
    (decodeCell (.mapping [(.text "v", v)]) type).Gives (.ok v) := by
  obtain ⟨hdate, hdatetime, htime⟩ := h
  have hget : Value.get [(.text "v", v)] "v" = v := rfl
  rw [decodeCell, hget]
  split
  · exact absurd rfl hv
  · split
    · exact absurd rfl hdate
    · exact absurd rfl hdatetime
    · exact absurd rfl htime
    · exact Noted.gives_pure v

theorem decodeCell_date {t : Moment} (hv : dateOf v = .ok (some t))
    (h : type = .date ∨ type = .datetime) :
    (decodeCell (.mapping [(.text "v", v)]) type).Gives (.ok (.moment t)) := by
  have hget : Value.get [(.text "v", v)] "v" = v := rfl
  have hlift : (liftM (dateOf v) : Noted (Option Moment)).Gives (.ok (some t)) :=
    hv ▸ Noted.gives_liftExcept _
  rw [decodeCell, hget]
  split
  · cases hv
  · rcases h with rfl | rfl <;> exact hlift.bind_ok (Noted.gives_pure _)

theorem decodeCell_time {s : String} (hv : timeOf v = .ok (some s)) :
    (decodeCell (.mapping [(.text "v", v)]) .timeofday).Gives (.ok (.text s)) := by
  have hget : Value.get [(.text "v", v)] "v" = v := rfl
  have hlift : (liftM (timeOf v) : Noted (Option String)).Gives (.ok (some s)) :=
    hv ▸ Noted.gives_liftExcept _
  rw [decodeCell, hget]
  split
  · cases hv
  · exact hlift.bind_ok (Noted.gives_pure _)

/-- A cell is decoded to what it was written from. -/
theorem decodeCell_cell (d : Datum) (h : d.Suits type) :
    (decodeCell d.cell.value type).Gives (.ok d.value) := by
  cases d with
  | null => exact Noted.gives_pure Value.null
  | bool b => exact decodeCell_plain nofun h
  | int n short => exact decodeCell_plain nofun h
  | text s => exact decodeCell_plain nofun h
  | moment t whole => exact decodeCell_date (dateOf_dateText whole) h
  | clock c =>
    cases h
    exact decodeCell_time (timeOf_clockNumbers c)

end

end Response

end RowStore
