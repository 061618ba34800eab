import RowStore.Proofs.Noted.Gives
import RowStore.Response.Cell

/-!
# Cells that cannot be decoded

A cell that does not have the form of its column's type is no failure: its display text is taken. But
a date may be so long or so large that its numbers cannot be held, and a time of day may be infinite.

* `DateOverflows`, `TimeOverflows` : the values of that kind, and `Illegible type v` for a value in a
  column of a type;
* `dateOf_fails_iff`, `timeOf_fails_iff` : they are the ones on which the decoders fail;
* `failsIff_decodeCell` : a cell cannot be decoded iff its value is illegible.
-/

namespace RowStore

namespace Response

variable {type : TypeTag} {v : Value}

/-! ## Dates -/

/-- The numbers of a date fit: months are counted from 1 and milliseconds turned into microseconds
before they are held in a word each. -/
def FitWords : List Int → Prop
  | year :: month :: rest =>
    fitsWord year = true ∧ fitsWord (month + 1) = true ∧ (∀ n ∈ rest.take 4, fitsWord n = true) ∧
      ∀ millis ∈ rest[4]?, fitsWord (millis * 1000) = true
  | _ => True

/-- A date of which a numeral cannot be read or a number does not fit. -/
def DateOverflows (v : Value) : Prop :=
  ∃ t cs numerals, v = .text t ∧ t.chars? = some cs ∧ dateNumerals? cs = some numerals ∧
    ∀ numbers, numerals.mapM readInt? = some numbers → ¬ FitWords numbers

theorem length_dateNumerals? {cs : List Char} {numerals : List (List Char)}
    (h : dateNumerals? cs = some numerals) : 3 ≤ numerals.length ∧ numerals.length ≤ 7 := by
  rw [dateNumerals?] at h
  obtain ⟨inner, -, h⟩ := Option.bind_eq_some_iff.mp h
  dsimp only at h
  split at h
  · rename_i hlength
    cases h
    exact ⟨hlength.1, hlength.2.1⟩
  · cases h

theorem fails_ite_iff {α : Type} {b : Bool} {a : α} {fault : Fault} :
    (∃ f, (if b then Except.ok a else .error fault) = .error f) ↔ b = false := by
  cases b with
  | false => exact iff_of_true ⟨fault, rfl⟩ rfl
  | true => exact iff_of_false (fun ⟨_, h⟩ => nomatch h) nofun

theorem length_of_mapM {α β : Type} {f : α → Option β} {as : List α} {bs : List β}
    (h : as.mapM f = some bs) : bs.length = as.length := by
  induction as generalizing bs with
  | nil =>
    cases h
    rfl
  | cons a rest ih =>
    rw [List.mapM_cons] at h
    obtain ⟨b, -, h⟩ := Option.bind_eq_some_iff.mp h
    obtain ⟨more, hmore, h⟩ := Option.bind_eq_some_iff.mp h
    cases h
    rw [List.length_cons, List.length_cons, ih hmore]

/-- The calendar is given numbers that fit, or it overflows. -/
theorem momentOf_fails_iff {numbers : List Int} (h : 3 ≤ numbers.length ∧ numbers.length ≤ 7) :
    (∃ fault, momentOf numbers = .error fault) ↔ ¬ FitWords numbers := by
  have hzero : fitsWord 0 = true := by decide
  -- one case for each number of missing parts, which count as zero
  rcases numbers with _ | ⟨year, _ | ⟨month, _ | ⟨day, _ | ⟨hour, _ | ⟨minute, _ | ⟨second, _ |
    ⟨millis, _ | ⟨more, rest⟩⟩⟩⟩⟩⟩⟩⟩
  all_goals simp only [List.length_cons, List.length_nil] at h
  iterate 3 exact absurd h.1 (by decide)
  iterate 5
    simp only [momentOf, List.cons_append, List.nil_append, fails_ite_iff]
    simp [FitWords, hzero, ← Bool.not_eq_true]
  omega

theorem dateOf_fails_iff : (∃ fault, dateOf v = .error fault) ↔ DateOverflows v := by
  constructor
  · rintro ⟨fault, h⟩
    unfold dateOf at h
    split at h
    · rename_i t
      split at h
      · cases h
      · rename_i numerals hnumerals
        obtain ⟨cs, hcs, hnumerals⟩ := Option.bind_eq_some_iff.mp hnumerals
        refine ⟨t, cs, numerals, rfl, hcs, hnumerals, fun numbers hnumbers => ?_⟩
        rw [hnumbers] at h
        have hlength := length_dateNumerals? hnumerals
        rw [← length_of_mapM hnumbers] at hlength
        exact (momentOf_fails_iff hlength).mp ⟨fault, h⟩
    · cases h
  · rintro ⟨t, cs, numerals, rfl, hcs, hnumerals, hfit⟩
    rw [dateOf, hcs, Option.bind_some, hnumerals]
    dsimp only
    cases hnumbers : numerals.mapM readInt? with
    | none => exact ⟨.malformed, rfl⟩
    | some numbers =>
      have hlength := length_dateNumerals? hnumerals
      rw [← length_of_mapM hnumbers] at hlength
      exact (momentOf_fails_iff hlength).mpr (hfit numbers hnumbers)

/-! ## Times of day -/

/-- An infinity that only whole numbers stand before. -/
def ReachesInfinity : List Value → Prop
  | [] => False
  | v :: rest => (∃ negative, v = .real (.infinite negative)) ∨
    ((∃ n, wholeOf v = .ok (some n)) ∧ ReachesInfinity rest)

/-- A time of day with an infinite hour, minute or second. -/
def TimeOverflows (v : Value) : Prop :=
  ∃ items, (v = .list items ∨ v = .tuple items) ∧ (items.length = 3 ∨ items.length = 4) ∧
    ReachesInfinity (items.take 3)

theorem wholeOf_fails_iff : (∃ fault, wholeOf v = .error fault) ↔
    ∃ negative, v = .real (.infinite negative) := by
  cases v with
  | real x =>
    cases x with
    | infinite negative => exact iff_of_true ⟨_, rfl⟩ ⟨negative, rfl⟩
    | _ => exact iff_of_false (fun ⟨_, h⟩ => nomatch h) fun ⟨_, h⟩ => nomatch h
  | _ => exact iff_of_false (fun ⟨_, h⟩ => nomatch h) fun ⟨_, h⟩ => nomatch h

section
variable {rest : List Value}

theorem reachesInfinity_of_error {fault : Fault} (h : wholeOf v = .error fault) :
    ReachesInfinity (v :: rest) := Or.inl (wholeOf_fails_iff.mp ⟨fault, h⟩)

theorem not_reachesInfinity_of_none (h : wholeOf v = .ok none) : ¬ ReachesInfinity (v :: rest) := by
  rintro (⟨negative, rfl⟩ | ⟨⟨n, hn⟩, -⟩)
  · cases h
  · rw [h] at hn
    cases hn

theorem reachesInfinity_of_some {n : Int} (h : wholeOf v = .ok (some n)) :
    ReachesInfinity (v :: rest) ↔ ReachesInfinity rest := by
  constructor
  · rintro (⟨negative, rfl⟩ | ⟨-, hrest⟩)
    · cases h
    · exact hrest
  · exact fun hrest => Or.inr ⟨⟨n, h⟩, hrest⟩

end

theorem ofNumbers_fails_iff {hour minute second : Value} :
    (∃ fault, timeOf.ofNumbers hour minute second = .error fault) ↔
      ReachesInfinity [hour, minute, second] := by
  rw [timeOf.ofNumbers]
  rcases hhour : wholeOf hour with fault | _ | h
  · exact iff_of_true ⟨fault, rfl⟩ (reachesInfinity_of_error hhour)
  · exact iff_of_false (fun ⟨_, h⟩ => nomatch h) (not_reachesInfinity_of_none hhour)
  · rw [reachesInfinity_of_some hhour]
    rcases hminute : wholeOf minute with fault | _ | m
    · exact iff_of_true ⟨fault, rfl⟩ (reachesInfinity_of_error hminute)
    · exact iff_of_false (fun ⟨_, h⟩ => nomatch h) (not_reachesInfinity_of_none hminute)
    · rw [reachesInfinity_of_some hminute]
      rcases hsecond : wholeOf second with fault | _ | s
      · exact iff_of_true ⟨fault, rfl⟩ (reachesInfinity_of_error hsecond)
      · exact iff_of_false (fun ⟨_, h⟩ => nomatch h) (not_reachesInfinity_of_none hsecond)
      · exact iff_of_false (fun ⟨_, h⟩ => nomatch h) (reachesInfinity_of_some hsecond).mp

theorem ofItems_fails_iff {items : List Value} : (∃ fault, timeOf.ofItems items = .error fault) ↔
    (items.length = 3 ∨ items.length = 4) ∧ ReachesInfinity (items.take 3) := by
  rcases items with _ | ⟨hour, _ | ⟨minute, _ | ⟨second, _ | ⟨millis, _ | ⟨more, rest⟩⟩⟩⟩⟩
  · exact iff_of_false (fun ⟨_, h⟩ => nomatch h) fun h => by simp at h
  · exact iff_of_false (fun ⟨_, h⟩ => nomatch h) fun h => by simp at h
  · exact iff_of_false (fun ⟨_, h⟩ => nomatch h) fun h => by simp at h
  · exact ofNumbers_fails_iff.trans (and_iff_right (Or.inl rfl)).symm
  · exact ofNumbers_fails_iff.trans (and_iff_right (Or.inr rfl)).symm
  · exact iff_of_false (fun ⟨_, h⟩ => nomatch h) fun h => by simp at h

theorem timeOf_fails_iff : (∃ fault, timeOf v = .error fault) ↔ TimeOverflows v := by
  cases v with
  | list items =>
    refine ofItems_fails_iff.trans ⟨fun h => ⟨items, Or.inl rfl, h⟩, ?_⟩
    rintro ⟨_, hv | hv, h⟩ <;> cases hv
    exact h
  | tuple items =>
    refine ofItems_fails_iff.trans ⟨fun h => ⟨items, Or.inr rfl, h⟩, ?_⟩
    rintro ⟨_, hv | hv, h⟩ <;> cases hv
    exact h
  | _ =>
    refine iff_of_false (fun ⟨_, h⟩ => nomatch h) ?_
    rintro ⟨_, hv | hv, _⟩ <;> cases hv

/-! ## Cells -/

/-- A value that cannot be decoded in a column of a type. -/
def Illegible (type : TypeTag) (v : Value) : Prop :=
  match type with
  | .date | .datetime => DateOverflows v
  | .timeofday => TimeOverflows v
  | _ => False

theorem not_illegible_null : ¬ Illegible type .null := by
  have hdate : ¬ DateOverflows .null := fun ⟨_, _, _, h, _⟩ => nomatch h
  have htime : ¬ TimeOverflows .null := fun ⟨_, h, _⟩ => h.elim nofun nofun
  cases type with
  | date | datetime => exact hdate
  | timeofday => exact htime
  | _ => exact id

theorem gives_displayOf (what : String) (fields : Entries Value) (v : Value) :
    (displayOf what fields v).Gives (.ok ((fields.findText? "f").getD v)) :=
  (Noted.gives_note _ _).bind_ok (Noted.gives_pure _)

/-- A cell fails as its value does, or it is decoded. -/
theorem failsIff_decodeCell (fields : Entries Value) :
    (decodeCell (.mapping fields) type).FailsIff (Illegible type (Value.get fields "v")) := by
  rw [decodeCell]
  generalize Value.get fields "v" = v
  split
  · exact (Noted.failsIff_pure _).congr (iff_of_false id not_illegible_null)
  · cases type with
    | date | datetime =>
      refine ((Noted.failsIff_liftExcept (dateOf v)).bind fun o => ?_).congr
        ((iff_of_eq (or_false _)).trans dateOf_fails_iff)
      cases o with
      | none => exact (gives_displayOf "date" fields v).failsIff
      | some t => exact Noted.failsIff_pure _
    | timeofday =>
      refine ((Noted.failsIff_liftExcept (timeOf v)).bind fun o => ?_).congr
        ((iff_of_eq (or_false _)).trans timeOf_fails_iff)
      cases o with
      | none => exact (gives_displayOf "timeofday" fields v).failsIff
      | some s => exact Noted.failsIff_pure _
    | _ => exact Noted.failsIff_pure _

end Response

end RowStore
