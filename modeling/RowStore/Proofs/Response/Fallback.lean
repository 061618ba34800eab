import RowStore.Proofs.Response.Dates
import RowStore.Proofs.Response.Legible

/-!
# What is shown for a cell

In a column of dates or times of day a value may not have the form of the column's type. The cell then shows its
display text.

* `IsMoment v m`, `IsTime v text` : a value has the form of a date or of a time of day; `dateOf_eq_some_iff`,
  `timeOf_eq_some_iff`;
* `Recognized type v r` : in a column of a type a value stands for `r`; `readingOf` is what the decoders make of it,
  with `readingOf_eq_some_iff` and `gives_decodeCell`;
* `IsShown fields type w` : a cell shows what its value stands for, or else its display text or the value itself,
  and nothing just if it has no value;
* `decodeCell_shown` : which cells can be decoded, and which of them show what they have.
-/

namespace RowStore

namespace Response

variable {type : TypeTag} {fields : Entries Value} {v r w : Value}

/-! ## Values of a form -/

/-- A date that can be read, and the moment that has its numbers. -/
def IsMoment (v : Value) (m : Moment) : Prop :=
  ∃ t numerals, v = .text t ∧ IsReadable t numerals ∧ m.HasNumbers (numerals.map Numeral.value)

/-- A list of an hour, a minute and a second, and perhaps of milliseconds. -/
def HasParts (v hour minute second : Value) : Prop :=
  ∃ rest : List Value, rest.length ≤ 1 ∧
    (v = .list (hour :: minute :: second :: rest) ∨ v = .tuple (hour :: minute :: second :: rest))

/-- A time of day in whole numbers, and the text that has them. -/
def IsTime (v : Value) (text : String) : Prop :=
  ∃ hour minute second h m s, HasParts v hour minute second ∧ wholeOf hour = .ok (some h) ∧
    wholeOf minute = .ok (some m) ∧ wholeOf second = .ok (some s) ∧
    text = twoDigits h ++ ":" ++ twoDigits m ++ ":" ++ twoDigits s

theorem dateOf_eq_some_iff {m : Moment} : dateOf v = .ok (some m) ↔ IsMoment v m := by
  constructor
  · intro h
    cases v with
    | text t =>
      obtain ⟨numerals, hdate⟩ := exists_isDate_of_dateOf (by rw [h]; exact nofun)
      by_cases hreadable : IsReadable t numerals
      · exact ⟨t, numerals, rfl, hreadable, (dateOf_eq_some_iff_of_isReadable hreadable).mp h⟩
      · rw [(dateOf_isDate hdate).2 hreadable] at h
        cases h
    | _ => cases h
  · rintro ⟨t, numerals, rfl, hreadable, hm⟩
    exact (dateOf_eq_some_iff_of_isReadable hreadable).mpr hm

theorem ofNumbers_eq_some_iff {hour minute second : Value} {text : String} :
    timeOf.ofNumbers hour minute second = .ok (some text) ↔
      ∃ h m s, wholeOf hour = .ok (some h) ∧ wholeOf minute = .ok (some m) ∧ wholeOf second = .ok (some s) ∧
        text = twoDigits h ++ ":" ++ twoDigits m ++ ":" ++ twoDigits s := by
  constructor
  · intro h
    unfold timeOf.ofNumbers at h
    obtain ⟨hour?, hhour, h⟩ := bind_eq_ok h
    cases hour? with
    | none => cases h
    | some a =>
      obtain ⟨minute?, hminute, h⟩ := bind_eq_ok h
      cases minute? with
      | none => cases h
      | some b =>
        obtain ⟨second?, hsecond, h⟩ := bind_eq_ok h
        cases second? with
        | none => cases h
        | some c =>
          cases h
          exact ⟨a, b, c, hhour, hminute, hsecond, rfl⟩
  · rintro ⟨a, b, c, hhour, hminute, hsecond, rfl⟩
    rw [timeOf.ofNumbers, hhour, hminute, hsecond]
    rfl

theorem ofItems_eq_some_iff {items : List Value} {text : String} :
    timeOf.ofItems items = .ok (some text) ↔ ∃ hour minute second rest, rest.length ≤ 1 ∧
      items = hour :: minute :: second :: rest ∧ timeOf.ofNumbers hour minute second = .ok (some text) := by
  constructor
  · intro h
    unfold timeOf.ofItems at h
    split at h
    case h_1 hour minute second => exact ⟨hour, minute, second, [], Nat.zero_le _, rfl, h⟩
    case h_2 hour minute second millis => exact ⟨hour, minute, second, [millis], Nat.le_refl _, rfl, h⟩
    case h_3 => cases h
  · rintro ⟨hour, minute, second, rest, hlength, rfl, h⟩
    match rest with
    | [] => exact h
    | [_] => exact h

theorem timeOf_eq_some_iff {text : String} : timeOf v = .ok (some text) ↔ IsTime v text := by
  constructor
  · intro htime
    -- a list and a tuple are read alike
    have hitems : ∀ items, v = .list items ∨ v = .tuple items → timeOf.ofItems items = .ok (some text) →
        IsTime v text := by
      intro items hv hread
      obtain ⟨hour, minute, second, rest, hlength, rfl, hnumbers⟩ := ofItems_eq_some_iff.mp hread
      obtain ⟨h, m, s, hhour, hminute, hsecond, htext⟩ := ofNumbers_eq_some_iff.mp hnumbers
      exact ⟨hour, minute, second, h, m, s, ⟨rest, hlength, hv⟩, hhour, hminute, hsecond, htext⟩
    cases v with
    | list items => exact hitems items (Or.inl rfl) htime
    | tuple items => exact hitems items (Or.inr rfl) htime
    | _ => cases htime
  · rintro ⟨hour, minute, second, h, m, s, ⟨rest, hlength, hv⟩, hnumbers⟩
    have hread := ofItems_eq_some_iff.mpr ⟨hour, minute, second, rest, hlength, rfl,
      ofNumbers_eq_some_iff.mpr ⟨h, m, s, hnumbers⟩⟩
    rcases hv with rfl | rfl
    · exact hread
    · exact hread

/-! ## Readings -/

/-- What a value stands for in a column of a type: a date for its moment, a time of day for its text, and in any
other column a value for itself. -/
def Recognized (type : TypeTag) (v r : Value) : Prop :=
  match type with
  | .date | .datetime => ∃ m, IsMoment v m ∧ r = .moment m
  | .timeofday => ∃ text, IsTime v text ∧ r = .text text
  | _ => r = v

/-- What the decoders make of a value in a column of a type. -/
def readingOf (type : TypeTag) (v : Value) : Except Fault (Option Value) :=
  match type with
  | .date | .datetime => (dateOf v).map (Option.map .moment)
  | .timeofday => (timeOf v).map (Option.map fun text : String => .text text)
  | _ => .ok (some v)

section
variable {α : Type} {e : Except Fault (Option α)} {f : α → Value}

theorem map_eq_some_iff : e.map (Option.map f) = .ok (some r) ↔ ∃ a, e = .ok (some a) ∧ r = f a := by
  rcases e with fault | _ | a
  · exact iff_of_false nofun nofun
  · exact iff_of_false nofun nofun
  · constructor
    · rintro ⟨⟩
      exact ⟨a, rfl, rfl⟩
    · rintro ⟨_, ⟨⟩, rfl⟩
      rfl

/-- A decoder, and what comes after it when it finds nothing or something. -/
theorem gives_reading {k : Option α → Noted Value} (hnone : (k none).Gives (.ok w))
    (hsome : ∀ a, (k (some a)).Gives (.ok (f a))) :
    ((liftM e : Noted (Option α)) >>= k).Gives ((e.map (Option.map f)).map (Option.getD · w)) := by
  rcases e with fault | _ | a
  · exact (Noted.gives_liftExcept _).bind_error
  · exact (Noted.gives_liftExcept (.ok none)).bind_ok hnone
  · exact (Noted.gives_liftExcept (.ok (some a))).bind_ok (hsome a)

end

/-- The decoders make of a value what it stands for. -/
theorem readingOf_eq_some_iff : readingOf type v = .ok (some r) ↔ Recognized type v r := by
  cases type with
  | date | datetime =>
    unfold readingOf Recognized
    rw [map_eq_some_iff]
    simp only [dateOf_eq_some_iff]
  | timeofday =>
    unfold readingOf Recognized
    rw [map_eq_some_iff]
    simp only [timeOf_eq_some_iff]
  | _ =>
    constructor
    · rintro ⟨⟩
      rfl
    · rintro rfl
      rfl

/-- A cell with a value gives its reading, or else its display text or the value. -/
theorem gives_decodeCell (h : Value.get fields "v" ≠ .null) :
    (decodeCell (.mapping fields) type).Gives ((readingOf type (Value.get fields "v")).map
      (Option.getD · ((fields.findText? "f").getD (Value.get fields "v")))) := by
  rw [decodeCell]
  generalize Value.get fields "v" = v at h
  split
  case h_1 => exact absurd rfl h
  case h_2 =>
    cases type with
    | date | datetime => exact gives_reading (gives_displayOf "date" fields v) fun m => Noted.gives_pure _
    | timeofday => exact gives_reading (gives_displayOf "timeofday" fields v) fun text => Noted.gives_pure _
    | _ => exact Noted.gives_pure _

/-! ## Cells -/

/-- What a cell shows: what its value stands for, or else its display text, or else the value; and nothing just if
it has no value. -/
structure IsShown (fields : Entries Value) (type : TypeTag) (w : Value) : Prop where
  null_iff : w = .null ↔ Value.get fields "v" = .null
  reading : ∀ r, Value.get fields "v" ≠ .null → Recognized type (Value.get fields "v") r → w = r
  display : Value.get fields "v" ≠ .null → (∀ r, ¬ Recognized type (Value.get fields "v") r) →
    w = if (Value.get fields "f").isNull then Value.get fields "v" else Value.get fields "f"

/-- A cell with a value that does not have the form of its type, and with a display text that is null. -/
def Hides (fields : Entries Value) (type : TypeTag) : Prop :=
  Value.get fields "v" ≠ .null ∧ (∀ r, ¬ Recognized type (Value.get fields "v") r) ∧
    fields.findText? "f" = some .null

theorem Recognized.ne_null (h : Recognized type v r) (hv : v ≠ .null) : r ≠ .null := by
  cases type with
  | date | datetime =>
    obtain ⟨m, -, rfl⟩ := h
    exact nofun
  | timeofday =>
    obtain ⟨text, -, rfl⟩ := h
    exact nofun
  | _ =>
    obtain rfl : r = v := h
    exact hv

/-- What a cell is decoded to: nothing without a value, what its value stands for if it has the form of the column's
type, and else what stands in its display text, if there is one. -/
theorem decodeCell_cases (hw : (decodeCell (.mapping fields) type).Gives (.ok w)) :
    (Value.get fields "v" = .null ∧ w = .null) ∨
    (Value.get fields "v" ≠ .null ∧ Recognized type (Value.get fields "v") w) ∨
    (Value.get fields "v" ≠ .null ∧ (∀ r, ¬ Recognized type (Value.get fields "v") r) ∧
      w = (fields.findText? "f").getD (Value.get fields "v")) := by
  by_cases hv : Value.get fields "v" = .null
  · refine Or.inl ⟨hv, ?_⟩
    have hnull : (decodeCell (.mapping fields) type).Gives (.ok .null) := by
      rw [decodeCell, hv]
      exact Noted.gives_pure _
    exact Except.ok.inj ((hw []).symm.trans (hnull []))
  · refine Or.inr ?_
    have hgives := (hw []).symm.trans (gives_decodeCell hv [])
    cases hreading : readingOf type (Value.get fields "v") with
    | error fault =>
      rw [hreading] at hgives
      cases hgives
    | ok o =>
      rw [hreading] at hgives
      cases o with
      | none =>
        refine Or.inr ⟨hv, fun r hr => ?_, Except.ok.inj hgives⟩
        rw [readingOf_eq_some_iff.mpr hr] at hreading
        cases hreading
      | some r =>
        cases hgives
        exact Or.inl ⟨hv, readingOf_eq_some_iff.mp hreading⟩

/-- What a value stands for is one value. -/
theorem Recognized.unique (h : Recognized type v r) (h' : Recognized type v w) : r = w := by
  have heq := (readingOf_eq_some_iff.mpr h).symm.trans (readingOf_eq_some_iff.mpr h')
  cases heq
  rfl

/-- What stands in a cell's display text, or its value when there is none, is what it is to show unless the text is
null. -/
theorem display_eq (h : fields.findText? "f" ≠ some .null) : (fields.findText? "f").getD v =
    if (Value.get fields "f").isNull then v else Value.get fields "f" := by
  unfold Value.get
  cases hdisplay : fields.findText? "f" with
  | none => rfl
  | some shown =>
    cases shown with
    | null => exact absurd hdisplay h
    | _ => rfl

theorem eq_null_of_hides (hw : (decodeCell (.mapping fields) type).Gives (.ok w)) (h : Hides fields type) :
    w = .null := by
  obtain ⟨hv, hnone, hnull⟩ := h
  rcases decodeCell_cases hw with ⟨hv', -⟩ | ⟨-, hreading⟩ | ⟨-, -, hdisplay⟩
  · exact absurd hv' hv
  · exact absurd hreading (hnone w)
  · rw [hdisplay, hnull, Option.getD_some]

theorem isShown_of_not_hides (hw : (decodeCell (.mapping fields) type).Gives (.ok w))
    (h : ¬ Hides fields type) : IsShown fields type w := by
  rcases decodeCell_cases hw with ⟨hv, rfl⟩ | ⟨hv, hreading⟩ | ⟨hv, hnone, hdisplay⟩
  · exact ⟨iff_of_true rfl hv, fun r hne => absurd hv hne, fun hne => absurd hv hne⟩
  · exact ⟨iff_of_false (hreading.ne_null hv) hv, fun r _ hr => hreading.unique hr,
      fun _ hnone => absurd hreading (hnone w)⟩
  · have hnull : fields.findText? "f" ≠ some .null := fun hnull => h ⟨hv, hnone, hnull⟩
    have hne : w ≠ .null := by
      rw [hdisplay]
      cases hfield : fields.findText? "f" with
      | none => exact hv
      | some shown => exact fun hshown => hnull (hfield.trans (congrArg some hshown))
    exact ⟨iff_of_false hne hv, fun r _ hr => absurd hr (hnone r), fun _ _ => hdisplay.trans (display_eq hnull)⟩

/-- A cell is decoded unless its value is illegible, and it shows what it has unless its display text is null: then
a value without the form of the column's type is lost. -/
theorem decodeCell_shown (fields : Entries Value) (type : TypeTag) :
    ((∃ w, (decodeCell (.mapping fields) type).Gives (.ok w)) ↔ ¬ Illegible type (Value.get fields "v")) ∧
    ∀ w, (decodeCell (.mapping fields) type).Gives (.ok w) →
      (IsShown fields type w ↔ ¬ Hides fields type) ∧ (Hides fields type → w = .null) := by
  refine ⟨(failsIff_decodeCell fields).exists_gives_iff, fun w hw => ⟨⟨fun hshown hhides => ?_, ?_⟩, ?_⟩⟩
  · exact hhides.1 (hshown.null_iff.mp (eq_null_of_hides hw hhides))
  · exact isShown_of_not_hides hw
  · exact eq_null_of_hides hw

/-- A day that does not exist, with a display text. -/
def missingDay : Entries Value := [(.text "v", .text "Date(2024,13,40)"), (.text "f", .text "sometime")]

/-- It shows the text, and without the text it would show itself. -/
theorem decodeCell_shown_missing_day :
    (decodeCell (.mapping missingDay) .date).Gives (.ok (.text "sometime")) ∧
    IsShown missingDay .date (.text "sometime") ∧
    IsShown (missingDay.take 1) .date (.text "Date(2024,13,40)") := by
  have hdisplay : (decodeCell (.mapping missingDay) .date).Gives (.ok (.text "sometime")) := fun _ => rfl
  have hvalue : (decodeCell (.mapping (missingDay.take 1)) .date).Gives (.ok (.text "Date(2024,13,40)")) :=
    fun _ => rfl
  have hshown : IsShown missingDay .date (.text "sometime") :=
    ((decodeCell_shown _ _).2 _ hdisplay).1.mpr fun h => nomatch h.2.2
  exact ⟨hdisplay, hshown, ((decodeCell_shown _ _).2 _ hvalue).1.mpr fun h => nomatch h.2.2⟩

/-- A value in a column of dates that is no date is lost if its display text is null. -/
theorem decodeCell_hides_value :
    (decodeCell (.mapping [(.text "v", .text "soon"), (.text "f", .null)]) .date).Gives (.ok .null) ∧
    ¬ IsShown [(.text "v", .text "soon"), (.text "f", .null)] .date .null := by
  refine ⟨fun _ => rfl, fun hshown => ?_⟩
  exact nomatch hshown.null_iff.mp rfl

end Response

end RowStore
