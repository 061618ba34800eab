import RowStore.Proofs.Table.Created
import RowStore.Proofs.Table.Deleted
import RowStore.Proofs.Table.Updated

/-!
# Values found again where they were written

* `Clock.seconds_eq_iso_iff`, `Moment.cellText_eq_iso_iff` : when a cell has the usual text of a time of
  day and of a moment;
* `Value.IsWhole` : a value of which a cell keeps everything; `Value.asText_toCell_eq_iff` : these are the
  values that a cell is compared by as they are;
* `Table.fulfils_written_iff` : in the row of a new record, and in a row that an update has rewritten, a
  value is found again by itself iff it is whole;
* `Table.deleteById_misses_fraction` : an identifier with a fraction of a second is there for a second
  creation, and not for a deletion.
-/

namespace RowStore

/-! ## Dates and times -/

theorem length_zeroPadded (width n : Nat) :
    (zeroPadded width n).length = max width (Nat.toDigits 10 n).length := by
  rw [zeroPadded, String.length_ofList, List.length_append, List.length_replicate]
  omega

/-- A number that fills the width is not padded. -/
theorem zeroPadded_eq_toString {width n : Nat} (h : width ≤ (Nat.toDigits 10 n).length) :
    zeroPadded width n = toString n := by
  rw [zeroPadded, Nat.sub_eq_zero_of_le h, List.replicate_zero, List.nil_append]
  rfl

namespace Clock

/-- What follows the seconds in the usual text. -/
def fraction (c : Clock) : String := if c.micro = 0 then "" else "." ++ zeroPadded 6 c.micro

theorem iso_eq_append (c : Clock) : c.iso = c.seconds ++ c.fraction := by
  unfold iso fraction
  split
  · rw [String.append_empty]
  · rw [String.append_assoc]

theorem length_fraction_eq_zero_iff (c : Clock) : c.fraction.length = 0 ↔ c.micro = 0 := by
  unfold fraction
  split
  · simp [*]
  · simp [*, String.length_append]

theorem seconds_eq_iso_iff (c : Clock) : c.seconds = c.iso ↔ c.micro = 0 := by
  rw [iso_eq_append, ← length_fraction_eq_zero_iff]
  constructor
  · intro h
    have hlength := congrArg String.length h
    rw [String.length_append] at hlength
    omega
  · intro h
    rw [String.length_eq_zero_iff.mp h, String.append_empty]

end Clock

/-- A cell has the usual text of a moment if the year has four digits and there is no fraction. -/
theorem Moment.cellText_eq_iso_iff (t : Moment) :
    t.cellText = t.iso ↔ 1000 ≤ t.date.year ∧ t.clock.micro = 0 := by
  -- the digits of the year: at most four of them, and four from 1000 on
  have hfour : 4 ≤ (Nat.toDigits 10 t.date.year).length ↔ 1000 ≤ t.date.year := by
    rw [← not_iff_not, Nat.not_le, Nat.not_le]
    exact Nat.lt_succ_iff.trans (Nat.length_toDigits_le_iff (by decide) (by decide))
  have hmost : (Nat.toDigits 10 t.date.year).length ≤ 4 :=
    (Nat.length_toDigits_le_iff (by decide) (by decide)).mpr (Nat.lt_succ_of_le t.date.year_le)
  constructor
  · intro h
    have hlength := congrArg String.length h
    have hrepr : (toString t.date.year).length = (Nat.toDigits 10 t.date.year).length :=
      String.length_ofList
    simp only [cellText, iso, Date.iso, Clock.iso_eq_append, String.length_append, length_zeroPadded,
      hrepr] at hlength
    rw [← hfour, ← Clock.length_fraction_eq_zero_iff]
    omega
  · rintro ⟨hyear, hmicro⟩
    rw [cellText, iso, Date.iso, zeroPadded_eq_toString (hfour.mpr hyear),
      t.clock.seconds_eq_iso_iff.mpr hmicro]

namespace Value

/-- A value of which a cell keeps everything: a time of day without a fraction of a second, a moment with
such a time and a year of four digits, and every value that is neither. -/
def IsWhole : Value → Prop
  | moment t => 1000 ≤ t.date.year ∧ t.clock.micro = 0
  | clock c => c.micro = 0
  | _ => True

/-- A cell has the text of the value that was written into it iff it keeps everything of it. -/
theorem asText_toCell_eq_iff (v : Value) : v.toCell.asText = v.asText ↔ v.IsWhole := by
  cases v with
  | moment t => exact Text.ofString_inj.trans t.cellText_eq_iso_iff
  | clock c => exact Text.ofString_inj.trans c.seconds_eq_iso_iff
  | _ => exact iff_of_true rfl trivial

instance (v : Value) : Decidable v.IsWhole := decidable_of_iff _ v.asText_toCell_eq_iff

end Value

namespace Table

variable {c : Columns} {header v : Value} {p : Nat} {row : Row}

/-! ## Rows -/

/-- A row with the cell of a value fulfils a condition on that value iff the value has a text, and the cell keeps
everything of it. -/
theorem fulfils_iff_of_cell? (hposition : c.positions.find? header = some p)
    (hcell : row.cell? p = some v.toCell) :
    c.Fulfils [(header, v)] row ↔ v.hasText = true ∧ v.IsWhole := by
  have htext : row.textAt p = v.toCell.asText := by rw [Row.textAt, hcell, Option.getD_some]
  rw [← Value.asText_toCell_eq_iff, ← htext]
  constructor
  · intro h
    exact h _ (List.mem_singleton.mpr rfl) p hposition
  · intro h e he q hq
    rw [List.mem_singleton.mp he] at hq ⊢
    rw [Option.some.inj (hq.symm.trans hposition)]
    exact h

/-- The row of a new record has the cell of the value under each header. -/
theorem cell?_of_find? (hc : Distinct c.list) (hheader : c.headers[p]? = some header)
    {entries : Entries Value} (hrow : newRow? c (.mapping entries) = some row)
    (hv : entries.find? header = some v) : row.cell? p = some v.toCell := by
  obtain ⟨_, ⟨⟩, rfl⟩ := newRow?_eq_some hrow
  have hknown := (find?_known hc (List.mem_of_getElem? hheader) entries).trans hv
  rw [Row.cell?, cellsIn, List.getElem?_map, hheader, Option.map_some, hknown, Option.getD_some]

/-- An update writes the cell of the value under each header but the identifier's. -/
theorem newCell_of_find? (hheader : c.headers[p]? = some header)
    (hother : c.identifierHeader.any (·.equals header) = false) {fields : Entries Value}
    (hv : fields.find? header = some v) : c.newCell fields p = some v.toCell := by
  have hvalue : c.newValue fields p = some v := by
    rw [Columns.newValue, hheader]
    change (if _ then _ else _) = _
    rw [hother, if_neg Bool.false_ne_true, hv]
  rw [Columns.newCell, hvalue, Option.map_some]

/-- A value and its cell have one text iff the cell keeps everything of the value; and just then a value that has
a text is found again by itself, in the row of a new record and in a row that an update has rewritten. -/
theorem fulfils_written_iff (hc : Distinct c.list) (hheader : c.headers[p]? = some header) (v : Value) :
    (v.toCell.asText = v.asText ↔ v.IsWhole) ∧
    (∀ (entries : Entries Value) row, newRow? c (.mapping entries) = some row → entries.find? header = some v →
      (c.Fulfils [(header, v)] row ↔ v.hasText = true ∧ v.IsWhole)) ∧
    ∀ (fields : Entries Value) before after, Row.Rewritten (c.newCell fields) before after →
      c.identifierHeader.any (·.equals header) = false → fields.find? header = some v →
      (c.Fulfils [(header, v)] after ↔ v.hasText = true ∧ v.IsWhole) := by
  have hkey := Columns.isKey_of_headers hc hheader
  have hposition : c.positions.find? header = some p :=
    (Columns.find?_positions_iff hc).mpr ⟨header, hheader, Value.equals_self hkey⟩
  refine ⟨v.asText_toCell_eq_iff, ?_, ?_⟩
  · intro entries row hrow hv
    exact fulfils_iff_of_cell? hposition (cell?_of_find? hc hheader hrow hv)
  · intro fields before after hrewritten hother hv
    have hwritten := hrewritten.written p _ (newCell_of_find? hheader hother hv)
    exact fulfils_iff_of_cell? hposition hwritten

end Table

namespace Sample

/-- The moment of an arrival, so many microseconds after 13:45:05 on 15 January 2024. -/
def arrival (micro : Int) : Value := ((Moment.of? 2024 1 15 13 45 5 micro).map .moment).getD .null

end Sample

namespace Table

open Sample in
/-- An arrival on the second is written into the row of a new user and into that of a known one, which is
longer then. -/
theorem fulfils_written_iff_arrival :
    let v := arrival 0
    let entries : Entries Value := [(.text "id", .text "e3"), (.text "Name", v)]
    let fields : Entries Value := [(.text "Name", v)]
    let new : Row := [.text "e3", .text "2024-01-15 13:45:05"]
    let after : Row := [.text "e1", .text "2024-01-15 13:45:05"]
    v.toCell.asText = v.asText ∧
      newRow? columns (.mapping entries) = some new ∧ columns.Fulfils [(.text "Name", v)] new ∧
      Row.Rewritten (columns.newCell fields) [.text "e1"] after ∧
        columns.Fulfils [(.text "Name", v)] after := by
  intro v entries fields new after
  have hheader : columns.headers[1]? = some (.text "Name") := rfl
  obtain ⟨htext, hnew, hafter⟩ := fulfils_written_iff ⟨by decide, by decide⟩ hheader v
  have hwhole : v.IsWhole := by decide
  have hfields : fields.Named := ⟨by decide, by decide⟩
  have hdistinct : Distinct columns.list := ⟨by decide, by decide⟩
  have hrewritten : Row.Rewritten (columns.newCell fields) [.text "e1"] after :=
    Row.rewritten_setAll (nodup_cellFields hdistinct hfields)
      fun p v => newCell_eq_some_iff hdistinct hfields
  exact ⟨htext.mpr hwhole, rfl, (hnew entries new rfl rfl).mpr ⟨rfl, hwhole⟩,
    hrewritten, (hafter fields _ after hrewritten rfl rfl).mpr ⟨rfl, hwhole⟩⟩

open Sample in
/-- A user whose identifier has a fraction of a second is created, and is then there for a creation, but not
for a deletion: the row stays. -/
theorem deleteById_misses_fraction :
    let party := Scripted.party fun _ => false
    let K : Keeper party := Scripted.keeper fun _ => false
    let t := table (.int 30000)
    let id := arrival 250000
    let create : Operation := .create (.mapping [(.text "id", id), (.text "Name", .text "Bob")])
    let left := rows ++ [row "2024-01-15 13:45:05" "Bob"]
    let created := Act.run party (t.perform create) session (.ofRows rows)
    let again := Act.run party (t.perform create) session (.ofRows left)
    let deleted := Act.run party (t.perform (.deleteById id)) session (.ofRows left)
    id.toCell.asText ≠ id.asText ∧
      created.1 = .ok (.done true) ∧ (K.ledger created.2.2).rows = left ∧
      again.1 = .ok (.done false) ∧
      deleted.1 = .ok (.done false) ∧ (K.ledger deleted.2.2).rows = left := by
  intro party K t id create left created again deleted
  have hs : Ready columns session := ⟨rfl, rfl⟩
  have hplanned : t.planned columns create rows =
      .ok (.append [row "2024-01-15 13:45:05" "Bob"], 1) := rfl
  have htaken : t.planned columns create left =
      .error (.validation (.identifierTaken [.text "2024-01-15 13:45:05"])) := rfl
  have hmissed : t.planned columns (.deleteById id) left =
      .error (.noRowMatches (.mapping [(.text "id", id)])) := rfl
  have hcreated := run_of_planned K Writable.sample hs rfl rfl ⟨_, rfl⟩ (Scripted.sound_ofRows rows)
    hplanned (fun hsize => hsize)
  have hagain := run_of_unplanned_of_ends K Writable.sample hs rfl rfl ⟨_, rfl⟩ (Scripted.sound_ofRows left)
    (show Ends Fault.IsRefusal (fun _ => True) (t.intent columns create) from trivial) htaken
  have hdeleted := run_of_unplanned_of_ends K Writable.sample hs rfl rfl ⟨_, rfl⟩ (Scripted.sound_ofRows left)
    (show Ends Fault.IsRefusal (fun _ => True) (t.intent columns (.deleteById id)) from trivial) hmissed
  have hleft : (K.ledger created.2.2).rows = left := by
    rw [hcreated.2]
    rfl
  have hstays : (K.ledger deleted.2.2).rows = left := by
    rw [hdeleted.2]
    rfl
  exact ⟨by decide, hcreated.1, hleft, hagain.1, hdeleted.1, hstays⟩

end Table

end RowStore
