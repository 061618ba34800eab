import RowStore.Proofs.Query.Compiled
import RowStore.Proofs.Response.Legible
import RowStore.Response.Records

/-!
# Answers of the documented shape

* `Response.IsShaped payload` : the columns of the payload's table are objects with texts as code and
  label, its rows are objects with a list of cells, and its errors have texts as messages;
* `Response.IsLegible payload` : no cell of the table is illegible in its column;
* `Response.TellsColumns payload` : what is asked of an answer from which only the columns are read;
  `Response.ends_unwrap`, `Columns.ends_columns` : it fails only with one of this library's own faults,
  and columns that come of it have texts as headers and codes;
* `Response.endsIn_parse` : so does decoding a shaped and legible answer.
-/

namespace RowStore

namespace Response

/-! ## The shape of an answer -/

/-- The payload of an answer that has one. -/
def payload? (answer : Value) : Option (Entries Value) := do
  let t ← answer.text?
  let payloadText ← Envelope.framed? t
  let payload ← Json.read? payloadText
  payload.entries?

/-- A value all of whose parts are as they should be; a blank one has none. -/
def Holds (p : Value → Prop) (v : Value) : Prop :=
  v.isBlank = true ∨ ∃ items, v.items? = some items ∧ ∀ item ∈ items, p item

/-- A column: an object with a text as its code and one as its label. -/
def IsDescriptor (v : Value) : Prop :=
  ∃ fields code label, v = .mapping fields ∧ Value.get fields "id" = .text code ∧
    Value.get fields "label" = .text label

/-- A row: an object with a list of cells, each of which is an object or null. -/
def IsRow (v : Value) : Prop :=
  ∃ fields cells, v = .mapping fields ∧ Value.get fields "c" = .list cells ∧
    ∀ cell ∈ cells, cell = .null ∨ ∃ entries, cell = .mapping entries

/-- The names under which an error may have its message. -/
def reportNames : List Text := ["detailed_message", "message", "reason"]

/-- An error whose messages, if it is an object, are texts or blank. -/
def IsReport (v : Value) : Prop :=
  ∀ fields, v = .mapping fields → ∀ name ∈ reportNames,
    (Value.get fields name).isBlank = true ∨ ∃ t, Value.get fields name = .text t

/-- A payload whose table, if it is an object, has columns and rows, and whose errors can be shown. -/
structure IsShaped (payload : Entries Value) : Prop where
  cols : ∀ table, Value.get payload "table" = .mapping table →
    Holds IsDescriptor (Value.get table "cols")
  rows : ∀ table, Value.get payload "table" = .mapping table → Holds IsRow (Value.get table "rows")
  errors : Holds IsReport (Value.get payload "errors")

/-- A payload that tells the columns of a table, or an error that can be shown. -/
structure TellsColumns (payload : Entries Value) : Prop where
  cols : ∀ table, Value.get payload "table" = .mapping table →
    Holds IsDescriptor (Value.get table "cols")
  errors : (Value.get payload "status").equals (.text "error") = true →
    Holds IsReport (Value.get payload "errors")

theorem IsShaped.tellsColumns {payload : Entries Value} (h : IsShaped payload) :
    TellsColumns payload := ⟨h.cols, fun _ => h.errors⟩

/-- A payload whose warnings can be shown and whose cells can be decoded: the value of a cell is not
illegible in the column at the cell's position. -/
structure IsLegible (payload : Entries Value) : Prop where
  warnings : Holds (fun _ => True) (Value.get payload "warnings")
  cells : ∀ table cols rows, Value.get payload "table" = .mapping table →
    (Value.get table "cols").items? = some cols → (Value.get table "rows").items? = some rows →
    ∀ row ∈ rows, ∀ position descriptor, cols[position]? = some descriptor →
    ∀ cell, cellAt (cellsOf row) position = .ok (.mapping cell) →
    ¬ Illegible (typeOf descriptor) (Value.get cell "v")

theorem ends_eachGiven {p : Value → Prop} {v : Value} (h : Holds p v) :
    Ends Fault.Never (fun items => (v.isBlank = true ∨ v.items? = some items) ∧ ∀ item ∈ items, p item)
      v.eachGiven := by
  rw [Value.eachGiven]
  split
  · rename_i hblank
    exact ⟨Or.inl hblank, fun _ hitem => absurd hitem List.not_mem_nil⟩
  · rename_i hblank
    obtain ⟨items, hitems, hp⟩ := h.resolve_left hblank
    rw [Value.each, hitems]
    exact ⟨Or.inr rfl, hp⟩

/-! ## Envelopes -/

theorem exists_firstGiven {vs : List Value} (last : Text)
    (h : ∀ v ∈ vs, v.isBlank = true ∨ ∃ t, v = .text t) :
    ∃ t, Envelope.firstGiven vs (.text last) = .text t := by
  induction vs with
  | nil => exact ⟨last, rfl⟩
  | cons v rest ih =>
    obtain ⟨hv, hrest⟩ := List.forall_mem_cons.mp h
    rw [Envelope.firstGiven]
    split
    · exact ih hrest
    · rename_i hblank
      exact hv.resolve_left hblank

theorem ends_describe {v : Value} (h : IsReport v) :
    Ends Fault.Never (fun _ => True) (Envelope.describe v) := by
  cases v with
  | mapping fields =>
    have hmessages : ∀ v ∈ reportNames.map (Value.get fields), v.isBlank = true ∨ ∃ t, v = .text t := by
      simpa only [List.forall_mem_map] using h fields rfl
    obtain ⟨t, ht⟩ := exists_firstGiven (Value.mapping fields).plain hmessages
    change Ends _ _ (Envelope.firstGiven (reportNames.map (Value.get fields)) _).expectText
    rw [ht]
    exact trivial
  | _ => exact trivial

theorem isRecord_reportedFault {payload : Entries Value}
    (h : Holds IsReport (Value.get payload "errors")) :
    (Envelope.reportedFault payload).IsRecord := by
  rw [Envelope.reportedFault]
  dsimp only
  split
  · rfl
  · rename_i hblank
    obtain ⟨items, hitems, hreports⟩ := h.resolve_left hblank
    rw [hitems]
    dsimp only
    have htexts := Ends.mapM fun item hitem => ends_describe (hreports item hitem)
    split
    · rename_i hfault
      rw [hfault] at htexts
      exact htexts.elim
    · rfl

/-- An answer is refused only with one of this library's own faults, if its errors can be shown. -/
theorem ends_unwrap {answer : Value}
    (h : ∀ payload, payload? answer = some payload → TellsColumns payload) :
    Ends Fault.IsRecord (fun payload => payload? answer = some payload) (Envelope.unwrap answer) := by
  unfold Envelope.unwrap
  split
  · rename_i t
    split
    · rfl
    · rename_i payloadText hframed
      split
      · rfl
      · rename_i payload hread
        have hpayload : payload? (.text t) = some payload := by
          rw [payload?, Value.text?, Option.bind_eq_bind, Option.bind_some, hframed]
          simp only [Option.bind_eq_bind, Option.bind_some, hread, Value.entries?]
        dsimp only
        split
        · rename_i hstatus
          exact isRecord_reportedFault ((h payload hpayload).errors hstatus)
        · split
          · exact hpayload
          · rfl
      · rfl
  · rfl

end Response

/-! ## Columns -/

/-- A column whose header and code are texts. -/
def Column.IsText (col : Column) : Prop :=
  ∃ header code, col.header = .text header ∧ col.code = .text code

namespace Columns

open Response

/-- Columns whose headers and codes are texts. -/
def HasTexts (c : Columns) : Prop := ∀ col ∈ c.list, col.IsText

theorem HasTexts.hasTextCodes {c : Columns} (h : c.HasTexts) : Query.HasTextCodes c := by
  intro col hcol
  obtain ⟨header, code, -, hcode⟩ := h col hcol
  exact ⟨code, hcode⟩

theorem ends_descriptorsOf {payload : Entries Value} (h : TellsColumns payload) :
    Ends Fault.IsRecord (fun descriptors => ∀ d ∈ descriptors, IsDescriptor d)
      (descriptorsOf payload) := by
  have hnone : ∀ d ∈ ([] : List Value), IsDescriptor d := fun _ hd => absurd hd List.not_mem_nil
  rw [descriptorsOf]
  dsimp only
  split
  · exact hnone
  · split
    · rename_i table htable
      split
      · exact hnone
      · rename_i hblank
        obtain ⟨items, hitems, hdescriptors⟩ := (h.cols table htable).resolve_left hblank
        split
        · rename_i hcols
          rw [hcols] at hitems
          cases hitems
          exact hdescriptors
        · rfl
    · rfl

theorem exists_labelText (label : Text) : ∃ t, labelText (.text label) = .ok t := by
  rw [labelText]
  split
  · exact ⟨_, rfl⟩
  · exact ⟨_, rfl⟩

theorem exists_headerOf (label code : Text) : ∃ t, headerOf (.text label) (.text code) = .ok (.text t) := by
  obtain ⟨t, ht⟩ := exists_labelText label
  rw [headerOf, ht]
  change ∃ t', Except.ok (if t.isEmpty = true then Value.text code else .text t) = .ok (.text t')
  split
  · exact ⟨code, rfl⟩
  · exact ⟨t, rfl⟩

theorem ends_readColumn (before : List Column) {descriptor : Value} (h : IsDescriptor descriptor) :
    Ends Fault.IsRecord Column.IsText (readColumn before descriptor) := by
  obtain ⟨fields, code, label, rfl, hcode, hlabel⟩ := h
  obtain ⟨header, hheader⟩ := exists_headerOf label code
  rw [readColumn, hcode, hlabel, hheader]
  dsimp only
  split
  · rfl
  · -- a text may name an entry, so only a repeated header is left to refuse
    change Ends _ _ (if before.any (·.header.equals (.text header)) = true then _ else _)
    split
    · rfl
    · exact ⟨header, code, rfl, rfl⟩

theorem ends_readColumns {descriptors : List Value} (h : ∀ d ∈ descriptors, IsDescriptor d)
    {before : List Column} (hbefore : ∀ col ∈ before, col.IsText) :
    Ends Fault.IsRecord (fun cols => ∀ col ∈ cols, col.IsText) (readColumns before descriptors) := by
  induction descriptors generalizing before with
  | nil => exact hbefore
  | cons descriptor rest ih =>
    obtain ⟨hd, hrest⟩ := List.forall_mem_cons.mp h
    refine (ends_readColumn before hd).bind fun col hcol => ih hrest ?_
    exact List.forall_mem_append.mpr ⟨hbefore, List.forall_mem_singleton.mpr hcol⟩

/-- The columns that an answer tells. -/
theorem ends_columns {answer : Value}
    (h : ∀ payload, payload? answer = some payload → TellsColumns payload) (identifier : Value) :
    Ends Fault.IsRecord HasTexts (ofAnswer answer identifier) := by
  refine (ends_unwrap h).bind fun payload hpayload => ?_
  refine (ends_descriptorsOf (h payload hpayload)).bind fun descriptors hd => ?_
  exact (ends_readColumns hd fun _ hcol => absurd hcol List.not_mem_nil).bind fun cols hcols => hcols

/-- The columns of a shaped answer. -/
theorem ends_ofAnswer {answer : Value}
    (h : ∀ payload, payload? answer = some payload → IsShaped payload) (identifier : Value) :
    Ends Fault.IsRecord Query.HasTextCodes (ofAnswer answer identifier) :=
  (ends_columns (fun payload hpayload => (h payload hpayload).tellsColumns) identifier).mono
    (fun _ => id) fun _ => HasTexts.hasTextCodes

end Columns

/-! ## Records -/

namespace Response

/-- A column that has a name stands in the answer at its position. -/
def Slot.IsOf (descriptors : List Value) (slot : Slot) : Prop :=
  ∃ d, descriptors[slot.position]? = some d ∧ slot.type = typeOf d

theorem ends_keyOf (columns : Option Columns) {descriptor : Value} (h : IsDescriptor descriptor) :
    Ends Fault.Never (fun _ => True) (keyOf columns descriptor) := by
  obtain ⟨fields, code, label, rfl, hcode, hlabel⟩ := h
  obtain ⟨t, ht⟩ := Columns.exists_labelText label
  unfold keyOf
  dsimp only
  rw [hlabel, ht]
  change Ends _ _ (if (!t.isEmpty) = true then _ else _)
  split
  · exact trivial
  · cases columns with
    | none => exact trivial
    | some c =>
      rw [hcode]
      exact trivial

theorem ends_slotsOf (columns : Option Columns) {descriptors : List Value}
    (h : ∀ d ∈ descriptors, IsDescriptor d) :
    Ends Fault.Never (fun slots => ∀ slot ∈ slots, slot.IsOf descriptors)
      (slotsOf columns descriptors) := by
  refine (Ends.mapM fun d hd => ends_keyOf columns (h d hd)).bind fun keys _ slot hslot => ?_
  obtain ⟨⟨⟨key, d⟩, position⟩, hp, hslot⟩ := List.mem_filterMap.mp hslot
  obtain ⟨key', -, rfl⟩ := Option.map_eq_some_iff.mp hslot
  rw [List.mem_zipIdx_iff_getElem?, List.getElem?_zip_eq_some] at hp
  exact ⟨d, hp.2, rfl⟩

/-- A row has an object or nothing at each position. -/
theorem ends_cellAt {row : Value} (h : IsRow row) (position : Nat) :
    Ends Fault.Never (fun cell => cell = .null ∨ ∃ fields, cell = .mapping fields)
      (cellAt (cellsOf row) position) := by
  obtain ⟨fields, cells, rfl, hcells, hcell⟩ := h
  rw [cellsOf, hcells, cellAt]
  split
  · exact Or.inl rfl
  · rw [List.getD_eq_getElem?_getD]
    cases hget : cells[position]? with
    | none => exact Or.inl rfl
    | some cell => exact hcell cell (List.mem_of_getElem? hget)

/-- A row cannot be decoded iff it has an illegible value at the position of a named column. -/
theorem failsIff_recordOf {slots : List Slot} {row : Value} (hrow : IsRow row) :
    (recordOf slots row).FailsIff (∃ slot ∈ slots, ∃ cell,
      cellAt (cellsOf row) slot.position = .ok (.mapping cell) ∧
        Illegible slot.type (Value.get cell "v")) := by
  refine Noted.failsIff_foldlM (fun slot _ record => ?_) _
  obtain ⟨cell, hcell, hobject⟩ := (ends_cellAt hrow slot.position).exists_ok
  rw [hcell]
  refine (Noted.gives_liftExcept (.ok cell)).bind_failsIff ?_
  rcases hobject with rfl | ⟨fields, rfl⟩
  · exact (Noted.failsIff_pure _).congr (by simp)
  · refine ((failsIff_decodeCell fields).bind fun v => Noted.failsIff_pure _).congr ?_
    simp

/-- A shaped and legible table is decoded. -/
theorem endsIn_recordsOf (columns : Option Columns) {payload table : Entries Value}
    (hshaped : IsShaped payload) (hlegible : IsLegible payload)
    (htable : Value.get payload "table" = .mapping table)
    (hcols : (Value.get table "cols").isBlank = false)
    (hrows : (Value.get table "rows").isBlank = false) :
    Noted.EndsIn Fault.Never (fun _ => True)
      (recordsOf columns (Value.get table "cols") (Value.get table "rows")) := by
  have hdescriptors := ends_eachGiven (hshaped.cols table htable)
  have hitems := ends_eachGiven (hshaped.rows table htable)
  rw [hcols] at hdescriptors
  rw [hrows] at hitems
  refine (Noted.endsIn_liftExcept hdescriptors).bind fun descriptors hd => ?_
  refine (Noted.endsIn_liftExcept (ends_slotsOf columns hd.2)).bind fun slots hslots => ?_
  refine (Noted.endsIn_liftExcept hitems).bind fun rows hr => ?_
  refine (Noted.failsIff_mapM fun row hrow => failsIff_recordOf (hr.2 row hrow)).endsIn ?_
  rintro ⟨row, hrow, slot, hslot, cell, hcell, hillegible⟩
  obtain ⟨d, hd', htype⟩ := hslots slot hslot
  refine hlegible.cells table descriptors rows htable (hd.1.resolve_left Bool.false_ne_true)
    (hr.1.resolve_left Bool.false_ne_true) row hrow slot.position d hd' cell hcell ?_
  rwa [← htype]

theorem endsIn_tableRecords (columns : Option Columns) {payload : Entries Value}
    (hshaped : IsShaped payload) (hlegible : IsLegible payload) :
    Noted.EndsIn Fault.IsRecord (fun _ => True) (tableRecords columns (Value.get payload "table")) := by
  unfold tableRecords
  split
  · exact Noted.endsIn_pure trivial
  · split
    · rename_i table htable
      dsimp only
      split
      · exact Noted.endsIn_pure trivial
      · rename_i hblank
        rw [Bool.not_eq_true, Bool.or_eq_false_iff] at hblank
        exact (endsIn_recordsOf columns hshaped hlegible htable hblank.1 hblank.2).mono
          fun _ => False.elim
    · exact (Noted.gives_throw _).endsIn rfl

/-- A shaped and legible answer is decoded, or refused with one of this library's own faults. -/
theorem endsIn_parse {answer : Value}
    (hshaped : ∀ payload, payload? answer = some payload → IsShaped payload)
    (hlegible : ∀ payload, payload? answer = some payload → IsLegible payload)
    (columns : Option Columns) : Noted.EndsIn Fault.IsRecord (fun _ => True) (parse columns answer) := by
  refine (Noted.endsIn_liftExcept (ends_unwrap fun payload h =>
    (hshaped payload h).tellsColumns)).bind fun payload hpayload => ?_
  have hwarnings : Ends Fault.IsRecord (fun _ => True) (Value.get payload "warnings").eachGiven :=
    (ends_eachGiven (hlegible payload hpayload).warnings).mono (fun _ => False.elim) fun _ _ => trivial
  refine (Noted.endsIn_liftExcept hwarnings).bind fun warnings _ => ?_
  have hrecords := endsIn_tableRecords columns (hshaped payload hpayload) (hlegible payload hpayload)
  have hanswer : Noted.EndsIn Fault.IsRecord (fun _ => True) (do
      let records ← tableRecords columns (Value.get payload "table")
      return (⟨records, warnings⟩ : Answer)) :=
    hrecords.bind fun _ _ => Noted.endsIn_pure trivial
  dsimp only
  split
  · exact (Noted.endsIn_note _ _).bind fun _ _ => hanswer
  · exact hanswer

end Response

end RowStore
