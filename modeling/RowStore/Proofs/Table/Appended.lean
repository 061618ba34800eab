import RowStore.Proofs.Table.Created
import RowStore.Proofs.Table.Matched

/-!
# What a creation of records appends

* `Value.cellUnder`, `Columns.newRow` : the cells that are written for a record;
* `Valid c records` : what records have to be like, whatever the sheet is; `rowsOf_eq_ok_iff_valid` :
  just such records are given rows, if they can be written, and these are their new rows;
  `rowsOf_eq_malformed` : if they cannot, that is the fault;
* `createMany_appends` : valid records whose identifiers the sheet does not have are appended; otherwise
  the sheet stays as it is, and records that are not valid are not even looked up in it.
-/

namespace RowStore

open Act

/-- What is written under a header for a record: its value there, or the empty text if it has none. -/
def Value.cellUnder (record header : Value) : Value :=
  match record with
  | .mapping entries => ((Entries.find? entries header).map toCell).getD (.text "")
  | _ => .text ""

/-- The row that is written for a record, with one cell for each header. -/
def Columns.newRow (c : Columns) (record : Value) : Row := c.headers.map record.cellUnder

namespace Table

variable {σ : Type} {party : Party σ} {K : Keeper party} {t : Table} {c : Columns} {record : Value}
  {records : List Value} {before : List Text} {rows top data : Rows} {h : Nat} {s : Session} {st : σ}

/-! ## Valid records -/

/-- Records that may be created as far as they alone go: there are some, each of them is a mapping with
a known header, and where there is an identifier column, their identifiers are not blank and differ in
more than white space. -/
structure Valid (c : Columns) (records : List Value) : Prop where
  some : records ≠ []
  known : ∀ record ∈ records, ∃ entries, record = .mapping entries ∧ c.Names entries
  identified : [] ∉ givenTexts c records
  distinct : (givenTexts c records).Nodup

/-- No field is known just when no known header is named. -/
theorem known_eq_nil_iff {entries : Entries Value} : known c entries = [] ↔ ¬ c.Names entries := by
  rw [known, List.filter_eq_nil_iff, Columns.Names]
  simp

/-- The cells of the known fields are the new row of the record. -/
theorem cellsIn_known (hd : Distinct c.list) (entries : Entries Value) :
    cellsIn c (known c entries) = c.newRow (.mapping entries) := by
  refine List.map_congr_left fun header hheader => ?_
  rw [find?_known hd hheader, Value.cellUnder]
  cases entries.find? header <;> rfl

theorem newRow?_eq_some_iff {row : Row} (hd : Distinct c.list) : newRow? c record = some row ↔
    (∃ entries, record = .mapping entries ∧ c.Names entries) ∧ [] ∉ givenTexts c [record] ∧
      hasCells c record = true ∧ row = c.newRow record := by
  constructor
  · intro hrow
    obtain ⟨entries, rfl, -⟩ := newRow?_eq_some hrow
    have hknown : known c entries ≠ [] := by
      intro hnone
      unfold newRow? at hrow
      split at hrow
      · rename_i hentries
        cases hentries
        obtain ⟨hgood, -⟩ := Option.ite_none_left_eq_some.mp hrow
        exact hgood (Or.inl hnone)
      · cases hrow
    obtain ⟨hidentified, hcells, rfl⟩ := (newRow?_mapping_eq_some_iff hknown).mp hrow
    exact ⟨⟨_, rfl, not_not.mp (mt known_eq_nil_iff.mpr hknown)⟩, hidentified, hcells, cellsIn_known hd _⟩
  · rintro ⟨⟨entries, rfl, hnames⟩, hidentified, hcells, rfl⟩
    exact (newRow?_mapping_eq_some_iff fun hnone => known_eq_nil_iff.mp hnone hnames).mpr
      ⟨hidentified, hcells, (cellsIn_known hd _).symm⟩

theorem mapM_newRow?_eq_some_iff (hd : Distinct c.list) : records.mapM (newRow? c) = some rows ↔
    (∀ record ∈ records, ∃ entries, record = .mapping entries ∧ c.Names entries) ∧
      [] ∉ givenTexts c records ∧ (∀ record ∈ records, hasCells c record = true) ∧ rows = records.map c.newRow := by
  induction records generalizing rows with
  | nil =>
    rw [List.mapM_nil, givenTexts_nil]
    exact ⟨fun h => ⟨fun _ hr => (nomatch hr), List.not_mem_nil, fun _ hr => (nomatch hr), (Option.some.inj h).symm⟩,
      fun h => congrArg some h.2.2.2.symm⟩
  | cons record rest ih =>
    rw [mapM_newRow?_cons_eq_some, givenTexts_cons, List.mem_append, not_or, List.forall_mem_cons,
      List.forall_mem_cons, List.map_cons]
    constructor
    · rintro ⟨row, more, hrow, hmore, rfl⟩
      obtain ⟨hfirst, hidentified, hcell, rfl⟩ := (newRow?_eq_some_iff hd).mp hrow
      obtain ⟨hrest, hothers, hcells, rfl⟩ := ih.mp hmore
      exact ⟨⟨hfirst, hrest⟩, ⟨hidentified, hothers⟩, ⟨hcell, hcells⟩, rfl⟩
    · rintro ⟨⟨hfirst, hrest⟩, ⟨hidentified, hothers⟩, ⟨hcell, hcells⟩, rfl⟩
      exact ⟨_, _, (newRow?_eq_some_iff hd).mpr ⟨hfirst, hidentified, hcell, rfl⟩,
        ih.mpr ⟨hrest, hothers, hcells, rfl⟩, rfl⟩

/-- Just valid records that can be written are given rows, and these are their new rows. -/
theorem rowsOf_eq_ok_iff_valid (hd : Distinct c.list) : rowsOf c records = .ok rows ↔
    (Valid c records ∧ ∀ record ∈ records, hasCells c record = true) ∧ rows = records.map c.newRow := by
  by_cases hrecords : records = []
  · subst hrecords
    exact ⟨fun h => (nomatch h), fun h => absurd rfl h.1.1.some⟩
  · rw [rowsOf_eq_ok_iff hrecords, mapM_newRow?_eq_some_iff hd]
    exact ⟨fun ⟨⟨hknown, hidentified, hcells, hrows⟩, hdistinct⟩ =>
        ⟨⟨⟨hrecords, hknown, hidentified, hdistinct⟩, hcells⟩, hrows⟩,
      fun ⟨⟨hvalid, hcells⟩, hrows⟩ => ⟨⟨hvalid.known, hvalid.identified, hcells, hrows⟩, hvalid.distinct⟩⟩

/-- Valid records that can be written fit a sheet that has none of their identifiers. -/
theorem fits_iff_valid (hd : Distinct c.list) (hrecords : records ≠ []) :
    (Fits c data records rows ∧ (givenTexts c records).Nodup) ↔
      ((Valid c records ∧ ∀ record ∈ records, hasCells c record = true) ∧
          (textsIn c data).Disjoint (writtenTexts c records)) ∧
        rows = records.map c.newRow := by
  have hgiven : records.mapM (newRow? c) = some rows ∧ (givenTexts c records).Nodup ↔
      (Valid c records ∧ ∀ record ∈ records, hasCells c record = true) ∧ rows = records.map c.newRow := by
    rw [← rowsOf_eq_ok_iff hrecords]
    exact rowsOf_eq_ok_iff_valid hd
  constructor
  · rintro ⟨⟨hrows, hnew⟩, hdistinct⟩
    obtain ⟨hvalid, hrows⟩ := hgiven.mp ⟨hrows, hdistinct⟩
    exact ⟨⟨hvalid, hnew⟩, hrows⟩
  · rintro ⟨⟨hvalid, hnew⟩, hrows⟩
    obtain ⟨hrows, hdistinct⟩ := hgiven.mpr ⟨hvalid, hrows⟩
    exact ⟨⟨hrows, hnew⟩, hdistinct⟩

/-- The cells of a record are not to be had only if one of them cannot be written. -/
theorem ends_cellsOf_malformed (entries : Entries Value) :
    Ends (· = Fault.malformed) (fun _ => True) (cellsOf c entries) := by
  have hcell : ∀ v : Value, Ends (· = Fault.malformed) (fun _ => True) v.cellOf := by
    intro v
    rw [Value.cellOf]
    split
    · exact trivial
    · rfl
  exact (Ends.mapM fun _ _ => hcell _).mono (fun _ => id) fun _ _ => trivial

/-- The text of a new identifier is not to be had only if it cannot be written. -/
theorem ends_identifierText_malformed {header : Value} {entries : Entries Value} {text : Text}
    (htext : Text.trim ((entries.find? header).getD .null).asText = text) (hsome : text ≠ [])
    (hnew : text ∉ before) (position : Nat) :
    Ends (· = Fault.malformed) (· = text) (identifierText position header entries before) := by
  cases hhas : ((entries.find? header).getD .null).hasText with
  | false =>
    rw [identifierText, Value.comparedText_of_not_hasText hhas]
    rfl
  | true =>
    rw [identifierText_eq_ok_iff.mpr ⟨hhas, htext, hsome, hnew⟩]
    rfl

/-- The only fault of a record that is valid by itself is that it cannot be written. -/
theorem ends_rowFor_of_valid {position : Nat}
    (hknown : ∃ entries, record = .mapping entries ∧ c.Names entries) (hidentified : [] ∉ givenTexts c [record])
    (hnew : before.Disjoint (givenTexts c [record])) :
    Ends (· = Fault.malformed) (fun p => p.2 = before ++ givenTexts c [record]) (rowFor c position before record) := by
  obtain ⟨entries, rfl, hnames⟩ := hknown
  cases entries with
  | nil =>
    obtain ⟨e, he, -⟩ := hnames
    cases he
  | cons e rest =>
    have hcells := ends_cellsOf_malformed (c := c) (known c (e :: rest))
    rw [rowFor, if_neg fun hempty => known_eq_nil_iff.mp (List.isEmpty_iff.mp hempty) hnames]
    dsimp only
    cases hid : c.identifierHeader with
    | none =>
      rw [givenTexts_of_none hid, List.append_nil]
      exact hcells.bind fun _ _ => rfl
    | some header =>
      rw [givenTexts_singleton hid, List.mem_singleton] at hidentified
      rw [givenTexts_singleton hid, List.disjoint_singleton] at hnew
      rw [givenTexts_singleton hid]
      refine (ends_identifierText_malformed rfl (Ne.symm hidentified) hnew position).bind fun text htext =>
        hcells.bind fun _ _ => ?_
      rw [htext]
      rfl

/-- Valid records that cannot all be written are refused by no check: writing one of them fails. -/
theorem rowsOf_eq_malformed (hd : Distinct c.list) (hvalid : Valid c records)
    (hcells : ¬ ∀ record ∈ records, hasCells c record = true) :
    rowsOf c records = .error .malformed := by
  have hthrough : ∀ position before records,
      (∀ record ∈ records, ∃ entries, record = .mapping entries ∧ c.Names entries) →
      [] ∉ givenTexts c records → (before ++ givenTexts c records).Nodup →
      Ends (· = Fault.malformed) (fun _ => True) (rowsThrough c position before records) := by
    intro position before records
    induction records generalizing position before with
    | nil => exact fun _ _ _ => trivial
    | cons record rest ih =>
      intro hknown hidentified hdistinct
      obtain ⟨hfirst, hrest⟩ := List.forall_mem_cons.mp hknown
      rw [givenTexts_cons, List.mem_append, not_or] at hidentified
      rw [givenTexts_cons, ← List.append_assoc] at hdistinct
      have hnew := (List.nodup_append'.mp (List.nodup_append'.mp hdistinct).1).2.2
      refine (ends_rowFor_of_valid hfirst hidentified.1 hnew).bind fun p hp => ?_
      rw [← hp] at hdistinct
      exact (ih (position + 1) p.2 hrest hidentified.2 hdistinct).bind fun _ _ => trivial
  have hends := hthrough 0 [] records hvalid.known hvalid.identified hvalid.distinct
  have hrows : rowsOf c records = rowsThrough c 0 [] records := if_neg (mt List.isEmpty_iff.mp hvalid.some)
  cases hresult : rowsOf c records with
  | ok rows => exact absurd ((rowsOf_eq_ok_iff_valid hd).mp hresult).1.2 hcells
  | error fault =>
    rw [← hrows, hresult] at hends
    exact congrArg Except.error hends

/-! ## Creating them -/

/-- Records that are not given rows are refused, or raise a fault, and nothing is asked for. -/
theorem run_createMany_of_error (party : Party σ) (t : Table) (hs : Ready c s) (hc : c.isEmpty = false)
    {fault : Fault} (hfault : rowsOf c records = .error fault) (st : σ) :
    let ended := run party (t.perform (.createMany (.list records))) s st
    ended.1 = (Operation.createMany (.list records)).failure fault ∧ ended.2.2 = st ∧
      asked party (t.perform (.createMany (.list records))) s st = [] := by
  have hop := Operation.creates_createMany records
  have hintent : t.intent c (.createMany (.list records)) = .error fault := by
    rw [hop.asks, insertion, hfault]
    rfl
  exact run_of_refused party hs hc hop.writes ⟨_, hop.given⟩ hintent st

/-- Records that are not valid, or cannot be written, are refused or raise a fault, and nothing is asked for. -/
theorem run_createMany_of_not_valid (party : Party σ) (t : Table) (hs : Ready c s)
    (hc : c.isEmpty = false) (hd : Distinct c.list)
    (hvalid : ¬ (Valid c records ∧ ∀ record ∈ records, hasCells c record = true)) (st : σ) :
    let ended := run party (t.perform (.createMany (.list records))) s st
    (ended.1 = .ok (.count 0) ∨ (ended.1 = .error .malformed ∧ Value.haveTexts records = false)) ∧
      ended.2.2 = st ∧ asked party (t.perform (.createMany (.list records))) s st = [] := by
  have hends := ends_rowsOf (c := c) records
  cases hrowsOf : rowsOf c records with
  | ok rows => exact absurd ((rowsOf_eq_ok_iff_valid hd).mp hrowsOf).1 hvalid
  | error fault =>
    rw [hrowsOf] at hends
    obtain ⟨houtcome, hended⟩ := run_createMany_of_error party t hs hc hrowsOf st
    refine ⟨?_, hended⟩
    rw [houtcome]
    rcases hends with hrefusal | ⟨rfl, htexts⟩
    · exact Or.inl (if_pos hrefusal)
    · exact Or.inr ⟨rfl, htexts⟩

/-- Where no call fails, records are appended in their order if they are valid and can be written and the sheet
has none of the identifiers that are written; otherwise the sheet stays as it is, and their creation gives zero,
or is ended by a number in them that is too long to be written, as always for valid records that cannot be
written. For records that are not valid or cannot be written, neither the lock nor anything else is asked for. -/
theorem createMany_appends (K : Keeper party) (hw : Writable K t h) (hs : Ready c s)
    (hc : c.isEmpty = false) (hd : Distinct c.list) (hst : K.sound st) (htop : top.length = h)
    (hrows : (K.ledger st).rows = top ++ data) (records : List Value) :
    let writable := ∀ record ∈ records, hasCells c record = true
    let fits := (Valid c records ∧ writable) ∧ (textsIn c data).Disjoint (writtenTexts c records)
    let ended := run party (t.perform (.createMany (.list records))) s st
    ((records ≠ [] ∧ ended.1 = .ok (.count records.length) ∧
        (K.ledger ended.2.2).rows = top ++ (data ++ records.map c.newRow)) ↔ fits) ∧
      (¬ fits → K.ledger ended.2.2 = K.ledger st ∧
        (ended.1 = .ok (.count 0) ∨ (ended.1 = .error .malformed ∧ Value.haveTexts records = false))) ∧
      (¬ (Valid c records ∧ writable) →
        asked party (t.perform (.createMany (.list records))) s st = []) ∧
      (Valid c records → ¬ writable → ended.1 = .error .malformed) := by
  intro writable fits ended
  have hinvalid := fun hvalid : ¬ (Valid c records ∧ writable) =>
    run_createMany_of_not_valid party t hs hc hd hvalid st
  have hunwritten : Valid c records → ¬ writable → ended.1 = .error .malformed :=
    fun hvalid hcells => (run_createMany_of_error party t hs hc (rowsOf_eq_malformed hd hvalid hcells) st).1
  have hcases : (fits ∧ ended.1 = .ok (.count records.length) ∧
      (K.ledger ended.2.2).rows = top ++ (data ++ records.map c.newRow)) ∨
      (¬ fits ∧ K.ledger ended.2.2 = K.ledger st ∧
        (ended.1 = .ok (.count 0) ∨ (ended.1 = .error .malformed ∧ Value.haveTexts records = false))) := by
    by_cases hvalid : Valid c records ∧ writable
    · have hsome := hvalid.1.some
      rcases run_creation K hw hs hc hd hst htop hrows (Operation.creates_createMany records)
        hsome with ⟨rows, hnew, houtcome, hafter⟩ | ⟨hnone, ⟨fault, houtcome⟩, hledger⟩
      · obtain ⟨hfits, rfl⟩ := (fits_iff_valid hd hsome).mp hnew
        rw [List.length_map] at houtcome
        exact Or.inl ⟨hfits, houtcome, hafter⟩
      · refine Or.inr ⟨fun hfits => hnone ⟨_, (fits_iff_valid hd hsome).mpr ⟨hfits, rfl⟩⟩, hledger, Or.inl ?_⟩
        refine houtcome.resolve_right fun ⟨hfault, _⟩ => ?_
        cases hfault.symm.trans ((rowsOf_eq_ok_iff_valid hd).mpr ⟨hvalid, rfl⟩)
    · obtain ⟨houtcome, hended, -⟩ := hinvalid hvalid
      exact Or.inr ⟨fun hfits => hvalid hfits.1, congrArg K.ledger hended, houtcome⟩
  rcases hcases with ⟨hfits, houtcome, hafter⟩ | ⟨hunfit, hledger, houtcome⟩
  · exact ⟨⟨fun _ => hfits, fun _ => ⟨hfits.1.1.some, houtcome, hafter⟩⟩,
      fun hunfit => absurd hfits hunfit, fun hvalid => absurd hfits.1 hvalid, hunwritten⟩
  · refine ⟨⟨fun ⟨hsome, hcount, _⟩ => ?_, fun hfits => absurd hfits hunfit⟩,
      fun _ => ⟨hledger, houtcome⟩, fun hvalid => (hinvalid hvalid).2.2, hunwritten⟩
    -- No records are created only if there are none.
    rcases houtcome with houtcome | ⟨houtcome, -⟩
    · have hzero := Outcome.count.inj (Except.ok.inj (houtcome.symm.trans hcount))
      exact absurd (List.length_eq_zero_iff.mp hzero.symm) hsome
    · cases houtcome.symm.trans hcount

open Sample in
/-- Of the rows that are there, one has no name and one has no cell at all; of the new records, one has no
name, but a town. -/
theorem createMany_appends_users :
    let K := Scripted.keeper fun _ => false
    let data := [row "e1" "Alice", [.text "e2"], []]
    let records := [user "e3" "Carol", .mapping [(.text "Town", .text "Bonn"), (.text "id", .int 4)]]
    let ended := run (Scripted.party fun _ => false)
      ((table (.int 30000)).perform (.createMany (.list records))) session
      (.ofRows ([row "id" "Name"] ++ data))
    ended.1 = .ok (.count 2) ∧ (K.ledger ended.2.2).rows =
      [row "id" "Name"] ++ (data ++ [row "e3" "Carol", [.int 4, .text ""]]) := by
  intro K data records
  have hs : Ready columns session := ⟨rfl, rfl⟩
  have hd := distinct_columns
  have hst : K.sound (.ofRows ([row "id" "Name"] ++ data)) := Scripted.sound_ofRows _
  have hvalid : Valid columns records := by
    refine ⟨List.cons_ne_nil _ _, fun record hrecord => ?_, by decide, by decide⟩
    rcases List.mem_pair.mp hrecord with rfl | rfl
    · exact ⟨_, rfl, by decide⟩
    · exact ⟨_, rfl, by decide⟩
  have hnew : (textsIn columns data).Disjoint (writtenTexts columns records) := by
    intro text hdata hrecords
    have hnone : ∀ text ∈ textsIn columns data, text ∉ writtenTexts columns records := by decide
    exact hnone text hdata hrecords
  have hrows : records.map columns.newRow = [row "e3" "Carol", [.int 4, .text ""]] := rfl
  have happended := (createMany_appends K Writable.sample hs rfl hd hst rfl rfl records).1.mpr
    ⟨⟨hvalid, by decide +kernel⟩, hnew⟩
  rw [hrows] at happended
  exact happended.2

end Table

end RowStore
