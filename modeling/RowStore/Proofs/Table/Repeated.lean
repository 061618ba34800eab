import RowStore.Proofs.Table.Obtained
import RowStore.Proofs.Table.Updated

/-!
# Updates that are repeated

* `rewritten c conditions fields row` : what an update makes of a row; `run_updateMany_rewritten` : an update
  of all rows makes this of every row, if its values can be written; `run_updateMany_of_none` : otherwise it
  changes nothing;
* `selects_rewritten`, `rewritten_rewritten` : where conditions and fields are on different columns, the
  conditions select the same rows afterwards, and these rows do not change any more;
* `updateMany_repeated` : such an update gives the same number a second time, and leaves the sheet as it is.
-/

namespace RowStore.Table

open Act

variable {σ : Type} {party : Party σ} {K : Keeper party} {t : Table} {c : Columns}
  {conditions fields : Entries Value} {h : Nat} {top data : Rows} {s : Session} {st : σ}

/-- What an update makes of a row: its new cells are written if the conditions select it. -/
def rewritten (c : Columns) (conditions fields : Entries Value) (row : Row) : Row :=
  if c.Selects conditions row then row.setAll (cellFields c (changesOf c fields)) else row

/-- How many rows an update changes: none if it changes no field. -/
def changed (c : Columns) (conditions fields : Entries Value) (data : Rows) : Nat :=
  if changesOf c fields = [] then 0 else data.countP (c.Selects conditions)

/-- The conditions and the fields that are changed are on different columns. -/
def Apart (c : Columns) (conditions fields : Entries Value) : Prop :=
  ∀ field ∈ changesOf c fields, ∀ condition ∈ conditions,
    c.positions.find? field.1 ≠ c.positions.find? condition.1

instance (c : Columns) (conditions fields : Entries Value) : Decidable (Apart c conditions fields) :=
  inferInstanceAs (Decidable (∀ _ ∈ _, ∀ _ ∈ _, _ ≠ _))

/-! ## Rows -/

/-- An update changes no text that its conditions look at. -/
theorem selects_rewritten (hapart : Apart c conditions fields) (row : Row) :
    c.Selects conditions (rewritten c conditions fields row) ↔ c.Selects conditions row := by
  rw [rewritten]
  split
  · refine and_congr_right fun _ => forall_congr' fun e => forall_congr' fun he =>
      forall_congr' fun p => forall_congr' fun hp => ?_
    have hne : ∀ target ∈ cellFields c (changesOf c fields), target.1 ≠ p := by
      rintro ⟨_, v⟩ htarget rfl
      obtain ⟨field, hfield, hposition, -⟩ := mem_cellFields.mp htarget
      exact hapart field hfield e he (hposition.trans hp.symm)
    rw [Row.textAt_setAll hne]
  · exact Iff.rfl

theorem rewritten_rewritten (hd : Distinct c.list) (hfields : fields.Named)
    (hapart : Apart c conditions fields) (row : Row) :
    rewritten c conditions fields (rewritten c conditions fields row) =
      rewritten c conditions fields row := by
  by_cases hrow : c.Selects conditions row
  · have hagain := (selects_rewritten hapart row).mpr hrow
    rw [rewritten, if_pos hagain, rewritten, if_pos hrow, Row.setAll_setAll (nodup_cellFields hd hfields)]
  · have hrewritten : rewritten c conditions fields row = row := if_neg hrow
    rw [hrewritten, hrewritten]

theorem countP_map_rewritten (hapart : Apart c conditions fields) (data : Rows) :
    (data.map (rewritten c conditions fields)).countP (c.Selects conditions) =
      data.countP (c.Selects conditions) := by
  rw [List.countP_map]
  refine List.countP_congr fun row _ => ?_
  simpa using selects_rewritten hapart row

/-- Where no row is selected, or no field changed, every row stays. -/
theorem map_rewritten_of_none
    (hnone : changesOf c fields = [] ∨ data.countP (c.Selects conditions) = 0) :
    data.map (rewritten c conditions fields) = data := by
  refine (List.map_congr_left fun row hrow => ?_).trans (List.map_id data)
  rw [rewritten]
  rcases hnone with hchanges | hnone
  · rw [hchanges]
    exact ite_self row
  · exact if_neg fun hselects => List.countP_eq_zero.mp hnone row hrow (decide_eq_true hselects)

/-! ## Runs -/

theorem changesOf_ne_nil {changes : Entries Value}
    (h : fieldsChanged c (.mapping fields) = .ok changes) : changesOf c fields ≠ [] := by
  cases fields with
  | nil => cases h
  | cons e rest =>
    obtain ⟨hsome, -⟩ := of_guard_eq_ok h
    exact fun hnil => hsome (List.isEmpty_iff.mpr hnil)

/-- Where no row is selected, no field changed, or one cannot be written, an update has no plan. -/
theorem planned_updateMany_of_none (hw : Writable K t h) (htop : top.length = h)
    (hnone : changesOf c fields = [] ∨ data.countP (c.Selects conditions) = 0 ∨
      ¬ ∀ e ∈ changesOf c fields, e.2.hasCell = true) :
    ∃ fault, t.planned c (.updateMany (.mapping conditions) (.mapping fields)) (top ++ data) =
      .error fault := by
  by_cases hintends : ∃ i, t.intent c (.updateMany (.mapping conditions) (.mapping fields)) = .ok i
  · obtain ⟨i, hintent⟩ := hintends
    obtain ⟨changes, hchanges, rfl⟩ := updating_eq_ok hintent
    have hsome := changesOf_ne_nil hchanges
    rcases Nat.eq_zero_or_pos (data.countP (c.Selects conditions)) with hzero | hpos
    · rw [planned, hintent]
      refine ⟨noMatch c conditions, ?_⟩
      change t.grid.permitted (t.outline c (top ++ data) _) = _
      rw [outline, matched_eq hw htop, if_pos hzero]
      rfl
    · obtain ⟨row, -, hrow⟩ := List.countP_pos_iff.mp hpos
      have hnames := (of_decide_eq_true hrow).1
      have hcells := (hnone.resolve_left hsome).resolve_left (Nat.pos_iff_ne_zero.mp hpos)
      have hfulfil : 0 < data.countP (c.Fulfils conditions) := by
        simpa only [Columns.selects_eq hnames] using hpos
      have hnumbers : numbersOf c conditions h data ≠ [] := by
        rw [← List.length_pos_iff, length_numbersOf]
        exact hfulfil
      obtain ⟨fault, hfault⟩ := exists_error_cellsFor (c := c) hnumbers hcells
      rw [planned_updateMany_eq hw htop hnames hfulfil hsome, hfault]
      exact ⟨fault, rfl⟩
  · rw [planned]
    cases hintent : t.intent c (.updateMany (.mapping conditions) (.mapping fields)) with
    | error fault => exact ⟨fault, rfl⟩
    | ok i => exact absurd ⟨i, hintent⟩ hintends

section

variable (K : Keeper party) (hw : Writable K t h) (hs : Ready c s) (hc : c.isEmpty = false)
  (hst : K.sound st) (htop : top.length = h) (hrows : (K.ledger st).rows = top ++ data)
include hw hs hc hst htop hrows

/-- Where no row is selected, no field changed, or one cannot be written, an update gives zero and leaves the
sheet alone. -/
theorem run_updateMany_of_none (hnone : changesOf c fields = [] ∨ data.countP (c.Selects conditions) = 0 ∨
      ¬ ∀ e ∈ changesOf c fields, e.2.hasCell = true) :
    let ended := run party (t.perform (.updateMany (.mapping conditions) (.mapping fields))) s st
    ended.1 = .ok (.count 0) ∧ K.ledger ended.2.2 = K.ledger st := by
  obtain ⟨fault, hplanned⟩ := planned_updateMany_of_none hw htop hnone
  rw [← hrows] at hplanned
  exact run_of_unplanned_of_ends K hw hs hc rfl ⟨[], rfl⟩ hst (ends_updating _ _ _) hplanned

/-- An update of all rows, with values that can be written, writes the new cells into those that its conditions
select, and gives their number. -/
theorem run_updateMany_rewritten (conditions : Entries Value)
    (hwritable : ∀ e ∈ changesOf c fields, e.2.hasCell = true) :
    let ended := run party (t.perform (.updateMany (.mapping conditions) (.mapping fields))) s st
    ended.1 = .ok (.count (changed c conditions fields data)) ∧
      (K.ledger ended.2.2).rows = top ++ data.map (rewritten c conditions fields) := by
  intro ended
  have hrecords : ∃ records, (Operation.updateMany (.mapping conditions) (.mapping fields)).records =
      .ok records := ⟨[], rfl⟩
  by_cases hnone : changesOf c fields = [] ∨ data.countP (c.Selects conditions) = 0
  · have hnone' : changesOf c fields = [] ∨ data.countP (c.Selects conditions) = 0 ∨
        ¬ ∀ e ∈ changesOf c fields, e.2.hasCell = true := hnone.imp_right Or.inl
    obtain ⟨houtcome, hledger⟩ := run_updateMany_of_none K hw hs hc hst htop hrows hnone'
    have hzero : changed c conditions fields data = 0 := by
      rw [changed]
      split
      · rfl
      · exact hnone.resolve_left ‹_›
    rw [map_rewritten_of_none hnone, hzero, hledger]
    exact ⟨houtcome, hrows⟩
  · obtain ⟨hchanges, hsome⟩ := not_or.mp hnone
    obtain ⟨row, hmem, hrow⟩ := List.countP_pos_iff.mp (Nat.pos_of_ne_zero hsome)
    have hnames := (of_decide_eq_true hrow).1
    have hselects := Columns.selects_eq hnames
    have hcount : changed c conditions fields data = data.countP (c.Fulfils conditions) := by
      rw [changed, if_neg hchanges]
      simp only [hselects]
    have hrewritten : rewritten c conditions fields = fun row =>
        if decide (c.Fulfils conditions row) = true then row.setAll (cellFields c (changesOf c fields))
        else row := by
      funext row
      simp only [rewritten, hselects, decide_eq_true_eq]
    have hfulfil : 0 < data.countP (c.Fulfils conditions) := by
      rw [← hcount, changed, if_neg hchanges]
      exact Nat.pos_of_ne_zero hsome
    have hknown : ∀ e ∈ changesOf c fields, c.positions.has e.1 = true :=
      fun e he => (mem_changesOf.mp he).2.1
    obtain ⟨cells, hcells, hfold⟩ := exists_cellsFor hknown hwritable
      (fun row => decide (c.Fulfils conditions row)) top data
    rw [htop] at hcells
    have hplanned := planned_updateMany_eq hw htop hnames hfulfil hchanges
    rw [← hrows, numbersOf, hcells] at hplanned
    obtain ⟨houtcome, hafter⟩ := run_of_planned K hw hs hc rfl hrecords hst hplanned id
    rw [hcount, hrewritten, ← hfold, ← hrows]
    exact ⟨houtcome, hafter⟩

/-- With kept columns, an update that does not touch what its conditions look at changes nothing more the
second time. -/
theorem run_updateMany_again (hd : Distinct c.list) (hfields : fields.Named)
    (hapart : Apart c conditions fields) :
    let update := t.perform (.updateMany (.mapping conditions) (.mapping fields))
    let first := run party update s st
    let second := run party update first.2.1 first.2.2
    (∃ n, first.1 = .ok (.count n) ∧ second.1 = .ok (.count n)) ∧
      (K.ledger second.2.2).rows = (K.ledger first.2.2).rows := by
  intro update first second
  have hwrites : (Operation.updateMany (.mapping conditions) (.mapping fields)).isWrite = true := rfl
  obtain ⟨hs', hst'⟩ := run_ready K t hs hc hwrites hst
  by_cases hwritable : ∀ e ∈ changesOf c fields, e.2.hasCell = true
  · obtain ⟨hcount, hafter⟩ := run_updateMany_rewritten K hw hs hc hst htop hrows conditions hwritable
    obtain ⟨hagain, hended⟩ := run_updateMany_rewritten K hw hs' hc hst' htop hafter conditions hwritable
    have hsame : changed c conditions fields (data.map (rewritten c conditions fields)) =
        changed c conditions fields data := by
      rw [changed, changed, countP_map_rewritten hapart]
    have htwice : (data.map (rewritten c conditions fields)).map (rewritten c conditions fields) =
        data.map (rewritten c conditions fields) := by
      rw [List.map_map]
      exact List.map_congr_left fun row _ => rewritten_rewritten hd hfields hapart row
    rw [hsame] at hagain
    rw [htwice] at hended
    exact ⟨⟨_, hcount, hagain⟩, hended.trans hafter.symm⟩
  · -- Neither time is anything written.
    have hnone : changesOf c fields = [] ∨ data.countP (c.Selects conditions) = 0 ∨
        ¬ ∀ e ∈ changesOf c fields, e.2.hasCell = true := Or.inr (Or.inr hwritable)
    obtain ⟨hcount, hledger⟩ := run_updateMany_of_none K hw hs hc hst htop hrows hnone
    obtain ⟨hagain, hended⟩ := run_updateMany_of_none K hw hs' hc hst' htop (hledger ▸ hrows) hnone
    exact ⟨⟨0, hcount, hagain⟩, congrArg Ledger.rows hended⟩

end

/-- Where no call fails, and with kept or fetched columns: an update of all rows whose conditions and fields
are on different columns, its identifier left aside, gives the same number when it is repeated, and leaves
the rows as they are. -/
theorem updateMany_repeated (K : Keeper party) (hw : Writable K t h) (hpending : s.pending = [])
    (hkept : ∀ c, s.columns = some c → Distinct c.list) (hst : K.sound st) (htop : top.length = h)
    (hrows : (K.ledger st).rows = top ++ data) (hcolumns : (run party t.requireColumns s st).1 = .ok c)
    (hfields : fields.Named) (hapart : Apart c conditions fields) :
    let update := t.perform (.updateMany (.mapping conditions) (.mapping fields))
    let first := run party update s st
    let second := run party update first.2.1 first.2.2
    (∃ n, first.1 = .ok (.count n) ∧ second.1 = .ok (.count n)) ∧
      (K.ledger second.2.2).rows = (K.ledger first.2.2).rows := by
  intro update first second
  obtain ⟨s', st', hhad⟩ := exists_obtained K t hpending hkept hcolumns
  have hrows' : (K.ledger st').rows = top ++ data := hhad.ledger ▸ hrows
  have hsame : first = run party update s' st' :=
    (Operation.checksFirst_updateMany t (.mapping conditions) (.mapping fields)).run_congr hhad.again
  obtain ⟨hcounts, hended⟩ := run_updateMany_again K hw hhad.ready hhad.filled (hhad.sound hst) htop hrows'
    hhad.distinct hfields hapart
  rw [← hsame] at hcounts hended
  exact ⟨hcounts, hended⟩

open Sample in
/-- Two users have no identifier, one of them no cell at all: both get a name, which changes nothing about
their having no identifier. -/
theorem updateMany_repeated_nobody :
    let party := Scripted.party fun _ => false
    let K : Keeper party := Scripted.keeper fun _ => false
    let st := Scripted.ofRows [row "id" "Name", row "e1" "Alice", [], row "" "Bob"]
    let conditions : Entries Value := [(.text "id", .null)]
    let fields : Entries Value := [(.text "Name", .text "Nobody")]
    let update := (table (.int 30000)).perform (.updateMany (.mapping conditions) (.mapping fields))
    let first := run party update session st
    let second := run party update first.2.1 first.2.2
    (∃ n, first.1 = .ok (.count n) ∧ second.1 = .ok (.count n)) ∧
      (K.ledger second.2.2).rows = (K.ledger first.2.2).rows ∧
      (K.ledger first.2.2).rows = [row "id" "Name", row "e1" "Alice", row "" "Nobody", row "" "Nobody"] := by
  intro party K st conditions fields
  have hs : Ready columns session := ⟨rfl, rfl⟩
  have hst : K.sound st := Scripted.sound_ofRows _
  have htop : [row "id" "Name"].length = 1 := rfl
  have hrows : (K.ledger st).rows =
      [row "id" "Name"] ++ [row "e1" "Alice", [], row "" "Bob"] := rfl
  have hcolumns : (run party (table (.int 30000)).requireColumns session st).1 = .ok columns := by
    rw [run_requireColumns_of_kept party _ rfl rfl]
  have hfields : fields.Named := ⟨by decide, by decide⟩
  have hapart : Apart columns conditions fields := by decide
  obtain ⟨hcounts, hsame⟩ := updateMany_repeated K Writable.sample rfl distinct_of_kept hst htop hrows
    hcolumns hfields hapart
  have hwritable : ∀ e ∈ changesOf columns fields, e.2.hasCell = true := by decide
  have hfirst := (run_updateMany_rewritten K Writable.sample hs rfl hst htop hrows conditions hwritable).2
  exact ⟨hcounts, hsame, hfirst⟩

end RowStore.Table
