import RowStore.Proofs.Table.Appended
import RowStore.Proofs.Table.Deleted
import RowStore.Proofs.Table.Guard

/-!
# Deleting what has been created

* `selects_identifier_iff` : the condition on an identifier that has a text selects the rows with this text;
* `textAt_of_created`, `textAt_ne_of_new` : the row of a new record has the text of its identifier, and no
  row that was there before has it;
* `deleteById_undoes_create` : a record that has been created is deleted by its identifier, and the rows are
  those of before.
-/

namespace RowStore.Table

open Act

variable {σ : Type} {party : Party σ} {t : Table} {c : Columns} {header id : Value}
  {entries : Entries Value} {top data : Rows} {h p : Nat} {s : Session} {st : σ}

/-- The condition on an identifier that has a text selects the rows with this text. -/
theorem selects_identifier_iff {row : Row} (hid : c.IdentifierAt header p) (htext : id.hasText = true) :
    c.Selects [(header, id)] row ↔ row.textAt p = id.asText := by
  have hnames : c.Names [(header, id)] := by
    refine ⟨_, List.mem_singleton_self _, ?_⟩
    rw [Entries.has, hid.position]
    rfl
  rw [Columns.selects_iff hnames]
  constructor
  · intro hrow
    exact (hrow _ (List.mem_singleton_self _) p hid.position).2
  · intro hrow e he q hq
    obtain rfl := List.mem_singleton.mp he
    cases hq.symm.trans hid.position
    exact ⟨htext, hrow⟩

section

variable {row : Row} (hid : c.IdentifierAt header p) (hfind : entries.find? header = some id)
include hid hfind

theorem identifierIn_eq : identifierIn c header (.mapping entries) = id := by
  have hheader : header ∈ c.headers := List.mem_of_getElem? hid.getElem?_headers
  rw [identifierIn, find?_known hid.distinct hheader, hfind]
  rfl

/-- The row of a record has the text of its identifier. -/
theorem textAt_of_created (hplain : id.isPlain = true) (hrow : newRow? c (.mapping entries) = some row) :
    row.textAt p = id.asText := by
  rw [Row.textAt, cell?_of_newRow? hid hrow, Option.getD_some, identifierIn_eq hid hfind,
    Value.asText_toCell hplain]

/-- The identifier of a record that has a row has a text, and not a blank one. -/
theorem mayIdentify_of_created (hrow : newRow? c (.mapping entries) = some row) : mayIdentify id = true := by
  obtain ⟨-, hidentified, hcells, -⟩ := (newRow?_eq_some_iff hid.distinct).mp hrow
  have htext := (Bool.and_eq_true_iff.mp hcells).2
  rw [hid.isHeader, Option.all_some, identifierIn_eq hid hfind] at htext
  rw [givenTexts, hid.isHeader] at hidentified
  have hne : [] ≠ Text.trim (identifierIn c header (.mapping entries)).asText :=
    fun hblank => hidentified (List.mem_singleton.mpr hblank)
  rw [identifierIn_eq hid hfind] at hne
  rw [mayIdentify, htext, isIdentifier, Bool.true_and, Bool.not_eq_true', List.isEmpty_eq_false_iff]
  exact hne.symm

/-- No row that was there before has the text of an identifier that is new. -/
theorem textAt_ne_of_new (hplain : id.isPlain = true) (hidentifier : isIdentifier id = true)
    (hnew : (textsIn c data).Disjoint (writtenTexts c [.mapping entries])) :
    ∀ row ∈ data, row.textAt p ≠ id.asText := by
  intro row hrow htext
  have hne : id.asText ≠ [] := by
    intro hempty
    rw [isIdentifier, hempty] at hidentifier
    cases hidentifier
  obtain ⟨v, hv, hvtext⟩ := exists_of_mem_identifiers
    (Rows.mem_identifiers.mpr ⟨row, hrow, htext, hne⟩)
  have hthere : id.asText ∈ textsIn c data := by
    rw [textsIn, hid.isHeader, Option.bind_some, hid.position]
    exact List.mem_map.mpr ⟨v, hv, hvtext⟩
  refine hnew hthere ?_
  rw [writtenTexts, hid.isHeader]
  refine List.mem_singleton.mpr ?_
  dsimp only
  rw [identifierIn_eq hid hfind, Value.asText_toCell hplain]

end

/-- A deletion by an identifier that only the last row has leaves the rows before it. -/
theorem leftBy_append {row : Row} (hid : c.IdentifierAt header p) (htext : id.hasText = true)
    (hbefore : ∀ row ∈ data, row.textAt p ≠ id.asText) (hlast : row.textAt p = id.asText) :
    leftBy c [(header, id)] true (data ++ [row]) = data := by
  have hnone : ∀ row ∈ data, ¬ decide (c.Selects [(header, id)] row) = true := by
    intro row hrow hselects
    exact hbefore row hrow ((selects_identifier_iff hid htext).mp (of_decide_eq_true hselects))
  have herased : [row].eraseP (fun row => decide (c.Selects [(header, id)] row)) = [] :=
    List.eraseP_cons_of_pos (decide_eq_true ((selects_identifier_iff hid htext).mpr hlast))
  rw [leftBy, if_pos rfl, List.eraseP_append_right _ hnone, herased, List.append_nil]

/-- With kept columns, a record that has been created is deleted by its identifier. -/
theorem run_deleteById_of_created (K : Keeper party) (hw : Writable K t h) (hs : Ready c s)
    (hid : c.IdentifierAt header p) (hst : K.sound st) (htop : top.length = h)
    (hrows : (K.ledger st).rows = top ++ data) (hfind : entries.find? header = some id)
    (hplain : id.isPlain = true) :
    let created := run party (t.perform (.create (.mapping entries))) s st
    let deleted := run party (t.perform (.deleteById id)) created.2.1 created.2.2
    created.1 = .ok (.done true) →
      deleted.1 = .ok (.done true) ∧ (K.ledger deleted.2.2).rows = top ++ data := by
  intro created deleted hcreated
  have hc := hid.isEmpty_eq_false
  have hcreates := Operation.creates_create (.mapping entries)
  obtain ⟨hs', hst'⟩ := run_ready K t hs hc hcreates.writes hst
  rcases run_creation K hw hs hc hid.distinct hst htop hrows hcreates (List.cons_ne_nil _ _) with
    ⟨rows, ⟨hfits, -⟩, -, hafter⟩ | ⟨-, ⟨fault, hfailed⟩, -⟩
  · obtain ⟨row, rfl⟩ := hfits.exists_eq_singleton
    obtain ⟨_, _, hrow, -, hsame⟩ := mapM_newRow?_cons_eq_some.mp hfits.rows
    obtain rfl := (List.cons.inj hsame).1
    obtain ⟨htext, hidentifier⟩ := Bool.and_eq_true_iff.mp (mayIdentify_of_created hid hfind hrow)
    have hlast := textAt_of_created hid hfind hplain hrow
    have hbefore := textAt_ne_of_new hid hfind hplain hidentifier hfits.new
    have hheader : t.headerFor c id = .ok header := by
      rw [headerFor, Value.checkText_of_hasText htext, hidentifier, requiredHeader, hid.isHeader]
      rfl
    -- Of all rows the new one is the first that has its identifier, so that it is the one that goes.
    have hsome : 0 < (data ++ [row]).countP (c.Selects [(header, id)]) :=
      List.countP_pos_iff.mpr ⟨row, List.mem_append_right _ (List.mem_singleton_self row),
        decide_eq_true ((selects_identifier_iff hid htext).mpr hlast)⟩
    obtain ⟨houtcome, hleft⟩ := (run_erasure K hw hs' hc hst' htop hafter
      (Operation.erases_deleteById hheader)).1 hsome
    rw [leftBy_append hid htext hbefore hlast] at hleft
    exact ⟨houtcome, hleft⟩
  · rcases hfailed with hfailed | ⟨-, hfailed⟩
    · cases hcreated.symm.trans hfailed
    · cases hcreated.symm.trans hfailed

/-- Where no call fails, and whatever columns are kept: a record that has been created is deleted by its
identifier, and then the rows are those of before. Its identifier is a text, a number or a truth value. -/
theorem deleteById_undoes_create (K : Keeper party) (hw : Writable K t h) (hpending : s.pending = [])
    (hkept : ∀ c, s.columns = some c → Distinct c.list) (hst : K.sound st) (htop : top.length = h)
    (hrows : (K.ledger st).rows = top ++ data)
    (hheader : ∀ c, (run party t.requireColumns s st).1 = .ok c → c.identifierHeader = some header)
    (hfind : entries.find? header = some id) (hplain : id.isPlain = true) :
    let created := run party (t.perform (.create (.mapping entries))) s st
    let deleted := run party (t.perform (.deleteById id)) created.2.1 created.2.2
    created.1 = .ok (.done true) →
      deleted.1 = .ok (.done true) ∧ (K.ledger deleted.2.2).rows = (K.ledger st).rows := by
  intro created deleted hcreated
  have hcreates := Operation.creates_create (.mapping entries)
  have hchecks := hcreates.checksFirst (List.cons_ne_nil _ _) t
  cases hcolumns : (run party t.requireColumns s st).1 with
  | error fault =>
    have hfailed := (hchecks.run_of_error hcolumns).1
    split at hfailed
    · cases hcreated.symm.trans hfailed
    · cases hcreated.symm.trans hfailed
  | ok c =>
    obtain ⟨s', st', hhad⟩ := exists_obtained K t hpending hkept hcolumns
    obtain ⟨p, hid⟩ := Columns.exists_identifierAt hhad.distinct (hheader c hcolumns)
    have hrows' : (K.ledger st').rows = top ++ data := hhad.ledger ▸ hrows
    have hsame : created = run party (t.perform (.create (.mapping entries))) s' st' :=
      hchecks.run_congr hhad.again
    have hundone := run_deleteById_of_created K hw hhad.ready hid (hhad.sound hst) htop hrows' hfind hplain
    rw [← hsame, ← hrows] at hundone
    exact hundone hcreated

open Sample in
/-- A user with a number for an identifier comes and goes; one of the rows before has no cell, and one an
identifier that is blank. -/
theorem deleteById_undoes_create_seven :
    let party := Scripted.party fun _ => false
    let K : Keeper party := Scripted.keeper fun _ => false
    let t := table (.int 30000)
    let data := [row "e1" "Alice", [], row "" "Bob"]
    let entries : Entries Value := [(.text "Name", .text "Zoe"), (.text "id", .int 7)]
    let st := Scripted.ofRows ([row "id" "Name"] ++ data)
    let created := run party (t.perform (.create (.mapping entries))) session st
    let deleted := run party (t.perform (.deleteById (.int 7))) created.2.1 created.2.2
    created.1 = .ok (.done true) ∧ deleted.1 = .ok (.done true) ∧
      (K.ledger deleted.2.2).rows = (K.ledger st).rows := by
  intro party K t data entries st
  have hs : Ready columns session := ⟨rfl, rfl⟩
  have hd := distinct_columns
  have hst : K.sound st := Scripted.sound_ofRows _
  have hrows : (K.ledger st).rows = [row "id" "Name"] ++ data := rfl
  have hheader : ∀ c, (run party t.requireColumns session st).1 = .ok c →
      c.identifierHeader = some (.text "id") := by
    rw [run_requireColumns_of_kept party t rfl rfl]
    rintro _ ⟨⟩
    rfl
  have hvalid : Valid columns [.mapping entries] := by
    refine ⟨List.cons_ne_nil _ _, fun record hrecord => ?_, by decide, by decide⟩
    exact ⟨entries, List.mem_singleton.mp hrecord, by decide⟩
  have hnew : (textsIn columns data).Disjoint (writtenTexts columns [.mapping entries]) := by
    have hnone : ∀ text ∈ textsIn columns data, text ∉ writtenTexts columns [.mapping entries] := by
      decide
    exact fun text htext hwritten => hnone text htext hwritten
  have hcreated : (run party (t.perform (.create (.mapping entries))) session st).1 =
      .ok (.done true) := by
    rcases run_creation K Writable.sample hs rfl hd hst rfl hrows
      (Operation.creates_create (.mapping entries)) (List.cons_ne_nil _ _) with
      ⟨_, -, houtcome, -⟩ | ⟨hnone, -⟩
    · exact houtcome
    · exact absurd ⟨_, (fits_iff_valid hd (List.cons_ne_nil _ _)).mpr ⟨⟨⟨hvalid, by decide +kernel⟩, hnew⟩, rfl⟩⟩ hnone
  have hfind : entries.find? (.text "id") = some (.int 7) := rfl
  have hpending : session.pending = [] := rfl
  have hw : Writable K t 1 := Writable.sample
  have hundone := deleteById_undoes_create K hw hpending distinct_of_kept hst rfl hrows hheader hfind rfl
  exact ⟨hcreated, hundone hcreated⟩

end RowStore.Table
