import Mathlib
import RowStore.Proofs.Table.Guard
import RowStore.Proofs.Table.Reading
import RowStore.Proofs.Table.Runs
import RowStore.Proofs.Table.Sample
import RowStore.Proofs.Table.Written

/-!
# Identifiers stay distinct

* `perform_revises` : a write leaves the sheet as it was, or makes the revision that it plans, whether
  or not the columns have been fetched before;
* `identifiers_distinct` : whatever is done to a sheet, and whatever fails, no identifier comes to stand
  in it twice.
-/

namespace RowStore

open Act

variable {σ : Type} {party : Party σ} {K : Keeper party} {c : Columns} {t : Table} {start : σ}

/-- A locked write leaves the ledger as it was, or sends the revision that was planned. -/
theorem WriteEnds.ledger_cases {α : Type} {terms : Terms} {w : Writer} {description : Text}
    {planned : Except Fault (Revision × α)} {x x' : Course} {r : Except Fault (Except Fault α)}
    (h : WriteEnds terms w description planned x r x') : x'.ledger = x.ledger ∨
      ∃ rev a size, planned = .ok (rev, a) ∧ x'.ledger = x.ledger.sending (rev.call size) := by
  cases h with
  | unready | barred | refused | failed => exact Or.inl rfl
  | made _ _ hplanned => exact Or.inr ⟨_, _, _, hplanned, rfl⟩

/-- What a write needs to know of a party that keeps a sheet. -/
theorem carries_protocol (ht : Describes party t c start) (hc : c.isEmpty = false) (name : String)
    (l : Ledger) : Carries party.protocol t c False (Calm K c start l) name fun i _ s st =>
      Tidy c s ∧ party.Reaches start st ∧ (K.ledger st = l ∨ ∃ rev n size,
        t.plan c l.rows i = .ok (rev, n) ∧ K.ledger st = l.sending (rev.call size)) where
  noted h := h.noted
  columns h := (meets_requireColumns ht h).mono fun r s' st' ⟨h', hr⟩ =>
    ⟨h', hr.imp_right fun hr => ⟨hr, id⟩⟩
  write {s st} h hcolumns done i := by
    obtain ⟨x, ⟨hready, hends⟩, hledger, -⟩ :=
      K.ends (Table.meets_write rfl ⟨hcolumns, h.tidy.pending⟩ hc name done i)
    refine meets_protocol.mpr ⟨⟨Or.inr hready.columns, hready.pending⟩, h.reached.run _ s, ?_⟩
    rw [← hledger, ← h.ledger]
    exact hends.ledger_cases
  clear {s st} h := by
    obtain ⟨x, ⟨hcolumns, hpending, hends⟩, hledger, -⟩ :=
      K.ends (Table.meets_executeClear rfl h.tidy.pending t c name)
    refine meets_protocol.mpr fun s'' hcolumns' hpending' => ⟨⟨?_, ?_⟩, h.reached.run _ s, ?_⟩
    · rw [hcolumns', hcolumns]
      exact h.tidy.columns
    · rw [hpending', hpending]
    · rw [← hledger, ← h.ledger]
      exact hends.ledger_cases

namespace Table

/-- A write leaves the sheet as it was, or makes the revision that it plans. -/
theorem perform_revises (ht : Describes party t c start) (hc : c.isEmpty = false) {op : Operation}
    (hop : op.isWrite = true) {l : Ledger} {s : Session} {st : σ} (h : Calm K c start l s st) :
    let ended := run party (t.perform op) s st
    Tidy c ended.2.1 ∧ party.Reaches start ended.2.2 ∧ (K.ledger ended.2.2 = l ∨
      ∃ i rev n size, t.intent c op = .ok i ∧ t.outline c l.rows i = .ok (rev, n) ∧
        K.ledger ended.2.2 = l.sending (rev.call size)) := by
  have hends : Meets party.protocol (t.perform op) s st fun _ s' st' =>
      Tidy c s' ∧ party.Reaches start st' ∧ (K.ledger st' = l ∨
        ∃ i rev n size, t.intent c op = .ok i ∧ t.outline c l.rows i = .ok (rev, n) ∧
          K.ledger st' = l.sending (rev.call size)) := by
    refine ((carries_protocol ht hc op.name l).meets_perform hop h).mono fun r s' st' hended => ?_
    cases hended with
    | unlisted _ h' => exact ⟨h'.tidy, h'.reached, Or.inl h'.ledger⟩
    | attempted _ hattempt =>
      cases hattempt with
      | invalid _ h' => exact ⟨h'.tidy, h'.reached, Or.inl h'.ledger⟩
      | raised _ h' => exact ⟨h'.tidy, h'.reached, Or.inl h'.ledger⟩
      | tried hintent hends =>
        refine ⟨hends.1, hends.2.1, hends.2.2.imp_right ?_⟩
        rintro ⟨rev, n, size, hplan, hledger⟩
        obtain ⟨p, houtline, hp⟩ := bind_eq_ok hplan
        obtain ⟨_, -, hp⟩ := bind_eq_ok hp
        cases hp
        exact ⟨_, rev, n, size, hintent, houtline, hledger⟩
  exact meets_protocol.mp hends

end Table

/-- A call that is made has its effect, one that is not made has none. -/
theorem Guarded.sending {h p : Nat} {top : Rows} {l : Ledger} {rev : Revision}
    (hg : Guarded h p top l.rows) (happlied : Guarded h p top (rev.applied l.rows))
    (size : Int × Int) : Guarded h p top (l.sending (rev.call size)).rows := by
  cases hcall : rev.call size with
  | none => exact hg
  | some w =>
    have hrows : (l.after w).rows = rev.applied l.rows :=
      congrArg Prod.snd (Revision.apply_call hcall l.rows)
    change Guarded h p top (l.after w).rows
    rw [hrows]
    exact happlied

section

variable {header : Value} {p h : Nat} {top : Rows}

/-- One operation keeps a sheet guarded. -/
theorem Guarded.perform (hid : c.IdentifierAt header p)
    (hh : t.grid.headerRow.integer? = some (h : Int)) (ht : Describes party t c start)
    {op : Operation} (hop : op.PlainIdentifiers header) {s : Session} {st : σ} (hs : Tidy c s)
    (hst : party.Reaches start st) (hg : Guarded h p top (K.ledger st).rows) :
    let ended := run party (t.perform op) s st
    Tidy c ended.2.1 ∧ party.Reaches start ended.2.2 ∧ Guarded h p top (K.ledger ended.2.2).rows := by
  intro ended
  have hcalm : Calm K c start (K.ledger st) s st := ⟨hs, rfl, hst⟩
  cases hwrite : op.isWrite with
  | false =>
    have hkept := meets_protocol.mp (Spares.perform ht hwrite _ s st hcalm)
    refine ⟨hkept.tidy, hkept.reached, ?_⟩
    rw [hkept.ledger]
    exact hg
  | true =>
    obtain ⟨hs', hst', hledger | ⟨i, rev, n, size, hintent, hrev, hledger⟩⟩ :=
      Table.perform_revises ht hid.isEmpty_eq_false hwrite hcalm
    · refine ⟨hs', hst', ?_⟩
      rw [hledger]
      exact hg
    · refine ⟨hs', hst', ?_⟩
      rw [hledger]
      exact hg.sending (hg.applied hid hh hop hintent hrev) size

theorem Guarded.performAll (hid : c.IdentifierAt header p)
    (hh : t.grid.headerRow.integer? = some (h : Int)) (ht : Describes party t c start)
    {ops : List Operation} (hops : ∀ op ∈ ops, op.PlainIdentifiers header) {s : Session} {st : σ}
    (hs : Tidy c s) (hst : party.Reaches start st) (hg : Guarded h p top (K.ledger st).rows) :
    Guarded h p top (K.ledger (t.performAll party ops s st).2).rows := by
  have hkept := Table.performAll_keeps (I := fun s st => Tidy c s ∧ party.Reaches start st ∧
    Guarded h p top (K.ledger st).rows) (fun op hop _ _ ⟨hs, hst, hg⟩ =>
      hg.perform hid hh ht (hops op hop) hs hst) ⟨hs, hst, hg⟩
  exact hkept.2.2

end

/-- A sheet has its header row, and below it no identifier occurs twice. Whatever operations are
performed on it, in whatever order, whatever calls fail and whether or not the lock is given: its first
rows stay as they are, and no identifier comes to occur twice below them. -/
theorem identifiers_distinct (K : Keeper party) {descriptors : List Value}
    (hdescriptors : Columns.ofDescriptors descriptors t.identifier = .ok c) {header : Value}
    (hheader : c.identifierHeader = some header) {p : Nat}
    (hposition : c.positions.find? header = some p) {h : Nat}
    (hh : t.grid.headerRow.integer? = some (h : Int)) {ops : List Operation}
    (hops : ∀ op ∈ ops, op.PlainIdentifiers header) {s : Session} (hs : Tidy c s) {st : σ}
    (ht : Describes party t c st) (hlength : h ≤ (K.ledger st).rows.length)
    (hdistinct : (Rows.identifiers p ((K.ledger st).rows.drop h)).Nodup) :
    let rows := (K.ledger (t.performAll party ops s st).2).rows
    rows.take h = (K.ledger st).rows.take h ∧ (Rows.identifiers p (rows.drop h)).Nodup := by
  intro rows
  have hid : c.IdentifierAt header p :=
    ⟨distinct_ofDescriptors hdescriptors, hheader, hposition⟩
  have hg : Guarded h p ((K.ledger st).rows.take h) (K.ledger st).rows := ⟨hlength, rfl, hdistinct⟩
  have hended := hg.performAll hid hh ht hops hs .refl
  exact ⟨hended.header, hended.distinct⟩

open Sample in
/-- The columns are fetched, a record is created at the second attempt to read the rows, another one
has an identifier that is taken, and an update tries to change identifiers. -/
theorem identifiers_distinct_of_updates :
    let K := Scripted.keeper fun _ => false
    let t := table (.int 30000)
    let st : Scripted := ⟨⟨rows, []⟩, [some (.ofApi (.int 500) "busy")], [], [answer]⟩
    let ops := [.refresh, .create (user "e3" "Carol"), .create (user "e1" "Carol"),
      .updateMany (.mapping [(.text "Name", .text "Carol")]) (user "e1" "Bob"),
      .deleteMany (.mapping [(.text "Name", .text "Alice")])]
    let ended := (K.ledger (t.performAll (Scripted.party fun _ => false) ops .fresh st).2).rows
    Rows.identifiers 0 (ended.drop 1) = [("e2" : String), ("e3" : String)].map Text.ofString ∧
    ended.take 1 = (K.ledger st).rows.take 1 ∧ (Rows.identifiers 0 (ended.drop 1)).Nodup := by
  intro K t st ops
  have hanswer : Columns.ofAnswer answer t.identifier = .ok columns := by cbv
  have hdescriptors : Columns.ofDescriptors descriptors t.identifier = .ok columns := rfl
  have huser : ∀ id name, (user id name).PlainIdentifiers (.text "id") := by
    rintro id name _ ⟨⟩ e he _
    rcases List.mem_cons.mp he with rfl | he
    · rfl
    · rw [List.mem_singleton.mp he]
      rfl
  have hops : ∀ op ∈ ops, op.PlainIdentifiers (.text "id") := by
    simp only [ops, List.forall_mem_cons, List.not_mem_nil, false_imp_iff, implies_true, and_true]
    exact ⟨.of_no_records rfl, .create (huser "e3" "Carol"), .create (huser "e1" "Carol"),
      .of_no_records rfl, .of_no_records rfl⟩
  have ht : Describes (Scripted.party fun _ => false) t columns st := by
    refine Scripted.describes rfl fun v hv fetched hfetched => ?_
    rw [List.mem_singleton.mp hv, hanswer] at hfetched
    cases hfetched
    rfl
  have hdistinct : (Rows.identifiers 0 ((K.ledger st).rows.drop 1)).Nodup := by decide +kernel
  exact ⟨by decide +kernel, identifiers_distinct K hdescriptors rfl rfl rfl hops
    ⟨Or.inl rfl, rfl⟩ ht (by decide) hdistinct⟩

end RowStore
