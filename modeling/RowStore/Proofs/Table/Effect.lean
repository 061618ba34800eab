import RowStore.Proofs.Sheet.Scripted
import RowStore.Proofs.Sheet.Solo
import RowStore.Proofs.Table.Sample
import RowStore.Proofs.Table.Written

/-!
# The effect of a write

* `Table.effect` : what a write gives and does where the lock is given and no call fails; this is a
  function of the sheet, the columns and the operation alone;
* `run_solo` : the run of a write with a sheet of its own has this effect, whatever the log is;
* `Writable K t h` : the table can ask the keeper `K` for the lock, makes calls, and has `h` header
  rows; `run_of_planned`, `run_of_unplanned` : what a write then does with any sound keeper.
-/

namespace RowStore

/-- What is sent depends on the size of the worksheet only where it is asked for. -/
theorem Revision.call_congr {rev : Revision} {size size' : Int × Int}
    (h : rev.asksSize → size = size') : rev.call size = rev.call size' := by
  cases rev with
  | clear number => rw [h trivial]
  | append | cells | erase => rfl

namespace Table

variable {t : Table} {c : Columns} {op : Operation} {s : Session}

/-- What a write gives and the ledger that it leaves, where the lock is given and no call fails. -/
def effect (t : Table) (c : Columns) (room : Rows → Int × Int) (op : Operation) (l : Ledger) :
    Except Fault Outcome × Ledger :=
  match op.records, t.intent c op, t.writer.ready with
  | .error fault, _, _ => (.error fault, l)
  | .ok _, .error fault, _ => (op.failure fault, l)
  | .ok _, .ok _, .error fault => (.error fault, l)
  | .ok _, .ok i, .ok _ =>
    match t.plan c l.rows i with
    | .error fault => (.ok (op.outcome (.error fault)), l)
    | .ok (rev, n) => (.ok (op.outcome (.ok n)), l.sending (rev.call (room l.rows)))

/-- A write that nothing has disturbed had its effect. -/
theorem Written.eq_effect {room : Rows → Int × Int} {x x' : Course} {r : Except Fault Outcome}
    (h : Written (Solo.keeper room).terms t c op x r s x') (hx' : x'.disturbed = false) :
    (r, x'.ledger) = t.effect c room op x.ledger := by
  rw [effect]
  cases h with
  | unlisted hrecords hB =>
    rw [hrecords, hB.2]
  | attempted hrecords h =>
    cases h with
    | invalid hwhy hB =>
      obtain ⟨hfault, hvalid⟩ := hwhy.resolve_right (not_not_intro trivial)
      rw [hrecords, hfault, hB.2]
      dsimp only
      rw [Operation.failure, if_pos hvalid]
      rfl
    | raised hwhy hB =>
      obtain ⟨hfault, hvalid⟩ := hwhy.resolve_right (not_not_intro trivial)
      rw [hrecords, hfault, hB.2]
      dsimp only
      rw [Operation.failure, if_neg (Bool.eq_false_iff.mp hvalid)]
      rfl
    | tried hintent hends =>
      rw [hrecords, hintent]
      cases hends.2 with
      | unready hready =>
        rw [hready]
        rfl
      | barred _ hbars => exact hbars.elim
      | refused => cases hx'
      | failed hready _ hwhy =>
        rw [hready]
        dsimp only
        rw [hwhy.resolve_right (Bool.eq_false_iff.mp hx')]
        rfl
      | made hready _ hplanned hroom =>
        rw [hready]
        dsimp only
        rw [hplanned, Revision.call_congr fun hasks => Solo.room_keeper.mp (hroom hasks)]
        rfl

/-- With a sheet of its own, a write gives and does what `effect` says, and leaves its table ready. -/
theorem run_solo (room : Rows → Int × Int) (t : Table) (hs : Ready c s) (hc : c.isEmpty = false)
    (hop : op.isWrite = true) (l : Ledger) :
    let ended := Act.run (Solo.party room) (t.perform op) s l
    Ready c ended.2.1 ∧ (ended.1, ended.2.2) = t.effect c room op l := by
  intro ended
  obtain ⟨x, hwritten, hledger, hsound⟩ :=
    (Solo.keeper room).ends (meets_perform_writing (t := t) rfl hs hc hop)
  have heffect := hwritten.eq_effect (hsound trivial).2
  rw [hledger] at heffect
  exact ⟨hwritten.ready, heffect⟩

/-! ## With any keeper -/

variable {σ : Type} {party : Party σ} {st : σ} {fault : Fault} {rev : Revision} {n h : Nat}

/-- What a write plans for a sheet, or why its input is refused or it has no plan. -/
def planned (t : Table) (c : Columns) (op : Operation) (sheet : Rows) :
    Except Fault (Revision × Nat) := do t.plan c sheet (← t.intent c op)

/-- A table that can ask for the lock with a wait that is not barred, and makes its calls; `h` rows
hold the headers. -/
structure Writable (K : Keeper party) (t : Table) (h : Nat) : Prop where
  asks : ∃ seconds, t.writer.ready = .ok seconds ∧ ¬ K.bars seconds
  headerRow : t.grid.headerRow.integer? = some (h : Int)
  retries : ∃ n : Nat, t.grid.maxRetries.integer? = some (n : Int)

namespace Writable

variable {K : Keeper party}

theorem allows (hw : Writable K t h) (description : Text) : t.grid.allows description = .ok () := by
  obtain ⟨n, hn⟩ := hw.retries
  rw [Grid.allows, hn]
  exact if_neg (Int.not_lt.mpr (Int.natCast_nonneg n))

/-- Below its header rows lie the data rows. -/
theorem seen_append (hw : Writable K t h) {top : Rows} (htop : top.length = h) (data : Rows) :
    t.grid.seen (top ++ data) = .ok data := by
  have hbelow : Grid.rowsBelow t.grid.headerRow (top ++ data) = .ok data := by
    have hh := hw.headerRow
    rw [Grid.rowsBelow]
    · rw [hh]
      refine congrArg Except.ok ?_
      rw [← htop]
      exact (Slice.onward_natCast top.length _).trans List.drop_left
    · intro hnull
      rw [hnull] at hh
      cases hh
  rw [Grid.seen, hw.allows]
  exact hbelow

open Sample in
/-- The table of users on a sheet with scripts is writable. -/
theorem sample : Writable (Scripted.keeper fun _ => false) (table (.int 30000)) 1 where
  asks := by
    have hready : (table (.int 30000)).writer.ready.isOk = true := by decide +kernel
    cases h : (table (.int 30000)).writer.ready with
    | error fault =>
      rw [h] at hready
      cases hready
    | ok seconds => exact ⟨seconds, rfl, Bool.false_ne_true⟩
  headerRow := rfl
  retries := ⟨3, rfl⟩

end Writable

/-- Where nothing goes wrong, a write without a plan changes nothing, and a plan is carried out. -/
theorem Written.eq_planned {terms : Terms} {x x' : Course} {r : Except Fault Outcome}
    (h : Written terms t c op x r s x') (hx' : x'.disturbed = false)
    (hrecords : ∃ records, op.records = .ok records)
    (hasks : ∃ seconds, t.writer.ready = .ok seconds ∧ ¬ terms.bars seconds) :
    match t.planned c op x.ledger.rows with
    | .error fault => x'.ledger = x.ledger ∧
      (r = .ok (op.outcome (.error fault)) ∨
        (t.intent c op = .error fault ∧ fault.kind.isValidation = false ∧ r = .error fault))
    | .ok (rev, n) => r = .ok (op.outcome (.ok n)) ∧
      ∃ size, (rev.asksSize → terms.room x.ledger.rows size) ∧
        x'.ledger = x.ledger.sending (rev.call size) := by
  obtain ⟨records, hrecords⟩ := hrecords
  obtain ⟨seconds, hready, hfree⟩ := hasks
  cases h with
  | unlisted hunlisted =>
    rw [hrecords] at hunlisted
    cases hunlisted
  | attempted _ h =>
    cases h with
    | invalid hwhy hB =>
      rw [planned, (hwhy.resolve_right (not_not_intro trivial)).1]
      exact ⟨hB.2 ▸ rfl, Or.inl rfl⟩
    | raised hwhy hB =>
      obtain ⟨hfault, hvalid⟩ := hwhy.resolve_right (not_not_intro trivial)
      rw [planned, hfault]
      exact ⟨hB.2 ▸ rfl, Or.inr ⟨rfl, hvalid, rfl⟩⟩
    | @tried i _ _ _ hintent hends =>
      have hplanned : t.planned c op x.ledger.rows = t.plan c x.ledger.rows i := by
        rw [planned, hintent]
        rfl
      rw [hplanned]
      cases hends.2 with
      | unready h =>
        rw [hready] at h
        cases h
      | barred h hbars =>
        rw [hready] at h
        cases h
        exact absurd hbars hfree
      | refused => cases hx'
      | failed _ _ hwhy =>
        have hplan := hwhy.resolve_right (Bool.eq_false_iff.mp hx')
        rw [hplan]
        exact ⟨rfl, Or.inl rfl⟩
      | made _ _ hplan hroom =>
        rw [hplan]
        exact ⟨rfl, _, hroom, rfl⟩

/-- A write leaves its table ready and the party sound. -/
theorem run_ready (K : Keeper party) (t : Table) (hs : Ready c s) (hc : c.isEmpty = false)
    (hop : op.isWrite = true) (hst : K.sound st) :
    let ended := Act.run party (t.perform op) s st
    Ready c ended.2.1 ∧ K.sound ended.2.2 := by
  intro ended
  obtain ⟨x, hwritten, -, hsound⟩ := K.ends (meets_perform_writing (t := t) rfl hs hc hop)
  exact ⟨hwritten.ready, (hsound hst).1⟩

/-- A write without a plan leaves the sheet as it was. It gives its failure, or raises the fault of its input. -/
theorem run_of_unplanned (K : Keeper party) (hw : Writable K t h) (hs : Ready c s)
    (hc : c.isEmpty = false) (hop : op.isWrite = true) (hrecords : ∃ records, op.records = .ok records)
    (hst : K.sound st) (hplanned : t.planned c op (K.ledger st).rows = .error fault) :
    K.ledger (Act.run party (t.perform op) s st).2.2 = K.ledger st ∧
      ((Act.run party (t.perform op) s st).1 = .ok (op.outcome (.error fault)) ∨
        (t.intent c op = .error fault ∧ fault.kind.isValidation = false ∧
          (Act.run party (t.perform op) s st).1 = .error fault)) := by
  obtain ⟨x, hwritten, hledger, hsound⟩ := K.ends (meets_perform_writing (t := t) rfl hs hc hop)
  have hends := hwritten.eq_planned (hsound hst).2 hrecords hw.asks
  rw [hplanned] at hends
  exact ⟨hledger ▸ hends.1, hends.2⟩

/-- Where only refusals are faults of the input, a write without a plan gives its failure. -/
theorem run_of_unplanned_of_ends (K : Keeper party) (hw : Writable K t h) (hs : Ready c s)
    (hc : c.isEmpty = false) (hop : op.isWrite = true) (hrecords : ∃ records, op.records = .ok records)
    (hst : K.sound st) (hintent : Ends Fault.IsRefusal (fun _ => True) (t.intent c op))
    (hplanned : t.planned c op (K.ledger st).rows = .error fault) :
    (Act.run party (t.perform op) s st).1 = .ok (op.outcome (.error fault)) ∧
      K.ledger (Act.run party (t.perform op) s st).2.2 = K.ledger st := by
  obtain ⟨hledger, houtcome⟩ := run_of_unplanned K hw hs hc hop hrecords hst hplanned
  refine ⟨houtcome.resolve_right ?_, hledger⟩
  rintro ⟨hfault, hvalid, -⟩
  rw [hfault] at hintent
  exact Bool.false_ne_true (hvalid.symm.trans hintent)

/-- The plan of a write is carried out, whatever the size of the worksheet. -/
theorem run_of_planned (K : Keeper party) (hw : Writable K t h) (hs : Ready c s)
    (hc : c.isEmpty = false) (hop : op.isWrite = true) (hrecords : ∃ records, op.records = .ok records)
    (hst : K.sound st) (hplanned : t.planned c op (K.ledger st).rows = .ok (rev, n))
    (hsize : ¬ rev.asksSize) :
    (Act.run party (t.perform op) s st).1 = .ok (op.outcome (.ok n)) ∧
      (K.ledger (Act.run party (t.perform op) s st).2.2).rows = rev.applied (K.ledger st).rows := by
  obtain ⟨x, hwritten, hledger, hsound⟩ := K.ends (meets_perform_writing (t := t) rfl hs hc hop)
  have hends := hwritten.eq_planned (hsound hst).2 hrecords hw.asks
  rw [hplanned] at hends
  obtain ⟨houtcome, size, -, hsent⟩ := hends
  refine ⟨houtcome, ?_⟩
  rw [← hledger, hsent]
  exact rev.rows_sending _ fun hasks => absurd hasks hsize

end Table

end RowStore
