import RowStore.Lock.Mutex
import RowStore.Proofs.Sheet.Scripted
import RowStore.Proofs.Table.Sample
import RowStore.Proofs.Table.Written

/-!
# Writes are atomic

* `outline_pos` : a write that has a plan changes at least one row, so that `0` stands for failure;
* `perform_atomic` : whatever fails, a write that reports failure has left the sheet as it was, and
  one that reports success has made each of its changes once, by at most one call; the queue is
  empty in either case. A fault is raised only if the lock cannot be asked for, or if the input has no text.
-/

namespace RowStore

variable {σ : Type} {party : Party σ}

/-- A write says that it has failed: it gives false, or zero as the number of changed rows. -/
def Outcome.ReportsFailure : Outcome → Prop
  | .done ok => ok = false
  | .count n => n = 0
  | _ => False

/-- A write says that it has succeeded. -/
def Outcome.ReportsSuccess : Outcome → Prop
  | .done ok => ok = true
  | .count n => 0 < n
  | _ => False

namespace Operation

theorem reportsFailure_outcome {op : Operation} (fault : Fault) :
    (op.outcome (.error fault)).ReportsFailure := by
  cases op <;> rfl

theorem reportsSuccess_outcome {op : Operation} {n : Nat} (hn : 0 < n) :
    (op.outcome (.ok n)).ReportsSuccess := by
  cases op <;> first | rfl | exact hn

end Operation

/-- The ledger after at most one call. -/
theorem Ledger.sent_sending (l : Ledger) (w? : Option SheetWrite) :
    (l.sending w?).sent = l.sent ++ w?.toList := by
  cases w? with
  | none => exact (List.append_nil _).symm
  | some w => rfl

namespace Table

variable {t : Table} {c : Columns}

theorem ne_nil_of_rowsOf {records : List Value} {rows : Rows} (h : rowsOf c records = .ok rows) :
    rows ≠ [] := by
  rw [rowsOf] at h
  rcases records with _ | ⟨record, rest⟩
  · cases h
  · obtain ⟨p, _, h⟩ := bind_eq_ok (h : rowsThrough c 0 [] (record :: rest) = .ok rows)
    obtain ⟨more, _, h⟩ := bind_eq_ok h
    cases h
    exact List.cons_ne_nil _ _

theorem matched_pos {sheet : Rows} {conditions : Value} {firstOnly : Bool} {numbers : List Int}
    (h : t.matched c sheet conditions firstOnly = .ok numbers) : 0 < numbers.length := by
  obtain ⟨positions, _, h⟩ := bind_eq_ok h
  split at h
  · cases h
  · rename_i hne
    cases h
    rw [List.length_map, List.length_pos_iff]
    exact fun hnil => hne (List.isEmpty_iff.mpr hnil)

/-- A write that has a plan changes at least one row. -/
theorem outline_pos {op : Operation} {i : Intent} (hi : t.intent c op = .ok i) {sheet : Rows}
    {rev : Revision} {n : Nat} (h : t.outline c sheet i = .ok (rev, n)) : 0 < n := by
  rcases intent_cases hi with ⟨_, rows, _, hrows, rfl⟩ | ⟨_, _, _, _, _, rfl⟩ | ⟨_, _, rfl⟩ | rfl
  · obtain ⟨-, rfl, -⟩ := outline_append_eq_ok h
    exact List.length_pos_iff.mpr (ne_nil_of_rowsOf hrows)
  · obtain ⟨numbers, hnumbers, h⟩ := bind_eq_ok h
    obtain ⟨_, _, h⟩ := bind_eq_ok h
    cases h
    exact matched_pos hnumbers
  · obtain ⟨numbers, hnumbers, h⟩ := bind_eq_ok h
    cases h
    exact matched_pos hnumbers
  · cases h
    exact Nat.one_pos

end Table

namespace Table.Written

variable {terms : Terms} {t : Table} {c : Columns} {op : Operation} {x x' : Course} {s : Session}
  {r : Except Fault Outcome}

/-- A write returns iff its input is refused, or is good and the lock can be asked for. -/
theorem returns_iff (h : Written terms t c op x r s x') {records : List Value}
    (hrecords : op.records = .ok records) : (∃ outcome, r = .ok outcome) ↔
      (∃ fault, t.intent c op = .error fault ∧ fault.IsRefusal) ∨
        (∃ i, t.intent c op = .ok i) ∧ ∃ seconds, t.writer.ready = .ok seconds ∧ ¬ terms.bars seconds := by
  cases h with
  | unlisted hunlisted =>
    rw [hrecords] at hunlisted
    cases hunlisted
  | attempted _ h =>
    cases h with
    | invalid hwhy =>
      exact iff_of_true ⟨_, rfl⟩ (Or.inl ⟨_, hwhy.resolve_right (not_not_intro trivial)⟩)
    | raised hwhy =>
      obtain ⟨hfault, hvalid⟩ := hwhy.resolve_right (not_not_intro trivial)
      refine iff_of_false (fun ⟨_, h⟩ => nomatch h) ?_
      rintro (⟨fault, h, hrefusal⟩ | ⟨⟨i, h⟩, -⟩)
      · cases hfault.symm.trans h
        exact Bool.false_ne_true (hvalid.symm.trans hrefusal)
      · cases hfault.symm.trans h
    | tried hintent hends =>
      have hgood : (∃ fault, t.intent c op = .error fault ∧ fault.IsRefusal) ∨
          (∃ i, t.intent c op = .ok i) ∧ (∃ seconds, t.writer.ready = .ok seconds ∧ ¬ terms.bars seconds) ↔
            ∃ seconds, t.writer.ready = .ok seconds ∧ ¬ terms.bars seconds := by
        rw [hintent]
        exact ⟨fun h => (h.resolve_left fun ⟨_, h, _⟩ => nomatch h).2, fun h => Or.inr ⟨⟨_, rfl⟩, h⟩⟩
      rw [hgood]
      cases hends.2 with
      | unready hready =>
        refine iff_of_false (fun ⟨_, h⟩ => nomatch h) ?_
        rintro ⟨seconds, h, -⟩
        rw [hready] at h
        cases h
      | barred hready hbars =>
        refine iff_of_false (fun ⟨_, h⟩ => nomatch h) ?_
        rintro ⟨seconds, h, hfree⟩
        rw [hready] at h
        cases h
        exact hfree hbars
      | refused hready hbars => exact iff_of_true ⟨_, rfl⟩ ⟨_, hready, hbars⟩
      | failed hready hbars => exact iff_of_true ⟨_, rfl⟩ ⟨_, hready, hbars⟩
      | made hready hbars => exact iff_of_true ⟨_, rfl⟩ ⟨_, hready, hbars⟩

/-- All changes of a write are made, each of them once, or none. -/
theorem all_or_none (h : Written terms t c op x r s x')
    (hroom : ∀ rows size, terms.room rows size → (rows.length : Int) ≤ size.1) :
    (x'.ledger = x.ledger ∧ ∀ outcome, r = .ok outcome → outcome.ReportsFailure) ∨
      ∃ outcome i rev n, r = .ok outcome ∧ outcome.ReportsSuccess ∧ t.intent c op = .ok i ∧
        t.outline c x.ledger.rows i = .ok (rev, n) ∧ x'.ledger.rows = rev.applied x.ledger.rows ∧
        ∃ w? : Option SheetWrite, x'.ledger.sent = x.ledger.sent ++ w?.toList := by
  cases h with
  | unlisted _ hB => exact Or.inl ⟨hB.2 ▸ rfl, fun _ h => nomatch h⟩
  | attempted _ h =>
    cases h with
    | invalid _ hB =>
      refine Or.inl ⟨hB.2 ▸ rfl, ?_⟩
      rintro _ ⟨⟩
      exact Operation.reportsFailure_outcome _
    | raised _ hB => exact Or.inl ⟨hB.2 ▸ rfl, fun _ h => nomatch h⟩
    | tried hintent hends =>
      cases hends.2 with
      | unready _ => exact Or.inl ⟨rfl, fun _ h => nomatch h⟩
      | barred _ _ => exact Or.inl ⟨rfl, fun _ h => nomatch h⟩
      | refused _ _ =>
        refine Or.inl ⟨rfl, ?_⟩
        rintro _ ⟨⟩
        exact Operation.reportsFailure_outcome _
      | failed _ _ _ _ =>
        refine Or.inl ⟨rfl, ?_⟩
        rintro _ ⟨⟩
        exact Operation.reportsFailure_outcome _
      | @made seconds rev n size disturbed _ _ hplanned hsize =>
        obtain ⟨p, houtline, hp⟩ := bind_eq_ok hplanned
        obtain ⟨_, _, hp⟩ := bind_eq_ok hp
        cases hp
        refine Or.inr ⟨_, _, rev, n, rfl, Operation.reportsSuccess_outcome
          (outline_pos hintent houtline), hintent, houtline, ?_, rev.call size, ?_⟩
        · exact rev.rows_sending x.ledger fun hasks => hroom _ _ (hsize hasks)
        · exact x.ledger.sent_sending _

end Table.Written

namespace Table

/-- Whatever calls fail and whether or not the lock is given: a write returns just if its input is refused, or if
it is good and the lock can be asked for; only an input that has no text can have another fault than a refusal.
If the write reports failure, or raises a fault, the sheet is as it was; if it reports success, each of its
changes has been made once, by at most one call. No change is left waiting. -/
theorem perform_atomic (K : Keeper party)
    (hroom : ∀ st, ((K.ledger st).rows.length : Int) ≤ (party.answer .extent st).1.1)
    (t : Table) {c : Columns} (hc : c.isEmpty = false) {op : Operation} (hop : op.isWrite = true)
    (hrecords : ∃ records, op.records = .ok records) {s : Session} (hs : Ready c s) (st : σ) :
    let ended := Act.run party (t.perform op) s st
    ((∃ outcome, ended.1 = .ok outcome) ↔ (∃ fault, t.intent c op = .error fault ∧ fault.IsRefusal) ∨
      (∃ i, t.intent c op = .ok i) ∧ ∃ seconds, t.writer.ready = .ok seconds ∧ ¬ K.bars seconds) ∧
    (∀ fault, t.intent c op = .error fault → fault.IsRefusal ∨
      (fault = .malformed ∧ (op.hasText && t.identifier.hasText) = false)) ∧
    ((K.ledger ended.2.2 = K.ledger st ∧
        ∀ outcome, ended.1 = .ok outcome → outcome.ReportsFailure) ∨
      ∃ outcome i rev n, ended.1 = .ok outcome ∧ outcome.ReportsSuccess ∧ t.intent c op = .ok i ∧
        t.outline c (K.ledger st).rows i = .ok (rev, n) ∧
        (K.ledger ended.2.2).rows = rev.applied (K.ledger st).rows ∧
        ∃ w? : Option SheetWrite, (K.ledger ended.2.2).sent = (K.ledger st).sent ++ w?.toList) ∧
    ended.2.1.pending = [] := by
  intro ended
  have hintent := t.ends_intent c hrecords
  obtain ⟨records, hrecords⟩ := hrecords
  obtain ⟨x, hwritten, hledger, -⟩ := K.ends (meets_perform_writing rfl hs hc hop)
  have hroom' : ∀ rows size, K.terms.room rows size → (rows.length : Int) ≤ size.1 := by
    rintro _ _ ⟨st, rfl, rfl⟩
    exact hroom st
  refine ⟨hwritten.returns_iff hrecords, fun fault hfault => ?_, ?_, hwritten.ready.pending⟩
  · rw [hfault] at hintent
    exact hintent
  · rw [← hledger]
    exact hwritten.all_or_none hroom'

open Sample in
/-- A deletion whose first read and whose call fail: the read is repeated, the call is not. -/
theorem perform_atomic_of_faults :
    let K := Scripted.keeper fun _ => false
    let t := table (.int 30000)
    let op := Operation.deleteMany (.mapping [(.text "Name", .text "Bob")])
    let st : Scripted := ⟨⟨rows, []⟩, [some (.ofApi (.int 500) "busy"), none, some .unsuitable], [], []⟩
    let ended := Act.run (Scripted.party fun _ => false) (t.perform op) session st
    ((∃ outcome, ended.1 = .ok outcome) ↔ (∃ fault, t.intent columns op = .error fault ∧ fault.IsRefusal) ∨
      (∃ i, t.intent columns op = .ok i) ∧ ∃ seconds, t.writer.ready = .ok seconds ∧ ¬ K.bars seconds) ∧
    (∀ fault, t.intent columns op = .error fault → fault.IsRefusal ∨
      (fault = .malformed ∧ (op.hasText && t.identifier.hasText) = false)) ∧
    ((K.ledger ended.2.2 = K.ledger st ∧
        ∀ outcome, ended.1 = .ok outcome → outcome.ReportsFailure) ∨
      ∃ outcome i rev n, ended.1 = .ok outcome ∧ outcome.ReportsSuccess ∧
        t.intent columns op = .ok i ∧ t.outline columns (K.ledger st).rows i = .ok (rev, n) ∧
        (K.ledger ended.2.2).rows = rev.applied (K.ledger st).rows ∧
        ∃ w? : Option SheetWrite, (K.ledger ended.2.2).sent = (K.ledger st).sent ++ w?.toList) ∧
    ended.2.1.pending = [] := by
  intro K t op st
  have hroom : ∀ st, ((K.ledger st).rows.length : Int) ≤
      ((Scripted.party fun _ => false).answer .extent st).1.1 := fun _ => Int.le_refl _
  have hop : op.isWrite = true := rfl
  have hs : Ready columns session := ⟨rfl, rfl⟩
  exact perform_atomic K hroom t rfl hop ⟨[], rfl⟩ hs st

open Sample in
/-- With a wait of some three hundred years the lock within a process cannot be asked for: the fault
is raised by the write itself. -/
theorem create_raises_of_long_wait :
    ¬ ∃ outcome, (Act.run (Scripted.party fun seconds => (Mutex.checkWait seconds).toOption.isNone)
      ((table (.int (10 ^ (13 : Nat)))).perform (.create (user "e3" "Carol"))) session
      (.ofRows rows)).1 = .ok outcome := by
  have h : (Act.run (Scripted.party fun seconds => (Mutex.checkWait seconds).toOption.isNone)
      ((table (.int (10 ^ (13 : Nat)))).perform (.create (user "e3" "Carol"))) session
      (.ofRows rows)).1.isOk = false := by decide +kernel
  rintro ⟨outcome, houtcome⟩
  rw [houtcome] at h
  cases h

end Table

end RowStore
