import RowStore.Proofs.Table.Deleted
import RowStore.Proofs.Table.Obtained

/-!
# Deleting one by one and all at once

* `Exhausts party m s st n s' st'` : done again and again, the act `m` has done something `n` times when it
  does nothing for the first time; `Exhausts.unique` : there is at most one such end;
* `exists_exhausts_delete` : deletions of one row come to an end and take out all rows that their conditions
  select, by induction on the number of these rows;
* `exhausts_delete_as_deleteMany` : they take out as many rows as one deletion of all of them, and leave
  the same sheet.
-/

namespace RowStore

open Act

variable {σ : Type} {party : Party σ}

/-- An act that says whether it has done something is done until it says for the first time that it has not.
Before that it has done something `n` times; in the end there are the session and the state that it leaves. -/
inductive Exhausts (party : Party σ) (m : Act Outcome) : Session → σ → Nat → Session → σ → Prop
  | stop {s : Session} {st : σ} (h : (run party m s st).1 = .ok (.done false)) :
    Exhausts party m s st 0 (run party m s st).2.1 (run party m s st).2.2
  | again {s s' : Session} {st st' : σ} {n : Nat} (h : (run party m s st).1 = .ok (.done true))
    (hrest : Exhausts party m (run party m s st).2.1 (run party m s st).2.2 n s' st') :
    Exhausts party m s st (n + 1) s' st'

namespace Exhausts

variable {m : Act Outcome} {s s' e e' : Session} {st st' x x' : σ} {n n' : Nat}

/-- There is one end, after one number of times. -/
theorem unique (h : Exhausts party m s st n e x) (h' : Exhausts party m s st n' e' x') :
    n = n' ∧ e = e' ∧ x = x' := by
  induction h generalizing n' with
  | stop h =>
    cases h' with
    | stop => exact ⟨rfl, rfl, rfl⟩
    | again h' => cases h.symm.trans h'
  | again h _ ih =>
    cases h' with
    | stop h' => cases h.symm.trans h'
    | again _ hrest =>
      obtain ⟨rfl, rfl, rfl⟩ := ih hrest
      exact ⟨rfl, rfl, rfl⟩

/-- What comes of it depends on the first time alone. -/
theorem congr (h : run party m s st = run party m s' st') (h' : Exhausts party m s' st' n e x) :
    Exhausts party m s st n e x := by
  cases h' with
  | stop h' =>
    rw [← h] at h' ⊢
    exact stop h'
  | again h' hrest =>
    rw [← h] at h' hrest
    exact again h' hrest

end Exhausts

/-! ## One row less -/

namespace Rows

variable {p : Row → Bool} {data : Rows}

/-- Without the first row that passes, one row less passes, and the others are the same. -/
theorem countP_eraseP (h : 0 < data.countP p) : (data.eraseP p).countP p + 1 = data.countP p := by
  obtain ⟨row, hmem, hrow⟩ := List.countP_pos_iff.mp h
  obtain ⟨row, before, after, hbefore, hrow, rfl, herase⟩ := List.exists_of_eraseP hmem hrow
  rw [herase, List.countP_append, List.countP_append, List.countP_cons_of_pos hrow, Nat.add_assoc]

theorem filter_eraseP (p : Row → Bool) (data : Rows) :
    (data.eraseP p).filter (!p ·) = data.filter (!p ·) := by
  rcases List.exists_or_eq_self_of_eraseP p data with hsame |
    ⟨row, before, after, hbefore, hrow, rfl, herase⟩
  · rw [hsame]
  · rw [herase, List.filter_append, List.filter_append, List.filter_cons_of_neg (by simp [hrow])]

end Rows

namespace Table

variable {K : Keeper party} {t : Table} {c : Columns} {conditions : Entries Value} {h : Nat}
  {top data : Rows} {s : Session} {st : σ}

theorem leftBy_of_none (hnone : data.countP (c.Selects conditions) = 0) :
    leftBy c conditions false data = data := by
  refine List.filter_eq_self.mpr fun row hrow => ?_
  simpa using List.countP_eq_zero.mp hnone row hrow

theorem leftBy_first (c : Columns) (conditions : Entries Value) (data : Rows) :
    leftBy c conditions false (leftBy c conditions true data) = leftBy c conditions false data := by
  simp only [leftBy, decide_not]
  exact Rows.filter_eraseP _ data

section

variable (K : Keeper party) (hw : Writable K t h) (hs : Ready c s) (hc : c.isEmpty = false)
  (hst : K.sound st) (htop : top.length = h) (hrows : (K.ledger st).rows = top ++ data)
  (conditions : Entries Value)
include hw hs hc hst htop hrows

/-- A deletion of all rows gives the number of those that its conditions select, and leaves the others. -/
theorem run_deleteMany_selected :
    let ended := run party (t.perform (.deleteMany (.mapping conditions))) s st
    ended.1 = .ok (.count (data.countP (c.Selects conditions))) ∧
      (K.ledger ended.2.2).rows = top ++ leftBy c conditions false data := by
  intro ended
  obtain ⟨htaken, hspared⟩ := run_erasure K hw hs hc hst htop hrows
    (Operation.erases_deleteMany t c conditions)
  rcases Nat.eq_zero_or_pos (data.countP (c.Selects conditions)) with hnone | hsome
  · obtain ⟨⟨fault, houtcome⟩, hledger⟩ := hspared hnone
    rw [hnone, leftBy_of_none hnone, hledger]
    exact ⟨houtcome, hrows⟩
  · exact htaken hsome

/-- Deletions of one row come to an end when no row is left that their conditions select. -/
theorem exists_exhausts_delete :
    ∃ s' st', Exhausts party (t.perform (.delete (.mapping conditions))) s st
        (data.countP (c.Selects conditions)) s' st' ∧
      (K.ledger st').rows = top ++ leftBy c conditions false data := by
  generalize hk : data.countP (c.Selects conditions) = k
  -- Each time there is one row less to be taken out, and those that are left in the end stay the same.
  induction k generalizing s st data with
  | zero =>
    obtain ⟨⟨fault, houtcome⟩, hledger⟩ := (run_erasure K hw hs hc hst htop hrows
      (Operation.erases_delete t c conditions)).2 hk
    refine ⟨_, _, .stop houtcome, ?_⟩
    rw [hledger, leftBy_of_none hk, hrows]
  | succ k ih =>
    have hsome : 0 < data.countP (c.Selects conditions) := hk ▸ Nat.succ_pos k
    have hop := Operation.erases_delete t c conditions
    obtain ⟨houtcome, hafter⟩ := (run_erasure K hw hs hc hst htop hrows hop).1 hsome
    obtain ⟨hs', hst'⟩ := run_ready K t hs hc hop.writes hst
    have hless : (leftBy c conditions true data).countP (c.Selects conditions) = k :=
      Nat.succ.inj ((Rows.countP_eraseP hsome).trans hk)
    obtain ⟨s', st', hrest, hleft⟩ := ih hs' hst' hafter hless
    rw [leftBy_first] at hleft
    exact ⟨s', st', .again houtcome hrest, hleft⟩

end

/-- Where no call fails, and whatever columns are kept: to delete the first row that conditions select, until
there is none, comes to an end. It takes out as many rows as one deletion of all of them, and leaves the
same sheet. -/
theorem exhausts_delete_as_deleteMany (K : Keeper party) (hw : Writable K t h) (hpending : s.pending = [])
    (hkept : ∀ c, s.columns = some c → Distinct c.list) (hst : K.sound st) (htop : top.length = h)
    (hrows : (K.ledger st).rows = top ++ data)
    (hfault : ∀ fault, (run party t.requireColumns s st).1 = .error fault →
      fault.kind.isValidation = true) (conditions : Entries Value) :
    let one := t.perform (.delete (.mapping conditions))
    let many := run party (t.perform (.deleteMany (.mapping conditions))) s st
    (∃ n s' st', Exhausts party one s st n s' st') ∧
      ∀ n s' st', Exhausts party one s st n s' st' →
        many.1 = .ok (.count n) ∧ (K.ledger st').rows = (K.ledger many.2.2).rows := by
  intro one many
  have hone := Operation.checksFirst_delete t (.mapping conditions)
  have hmany := Operation.checksFirst_deleteMany t (.mapping conditions)
  have hend : ∃ n s' st', Exhausts party one s st n s' st' ∧ many.1 = .ok (.count n) ∧
      (K.ledger st').rows = (K.ledger many.2.2).rows := by
    cases hcolumns : (run party t.requireColumns s st).1 with
    | error fault =>
      obtain ⟨houtcome, hended⟩ := hone.run_of_error hcolumns
      obtain ⟨hcount, hended'⟩ := hmany.run_of_error hcolumns
      rw [if_pos (hfault fault hcolumns)] at houtcome hcount
      exact ⟨0, _, _, .stop houtcome, hcount, by rw [hended, hended']⟩
    | ok c =>
      obtain ⟨s', st', hhad⟩ := exists_obtained K t hpending hkept hcolumns
      have hst' := hhad.sound hst
      have hrows' : (K.ledger st').rows = top ++ data := hhad.ledger ▸ hrows
      obtain ⟨hcount, hafter⟩ := run_deleteMany_selected K hw hhad.ready hhad.filled hst' htop hrows'
        conditions
      obtain ⟨e, x, hexhausts, hleft⟩ := exists_exhausts_delete K hw hhad.ready hhad.filled hst' htop hrows'
        conditions
      have hsame : many = run party (t.perform (.deleteMany (.mapping conditions))) s' st' :=
        hmany.run_congr hhad.again
      rw [hsame]
      exact ⟨_, e, x, hexhausts.congr (hone.run_congr hhad.again), hcount, hleft.trans hafter.symm⟩
  obtain ⟨n, e, x, hexhausts, hcount, hsame⟩ := hend
  refine ⟨⟨n, e, x, hexhausts⟩, fun n' s' st' h' => ?_⟩
  obtain ⟨rfl, rfl, rfl⟩ := hexhausts.unique h'
  exact ⟨hcount, hsame⟩

open Sample in
/-- Two users are called Bob: they go one after the other, and the third time none is left. -/
theorem exhausts_delete_as_deleteMany_bobs :
    let party := Scripted.party fun _ => false
    let K : Keeper party := Scripted.keeper fun _ => false
    let st := Scripted.ofRows [row "id" "Name", row "e1" "Bob", row "e2" "Alice", row "e3" "Bob"]
    let one := (table (.int 30000)).perform (.delete (.mapping [(.text "Name", .text "Bob")]))
    (∃ n s' st', Exhausts party one session st n s' st') ∧
      ∀ n s' st', Exhausts party one session st n s' st' →
        n = 2 ∧ (K.ledger st').rows = [row "id" "Name", row "e2" "Alice"] := by
  intro party K st one
  have hst : K.sound st := Scripted.sound_ofRows _
  have hrows : (K.ledger st).rows =
      [row "id" "Name"] ++ [row "e1" "Bob", row "e2" "Alice", row "e3" "Bob"] := rfl
  have hfault : ∀ fault, (run party (table (.int 30000)).requireColumns session st).1 = .error fault →
      fault.kind.isValidation = true := by
    rw [run_requireColumns_of_kept party _ rfl rfl]
    exact fun fault h => nomatch h
  obtain ⟨hends, hall⟩ := exhausts_delete_as_deleteMany K Writable.sample rfl distinct_of_kept hst rfl
    hrows hfault [(.text "Name", .text "Bob")]
  have hs : Ready columns session := ⟨rfl, rfl⟩
  obtain ⟨hcount, hafter⟩ := run_deleteMany_selected K Writable.sample hs rfl hst rfl hrows
    [(.text "Name", .text "Bob")]
  refine ⟨hends, fun n s' st' h => ?_⟩
  obtain ⟨hn, hleft⟩ := hall n s' st' h
  exact ⟨Outcome.count.inj (Except.ok.inj (hn.symm.trans hcount)), hleft.trans hafter⟩

end Table

end RowStore
