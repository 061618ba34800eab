import RowStore.Proofs.Grid.Confined
import RowStore.Proofs.Sheet.Scripted
import RowStore.Proofs.Table.Sample

/-!
# The bracket of a locked write

A locked write takes the lock, does its work and gives the lock back, on every way out.

* `takeLock_ends` : a writer that is ready asks for the lock once, and for nothing else;
* `Writer.work` : what is done while the lock is held, the action and then the flush;
* `settle_ends` : what follows the work gives its outcome back, and drops what waits after a fault;
* `execute_of_taken` : once the lock is taken, a write is its work and the release;
* `execute_bracketed` : what a locked write asks for, in order, and what it gives.
-/

namespace RowStore

open Act

variable {α σ : Type} {party : Party σ} {s : Session} {st : σ}

namespace Writer

variable {w : Writer} {seconds : Binary64} {action : Act α}

/-! ## Before the work -/

/-- A writer that is not ready asks for nothing and changes nothing. -/
theorem execute_of_not_ready {fault : Fault} (h : w.ready = .error fault) (description : Text)
    (action : Act α) (s : Session) (st : σ) :
    asked party (w.execute description action) s st = [] ∧
      run party (w.execute description action) s st = (.error fault, s, st) := by
  rw [asked, execute, trace_bind, trace_liftExcept, run_bind, run_liftExcept]
  cases hseconds : waitSeconds w.waitMs with
  | error fault' =>
    rw [ready_eq, hseconds] at h
    cases h
    exact ⟨rfl, rfl⟩
  | ok seconds =>
    rw [ready_of_pathCheck hseconds] at h
    dsimp only
    rw [trace_bind, run_bind, takeLock_eq, trace_bind, run_bind, trace_liftExcept, run_liftExcept]
    cases hcheck : w.pathCheck with
    | error fault' =>
      rw [hcheck] at h
      cases h
      exact ⟨rfl, rfl⟩
    | ok _ =>
      rw [hcheck] at h
      cases h

/-- A writer that is ready asks for the lock once, and for nothing else. -/
theorem takeLock_ends (party : Party σ) (h : w.ready = .ok seconds) (s : Session) (st : σ) :
    asked party (w.takeLock seconds) s st = [⟨_, .acquire seconds⟩] ∧
      ∃ notes, run party (w.takeLock seconds) s st = ((party.answer (.acquire seconds) st).1,
        ⟨s.columns, s.pending, notes⟩, (party.answer (.acquire seconds) st).2) ∧
        ((party.answer (.acquire seconds) st).1 = .ok true → notes = s.notes) := by
  rw [asked, takeLock_eq, trace_bind, trace_liftExcept, run_bind, run_liftExcept, (ready_eq_ok h).2]
  dsimp only
  rw [askLock, trace_bind, trace_ofAnswer_ask, run_bind, run_ofAnswer_ask]
  rcases (party.answer (.acquire seconds) st).1 with fault | _ | _
  · exact ⟨rfl, s.notes, rfl, fun _ => rfl⟩
  · cases w.lockPath <;> exact ⟨rfl, _, rfl, fun h => by cases h⟩
  · exact ⟨rfl, s.notes, rfl, fun _ => rfl⟩

/-! ## The work -/

/-- What is done while the lock is held: the action, and a flush of what it has queued. -/
def work (w : Writer) (action : Act α) : Act α := do
  let a ← action
  w.grid.flush
  return a

/-- An action that fails has been all of the work. -/
theorem work_of_fault {fault : Fault} {s' : Session} {st' : σ}
    (h : run party action s st = (.error fault, s', st')) :
    asked party (w.work action) s st = asked party action s st ∧
      run party (w.work action) s st = (.error fault, s', st') := by
  rw [asked, work, trace_bind, run_bind, h]
  exact ⟨List.append_nil _, rfl⟩

/-- An action that returns is followed by the flush. -/
theorem work_of_value {a : α} {s' : Session} {st' : σ}
    (h : run party action s st = (.ok a, s', st')) :
    asked party (w.work action) s st = asked party action s st ++ asked party w.grid.flush s' st' ∧
      run party (w.work action) s st =
        ((run party w.grid.flush s' st').1.map fun _ => a, (run party w.grid.flush s' st').2) := by
  rw [asked, work, trace_bind, run_bind, h]
  dsimp only
  rw [trace_bind, run_bind]
  rcases run party w.grid.flush s' st' with ⟨fault | _, s'', st''⟩ <;>
    exact ⟨congrArg _ (List.append_nil _), rfl⟩

/-- What follows the work asks for nothing, and gives its outcome back. -/
theorem settle_ends (party : Party σ) (description : Text) (outcome : Except Fault α) (s : Session)
    (st : σ) : asked party (settle description outcome) s st = [] ∧
      ∃ notes, run party (settle description outcome) s st =
        (.ok outcome, ⟨s.columns, if outcome.isOk then s.pending else [], notes⟩, st) := by
  obtain ⟨notes, hsettle⟩ := settle_eq description outcome s
  rw [asked, trace, run, hsettle]
  exact ⟨rfl, notes, rfl⟩

/-! ## The whole write -/

/-- A lock that is not to be had ends the write. -/
theorem execute_of_not_taken (h : w.ready = .ok seconds) (description : Text) (action : Act α)
    (s : Session) {st : σ} (htaken : (party.answer (.acquire seconds) st).1 ≠ .ok true) :
    asked party (w.execute description action) s st = [⟨_, .acquire seconds⟩] ∧
      ∃ notes, run party (w.execute description action) s st =
        ((party.answer (.acquire seconds) st).1.map fun _ =>
            .error (.lockTimeout description w.waitMs),
          ⟨s.columns, s.pending, notes⟩, (party.answer (.acquire seconds) st).2) := by
  obtain ⟨hasked, notes, hrun, -⟩ := takeLock_ends party h s st
  rw [asked, execute, trace_bind, trace_liftExcept, run_bind, run_liftExcept, (ready_eq_ok h).1]
  dsimp only
  rw [trace_bind, run_bind, hrun]
  rw [asked] at hasked
  rw [hasked]
  rcases htaken' : (party.answer (.acquire seconds) st).1 with fault | _ | _
  · exact ⟨rfl, notes, rfl⟩
  · exact ⟨rfl, _, rfl⟩
  · exact absurd htaken' htaken

/-- Once the lock is taken, a write is its work and the release; no change is left waiting. -/
theorem execute_of_taken (h : w.ready = .ok seconds) (description : Text) (action : Act α)
    (s : Session) {st : σ} (htaken : (party.answer (.acquire seconds) st).1 = .ok true) :
    let worked := run party (w.work action) s (party.answer (.acquire seconds) st).2
    asked party (w.execute description action) s st = ⟨_, .acquire seconds⟩ ::
        asked party (w.work action) s (party.answer (.acquire seconds) st).2 ++ [⟨_, .release⟩] ∧
      (run party (w.execute description action) s st).1 =
        (party.answer .release worked.2.2).1.map (fun _ => worked.1) ∧
      (run party (w.execute description action) s st).2.1.pending =
        if worked.1.isOk then worked.2.1.pending else [] := by
  intro worked
  obtain ⟨hasked, notes, hrun, hnotes⟩ := takeLock_ends party h s st
  obtain rfl := hnotes htaken
  obtain ⟨hquiet, notes', hsettle⟩ :=
    settle_ends party description worked.1 worked.2.1 worked.2.2
  rw [asked] at hasked hquiet
  rw [asked, execute, trace_bind, trace_liftExcept, run_bind, run_liftExcept, (ready_eq_ok h).1]
  dsimp only
  rw [trace_bind, run_bind, hrun, hasked, htaken]
  dsimp only
  rw [if_pos rfl, trace_bind, run_bind, trace_observe, run_observe]
  change _ ++ (asked party (w.work action) s _ ++
      trace party _ (settle description worked.1 >>= _) worked.2.1 worked.2.2) = _ ∧
    (run party (settle description worked.1 >>= _) worked.2.1 worked.2.2).1 = _ ∧
      (run party (settle description worked.1 >>= _) worked.2.1 worked.2.2).2.1.pending = _
  rw [trace_bind, run_bind, hsettle, hquiet]
  dsimp only
  rw [trace_bind, run_bind, run_ofAnswer_ask, trace_ofAnswer_ask]
  rcases (party.answer .release worked.2.2).1 with fault | _ <;> exact ⟨rfl, rfl, rfl⟩

/-- What a flush asks for is never the lock. -/
theorem not_asksLock_of_flush (g : Grid) {s : Session} {st : σ} {q : Σ β : Type, Request β}
    (hq : q ∈ asked party g.flush s st) : ¬ q.2.AsksLock :=
  ((Confined.flush g).of_mem_asked hq).not_asksLock

/-- A locked write, whatever its action does, short of asking for the lock itself. A writer that is not
ready fails at once. Otherwise the lock is asked for first, and once; if it is not to be had, nothing
else is asked for and no change is queued or dropped. If it is, the lock is given back last, and once, and
no change is left waiting. Between the two the action runs, and a flush follows it if it has
returned; an action that fails is followed by the release alone. The result is the value of the
action if both have returned, and else the fault of the one that has not. -/
theorem execute_bracketed (w : Writer) (description : Text) {action : Act α}
    (haction : ∀ s st, ∀ q ∈ asked party action s st, ¬ q.2.AsksLock) (s : Session) (st : σ) :
    let all := asked party (w.execute description action) s st
    let ended := run party (w.execute description action) s st
    (∀ fault, w.ready = .error fault → all = [] ∧ ended = (.error fault, s, st)) ∧
    ∀ seconds, w.ready = .ok seconds →
      let taken := party.answer (.acquire seconds) st
      (taken.1 ≠ .ok true → all = [⟨_, .acquire seconds⟩] ∧ ended.2.2 = taken.2 ∧
        ended.2.1.columns = s.columns ∧ ended.2.1.pending = s.pending ∧
        ended.1 = taken.1.map fun _ => .error (.lockTimeout description w.waitMs)) ∧
      (taken.1 = .ok true → ended.2.1.pending = [] ∧ ∃ between,
        all = ⟨_, .acquire seconds⟩ :: between ++ [⟨_, .release⟩] ∧
        (∀ q ∈ between, ¬ q.2.AsksLock) ∧
        let acted := run party action s taken.2
        let flushed := run party w.grid.flush acted.2.1 acted.2.2
        match acted.1 with
        | .error fault => between = asked party action s taken.2 ∧
          ended.1 = (party.answer .release acted.2.2).1.map fun _ => .error fault
        | .ok a => between = asked party action s taken.2 ++
            asked party w.grid.flush acted.2.1 acted.2.2 ∧
          ended.1 = (party.answer .release flushed.2.2).1.map fun _ => flushed.1.map fun _ => a) := by
  intro all ended
  refine ⟨fun fault h => execute_of_not_ready h description action s st, fun seconds h => ?_⟩
  intro taken
  refine ⟨fun htaken => ?_, fun htaken => ?_⟩
  · obtain ⟨hasked, notes, hrun⟩ := execute_of_not_taken h description action s htaken
    have hended : ended = _ := hrun
    rw [hended]
    exact ⟨hasked, rfl, rfl, rfl, rfl⟩
  · obtain ⟨hasked, hresult, hpending⟩ := execute_of_taken h description action s htaken
    have hact := haction s taken.2
    rcases hacted : run party action s taken.2 with ⟨fault | a, s', st'⟩
    · obtain ⟨hwork, hworked⟩ := work_of_fault (w := w) hacted
      rw [hworked] at hresult hpending
      rw [hwork] at hasked
      exact ⟨hpending, _, hasked, hact, rfl, hresult⟩
    · obtain ⟨hwork, hworked⟩ := work_of_value (w := w) hacted
      rw [hworked] at hresult hpending
      rw [hwork] at hasked
      refine ⟨?_, _, hasked, ?_, rfl, hresult⟩
      · refine hpending.trans ?_
        split
        · exact w.grid.flush_empties party s' st'
        · rfl
      · intro q hq
        exact (List.mem_append.mp hq).elim (hact q) (not_asksLock_of_flush w.grid)

open Sample in
/-- An action that reads, queues a deletion and then fails: the deletion is never sent. -/
theorem execute_bracketed_abandoned :
    let t := table (.int 30000)
    let party := Scripted.party fun _ => false
    let action : Act Unit := do
      let rows ← t.grid.readData
      Grid.queue (.deleteRow rows.length)
      throw .unsuitable
    let ended := run party (t.writer.execute "delete" action) .fresh (Scripted.ofRows rows)
    ∃ seconds, t.writer.ready = .ok seconds ∧
      asked party (t.writer.execute "delete" action) .fresh (Scripted.ofRows rows) =
        [⟨_, .acquire seconds⟩, ⟨_, .readRows⟩, ⟨_, .release⟩] ∧
      ended.1 = .ok (.error .unsuitable) ∧ ended.2.1.pending = [] := by
  intro t party action ended
  have hconfined : Confined Request.AsksGrid action :=
    (LeavesAlone.readData t.grid).confined.bind fun _ => (Confined.queue _).bind fun _ =>
      Confined.throw _
  have haction : ∀ s st, ∀ q ∈ asked party action s st, ¬ q.2.AsksLock :=
    fun _ _ _ hq => (hconfined.of_mem_asked hq).not_asksLock
  obtain ⟨-, htaken⟩ := execute_bracketed t.writer "delete" haction .fresh (Scripted.ofRows rows)
  cases hready : t.writer.ready with
  | error fault =>
    have hok : t.writer.ready.isOk = true := by decide +kernel
    rw [hready] at hok
    cases hok
  | ok seconds =>
    obtain ⟨-, htaken⟩ := htaken seconds hready
    obtain ⟨hpending, between, hasked, -, hbetween, hended⟩ := htaken rfl
    subst hbetween
    exact ⟨seconds, rfl, hasked, hended, hpending⟩

end Writer

end RowStore
