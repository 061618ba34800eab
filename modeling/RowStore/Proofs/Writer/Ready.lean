import RowStore.Proofs.Fault.Outcome
import RowStore.Proofs.Session.Meets
import RowStore.Writer

/-!
# Before and after the work of a locked write

* `Writer.ready w` : the wait in seconds, if the writer can ask for the lock at all;
* `Writer.askLock w` : the asking alone; `takeLock_eq` : it follows the check of the path;
* `settle_eq` : what follows the work asks for nothing, and after a fault it drops what waits.
-/

namespace RowStore

variable {α : Type}

/-- Dropping the waiting changes asks for nothing. -/
theorem Grid.discard_eq (s : Session) :
    ∃ notes, Grid.discard s = .done (.ok (), ⟨s.columns, [], notes⟩) := by
  have hpending : Act.pending s = .done (.ok s.pending, s) := rfl
  rw [Grid.discard, Act.bind_of_done hpending]
  dsimp only
  split <;> exact ⟨_, rfl⟩

namespace Writer

variable {w : Writer} {seconds : Binary64}

/-- Refuses a path that can name no lock file. -/
def pathCheck (w : Writer) : Except Fault Unit :=
  match w.lockPath with
  | some path => LockFile.checkPath path
  | none => .ok ()

/-- Asks for the lock, and notes a wait that was too short. -/
def askLock (w : Writer) (seconds : Binary64) : Act Bool := do
  let taken ← Act.ofAnswer (Act.ask (.acquire seconds))
  match taken, w.lockPath with
  | false, some path =>
    let n := LockFile.timeoutNote seconds path
    Act.note n.level n.text
    return false
  | taken, _ => return taken

theorem takeLock_eq (w : Writer) (seconds : Binary64) : w.takeLock seconds =
    (liftM w.pathCheck : Act Unit) >>= fun _ => w.askLock seconds := by
  rw [takeLock, pathCheck, askLock]
  cases w.lockPath <;> rfl

/-- The wait in seconds, if the writer can ask for the lock at all. -/
def ready (w : Writer) : Except Fault Binary64 := do
  let seconds ← waitSeconds w.waitMs
  if let some path := w.lockPath then LockFile.checkPath path
  return seconds

theorem ready_eq (w : Writer) :
    w.ready = waitSeconds w.waitMs >>= fun seconds => w.pathCheck >>= fun _ => .ok seconds := by
  rw [ready, pathCheck]
  cases w.lockPath <;> rfl

theorem ready_eq_ok (h : w.ready = .ok seconds) :
    waitSeconds w.waitMs = .ok seconds ∧ w.pathCheck = .ok () := by
  rw [ready_eq] at h
  obtain ⟨_, hseconds, h⟩ := bind_eq_ok h
  obtain ⟨_, hcheck, h⟩ := bind_eq_ok h
  cases h
  exact ⟨hseconds, hcheck⟩

theorem ready_of_pathCheck (hseconds : waitSeconds w.waitMs = .ok seconds) :
    w.ready = w.pathCheck >>= fun _ => .ok seconds := by
  rw [ready_eq, hseconds]
  rfl

/-! ## After the work -/

theorem noteFault_eq (description : Text) (fault : Fault) (s : Session) : ∃ notes,
    noteFault description fault s = .done (.ok (), ⟨s.columns, s.pending, notes⟩) := by
  rw [noteFault]
  split
  · exact ⟨_, rfl⟩
  · split <;> exact ⟨_, rfl⟩

/-- What follows the work gives its outcome back, and after a fault it drops what waits. -/
theorem settle_eq (description : Text) (outcome : Except Fault α) (s : Session) : ∃ notes,
    settle description outcome s =
      .done (.ok outcome, ⟨s.columns, if outcome.isOk then s.pending else [], notes⟩) := by
  cases outcome with
  | ok a => exact ⟨s.notes, rfl⟩
  | error fault =>
    obtain ⟨notes, hdiscard⟩ := Grid.discard_eq s
    obtain ⟨notes', hnote⟩ := noteFault_eq description fault ⟨s.columns, [], notes⟩
    rw [settle, Act.bind_of_done hdiscard, Act.bind_of_done hnote]
    exact ⟨notes', rfl⟩

end Writer

end RowStore
