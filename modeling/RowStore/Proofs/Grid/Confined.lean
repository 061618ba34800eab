import RowStore.Proofs.Session.Confined
import RowStore.Proofs.Writer.Ready
import RowStore.Table.Write

/-!
# Work on the grid is confined to the grid

* `Request.AsksGrid` : the requests for the cells of a sheet, and for a pause;
* `Confined.attempts`, `Confined.readData`, `Confined.flush` : what is read from the grid and sent to it
  asks for nothing else;
* `Confined.appendRows`, `setFields`, `deleteRows` : neither do the actions of writes;
* `Confined.execute` : a locked write asks for the lock besides.
-/

namespace RowStore

open Act

variable {α : Type}

/-- A request for the cells of a sheet, or for a pause. -/
def Request.AsksGrid : {β : Type} → Request β → Prop
  | _, .extent => True
  | _, .readRows => True
  | _, .write _ => True
  | _, .wait _ => True
  | _, _ => False

/-- A request for the cells of a sheet or about the lock to it. -/
def Request.AsksSheet {β : Type} (r : Request β) : Prop := r.AsksGrid ∨ r.AsksLock

theorem Request.AsksGrid.not_asksLock {β : Type} {r : Request β} (h : r.AsksGrid) : ¬ r.AsksLock := by
  cases r with
  | acquire | release => exact fun _ => h
  | _ => exact id

/-! ## Calls -/

namespace Leaves

theorem rewording {φ γ : Type} {P : Protocol φ} {obs : φ → γ} {m : Act α} (hm : Leaves P obs m)
    (reword : Fault → Option Fault) : Leaves P obs (SheetCalls.rewording m reword) := by
  refine hm.observe.bind fun r => ?_
  cases r with
  | ok a => exact pure a
  | error fault => exact throw _

theorem pause {φ γ : Type} {P : Protocol φ} {obs : φ → γ}
    (hwait : ∀ seconds, Leaves P obs (Act.ask (.wait seconds))) (g : Grid) (description : Text)
    (attempt : Nat) (fault : Fault) : Leaves P obs (g.pause description attempt fault) :=
  (liftExcept _).bind fun _ => (liftExcept _).bind fun _ => (note _ _).bind fun _ => (hwait _).ofAnswer

end Leaves

namespace LeavesAlone

open Leaves

theorem readRows (title : Text) : LeavesAlone Request.AsksGrid (SheetCalls.readRows title) :=
  (LeavesAlone.ask trivial).ofAnswer.rewording _

theorem send (w : SheetWrite) (cause : Text → ServiceFault) :
    LeavesAlone Request.AsksGrid (SheetCalls.send w cause) :=
  (LeavesAlone.ask trivial).ofAnswer.rewording _

theorem sendRows (title : Text) (rows : List Value) :
    LeavesAlone Request.AsksGrid (SheetCalls.appendRows title rows) := by
  rw [SheetCalls.appendRows]
  split
  · exact Leaves.pure _
  · exact (liftExcept _).bind fun _ => send _ _

theorem setBlocks (blocks : List Block) :
    LeavesAlone Request.AsksGrid (SheetCalls.setBlocks blocks) := by
  rw [SheetCalls.setBlocks]
  split
  · exact Leaves.pure _
  · exact send _ _

theorem sendDeletions (title : Text) (rows : List Value) :
    LeavesAlone Request.AsksGrid (SheetCalls.deleteRows title rows) := by
  rw [SheetCalls.deleteRows]
  split
  · exact Leaves.pure _
  · exact (liftExcept _).bind fun _ => send _ _

theorem clearRows (title : Text) (startRow : Value) :
    LeavesAlone Request.AsksGrid (SheetCalls.clearRows title startRow) := by
  refine (LeavesAlone.ask trivial).bind fun size => (liftExcept _).bind fun b => ?_
  dsimp only
  split
  · exact Leaves.pure _
  · exact send _ _

/-! ## Repeated calls -/

theorem pause (g : Grid) (description : Text) (attempt : Nat) (fault : Fault) :
    LeavesAlone Request.AsksGrid (g.pause description attempt fault) :=
  Leaves.pause (fun _ => LeavesAlone.ask trivial) g description attempt fault

theorem attempts (g : Grid) (description : Text) {call : Act α}
    (hcall : LeavesAlone Request.AsksGrid call) (left attempt : Nat) (last : Option Fault) :
    LeavesAlone Request.AsksGrid (g.attempts description call left attempt last) := by
  induction left generalizing attempt last with
  | zero => exact Leaves.throw _
  | succ left ih =>
    refine hcall.observe.bind fun r => ?_
    cases r with
    | ok a => exact Leaves.pure a
    | error fault =>
      dsimp only
      split
      · split
        · exact (pause g description attempt fault).bind fun _ => ih _ _
        · exact ih _ _
      · exact Leaves.throw _

theorem retrying (g : Grid) (description : Text) {call : Act α}
    (hcall : LeavesAlone Request.AsksGrid call) :
    LeavesAlone Request.AsksGrid (g.retrying description call) := by
  refine (liftExcept _).bind fun retries => ?_
  dsimp only
  split
  · exact (Leaves.throw _).bind fun _ => attempts g description hcall _ _ _
  · exact attempts g description hcall _ _ _

theorem readData (g : Grid) : LeavesAlone Request.AsksGrid g.readData :=
  (retrying g _ (readRows _)).bind fun _ => liftExcept _

theorem sendBatch (g : Grid) (b : Batch) : LeavesAlone Request.AsksGrid (g.sendBatch b) := by
  cases b with
  | set blocks => exact retrying g _ (setBlocks blocks)
  | append parts => exact (liftExcept _).bind fun _ => sendRows _ _
  | delete rows => exact sendDeletions _ rows
  | clear first others =>
    exact (liftExcept _).bind fun _ => (liftExcept _).bind fun _ => retrying g _ (clearRows _ _)
  | foreign v => exact Leaves.throw _

end LeavesAlone

namespace Confined

/-! ## The queue -/

section
variable {allowed : {β : Type} → Request β → Prop}

theorem queueAll (changes : List Change) : Confined allowed (Grid.queueAll changes) :=
  pending.bind fun _ => setPending _

theorem queue (change : Change) : Confined allowed (Grid.queue change) :=
  pending.bind fun _ => setPending _

end

/-- A flush asks for nothing but the cells of the sheet. -/
theorem flush (g : Grid) : Confined Request.AsksGrid g.flush :=
  pending.bind fun _ => (setPending _).bind fun _ =>
    LeavesAlone.confined (Leaves.forM fun b => LeavesAlone.sendBatch g b)

end Confined

namespace Grid

section
variable {σ : Type} (party : Party σ) (g : Grid) (s : Session) (st : σ)

/-- A flush sends the batches of the waiting changes from a session where none waits. -/
theorem run_flush : run party g.flush s st =
    run party ((batches s.pending).forM g.sendBatch) ⟨s.columns, [], s.notes⟩ st := rfl

/-- A flush leaves no change waiting, whether or not it fails. -/
theorem flush_empties : (run party g.flush s st).2.1.pending = [] := by
  have hsent : LeavesAlone Request.AsksGrid ((batches s.pending).forM g.sendBatch) :=
    Leaves.forM fun b => LeavesAlone.sendBatch g b
  rw [run_flush]
  exact hsent.pending_run party _ st

end

end Grid

namespace Confined

/-! ## Actions of writes -/

theorem positions (columns : Option Columns) {read : Act (List Value)}
    (hread : Confined Request.AsksGrid read) (conditions : Value) (firstOnly : Bool) :
    Confined Request.AsksGrid (Match.positions columns read conditions firstOnly) := by
  rw [Match.positions]
  split
  · exact (note _ _).bind fun _ => pure _
  · split
    · exact (note _ _).bind fun _ => pure _
    · refine (liftExcept _).bind fun entries => (liftNoted _).bind fun ts => ?_
      split
      · exact (note _ _).bind fun _ => pure _
      · exact hread.bind fun _ => liftExcept _

theorem matchingRows (t : Table) (c : Columns) (conditions : Value) (firstOnly : Bool) :
    Confined Request.AsksGrid (t.matchingRows c conditions firstOnly) := by
  have hread : Confined Request.AsksGrid
      (do return (← t.grid.readData).map .list : Act (List Value)) :=
    (LeavesAlone.readData t.grid).confined.bind fun _ => pure _
  refine (positions _ hread conditions firstOnly).bind fun positions => ?_
  split
  · exact throw_bind _ _
  · exact pure _

theorem appendRows (t : Table) (c : Columns) (rows : Rows) :
    Confined Request.AsksGrid (t.appendRows c rows) := by
  have hqueue : Confined Request.AsksGrid (do
      Grid.queue (.appendRows rows)
      return rows.length : Act Nat) := (queue _).bind fun _ => pure _
  rw [Table.appendRows]
  split
  · exact (LeavesAlone.readData t.grid).confined.bind fun _ => (liftExcept _).bind fun _ => hqueue
  · exact hqueue

theorem setFields (t : Table) (c : Columns) (fields : Entries Value) (conditions : Value)
    (firstOnly : Bool) : Confined Request.AsksGrid (t.setFields c fields conditions firstOnly) :=
  (matchingRows t c conditions firstOnly).bind fun _ => (liftExcept _).bind fun _ =>
    (queueAll _).bind fun _ => pure _

theorem deleteRows (t : Table) (c : Columns) (conditions : Value) (firstOnly : Bool) :
    Confined Request.AsksGrid (t.deleteRows c conditions firstOnly) :=
  (matchingRows t c conditions firstOnly).bind fun _ => (queueAll _).bind fun _ => pure _

/-! ## Locked writes -/

theorem settle {allowed : {β : Type} → Request β → Prop} (description : Text) (r : Except Fault α) :
    Confined allowed (Writer.settle description r) := by
  intro s
  obtain ⟨_, hsettle⟩ := Writer.settle_eq description r s
  exact (meets_of_done hsettle).mpr rfl

theorem takeLock (w : Writer) (seconds : Binary64) :
    Confined Request.AsksLock (w.takeLock seconds) := by
  rw [Writer.takeLock_eq]
  refine (liftExcept _).bind fun _ => (ofAnswer (ask trivial)).bind fun taken => ?_
  rcases taken with _ | _ <;> rcases w.lockPath with _ | path
  · exact pure _
  · exact (note _ _).bind fun _ => pure _
  · exact pure _
  · exact pure _

/-- A locked write asks for nothing but the cells of the sheet and the lock to it. -/
theorem execute (w : Writer) (description : Text) {action : Act α}
    (haction : Confined Request.AsksSheet action) :
    Confined Request.AsksSheet (w.execute description action) := by
  refine (liftExcept _).bind fun seconds => ?_
  refine ((takeLock w seconds).mono fun _ => Or.inr).bind fun taken => ?_
  split
  · have hflush : Confined Request.AsksSheet w.grid.flush := (flush w.grid).mono fun _ => Or.inl
    have hlocked := (haction.bind fun a => hflush.bind fun _ => pure a).observe
    refine hlocked.bind fun outcome => (settle _ _).bind fun result => ?_
    exact (ofAnswer (ask (Or.inr trivial))).bind fun _ => pure _
  · exact (note _ _).bind fun _ => pure _

end Confined

end RowStore
