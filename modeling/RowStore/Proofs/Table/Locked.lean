import RowStore.Proofs.Table.Plan
import RowStore.Proofs.Writer.Ready

/-!
# Locked writes

* `WriteEnds` : the ways in which a locked write ends;
* `meets_execute` : a locked write ends in one of these ways, and leaves an empty queue.
-/

namespace RowStore

open Act

variable {α : Type} {terms : Terms}

/-- How a locked write ends: with an outcome, which may be a fault, and a course. -/
inductive WriteEnds (terms : Terms) (w : Writer) (description : Text)
    (planned : Except Fault (Revision × α)) (x : Course) : Except Fault (Except Fault α) → Course → Prop
  /-- The writer cannot ask for the lock: the fault is raised. -/
  | unready {fault : Fault} (h : w.ready = .error fault) :
    WriteEnds terms w description planned x (.error fault) x
  /-- The lock cannot be asked for with that wait: the fault is raised. -/
  | barred {seconds : Binary64} {fault : Fault} (h : w.ready = .ok seconds)
    (hbars : terms.bars seconds) :
    WriteEnds terms w description planned x (.error fault) ⟨.over, x.ledger, x.disturbed⟩
  /-- The wait was too short. -/
  | refused {seconds : Binary64} (h : w.ready = .ok seconds) (hbars : ¬ terms.bars seconds) :
    WriteEnds terms w description planned x (.ok (.error (.lockTimeout description w.waitMs)))
      ⟨.over, x.ledger, true⟩
  /-- Nothing was changed, for there was no plan or a call failed. -/
  | failed {seconds : Binary64} {fault : Fault} {disturbed : Bool} (h : w.ready = .ok seconds)
    (hbars : ¬ terms.bars seconds) (hwhy : planned = .error fault ∨ disturbed = true)
    (hkept : x.disturbed = true → disturbed = true) :
    WriteEnds terms w description planned x (.ok (.error fault)) ⟨.over, x.ledger, disturbed⟩
  /-- The plan was carried out. -/
  | made {seconds : Binary64} {rev : Revision} {a : α} {size : Int × Int} {disturbed : Bool}
    (h : w.ready = .ok seconds) (hbars : ¬ terms.bars seconds) (hplanned : planned = .ok (rev, a))
    (hroom : rev.asksSize → terms.room x.ledger.rows size) :
    WriteEnds terms w description planned x (.ok (.ok a))
      ⟨.over, x.ledger.sending (rev.call size), disturbed⟩

namespace Writer

variable {s : Session} {x : Course} {w : Writer} {action : Act α}
  {out : Rows → Except Fault (Revision × α)}

/-- What the action and the sending have done while the lock is held. -/
def LockedEnds (terms : Terms) (planned : Except Fault (Revision × α)) (s : Session) (x : Course) :
    Except Fault α → Session → Course → Prop
  | .ok a, s', x' => ∃ rev, planned = .ok (rev, a) ∧
    Sent terms rev ⟨s.columns, [], s.notes⟩ x s' x'
  | .error fault, s', x' => s'.columns = s.columns ∧ x'.lock = x.lock ∧ x'.ledger = x.ledger ∧
    (x.disturbed = true → x'.disturbed = true) ∧ (planned = .error fault ∨ x'.disturbed = true)

theorem meets_locked (hx : x.lock = .held) (hp : s.pending = []) (h : Plans terms action out) :
    Meets (writing terms) (do
      let a ← action
      w.grid.flush
      return a) s x (LockedEnds terms (w.grid.permitted (out x.ledger.rows)) s x) := by
  rw [meets_bind]
  refine (h s x hx hp).mono fun r s' x' hr => ?_
  rcases r with fault | a
  · obtain ⟨h', hwhy⟩ := hr
    refine ⟨h'.columns, h'.lock, h'.ledger, h'.disturbed, hwhy.imp (fun ho => ?_) id⟩
    rw [ho]
    rfl
  · obtain ⟨rev, ho, h'⟩ := hr
    dsimp only
    rw [meets_bind]
    refine (Grid.meets_flush (h'.lock.trans hx) w.grid h'.pending).mono fun r s'' x'' hr => ?_
    rcases r with fault | _
    · obtain ⟨h'', hwhy⟩ := hr
      refine ⟨h''.columns.trans h'.columns, h''.lock.trans h'.lock, h''.ledger.trans h'.ledger,
        fun hd => h''.disturbed (h'.disturbed hd), hwhy.imp (fun hg => ?_) id⟩
      rw [Grid.permitted, ho]
      change (do w.grid.permits rev; return (rev, a)) = _
      rw [hg]
      rfl
    · obtain ⟨hg, hsent⟩ := hr
      refine ⟨rev, ?_, hsent.columns.trans h'.columns, hsent.pending, hsent.lock.trans h'.lock,
        fun hd => hsent.disturbed (h'.disturbed hd), ?_⟩
      · rw [Grid.permitted, ho]
        change (do w.grid.permits rev; return (rev, a)) = _
        rw [hg]
        rfl
      · rw [← h'.ledger]
        exact hsent.ledger

/-- What follows an action gives its outcome back; after a fault the queue is empty. -/
theorem meets_settle (description : Text) (r : Except Fault α) (hr : r.isOk → s.pending = []) :
    Meets (writing terms) (settle description r) s x fun r' s' x' => r' = .ok r ∧
      s'.columns = s.columns ∧ s'.pending = [] ∧ x' = x := by
  obtain ⟨notes, hsettle⟩ := settle_eq description r s
  refine (meets_of_done hsettle).mpr ⟨rfl, rfl, ?_, rfl⟩
  cases r with
  | ok a => exact hr rfl
  | error fault => rfl

/-- How taking the lock ends. -/
inductive LockEnds (terms : Terms) (w : Writer) (x : Course) : Except Fault Bool → Course → Prop
  | unready {fault : Fault} (h : w.ready = .error fault) : LockEnds terms w x (.error fault) x
  | barred {seconds : Binary64} {fault : Fault} (h : w.ready = .ok seconds)
    (hbars : terms.bars seconds) :
    LockEnds terms w x (.error fault) ⟨.over, x.ledger, x.disturbed⟩
  | refused {seconds : Binary64} (h : w.ready = .ok seconds) (hbars : ¬ terms.bars seconds) :
    LockEnds terms w x (.ok false) ⟨.over, x.ledger, true⟩
  | taken {seconds : Binary64} (h : w.ready = .ok seconds) (hbars : ¬ terms.bars seconds) :
    LockEnds terms w x (.ok true) ⟨.held, x.ledger, x.disturbed⟩

/-- A writer that can ask for the lock does so, and notes a wait that was too short. -/
theorem meets_askLock (hx : x.lock = .before) {seconds : Binary64} (h : w.ready = .ok seconds) :
    Meets (writing terms) (w.askLock seconds) s x fun r s' x' => LockEnds terms w x r x' ∧
      s'.columns = s.columns ∧ s'.pending = s.pending := by
  rw [askLock, meets_bind, meets_ofAnswer_ask]
  refine ⟨hx, ?_⟩
  rintro taken x' (⟨hb, rfl, rfl⟩ | ⟨hb, rfl, rfl⟩ | ⟨hb, ⟨fault, rfl⟩, rfl⟩)
  · exact ⟨.taken h hb, rfl, rfl⟩
  · cases w.lockPath <;> exact ⟨.refused h hb, rfl, rfl⟩
  · exact ⟨.barred h hb, rfl, rfl⟩

theorem meets_takeLock (hx : x.lock = .before) {seconds : Binary64}
    (hseconds : waitSeconds w.waitMs = .ok seconds) :
    Meets (writing terms) (w.takeLock seconds) s x fun r s' x' => LockEnds terms w x r x' ∧
      s'.columns = s.columns ∧ s'.pending = s.pending := by
  have hready := ready_of_pathCheck hseconds
  rw [takeLock_eq, meets_bind, meets_liftExcept]
  cases hcheck : w.pathCheck with
  | error fault => exact ⟨.unready (by rw [hready, hcheck]; rfl), rfl, rfl⟩
  | ok _ => exact meets_askLock hx (by rw [hready, hcheck]; rfl)

/-- A locked write leaves an empty queue, and ends in one of the given ways. -/
theorem meets_execute (hx : x.lock = .before) (hp : s.pending = []) (h : Plans terms action out)
    (description : Text) :
    Meets (writing terms) (w.execute description action) s x fun r s' x' =>
      s'.columns = s.columns ∧ s'.pending = [] ∧
        WriteEnds terms w description (w.grid.permitted (out x.ledger.rows)) x r x' := by
  rw [execute, meets_bind, meets_liftExcept]
  cases hseconds : waitSeconds w.waitMs with
  | error fault =>
    refine ⟨rfl, hp, .unready ?_⟩
    rw [ready, hseconds]
    rfl
  | ok seconds =>
    dsimp only
    rw [meets_bind]
    refine (meets_takeLock hx hseconds).mono ?_
    rintro r s₁ x₁ ⟨hlock, hc, hp'⟩
    cases hlock with
    | unready hready => exact ⟨hc, hp'.trans hp, .unready hready⟩
    | barred hready hb => exact ⟨hc, hp'.trans hp, .barred hready hb⟩
    | refused hready hb => exact ⟨hc, hp'.trans hp, .refused hready hb⟩
    | taken hready hb =>
      dsimp only
      rw [if_pos rfl, meets_bind, meets_observe]
      refine (meets_locked rfl (hp'.trans hp) h).mono ?_
      rintro r s₂ x₂ hr
      have hlock : x₂.lock = .held := by
        cases r with
        | error fault => exact hr.2.1
        | ok a => exact hr.choose_spec.2.lock
      have hempty : r.isOk → s₂.pending = [] := by
        cases r with
        | error fault =>
          intro h
          cases h
        | ok a => exact fun _ => hr.choose_spec.2.pending
      dsimp only
      rw [meets_bind]
      refine (meets_settle description r hempty).mono ?_
      rintro _ s₃ x₃ ⟨rfl, hc₃, hp₃, rfl⟩
      dsimp only
      rw [meets_bind, meets_ofAnswer_ask]
      refine ⟨hlock, ?_⟩
      rintro _ x₄ ⟨rfl, rfl⟩
      cases r with
      | error fault =>
        obtain ⟨hc₂, -, hl₂, hd₂, hwhy⟩ := hr
        refine ⟨hc₃.trans (hc₂.trans hc), hp₃, ?_⟩
        rw [hl₂]
        exact .failed hready hb hwhy hd₂
      | ok a =>
        obtain ⟨rev, hplanned, hsent⟩ := hr
        obtain ⟨size, hroom, hl₂⟩ := hsent.ledger
        refine ⟨hc₃.trans (hsent.columns.trans hc), hp₃, ?_⟩
        rw [hl₂]
        exact .made hready hb hplanned hroom

end Writer

end RowStore
