import RowStore.Proofs.Session.Meets

/-!
# The course of a write

* `Ledger` : the rows of a sheet and the calls that have changed them, oldest first; `Ledger.after`;
* `Course` : how far a write has come: with the lock, with the sheet, and whether anything went wrong;
* `writing terms` : the protocol of writes. The lock is asked for first and once, the sheet only while
  it is held, and each call either raises a fault and leaves the ledger as it is or has its full
  effect; `Terms` says what sizes a worksheet may have and which waits the lock refuses;
* `Still s x s' x'` : the columns, the queue, the lock and the ledger are those of before.
-/

namespace RowStore

/-- A sheet with the calls that have changed it, oldest first. -/
structure Ledger where
  rows : Rows
  sent : List SheetWrite

/-- The ledger after a call has had its effect. -/
def Ledger.after (l : Ledger) (w : SheetWrite) : Ledger := ⟨(l.rows.apply w).2, l.sent ++ [w]⟩

@[simp] theorem Ledger.rows_after (l : Ledger) (w : SheetWrite) :
    (l.after w).rows = (l.rows.apply w).2 := rfl

/-- What a write may count on. -/
structure Terms where
  /-- The numbers of rows and columns that a worksheet with given rows may have room for. -/
  room : Rows → Int × Int → Prop
  /-- The waits with which the lock cannot be asked for. -/
  bars : Binary64 → Prop

/-- Where a write stands with the lock: it has not asked for it, holds it, or is done with it. -/
inductive Hold
  | before
  | held
  | over
  deriving DecidableEq

/-- How far a write has come. -/
structure Course where
  lock : Hold
  ledger : Ledger
  /-- A call has failed, or the lock was not to be had. -/
  disturbed : Bool

namespace Course

/-- What a write may ask for. -/
def may (x : Course) : {β : Type} → Request β → Prop
  | _, .acquire _ => x.lock = .before
  | _, .release => x.lock = .held
  | _, .extent => x.lock = .held
  | _, .readRows => x.lock = .held
  | _, .write _ => x.lock = .held
  | _, .wait _ => x.lock = .held
  | _, _ => False

/-- How a write may be answered, and how far it is then. -/
def reply (terms : Terms) (x : Course) : {β : Type} → Request β → β → Course → Prop
  | _, .acquire seconds, taken, x' =>
    (¬ terms.bars seconds ∧ taken = .ok true ∧ x' = ⟨.held, x.ledger, x.disturbed⟩) ∨
      (¬ terms.bars seconds ∧ taken = .ok false ∧ x' = ⟨.over, x.ledger, true⟩) ∨
      (terms.bars seconds ∧ (∃ fault, taken = .error fault) ∧
        x' = ⟨.over, x.ledger, x.disturbed⟩)
  | _, .release, done, x' => done = .ok () ∧ x' = ⟨.over, x.ledger, x.disturbed⟩
  | _, .extent, size, x' => terms.room x.ledger.rows size ∧ x' = x
  | _, .readRows, rows, x' =>
    (rows = .ok x.ledger.rows ∧ x' = x) ∨
      ∃ fault, rows = .error fault ∧ x' = ⟨x.lock, x.ledger, true⟩
  | _, .write w, done, x' =>
    (done = (x.ledger.rows.apply w).1 ∧ x' = ⟨x.lock, x.ledger.after w, x.disturbed⟩) ∨
      ∃ fault, done = .error fault ∧ x' = ⟨x.lock, x.ledger, true⟩
  | _, .wait _, _, x' => x' = x
  | _, _, _, _ => True

end Course

/-- The protocol of writes. -/
def writing (terms : Terms) : Protocol Course where
  may r x := x.may r
  reply r x := x.reply terms r

/-- Nothing has changed but the log and, at most, that something went wrong. -/
structure Still (s : Session) (x : Course) (s' : Session) (x' : Course) : Prop where
  columns : s'.columns = s.columns
  pending : s'.pending = s.pending
  lock : x'.lock = x.lock
  ledger : x'.ledger = x.ledger
  disturbed : x.disturbed = true → x'.disturbed = true

namespace Still

variable {s s' s'' : Session} {x x' x'' : Course}

theorem refl (s : Session) (x : Course) : Still s x s x := ⟨rfl, rfl, rfl, rfl, id⟩

theorem trans (h : Still s x s' x') (h' : Still s' x' s'' x'') : Still s x s'' x'' :=
  ⟨h'.columns.trans h.columns, h'.pending.trans h.pending, h'.lock.trans h.lock,
    h'.ledger.trans h.ledger, fun hx => h'.disturbed (h.disturbed hx)⟩

/-- A note changes the log alone. -/
theorem noted (h : Still s x s' x') (notes : List Note) :
    Still s x ⟨s'.columns, s'.pending, notes⟩ x' :=
  ⟨h.columns, h.pending, h.lock, h.ledger, h.disturbed⟩

/-- A failed call leaves a mark, and nothing else. -/
theorem failed (s : Session) (x : Course) : Still s x s ⟨x.lock, x.ledger, true⟩ :=
  ⟨rfl, rfl, rfl, rfl, fun _ => rfl⟩

end Still

end RowStore
