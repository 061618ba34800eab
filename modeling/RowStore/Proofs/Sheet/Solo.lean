import RowStore.Proofs.Sheet.Keeper

/-!
# A sheet without faults

* `Solo.party room` : a party that keeps a sheet, always gives the lock and never fails a call; `room`
  is the size of a worksheet with given rows;
* `Solo.keeper` : it is a keeper, and it is sound in every state;
* `Course.reply_solo` : what it answers while the lock is held.
-/

namespace RowStore

/-- Whether a request is about the lock. -/
def Request.asksLock {β : Type} : Request β → Prop
  | .acquire _ => True
  | .release => True
  | _ => False

namespace Solo

def answer (room : Rows → Int × Int) {β : Type} : Request β → Ledger → β × Ledger
  | .acquire _, l => (.ok true, l)
  | .release, l => (.ok (), l)
  | .openStore .., l => (.error .unsuitable, l)
  | .openSheet _, l => (.error .unsuitable, l)
  | .extent, l => (room l.rows, l)
  | .readRows, l => (.ok l.rows, l)
  | .write w, l => ((l.rows.apply w).1, l.after w)
  | .query _, l => (.error .unsuitable, l)
  | .credentials, l => (⟨false, .null⟩, l)
  | .refreshCredentials, l => (.error .unsuitable, l)
  | .get _, l => (.error .unsuitable, l)
  | .wait _, l => (.ok (), l)

def party (room : Rows → Int × Int) : Party Ledger := ⟨answer room⟩

variable {room : Rows → Int × Int}

def keeper (room : Rows → Int × Int) : Keeper (party room) where
  ledger l := l
  bars _ := False
  sound _ := True
  acquire _ _ _ := Or.inl rfl
  acquire_bars _ _ h := h.elim
  release _ := rfl
  readRows _ := Or.inl rfl
  write _ _ := Or.inl ⟨rfl, rfl⟩
  ledger_answer r _ hr := by
    cases r with
    | write w => exact absurd trivial hr
    | _ => rfl
  sound_answer _ _ _ := trivial

/-- The size that a write is told. -/
theorem room_keeper {rows : Rows} {size : Int × Int} :
    (keeper room).terms.room rows size ↔ size = room rows :=
  ⟨fun ⟨_, hrows, hsize⟩ => hrows ▸ hsize.symm, fun h => ⟨⟨rows, []⟩, rfl, h.symm⟩⟩

end Solo

/-- What the party answers while the lock is held is what the protocol of writes allows. -/
theorem Course.reply_solo {terms : Terms} {room : Rows → Int × Int}
    (hroom : ∀ rows, terms.room rows (room rows)) {β : Type} {r : Request β} {x : Course}
    (hx : x.lock = .held) (hmay : x.may r) (hr : ¬ r.asksLock) :
    x.reply terms r (Solo.answer room r x.ledger).1
      ⟨.held, (Solo.answer room r x.ledger).2, x.disturbed⟩ := by
  obtain ⟨lock, ledger, disturbed⟩ := x
  cases hx
  cases r with
  | acquire | release => exact absurd trivial hr
  | extent => exact ⟨hroom _, rfl⟩
  | readRows => exact Or.inl ⟨rfl, rfl⟩
  | write w => exact Or.inl ⟨rfl, rfl⟩
  | wait seconds => rfl
  | openStore | openSheet | query | credentials | refreshCredentials | get => exact hmay.elim

end RowStore
