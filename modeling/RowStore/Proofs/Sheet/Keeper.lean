import RowStore.Proofs.Sheet.Writing

/-!
# Parties that keep a sheet

* `Keeper party` : the party answers from a ledger, and each of its calls either raises a fault and
  leaves the ledger as it is or has its full effect; `Keeper.sound` holds of the states from which on
  no call fails and the lock is given;
* `Keeper.plays` : such a party plays by the protocol of writes, so that what an act meets under the
  protocol holds of its run (`Keeper.ends`).
-/

namespace RowStore

variable {α σ : Type} {party : Party σ}

/-- Whether a request is a call that changes the sheet. -/
def Request.changesSheet {β : Type} : Request β → Prop
  | .write _ => True
  | _ => False

/-- A party that answers from a sheet. A call raises a fault before it takes effect, or it takes full
effect; the lock says whether it was taken, unless it cannot be asked for with that wait. -/
structure Keeper (party : Party σ) where
  ledger : σ → Ledger
  bars : Binary64 → Prop
  /-- The states from which on no call fails and the lock is given. -/
  sound : σ → Prop
  acquire : ∀ seconds st, ¬ bars seconds → (party.answer (.acquire seconds) st).1 = .ok true ∨
    ((party.answer (.acquire seconds) st).1 = .ok false ∧ ¬ sound st)
  acquire_bars : ∀ seconds st, bars seconds →
    ∃ fault, (party.answer (.acquire seconds) st).1 = .error fault
  release : ∀ st, (party.answer .release st).1 = .ok ()
  readRows : ∀ st, (party.answer .readRows st).1 = .ok (ledger st).rows ∨
    ∃ fault, (party.answer .readRows st).1 = .error fault ∧ ¬ sound st
  write : ∀ w st,
    ((party.answer (.write w) st).1 = ((ledger st).rows.apply w).1 ∧
      ledger (party.answer (.write w) st).2 = (ledger st).after w) ∨
    ∃ fault, (party.answer (.write w) st).1 = .error fault ∧
      ledger (party.answer (.write w) st).2 = ledger st ∧ ¬ sound st
  ledger_answer : ∀ {β : Type} (r : Request β) st, ¬ r.changesSheet →
    ledger (party.answer r st).2 = ledger st
  sound_answer : ∀ {β : Type} (r : Request β) st, sound st → sound (party.answer r st).2

namespace Keeper

/-- What a write may count on with the party: the sizes that it does answer with. -/
def terms (K : Keeper party) : Terms where
  room rows size := ∃ st, (K.ledger st).rows = rows ∧ (party.answer .extent st).1 = size
  bars := K.bars

/-- A state of the party and the course of a write that has come to it. If `sound₀` holds, nothing
can have gone wrong. -/
def At (K : Keeper party) (sound₀ : Prop) (st : σ) (x : Course) : Prop :=
  x.ledger = K.ledger st ∧ (sound₀ → K.sound st ∧ x.disturbed = false)

theorem plays (K : Keeper party) (sound₀ : Prop) :
    party.Plays (writing K.terms) (K.At sound₀) := by
  rintro β r st x ⟨hl, hs⟩ hmay
  -- A request that is no change leaves the ledger, and a sound party stays sound.
  have hkeep : ∀ {γ : Type} (q : Request γ) (lock : Hold) (d : Bool), ¬ q.changesSheet →
      (sound₀ → d = false) → K.At sound₀ (party.answer q st).2 ⟨lock, x.ledger, d⟩ :=
    fun q lock d hq hd => ⟨hl.trans (K.ledger_answer q st hq).symm,
      fun h => ⟨K.sound_answer q st (hs h).1, hd h⟩⟩
  have hsound : ¬ K.sound st → sound₀ → true = false := fun hn h => absurd (hs h).1 hn
  cases r with
  | acquire seconds =>
    by_cases hb : K.bars seconds
    · obtain ⟨fault, h⟩ := K.acquire_bars seconds st hb
      exact ⟨_, Or.inr (Or.inr ⟨hb, ⟨fault, h⟩, rfl⟩), hkeep _ _ _ id fun h => (hs h).2⟩
    · rcases K.acquire seconds st hb with h | ⟨h, hn⟩
      · exact ⟨_, Or.inl ⟨hb, h, rfl⟩, hkeep _ _ _ id fun h => (hs h).2⟩
      · exact ⟨_, Or.inr (Or.inl ⟨hb, h, rfl⟩), hkeep _ _ _ id (hsound hn)⟩
  | release => exact ⟨_, ⟨K.release st, rfl⟩, hkeep .release _ _ id fun h => (hs h).2⟩
  | extent =>
    exact ⟨x, ⟨⟨st, hl ▸ rfl, rfl⟩, rfl⟩, hkeep .extent x.lock _ id fun h => (hs h).2⟩
  | readRows =>
    rcases K.readRows st with h | ⟨fault, h, hn⟩
    · exact ⟨x, Or.inl ⟨hl ▸ h, rfl⟩, hkeep .readRows x.lock _ id fun h => (hs h).2⟩
    · exact ⟨_, Or.inr ⟨fault, h, rfl⟩, hkeep .readRows _ _ id (hsound hn)⟩
  | write w =>
    rcases K.write w st with ⟨h, hl'⟩ | ⟨fault, h, hl', hn⟩
    · exact ⟨_, Or.inl ⟨hl ▸ h, rfl⟩, hl ▸ hl'.symm,
        fun h => ⟨K.sound_answer _ st (hs h).1, (hs h).2⟩⟩
    · exact ⟨_, Or.inr ⟨fault, h, rfl⟩, hl.trans hl'.symm,
        fun h => ⟨K.sound_answer _ st (hs h).1, hsound hn h⟩⟩
  | wait seconds => exact ⟨x, rfl, hkeep (.wait seconds) x.lock _ id fun h => (hs h).2⟩
  | openStore | openSheet | query | credentials | refreshCredentials | get => exact hmay.elim

/-- What an act meets under the protocol holds of the end of its run with the party. -/
theorem ends (K : Keeper party) {m : Act α} {s : Session} {st : σ}
    {Q : Except Fault α → Session → Course → Prop}
    (h : Act.Meets (writing K.terms) m s ⟨.before, K.ledger st, false⟩ Q) :
    ∃ x, Q (Act.run party m s st).1 (Act.run party m s st).2.1 x ∧
      x.ledger = K.ledger (Act.run party m s st).2.2 ∧
      (K.sound st → K.sound (Act.run party m s st).2.2 ∧ x.disturbed = false) :=
  h.run (K.plays (K.sound st)) ⟨rfl, fun hs => ⟨hs, rfl⟩⟩

end Keeper

end RowStore
