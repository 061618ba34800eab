import RowStore.Proofs.Sheet.Keeper

/-!
# A sheet with scripted faults

* `Scripted.party bars` : a party that keeps a sheet, and of which scripts say which calls fail, when
  the lock is refused and what queries are answered; `bars` says with which waits the lock cannot be
  asked for;
* `Scripted.keeper` : it is a keeper, and it is sound when its scripts hold no failure.
-/

namespace RowStore

/-- A sheet, and scripts that are used up entry by entry. A call without an entry succeeds. -/
structure Scripted where
  ledger : Ledger
  /-- The faults of the calls that read or change the sheet. -/
  faults : List (Option Fault)
  /-- Whether the lock is given. -/
  locks : List Bool
  /-- The answers to queries. -/
  replies : List Value

namespace Scripted

/-- A sheet where nothing fails. -/
def ofRows (rows : Rows) : Scripted := ⟨⟨rows, []⟩, [], [], []⟩

/-- The scripts after a call. -/
def called (s : Scripted) (ledger : Ledger) : Scripted :=
  ⟨ledger, s.faults.tail, s.locks, s.replies⟩

def answer (bars : Binary64 → Bool) {β : Type} : Request β → Scripted → β × Scripted
  | .acquire seconds, s =>
    if bars seconds then (.error .overflow, s)
    else (.ok (s.locks.headD true), ⟨s.ledger, s.faults, s.locks.tail, s.replies⟩)
  | .release, s => (.ok (), s)
  | .openStore .., s => (.error .unsuitable, s)
  | .openSheet _, s => (.error .unsuitable, s)
  | .extent, s => ((s.ledger.rows.length, s.ledger.rows.width), s)
  | .readRows, s =>
    match s.faults.headD none with
    | some fault => (.error fault, s.called s.ledger)
    | none => (.ok s.ledger.rows, s.called s.ledger)
  | .write w, s =>
    match s.faults.headD none with
    | some fault => (.error fault, s.called s.ledger)
    | none => ((s.ledger.rows.apply w).1, s.called (s.ledger.after w))
  | .query _, s =>
    match s.replies with
    | [] => (.error .unsuitable, s)
    | v :: rest => (.ok v, ⟨s.ledger, s.faults, s.locks, rest⟩)
  | .credentials, s => (⟨false, .null⟩, s)
  | .refreshCredentials, s => (.error .unsuitable, s)
  | .get _, s => (.error .unsuitable, s)
  | .wait _, s => (.ok (), s)

def party (bars : Binary64 → Bool) : Party Scripted := ⟨answer bars⟩

/-- No entry of the scripts is a failure. -/
def Sound (s : Scripted) : Prop := (∀ f ∈ s.faults, f = none) ∧ ∀ taken ∈ s.locks, taken = true

/-- A sheet where nothing fails has no scripts. -/
theorem sound_ofRows (rows : Rows) : (ofRows rows).Sound :=
  ⟨fun _ h => (nomatch h), fun _ h => nomatch h⟩

theorem Sound.head_faults {s : Scripted} (h : s.Sound) : s.faults.headD none = none := by
  rcases hf : s.faults with _ | ⟨f, rest⟩
  · rfl
  · exact h.1 f (by rw [hf]; exact List.mem_cons_self)

theorem Sound.head_locks {s : Scripted} (h : s.Sound) : s.locks.headD true = true := by
  rcases hl : s.locks with _ | ⟨l, rest⟩
  · rfl
  · exact h.2 l (by rw [hl]; exact List.mem_cons_self)

/-- The party keeps its sheet. -/
def keeper (bars : Binary64 → Bool) : Keeper (party bars) where
  ledger := Scripted.ledger
  bars seconds := bars seconds = true
  sound := Sound
  acquire seconds st hb := by
    simp only [party, answer, if_neg hb]
    cases h : st.locks.headD true with
    | true => exact Or.inl rfl
    | false =>
      refine Or.inr ⟨rfl, fun hs => ?_⟩
      rw [hs.head_locks] at h
      cases h
  acquire_bars seconds st hb := ⟨.overflow, by simp only [party, answer, if_pos hb]⟩
  release _ := rfl
  readRows st := by
    cases h : st.faults.headD none with
    | none => exact Or.inl (by simp only [party, answer, h])
    | some fault =>
      refine Or.inr ⟨fault, by simp only [party, answer, h], fun hs => ?_⟩
      rw [hs.head_faults] at h
      cases h
  write w st := by
    cases h : st.faults.headD none with
    | none => exact Or.inl (by simp only [party, answer, h, called, and_self])
    | some fault =>
      refine Or.inr ⟨fault, by simp only [party, answer, h], by simp only [party, answer, h, called],
        fun hs => ?_⟩
      rw [hs.head_faults] at h
      cases h
  ledger_answer r st hr := by
    cases r with
    | acquire seconds => simp only [party, answer]; split <;> rfl
    | write w => exact absurd trivial hr
    | readRows => simp only [party, answer]; split <;> rfl
    | query text => simp only [party, answer]; split <;> rfl
    | _ => rfl
  sound_answer r st hs := by
    have htail : (st.called st.ledger).Sound := ⟨fun f hf => hs.1 f (List.mem_of_mem_tail hf), hs.2⟩
    cases r with
    | acquire seconds =>
      simp only [party, answer]
      split
      · exact hs
      · exact ⟨hs.1, fun l hl => hs.2 l (List.mem_of_mem_tail hl)⟩
    | write w => simp only [party, answer]; split <;> exact htail
    | readRows => simp only [party, answer]; split <;> exact htail
    | query text => simp only [party, answer]; split <;> exact hs
    | _ => exact hs

end Scripted

end RowStore
