import RowStore.Grid.Basic
import RowStore.Proofs.Sheet.Writing

/-!
# Repeated calls

* `Grid.allows g description` : whether the grid makes a call at all, and the fault if it makes none;
* `Grid.limit g` : how often the grid makes a call that it repeats, at most;
* `meets_retrying` : the rule of the retry loop. What holds after a number of failed calls is counted
  up by each of them, and the loop ends as the first call that does not fail, or with a fault;
* `meets_retrying_writing` : the rule for writes, where a call that fails keeps an invariant;
* `meets_readData` : the rows that are read are those below the headers, and nothing changes.
-/

namespace RowStore

variable {α β φ : Type} {P : Protocol φ} {terms : Terms} {s : Session} {x : Course}

open Act

namespace SheetCalls

/-- An outcome whose fault is reworded. -/
def reworded (reword : Fault → Option Fault) : Except Fault α → Except Fault α
  | .ok a => .ok a
  | .error fault => .error ((reword fault).getD fault)

@[simp] theorem meets_rewording {m : Act α} {reword : Fault → Option Fault} {y : φ}
    {Q : Except Fault α → Session → φ → Prop} :
    Meets P (rewording m reword) s y Q ↔
      Meets P m s y fun r s' y' => Q (reworded reword r) s' y' := by
  rw [rewording, meets_bind, meets_observe]
  refine ⟨fun h => h.mono ?_, fun h => h.mono ?_⟩ <;> rintro (fault | a) s' y' h' <;> exact h'

theorem run_rewording {σ : Type} {party : Party σ} (m : Act α) (reword : Fault → Option Fault) (s : Session)
    (st : σ) :
    run party (rewording m reword) s st =
      (reworded reword (run party m s st).1, (run party m s st).2) := by
  rw [rewording, run_bind, run_observe]
  rcases run party m s st with ⟨_ | a, s', st'⟩ <;> rfl

theorem meets_readRows (hx : x.lock = .held) (title : Text) :
    Meets (writing terms) (readRows title) s x fun r s' x' => Still s x s' x' ∧
      (r = .ok x.ledger.rows ∨ ∃ fault, r = .error fault ∧ x'.disturbed = true) := by
  rw [readRows, meets_rewording, meets_ofAnswer_ask]
  refine ⟨hx, ?_⟩
  rintro rows x' (⟨rfl, rfl⟩ | ⟨fault, rfl, rfl⟩)
  · exact ⟨Still.refl s _, Or.inl rfl⟩
  · exact ⟨Still.failed s x, Or.inr ⟨_, rfl, rfl⟩⟩

/-- A call that changes the sheet, where the sheet does not refuse it. -/
theorem meets_send (hx : x.lock = .held) (w : SheetWrite) (cause : Text → ServiceFault)
    (hw : (x.ledger.rows.apply w).1 = .ok ()) :
    Meets (writing terms) (send w cause) s x fun r s' x' => s' = s ∧
      ((r = .ok () ∧ x' = ⟨x.lock, x.ledger.after w, x.disturbed⟩) ∨
        ∃ fault, r = .error fault ∧ x' = ⟨x.lock, x.ledger, true⟩) := by
  rw [send, meets_rewording, meets_ofAnswer_ask]
  refine ⟨hx, ?_⟩
  rintro done x' (⟨rfl, rfl⟩ | ⟨fault, rfl, rfl⟩)
  · exact ⟨rfl, Or.inl ⟨by rw [hw]; rfl, rfl⟩⟩
  · exact ⟨rfl, Or.inr ⟨_, rfl, rfl⟩⟩

end SheetCalls

namespace Grid

/-- Whether the grid makes a call at all: there has to be a number of repetitions. -/
def allows (g : Grid) (description : Text) : Except Fault Unit :=
  match g.maxRetries.integer? with
  | none => .error .unsuitable
  | some retries =>
    if retries < 0 then
      .error (Fault.worded (.service (.attemptsFailed description (retries + 1) none)))
    else .ok ()

theorem meets_pause (hx : x.lock = .held) (g : Grid) (description : Text) (attempt : Nat)
    (fault : Fault) :
    Meets (writing terms) (g.pause description attempt fault) s x
      fun _ s' x' => Still s x s' x' := by
  rw [pause, meets_bind, meets_liftExcept]
  rcases delayOf g.baseDelay attempt with _ | delay
  · exact Still.refl s x
  · dsimp only
    rw [meets_bind, meets_liftExcept]
    rcases delayText delay with _ | text
    · exact Still.refl s x
    · dsimp only
      rw [meets_bind, meets_note, meets_ofAnswer_ask]
      refine ⟨hx, ?_⟩
      rintro _ x' rfl
      exact (Still.refl s _).noted _

/-- How often the grid makes a call that it repeats, at most. -/
def limit (g : Grid) : Nat := (g.maxRetries.integer?.getD (-1) + 1).toNat

section
variable {I : Nat → Session → φ → Prop} {D : Nat → α → Session → φ → Prop} {y : φ}

/-- The loop, under any protocol: `I n` holds when `n` calls have failed, and a pause keeps it; if the
call after them does not fail, `D (n + 1)` holds. A loop that has any calls left makes one. -/
theorem meets_attempts (g : Grid) (description : Text) (call : Act α)
    (hpause : ∀ n attempt fault s y, I n s y →
      Meets P (g.pause description attempt fault) s y fun _ s' y' => I n s' y')
    (hcall : ∀ n s y, I n s y → Meets P call s y fun r s' y' =>
      match r with
      | .ok a => D (n + 1) a s' y'
      | .error _ => I (n + 1) s' y')
    (left attempt : Nat) (last : Option Fault) {n : Nat} (h : I n s y) :
    Meets P (attempts g description call left attempt last) s y fun r s' y' =>
      match r with
      | .ok a => ∃ m ≤ n + left, D m a s' y'
      | .error _ => ∃ m ≤ n + left, n + min left 1 ≤ m ∧ I m s' y' := by
  induction left generalizing attempt last n s y with
  | zero =>
    rw [attempts, meets_throw]
    exact ⟨n, Nat.le_refl n, Nat.le_refl n, h⟩
  | succ left ih =>
    have hrest : ∀ last s' y', I (n + 1) s' y' →
        Meets P (attempts g description call left (attempt + 1) last) s' y' fun r s' y' =>
          match r with
          | .ok a => ∃ m ≤ n + (left + 1), D m a s' y'
          | .error _ => ∃ m ≤ n + (left + 1), n + min (left + 1) 1 ≤ m ∧ I m s' y' := by
      intro last s' y' h'
      refine (ih (attempt + 1) last h').mono fun r s'' y'' hr => ?_
      rcases r with fault | a
      · obtain ⟨m, hm, hn, hI⟩ := hr
        exact ⟨m, by omega, by omega, hI⟩
      · obtain ⟨m, hm, hD⟩ := hr
        exact ⟨m, by omega, hD⟩
    have hone : n + min (left + 1) 1 ≤ n + 1 := by omega
    rw [attempts, meets_bind, meets_observe]
    refine (hcall n s y h).mono fun r s' y' hr => ?_
    rcases r with fault | a
    · dsimp only
      split
      · split
        · rw [meets_bind]
          refine (hpause _ attempt fault _ _ hr).mono fun r s'' y'' h' => ?_
          rcases r with _ | _
          · exact ⟨n + 1, by omega, hone, h'⟩
          · exact hrest _ _ _ h'
        · exact hrest _ _ _ hr
      · exact ⟨n + 1, by omega, hone, hr⟩
    · exact ⟨n + 1, by omega, hr⟩

/-- A call that the grid repeats, under any protocol: it is made at most as often as the grid allows. -/
theorem meets_retrying (g : Grid) (description : Text) (call : Act α)
    (hpause : ∀ n attempt fault s y, I n s y →
      Meets P (g.pause description attempt fault) s y fun _ s' y' => I n s' y')
    (hcall : ∀ n s y, I n s y → Meets P call s y fun r s' y' =>
      match r with
      | .ok a => D (n + 1) a s' y'
      | .error _ => I (n + 1) s' y')
    (h : I 0 s y) :
    Meets P (g.retrying description call) s y fun r s' y' =>
      match r with
      | .ok a => g.allows description = .ok () ∧ ∃ m ≤ g.limit, D m a s' y'
      | .error fault => (g.allows description = .error fault ∧ I 0 s' y') ∨
        ∃ m ≤ g.limit, 0 < m ∧ I m s' y' := by
  rw [retrying, meets_bind, meets_liftExcept, allows, limit]
  rcases g.maxRetries.integer? with _ | retries
  · exact Or.inl ⟨rfl, h⟩
  · change Meets P (if retries < 0 then _ else _) s y _
    dsimp only
    by_cases hneg : retries < 0
    · rw [if_pos hneg, if_pos hneg, meets_bind, meets_throw]
      exact Or.inl ⟨rfl, h⟩
    · rw [if_neg hneg, if_neg hneg]
      have hlimit : (retries + 1).toNat = 0 + (retries.toNat + 1) := by omega
      rw [Option.getD_some, hlimit]
      refine (meets_attempts g description call hpause hcall _ 0 none h).mono fun r s' y' hr => ?_
      rcases r with fault | a
      · obtain ⟨m, hm, hpos, hI⟩ := hr
        exact Or.inr ⟨m, hm, by omega, hI⟩
      · exact ⟨rfl, hr⟩

end

/-- A call that keeps an invariant when it fails keeps it over all its repetitions; a loop that ends with
a fault has made no call, or one of its calls has failed. -/
theorem meets_retrying_writing (g : Grid) (description : Text) (call : Act α)
    {I : Session → Course → Prop} {D : α → Session → Course → Prop}
    (hheld : ∀ s x, I s x → x.lock = .held)
    (hI : ∀ s x s' x', I s x → Still s x s' x' → I s' x')
    (hcall : ∀ s x, I s x → Meets (writing terms) call s x fun r s' x' =>
      match r with
      | .ok a => D a s' x'
      | .error _ => I s' x' ∧ x'.disturbed = true)
    (h : I s x) :
    Meets (writing terms) (g.retrying description call) s x fun r s' x' =>
      match r with
      | .ok a => g.allows description = .ok () ∧ D a s' x'
      | .error fault => I s' x' ∧ (g.allows description = .error fault ∨ x'.disturbed = true) := by
  refine (meets_retrying g description call
    (I := fun n s x => I s x ∧ (0 < n → x.disturbed = true)) (D := fun _ => D)
    (fun n attempt fault s x h => ?_) (fun n s x h => ?_) ⟨h, nofun⟩).mono fun r s' x' hr => ?_
  · exact (meets_pause (hheld s x h.1) g description attempt fault).mono fun _ s' x' hp =>
      ⟨hI s x s' x' h.1 hp, fun hn => hp.disturbed (h.2 hn)⟩
  · refine (hcall s x h.1).mono fun r s' x' hr => ?_
    rcases r with fault | a
    · exact ⟨hr.1, fun _ => hr.2⟩
    · exact hr
  · rcases r with fault | a
    · rcases hr with ⟨ha, hI', -⟩ | ⟨m, -, hm, hI', hd⟩
      · exact ⟨hI', Or.inl ha⟩
      · exact ⟨hI', Or.inr (hd hm)⟩
    · obtain ⟨ha, m, -, hD⟩ := hr
      exact ⟨ha, hD⟩

/-- The rows below the headers, as far as the grid reads at all. -/
def seen (g : Grid) (rows : Rows) : Except Fault Rows := do
  g.allows ("read values from " ++ g.title.plain)
  rowsBelow g.headerRow rows

theorem meets_readData (hx : x.lock = .held) (g : Grid) :
    Meets (writing terms) g.readData s x fun r s' x' => Still s x s' x' ∧
      (r = g.seen x.ledger.rows ∨ ∃ fault, r = .error fault ∧ x'.disturbed = true) := by
  rw [readData, meets_bind]
  refine (meets_retrying_writing g _ _ (I := Still s x)
    (D := fun rows s' x' => Still s x s' x' ∧ rows = x.ledger.rows)
    (fun _ _ h => h.lock.trans hx) (fun _ _ _ _ h h' => h.trans h') (fun s₁ x₁ h => ?_)
    (Still.refl s x)).mono fun r s' x' hr => ?_
  · refine (SheetCalls.meets_readRows (h.lock.trans hx) _).mono fun r s' x' ⟨h', hr⟩ => ?_
    rcases hr with rfl | ⟨fault, rfl, hd⟩
    · exact ⟨h.trans h', by rw [h.ledger]⟩
    · exact ⟨h.trans h', hd⟩
  · rcases r with fault | rows
    · obtain ⟨h, hr⟩ := hr
      refine ⟨h, hr.imp (fun ha => ?_) fun hd => ⟨fault, rfl, hd⟩⟩
      rw [seen, ha]
      rfl
    · obtain ⟨ha, h, rfl⟩ := hr
      dsimp only
      rw [meets_liftExcept, seen, ha]
      exact ⟨h, Or.inl rfl⟩

end Grid

end RowStore
