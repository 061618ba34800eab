import RowStore.Proofs.Session.Leaves
import RowStore.Proofs.Session.Trace
import RowStore.Proofs.Session.Yields

/-!
# Acts confined to some requests

* `Confined allowed m` : the act `m` asks for nothing but what is allowed, whatever it is answered, and
  leaves the kept columns alone; one rule for each step of an act;
* `LeavesAlone allowed m` : the same, and the waiting changes are left alone, too;
* `Confined.run_keeps` : a run of a confined act keeps what the allowed requests keep;
* `Confined.of_mem_trace` : its trace shows allowed requests only.
-/

namespace RowStore

open Act

universe u

variable {α β σ : Type} {γ : Type u} {allowed allowed' : {β : Type} → Request β → Prop}

/-- The protocol in which some requests are allowed and may be answered in any way. -/
def Protocol.only (allowed : {β : Type} → Request β → Prop) : Protocol Unit where
  may r _ := allowed r
  reply _ _ _ _ := True

/-- An act that asks for nothing but what is allowed, and leaves the kept columns alone. -/
def Confined (allowed : {β : Type} → Request β → Prop) (m : Act α) : Prop :=
  ∀ s, Meets (Protocol.only allowed) m s () fun _ s' _ => s'.columns = s.columns

/-- An act that asks for nothing but what is allowed, and leaves the kept columns and the waiting changes
alone. -/
abbrev LeavesAlone (allowed : {β : Type} → Request β → Prop) (m : Act α) : Prop :=
  Leaves (Protocol.only allowed) id m

theorem Program.Meets.of_mem_trace {party : Party σ} {view : {β : Type} → Request β → List γ}
    {p : Program α} {Q : α → Unit → Prop} (h : p.Meets (Protocol.only allowed) Q ()) {st : σ} {e : γ}
    (he : e ∈ p.trace party view st) : ∃ (β : Type) (r : Request β), allowed r ∧ e ∈ view r := by
  induction p generalizing st with
  | done a => cases he
  | ask r next ih =>
    rcases List.mem_append.mp he with he | he
    · exact ⟨_, r, h.1, he⟩
    · exact ih _ (h.2 _ () trivial) he

namespace Confined

variable {m : Act α} {party : Party σ}

/-! ## Runs -/

/-- What the allowed requests keep, a run keeps, and the columns as well. -/
theorem run_keeps (hm : Confined allowed m) {I : σ → Prop}
    (hI : ∀ {β : Type} (r : Request β) (st : σ), allowed r → I st → I (party.answer r st).2)
    (s : Session) {st : σ} (h : I st) :
    (run party m s st).2.1.columns = s.columns ∧ I (run party m s st).2.2 := by
  have hplays : party.Plays (Protocol.only allowed) fun st _ => I st :=
    fun r st x hst hmay => ⟨x, trivial, hI r st hmay hst⟩
  obtain ⟨_, hc, hst⟩ := (hm s).run hplays h
  exact ⟨hc, hst⟩

theorem columns_run (hm : Confined allowed m) (s : Session) (st : σ) :
    (run party m s st).2.1.columns = s.columns :=
  (hm.run_keeps (I := fun _ => True) (fun _ _ _ _ => trivial) s trivial).1

/-- What the trace shows, an allowed request shows. -/
theorem of_mem_trace (hm : Confined allowed m) {view : {β : Type} → Request β → List γ} {s : Session}
    {st : σ} {e : γ} (he : e ∈ trace party view m s st) :
    ∃ (β : Type) (r : Request β), allowed r ∧ e ∈ view r := (hm s).of_mem_trace he

theorem trace_eq_nil (hm : Confined allowed m) {view : {β : Type} → Request β → List γ}
    (hview : ∀ {β : Type} (r : Request β), allowed r → view r = []) (s : Session) (st : σ) :
    trace party view m s st = [] := by
  refine List.eq_nil_iff_forall_not_mem.mpr fun e he => ?_
  obtain ⟨β, r, hr, he⟩ := hm.of_mem_trace he
  rw [hview r hr] at he
  cases he

theorem of_mem_asked (hm : Confined allowed m) {s : Session} {st : σ} {q : Σ β : Type, Request β}
    (hq : q ∈ asked party m s st) : allowed q.2 := by
  obtain ⟨β, r, hr, hq⟩ := hm.of_mem_trace hq
  obtain rfl := List.mem_singleton.mp hq
  exact hr

/-- An act that does not ask about the lock keeps a session steady. -/
theorem steadies (hm : Confined allowed m)
    (hallowed : ∀ {β : Type} (r : Request β), allowed r → ¬ r.AsksLock) {I : σ → Prop}
    (hI : party.Keeps I) : Steadies party I m := by
  intro s st h
  obtain ⟨hc, hst⟩ := hm.run_keeps (fun r st hr hst => hI r st (hallowed r hr) hst) s h.holds
  exact meets_protocol.mpr ⟨⟨hc ▸ h.codes, hst⟩, ends_any _⟩

/-! ## Steps -/

theorem mono (hm : Confined allowed m)
    (h : ∀ {β : Type} (r : Request β), allowed r → allowed' r) : Confined allowed' m := by
  have hprogram : ∀ {p : Program (Except Fault α × Session)}
      {Q : Except Fault α × Session → Unit → Prop},
      p.Meets (Protocol.only allowed) Q () → p.Meets (Protocol.only allowed') Q () := by
    intro p Q hp
    induction p with
    | done a => exact hp
    | ask r next ih => exact ⟨h r hp.1, fun a _ _ => ih a (hp.2 a () trivial)⟩
  exact fun s => hprogram (hm s)

theorem pure (a : α) : Confined allowed (Pure.pure a : Act α) := fun _ => rfl

theorem throw (fault : Fault) : Confined allowed (MonadExcept.throw fault : Act α) := fun _ => rfl

theorem throw_bind (fault : Fault) (f : α → Act β) :
    Confined allowed ((MonadExcept.throw fault : Act α) >>= f) := fun _ => rfl

theorem note (level : NoteLevel) (text : Text) : Confined allowed (Act.note level text) := fun _ => rfl

theorem pending : Confined allowed Act.pending := fun _ => rfl

theorem setPending (changes : List Change) : Confined allowed (Act.setPending changes) := fun _ => rfl

theorem liftNoted (m : Noted α) : Confined allowed (liftM m : Act α) := fun _ => rfl

theorem liftExcept (e : Except Fault α) : Confined allowed (liftM e : Act α) := by
  intro s
  rw [meets_liftExcept]

theorem ask {r : Request α} (hr : allowed r) : Confined allowed (Act.ask r) := by
  intro s
  rw [meets_ask]
  exact ⟨hr, fun _ _ _ => rfl⟩

theorem bind {f : α → Act β} (hm : Confined allowed m) (hf : ∀ a, Confined allowed (f a)) :
    Confined allowed (m >>= f) := by
  intro s
  rw [meets_bind]
  refine (hm s).mono ?_
  rintro (fault | a) s' ⟨⟩ hc
  · exact hc
  · exact (hf a s').mono fun _ _ _ hc' => hc'.trans hc

theorem observe (hm : Confined allowed m) : Confined allowed (Act.observe m) := by
  intro s
  rw [meets_observe]
  exact hm s

theorem ofAnswer {m : Act (Except Fault α)} (hm : Confined allowed m) :
    Confined allowed (Act.ofAnswer m) := by
  refine hm.bind fun a => ?_
  cases a with
  | error fault => exact throw fault
  | ok a => exact pure a

end Confined

namespace LeavesAlone

theorem confined {m : Act α} (hm : LeavesAlone allowed m) : Confined allowed m :=
  fun s => (hm s ()).mono fun _ _ _ h => h.1

theorem pending_run {m : Act α} (hm : LeavesAlone allowed m) (party : Party σ) (s : Session) (st : σ) :
    (run party m s st).2.1.pending = s.pending := by
  have hplays : party.Plays (Protocol.only allowed) fun _ _ => True :=
    fun _ _ x _ _ => ⟨x, trivial, trivial⟩
  obtain ⟨_, ⟨-, hp, -⟩, -⟩ := (hm s ()).run hplays trivial
  exact hp

theorem ask {r : Request α} (hr : allowed r) : LeavesAlone allowed (Act.ask r) :=
  Leaves.ask (fun _ => hr) fun _ _ _ _ => rfl

end LeavesAlone

end RowStore
