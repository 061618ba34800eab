import RowStore.Session

/-!
# Programs under a protocol

* `Protocol` : which requests may be asked in a state, and which answers and states may follow;
* `Program.Meets P Q p x` : from the state `x` the program asks only what it may, and of every end
  that the possible answers lead to `Q` holds; `meets_bind`, `Meets.mono`, `Meets.and`;
* `Party.Plays` : a party answers as the protocol says, so that what a program meets holds of the
  program's run with that party (`Meets.run`);
* `Party.protocol` : the protocol of a party's own answers, under which a program meets exactly what
  holds of its run (`meets_protocol`);
* `Act.Meets` : the same for acts, with one rule for every step of an act.
-/

namespace RowStore

variable {α β σ φ : Type}

/-- What may be asked in a state, and how it may be answered: the answer and the state after it. -/
structure Protocol (φ : Type) where
  may : {β : Type} → Request β → φ → Prop
  reply : {β : Type} → Request β → φ → β → φ → Prop

namespace Program

/-- The program asks only what it may, and all its ends are as they should be. -/
def Meets (P : Protocol φ) (Q : α → φ → Prop) : Program α → φ → Prop
  | .done a, x => Q a x
  | .ask r next, x => P.may r x ∧ ∀ a x', P.reply r x a x' → Meets P Q (next a) x'

variable {P : Protocol φ} {x : φ}

theorem Meets.mono {p : Program α} {Q Q' : α → φ → Prop} (h : Meets P Q p x)
    (hQ : ∀ a x', Q a x' → Q' a x') : Meets P Q' p x := by
  induction p generalizing x with
  | done a => exact hQ a x h
  | ask r next ih => exact ⟨h.1, fun a x' hr => ih a (h.2 a x' hr)⟩

theorem Meets.and {p : Program α} {Q Q' : α → φ → Prop} (h : Meets P Q p x)
    (h' : Meets P Q' p x) : Meets P (fun a x' => Q a x' ∧ Q' a x') p x := by
  induction p generalizing x with
  | done a => exact ⟨h, h'⟩
  | ask r next ih => exact ⟨h.1, fun a x' hr => ih a (h.2 a x' hr) (h'.2 a x' hr)⟩

theorem meets_bind {p : Program α} {f : α → Program β} {Q : β → φ → Prop} :
    Meets P Q (bind p f) x ↔ Meets P (fun a x' => Meets P Q (f a) x') p x := by
  induction p generalizing x with
  | done a => exact Iff.rfl
  | ask r next ih =>
    refine and_congr Iff.rfl (forall_congr' fun a => forall_congr' fun x' => ?_)
    exact imp_congr Iff.rfl (ih a)

end Program

/-- The party answers what may be asked as the protocol says, where `R` relates its states to those of
the protocol. -/
def Party.Plays (party : Party σ) (P : Protocol φ) (R : σ → φ → Prop) : Prop :=
  ∀ {β : Type} (r : Request β) (st : σ) (x : φ), R st x → P.may r x →
    ∃ x', P.reply r x (party.answer r st).1 x' ∧ R (party.answer r st).2 x'

theorem Program.Meets.run {P : Protocol φ} {party : Party σ} {R : σ → φ → Prop} {p : Program α}
    {Q : α → φ → Prop} {x : φ} {st : σ} (h : p.Meets P Q x) (hparty : party.Plays P R)
    (hR : R st x) : ∃ x', Q (p.run party st).1 x' ∧ R (p.run party st).2 x' := by
  induction p generalizing x st with
  | done a => exact ⟨x, h, hR⟩
  | ask r next ih =>
    obtain ⟨x', hr, hR'⟩ := hparty r st x hR h.1
    exact ih _ (h.2 _ _ hr) hR'

/-- The protocol of a party's own answers. -/
def Party.protocol (party : Party σ) : Protocol σ where
  may _ _ := True
  reply r st a st' := party.answer r st = (a, st')

theorem Program.meets_protocol {party : Party σ} {p : Program α} {Q : α → σ → Prop} {st : σ} :
    p.Meets party.protocol Q st ↔ Q (p.run party st).1 (p.run party st).2 := by
  induction p generalizing st with
  | done a => exact Iff.rfl
  | ask r next ih =>
    rw [run_ask, ← ih]
    refine ⟨fun h => h.2 _ _ rfl, fun h => ⟨trivial, ?_⟩⟩
    rintro a st' hr
    obtain ⟨rfl, rfl⟩ := Prod.ext_iff.mp hr
    exact h

namespace Act

/-- Of every end of an act `Q` holds: of its outcome, its session and the state of the protocol. -/
def Meets (P : Protocol φ) (m : Act α) (s : Session) (x : φ)
    (Q : Except Fault α → Session → φ → Prop) : Prop :=
  Program.Meets P (fun p x' => Q p.1 p.2 x') (m s) x

variable {P : Protocol φ} {s : Session} {x : φ}

theorem Meets.mono {m : Act α} {Q Q' : Except Fault α → Session → φ → Prop}
    (h : Meets P m s x Q) (hQ : ∀ r s' x', Q r s' x' → Q' r s' x') : Meets P m s x Q' :=
  Program.Meets.mono h fun p x' => hQ p.1 p.2 x'

theorem Meets.and {m : Act α} {Q Q' : Except Fault α → Session → φ → Prop}
    (h : Meets P m s x Q) (h' : Meets P m s x Q') :
    Meets P m s x fun r s' x' => Q r s' x' ∧ Q' r s' x' := Program.Meets.and h h'

/-- What an act meets holds of the end of its run with a party that plays by the protocol. -/
theorem Meets.run {m : Act α} {Q : Except Fault α → Session → φ → Prop} {party : Party σ}
    {R : σ → φ → Prop} {st : σ} (h : Meets P m s x Q) (hparty : party.Plays P R) (hR : R st x) :
    ∃ x', Q (run party m s st).1 (run party m s st).2.1 x' ∧ R (run party m s st).2.2 x' :=
  Program.Meets.run h hparty hR

theorem meets_protocol {m : Act α} {Q : Except Fault α → Session → σ → Prop} {party : Party σ}
    {st : σ} : Meets party.protocol m s st Q ↔
      Q (run party m s st).1 (run party m s st).2.1 (run party m s st).2.2 := Program.meets_protocol

/-- The second act starts where the first one has ended, unless that one has failed. -/
theorem meets_bind {m : Act α} {f : α → Act β} {Q : Except Fault β → Session → φ → Prop} :
    Meets P (m >>= f) s x Q ↔ Meets P m s x fun r s' x' =>
      match r with
      | .ok a => Meets P (f a) s' x' Q
      | .error fault => Q (.error fault) s' x' := by
  rw [Meets, bind_apply, Program.meets_bind]
  refine ⟨fun h => h.mono ?_, fun h => Program.Meets.mono h ?_⟩ <;>
    rintro ⟨_ | a, s'⟩ x' h' <;> exact h'

/-- An act that asks for nothing and does not fail goes on with its value. -/
theorem bind_of_done {m : Act α} {a : α} {s s' : Session} (h : m s = .done (.ok a, s'))
    (f : α → Act β) : (m >>= f) s = f a s' := by
  change Program.bind (m s) _ = _
  rw [h]
  rfl

theorem bind_of_done_error {m : Act α} {fault : Fault} {s s' : Session} (h : m s = .done (.error fault, s'))
    (f : α → Act β) : (m >>= f) s = .done (.error fault, s') := by
  change Program.bind (m s) _ = _
  rw [h]
  rfl

/-- An act that asks for nothing. -/
theorem meets_of_done {m : Act α} {r : Except Fault α} {s' : Session} (h : m s = .done (r, s'))
    {Q : Except Fault α → Session → φ → Prop} : Meets P m s x Q ↔ Q r s' x := by
  rw [Meets, h]
  exact Iff.rfl

@[simp] theorem meets_pure {a : α} {Q : Except Fault α → Session → φ → Prop} :
    Meets P (pure a) s x Q ↔ Q (.ok a) s x := Iff.rfl

@[simp] theorem meets_throw {fault : Fault} {Q : Except Fault α → Session → φ → Prop} :
    Meets P (throw fault : Act α) s x Q ↔ Q (.error fault) s x := Iff.rfl

@[simp] theorem meets_liftExcept {e : Except Fault α} {Q : Except Fault α → Session → φ → Prop} :
    Meets P (liftM e : Act α) s x Q ↔ Q e s x := by
  cases e <;> exact Iff.rfl

@[simp] theorem meets_ask {r : Request α} {Q : Except Fault α → Session → φ → Prop} :
    Meets P (ask r) s x Q ↔ P.may r x ∧ ∀ a x', P.reply r x a x' → Q (.ok a) s x' := Iff.rfl

@[simp] theorem meets_ofAnswer_ask {r : Request (Except Fault α)}
    {Q : Except Fault α → Session → φ → Prop} :
    Meets P (ofAnswer (ask r)) s x Q ↔ P.may r x ∧ ∀ a x', P.reply r x a x' → Q a s x' := by
  rw [ofAnswer, meets_bind, meets_ask]
  refine and_congr Iff.rfl (forall_congr' fun a => ?_)
  rcases a with fault | a <;> exact Iff.rfl

@[simp] theorem meets_observe {m : Act α}
    {Q : Except Fault (Except Fault α) → Session → φ → Prop} :
    Meets P (observe m) s x Q ↔ Meets P m s x fun r s' x' => Q (.ok r) s' x' := by
  rw [Meets, observe, Program.meets_bind]
  exact Iff.rfl

@[simp] theorem meets_note {level : NoteLevel} {text : Text}
    {Q : Except Fault Unit → Session → φ → Prop} :
    Meets P (note level text) s x Q ↔
      Q (.ok ()) ⟨s.columns, s.pending, s.notes ++ [⟨level, text⟩]⟩ x := Iff.rfl

@[simp] theorem meets_columns {Q : Except Fault (Option Columns) → Session → φ → Prop} :
    Meets P columns s x Q ↔ Q (.ok s.columns) s x := Iff.rfl

@[simp] theorem meets_setColumns {c : Option Columns}
    {Q : Except Fault Unit → Session → φ → Prop} :
    Meets P (setColumns c) s x Q ↔ Q (.ok ()) ⟨c, s.pending, s.notes⟩ x := Iff.rfl

@[simp] theorem meets_pending {Q : Except Fault (List Change) → Session → φ → Prop} :
    Meets P pending s x Q ↔ Q (.ok s.pending) s x := Iff.rfl

@[simp] theorem meets_setPending {changes : List Change}
    {Q : Except Fault Unit → Session → φ → Prop} :
    Meets P (setPending changes) s x Q ↔ Q (.ok ()) ⟨s.columns, changes, s.notes⟩ x := Iff.rfl

@[simp] theorem meets_liftNoted {m : Noted α} {Q : Except Fault α → Session → φ → Prop} :
    Meets P (liftM m : Act α) s x Q ↔
      Q (m.runWith s.notes).1 ⟨s.columns, s.pending, (m.runWith s.notes).2⟩ x := Iff.rfl

end Act

end RowStore
