import Mathlib.Data.List.Forall2
import RowStore.Proofs.Noted.Gives
import RowStore.Proofs.Query.Compiled
import RowStore.Proofs.Session.Meets

/-!
# Acts that end as they should

* `Request.AsksLock` : the requests that concern the write lock; `Party.Keeps I` : no other request ends
  the property `I` of a party's states;
* `Steady I s st` : the kept columns have texts as codes, and `I` holds of the party's state;
* `Yields party I allowed good m` : from a steady session on, the act `m` ends in one, with a good value
  or an allowed fault; one rule for each step of an act.
-/

namespace RowStore

open Act

variable {α β σ : Type}

/-- A request that concerns the write lock. -/
def Request.AsksLock : {β : Type} → Request β → Prop
  | _, .acquire _ => True
  | _, .release => True
  | _, _ => False

/-- A property of a party's states that only a request about the write lock may end. -/
def Party.Keeps (party : Party σ) (I : σ → Prop) : Prop :=
  ∀ {β : Type} (r : Request β) (st : σ), ¬ r.AsksLock → I st → I (party.answer r st).2

/-- The kept columns have texts as codes, and the party's state has a property. -/
structure Steady (I : σ → Prop) (s : Session) (st : σ) : Prop where
  codes : ∀ c, s.columns = some c → Query.HasTextCodes c
  holds : I st

theorem Steady.noted {I : σ → Prop} {s s' : Session} {st : σ} (h : Steady I s st)
    (hc : s'.columns = s.columns) : Steady I s' st := ⟨hc ▸ h.codes, h.holds⟩

/-- From a steady session on, an act ends in one, with a good value or an allowed fault. -/
def Yields (party : Party σ) (I : σ → Prop) (allowed : Fault → Prop) (good : α → Prop)
    (m : Act α) : Prop :=
  ∀ s st, Steady I s st → Meets party.protocol m s st fun r s' st' =>
    Steady I s' st' ∧ Ends allowed good r

namespace Yields

variable {party : Party σ} {I : σ → Prop} {allowed allowed' : Fault → Prop} {good : α → Prop}
  {good' : β → Prop}

theorem mono {m : Act α} {good' : α → Prop} (hm : Yields party I allowed good m)
    (hfault : ∀ fault, allowed fault → allowed' fault) (hvalue : ∀ a, good a → good' a) :
    Yields party I allowed' good' m :=
  fun s st h => (hm s st h).mono fun _ _ _ h' => ⟨h'.1, h'.2.mono hfault hvalue⟩

theorem pure {a : α} (ha : good a) : Yields party I allowed good (Pure.pure a : Act α) :=
  fun _ _ h => ⟨h, ha⟩

theorem throw {fault : Fault} (hfault : allowed fault) :
    Yields party I allowed good (throw fault : Act α) := fun _ _ h => ⟨h, hfault⟩

theorem liftExcept {e : Except Fault α} (he : Ends allowed good e) :
    Yields party I allowed good (liftM e : Act α) := by
  intro s st h
  rw [meets_liftExcept]
  exact ⟨h, he⟩

theorem liftNoted {m : Noted α} (hm : m.EndsIn allowed good) :
    Yields party I allowed good (liftM m : Act α) := fun s _ h => ⟨h.noted rfl, hm s.notes⟩

theorem note (level : NoteLevel) (text : Text) :
    Yields party I allowed (fun _ => True) (Act.note level text) := fun _ _ h => ⟨h.noted rfl, trivial⟩

theorem columns : Yields party I allowed (fun o => ∀ c, o = some c → Query.HasTextCodes c)
    Act.columns := fun _ _ h => ⟨h, h.codes⟩

theorem setColumns {o : Option Columns} (ho : ∀ c, o = some c → Query.HasTextCodes c) :
    Yields party I allowed (fun _ => True) (Act.setColumns o) :=
  fun _ _ h => ⟨⟨ho, h.holds⟩, trivial⟩

theorem bind {m : Act α} {f : α → Act β} (hm : Yields party I allowed good m)
    (hf : ∀ a, good a → Yields party I allowed good' (f a)) :
    Yields party I allowed good' (m >>= f) := by
  intro s st h
  rw [meets_bind]
  refine (hm s st h).mono ?_
  rintro (fault | a) s' st' ⟨h', hends⟩
  · exact ⟨h', hends⟩
  · exact hf a hends s' st' h'

/-- What is made of the value of an act. -/
theorem mapped {m : Act α} (hm : Yields party I allowed good m) (f : α → β) :
    Yields party I allowed (fun _ => True) (do return f (← m)) := hm.bind fun _ _ => pure trivial

/-- An observed act does not fail. -/
theorem observe {m : Act α} (hm : Yields party I allowed good m) :
    Yields party I allowed' (Ends allowed good) (Act.observe m) := by
  intro s st h
  rw [meets_observe]
  exact hm s st h

/-- Acts one after another, each of which starts where the one before it has ended. -/
theorem mapM {as : List α} {f : α → Act β} {good : α → β → Prop}
    (hf : ∀ a ∈ as, Yields party I allowed (good a) (f a)) :
    Yields party I allowed (List.Forall₂ good as) (as.mapM f) := by
  induction as with
  | nil => exact pure .nil
  | cons a rest ih =>
    obtain ⟨ha, hrest⟩ := List.forall_mem_cons.mp hf
    rw [List.mapM_cons]
    exact ha.bind fun b hb => (ih hrest).bind fun bs hbs => pure (.cons hb hbs)

end Yields

/-- An act that keeps a session steady, however it ends. -/
abbrev Steadies (party : Party σ) (I : σ → Prop) (m : Act α) : Prop :=
  Yields party I (fun _ => True) (fun _ => True) m

theorem ends_any (e : Except Fault α) : Ends (fun _ => True) (fun _ => True) e := by
  cases e <;> exact trivial

end RowStore
