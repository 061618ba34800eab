import RowStore.Proofs.Session.Meets
import RowStore.Table.Basic

/-!
# Acts that leave a session alone

* `Leaves P obs m` : under the protocol `P` the act `m` leaves the columns and the waiting changes alone,
  and of the protocol's state what `obs` sees; one rule for each step of an act;
* `Leaves.fetch` : so does the fetching of an answer, if the requests do that it is made of.
-/

namespace RowStore

open Act

variable {α β φ γ : Type} {P : Protocol φ} {obs : φ → γ}

/-- An act that leaves the columns and the waiting changes alone, and what is seen of the state. -/
def Leaves (P : Protocol φ) (obs : φ → γ) (m : Act α) : Prop :=
  ∀ s x, Meets P m s x fun _ s' x' =>
    s'.columns = s.columns ∧ s'.pending = s.pending ∧ obs x' = obs x

namespace Leaves

theorem pure (a : α) : Leaves P obs (Pure.pure a : Act α) := fun _ _ => ⟨rfl, rfl, rfl⟩

theorem throw (fault : Fault) : Leaves P obs (MonadExcept.throw fault : Act α) :=
  fun _ _ => ⟨rfl, rfl, rfl⟩

theorem note (level : NoteLevel) (text : Text) : Leaves P obs (Act.note level text) :=
  fun _ _ => ⟨rfl, rfl, rfl⟩

theorem columns : Leaves P obs Act.columns := fun _ _ => ⟨rfl, rfl, rfl⟩

theorem liftNoted (m : Noted α) : Leaves P obs (liftM m : Act α) := fun _ _ => ⟨rfl, rfl, rfl⟩

theorem liftExcept (e : Except Fault α) : Leaves P obs (liftM e : Act α) := by
  intro s x
  rw [meets_liftExcept]
  exact ⟨rfl, rfl, rfl⟩

theorem ask {r : Request α} (hmay : ∀ x, P.may r x)
    (hreply : ∀ x a x', P.reply r x a x' → obs x' = obs x) : Leaves P obs (Act.ask r) := by
  intro s x
  rw [meets_ask]
  exact ⟨hmay x, fun a x' h => ⟨rfl, rfl, hreply x a x' h⟩⟩

theorem bind {m : Act α} {f : α → Act β} (hm : Leaves P obs m) (hf : ∀ a, Leaves P obs (f a)) :
    Leaves P obs (m >>= f) := by
  intro s x
  rw [meets_bind]
  refine (hm s x).mono ?_
  rintro (fault | a) s' x' ⟨hc, hp, hx⟩
  · exact ⟨hc, hp, hx⟩
  · exact (hf a s' x').mono fun _ _ _ ⟨hc', hp', hx'⟩ => ⟨hc'.trans hc, hp'.trans hp, hx'.trans hx⟩

theorem observe {m : Act α} (hm : Leaves P obs m) : Leaves P obs (Act.observe m) := by
  intro s x
  rw [meets_observe]
  exact hm s x

theorem ofAnswer {m : Act (Except Fault α)} (hm : Leaves P obs m) : Leaves P obs (Act.ofAnswer m) := by
  refine hm.bind fun a => ?_
  cases a with
  | error fault => exact throw fault
  | ok a => exact pure a

theorem forM {as : List α} {f : α → Act Unit} (hf : ∀ a, Leaves P obs (f a)) :
    Leaves P obs (as.forM f) := by
  induction as with
  | nil => exact pure ()
  | cons a rest ih => exact (hf a).bind fun _ => ih

/-! ## Answers -/

theorem token (hcredentials : Leaves P obs (Act.ask .credentials))
    (hrefresh : Leaves P obs (Act.ask .refreshCredentials)) (source : TokenSource) :
    Leaves P obs (Endpoint.token source) := by
  cases source with
  | fixed v => exact pure v
  | failing fault => exact throw fault
  | credentials =>
    refine hcredentials.bind fun now => ?_
    split
    · exact pure _
    · exact hrefresh.ofAnswer.bind fun _ => hcredentials.bind fun _ => pure _

theorem fetch (hcredentials : Leaves P obs (Act.ask .credentials))
    (hrefresh : Leaves P obs (Act.ask .refreshCredentials))
    (hquery : ∀ text, Leaves P obs (Act.ask (.query text)))
    (hget : ∀ r, Leaves P obs (Act.ask (.get r))) (t : Table) (query : Text) :
    Leaves P obs (t.fetch query) := by
  rw [Table.fetch]
  cases t.source with
  | service => exact (hquery query).ofAnswer
  | endpoint e =>
    refine (token hcredentials hrefresh e.tokens).observe.bind fun r => ?_
    cases r with
    | error fault => exact throw _
    | ok token =>
      refine (hget _).bind fun r => ?_
      cases r with
      | error fault => exact throw _
      | ok answer =>
        dsimp only
        split
        · exact (liftExcept _).bind fun _ => (note _ _).bind fun _ => pure _
        · exact throw _

end Leaves

end RowStore
