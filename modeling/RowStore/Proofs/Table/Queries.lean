import RowStore.Proofs.Session.Leaves
import RowStore.Proofs.Session.Queries
import RowStore.Table.Read

/-!
# Acts that send one query or none

* `Silent party m` : the act `m` leaves the session alone and sends no query;
* `SendsOne party t query m` : it leaves them alone and sends this query, or nothing where the table has
  to ask for an access token first; one rule for each way of putting acts together;
* `SendsOne.read` : so does a read.
-/

namespace RowStore

open Act Query Response

variable {α β σ : Type} {party : Party σ} {t : Table} {query : Text}

/-- An act that leaves the session alone and sends no query. -/
abbrev Silent (party : Party σ) (m : Act α) : Prop := Leaves party.sending Prod.snd m

theorem Silent.ask {r : Request α} (hr : r.queries = []) : Silent party (Act.ask r) :=
  Leaves.ask (fun _ => trivial) fun x a x' hreply => by rw [hreply.2, hr, List.append_nil]

/-- What a read may send: its query, or nothing where it has to ask for an access token first. -/
def Table.MaySend (t : Table) (query : Text) (sent : List Text) : Prop :=
  sent = [query] ∨ (sent = [] ∧ t.source ≠ .service)

theorem Table.MaySend.length_le {sent : List Text} (h : t.MaySend query sent) : sent.length ≤ 1 := by
  obtain hone | ⟨hnone, -⟩ := h
  · exact hone ▸ Nat.le_refl 1
  · exact hnone ▸ Nat.zero_le 1

/-- An act that leaves the kept columns alone and sends what a read with this query may send. -/
def SendsOne (party : Party σ) (t : Table) (query : Text) (m : Act α) : Prop :=
  ∀ s x, Meets party.sending m s x fun _ s' x' => s'.columns = s.columns ∧
    ∃ sent, x'.2 = x.2 ++ sent ∧ t.MaySend query sent

namespace SendsOne

theorem ask {r : Request α} (hr : r.queries = [query]) : SendsOne party t query (Act.ask r) := by
  intro s x
  rw [meets_ask]
  exact ⟨trivial, fun a x' hreply => ⟨rfl, [query], hr ▸ hreply.2, Or.inl rfl⟩⟩

theorem observe {m : Act α} (hm : SendsOne party t query m) : SendsOne party t query (Act.observe m) := by
  intro s x
  rw [meets_observe]
  exact hm s x

theorem bind {m : Act α} {f : α → Act β} (hm : SendsOne party t query m)
    (hf : ∀ a, Silent party (f a)) : SendsOne party t query (m >>= f) := by
  intro s x
  rw [meets_bind]
  refine (hm s x).mono ?_
  rintro (fault | a) s' x' ⟨hc, sent, hx, hsent⟩
  · exact ⟨hc, sent, hx, hsent⟩
  · exact (hf a s' x').mono fun _ _ _ ⟨hc', _, hx'⟩ => ⟨hc'.trans hc, sent, hx'.trans hx, hsent⟩

theorem ofAnswer {m : Act (Except Fault α)} (hm : SendsOne party t query m) :
    SendsOne party t query (Act.ofAnswer m) := by
  refine hm.bind fun a => ?_
  cases a with
  | error fault => exact Leaves.throw fault
  | ok a => exact Leaves.pure a

section
variable (hsource : t.source ≠ .service)
include hsource

theorem of_silent {m : Act α} (hm : Silent party m) : SendsOne party t query m :=
  fun s x => (hm s x).mono fun _ _ _ ⟨hc, _, hx⟩ =>
    ⟨hc, [], by rw [hx, List.append_nil], Or.inr ⟨rfl, hsource⟩⟩

theorem silent_bind {m : Act α} {f : α → Act β} (hm : Silent party m)
    (hf : ∀ a, SendsOne party t query (f a)) : SendsOne party t query (m >>= f) := by
  intro s x
  rw [meets_bind]
  refine (hm s x).mono ?_
  rintro (fault | a) s' x' ⟨hc, -, hx⟩
  · exact ⟨hc, [], by rw [hx, List.append_nil], Or.inr ⟨rfl, hsource⟩⟩
  · exact (hf a s' x').mono fun _ _ _ h => ⟨h.1.trans hc, hx ▸ h.2⟩

end

theorem fetch (t : Table) (query : Text) : SendsOne party t query (t.fetch query) := by
  unfold Table.fetch
  split
  · exact (ask rfl).ofAnswer
  · rename_i e hsource
    have hsource : t.source ≠ .service := by
      rw [hsource]
      exact nofun
    have htoken : Silent party (Endpoint.token e.tokens) :=
      Leaves.token (Silent.ask rfl) (Silent.ask rfl) e.tokens
    refine silent_bind hsource htoken.observe fun r => ?_
    cases r with
    | error fault => exact of_silent hsource (Leaves.throw _)
    | ok token =>
      refine (ask rfl).bind fun r => ?_
      cases r with
      | error fault => exact Leaves.throw _
      | ok answer =>
        dsimp only
        split
        · exact (Leaves.liftExcept _).bind fun _ => (Leaves.note _ _).bind fun _ => Leaves.pure _
        · exact Leaves.throw _

theorem catching {m : Act α} (hm : SendsOne party t query m) (holds : Fault.Kind → Bool)
    (level : NoteLevel) (label : String) :
    SendsOne party t query (Table.catching holds level label m) := by
  refine hm.observe.bind fun r => ?_
  cases r with
  | ok a => exact Leaves.pure _
  | error fault =>
    dsimp only
    split
    · exact (Leaves.note _ _).bind fun _ => Leaves.pure _
    · exact Leaves.throw _

/-- A read sends its query and no other one. -/
theorem read (t : Table) (query : Text) : SendsOne party t query (t.read query) := by
  refine catching ((fetch t query).bind fun answer => ?_) _ _ _
  exact Leaves.columns.bind fun _ => (Leaves.liftNoted _).bind fun _ => Leaves.pure _

end SendsOne

end RowStore
