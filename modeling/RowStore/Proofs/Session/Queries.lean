import RowStore.Proofs.Session.Trace

/-!
# The queries of an act

* `Act.queries party m s st` : the texts of the queries that the act `m` sends when the party answers,
  in order; `queries_eq_trace` : they are the trace of what a request sends;
* `Party.sending` : the protocol of the party's own answers that also keeps the texts sent so far;
* `Act.meets_sending` : under it an act meets what holds of its run and its queries.
-/

namespace RowStore

variable {α β σ : Type}

/-- The text of the query that a request sends, to the query service or to its web address. -/
def Request.queries : {β : Type} → Request β → List Text
  | _, .query text => [text]
  | _, .get r =>
    match r.params.findText? "tq" with
    | some (.text text) => [text]
    | _ => []
  | _, _ => []

/-- The texts of the queries that a program sends, in order. -/
def Program.queries (party : Party σ) : Program α → σ → List Text
  | .done _, _ => []
  | .ask r next, st =>
    r.queries ++ queries party (next (party.answer r st).1) (party.answer r st).2

/-- The texts of the queries that an act sends, in order. -/
def Act.queries (party : Party σ) (m : Act α) (s : Session) (st : σ) : List Text :=
  Program.queries party (m s) st

/-- The protocol of a party's own answers, with the texts of the queries sent so far. -/
def Party.sending (party : Party σ) : Protocol (σ × List Text) where
  may _ _ := True
  reply r x a x' := party.answer r x.1 = (a, x'.1) ∧ x'.2 = x.2 ++ r.queries

theorem Program.queries_eq_trace (party : Party σ) (p : Program α) (st : σ) :
    p.queries party st = p.trace party Request.queries st := by
  induction p generalizing st with
  | done a => rfl
  | ask r next ih => rw [queries, trace, ih]

namespace Act

theorem queries_eq_trace (party : Party σ) (m : Act α) (s : Session) (st : σ) :
    queries party m s st = trace party Request.queries m s st := Program.queries_eq_trace party _ st

theorem meets_sending {party : Party σ} {m : Act α}
    {Q : Except Fault α → Session → σ × List Text → Prop} {s : Session} {x : σ × List Text} :
    Meets party.sending m s x Q ↔
      Q (run party m s x.1).1 (run party m s x.1).2.1
        ((run party m s x.1).2.2, x.2 ++ queries party m s x.1) := by
  rw [queries_eq_trace]
  exact meets_showing

end Act

end RowStore
