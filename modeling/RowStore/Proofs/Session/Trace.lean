import RowStore.Proofs.Session.Meets

/-!
# Traces of requests

* `Act.trace party view m s st` : what a view shows of the requests that the act `m` makes when the party
  answers, in order; one equation for each step of an act;
* `Act.asked` : the requests themselves;
* `Party.showing view` : the protocol of the party's own answers that also keeps what the view has shown;
  under it an act meets what holds of its run and its trace (`Act.meets_showing`).
-/

namespace RowStore

universe u v

variable {α β σ : Type} {γ : Type u}

namespace Program

/-- What a view shows of the requests of a program, in order. -/
def trace (party : Party σ) (view : {β : Type} → Request β → List γ) : Program α → σ → List γ
  | .done _, _ => []
  | .ask r next, st =>
    view r ++ trace party view (next (party.answer r st).1) (party.answer r st).2

theorem trace_bind (party : Party σ) (view : {β : Type} → Request β → List γ) (p : Program α)
    (f : α → Program β) (st : σ) : trace party view (bind p f) st =
      trace party view p st ++ trace party view (f (p.run party st).1) (p.run party st).2 := by
  induction p generalizing st with
  | done a => rfl
  | ask r next ih => simp only [bind, trace, ih, run_ask, List.append_assoc]

/-- What another view shows that is made from the first one. -/
theorem trace_map {δ : Type v} (party : Party σ) (view : {β : Type} → Request β → List γ) (f : γ → δ)
    (p : Program α) (st : σ) :
    trace party (fun r => (view r).map f) p st = (trace party view p st).map f := by
  induction p generalizing st with
  | done a => rfl
  | ask r next ih => rw [trace, trace, ih, List.map_append]

end Program

namespace Act

/-- What a view shows of the requests of an act, in order. -/
def trace (party : Party σ) (view : {β : Type} → Request β → List γ) (m : Act α) (s : Session)
    (st : σ) : List γ := Program.trace party view (m s) st

/-- The requests of an act, in order. -/
def asked (party : Party σ) (m : Act α) (s : Session) (st : σ) : List (Σ β : Type, Request β) :=
  trace party (fun {β} r => [⟨β, r⟩]) m s st

variable {party : Party σ} {view : {β : Type} → Request β → List γ}

/-- The requests of the second act follow those of the first one, unless that one has failed. -/
theorem trace_bind (m : Act α) (f : α → Act β) (s : Session) (st : σ) :
    trace party view (m >>= f) s st = trace party view m s st ++
      match run party m s st with
      | (.ok a, s', st') => trace party view (f a) s' st'
      | (.error _, _, _) => [] := by
  rw [trace, bind_apply, Program.trace_bind, run]
  rcases (m s).run party st with ⟨⟨_ | a, s'⟩, st'⟩ <;> rfl

/-- An act has asked for nothing if a view that shows every request has shown nothing. -/
theorem asked_eq_nil_iff {m : Act α} {s : Session} {st : σ} :
    asked party m s st = [] ↔ trace party (fun _ => [()]) m s st = [] := by
  have hmap : trace party (fun _ => [()]) m s st = (asked party m s st).map fun _ => () :=
    Program.trace_map party (fun {β} r => [(⟨β, r⟩ : Σ β : Type, Request β)]) (fun _ => ()) (m s) st
  rw [hmap, List.map_eq_nil_iff]

@[simp] theorem trace_ask (r : Request α) (s : Session) (st : σ) :
    trace party view (ask r) s st = view r := List.append_nil _

@[simp] theorem trace_ofAnswer_ask (r : Request (Except Fault α)) (s : Session) (st : σ) :
    trace party view (ofAnswer (ask r)) s st = view r := by
  rw [ofAnswer, trace_bind, trace_ask, run_ask]
  dsimp only
  rcases (party.answer r st).1 with _ | a <;> exact List.append_nil _

@[simp] theorem trace_observe (m : Act α) (s : Session) (st : σ) :
    trace party view (observe m) s st = trace party view m s st := by
  rw [trace, observe, Program.trace_bind]
  exact List.append_nil _

@[simp] theorem trace_liftExcept (e : Except Fault α) (s : Session) (st : σ) :
    trace party view (liftM e : Act α) s st = [] := by
  cases e <;> rfl

end Act

/-! ## What has been shown, as a protocol -/

variable {δ : Type}

/-- The protocol of a party's own answers, with what a view has shown of the requests so far. -/
def Party.showing (party : Party σ) (view : {β : Type} → Request β → List δ) :
    Protocol (σ × List δ) where
  may _ _ := True
  reply r x a x' := party.answer r x.1 = (a, x'.1) ∧ x'.2 = x.2 ++ view r

variable {party : Party σ} {view : {β : Type} → Request β → List δ}

theorem Program.meets_showing {p : Program α} {Q : α → σ × List δ → Prop} {x : σ × List δ} :
    p.Meets (party.showing view) Q x ↔
      Q (p.run party x.1).1 ((p.run party x.1).2, x.2 ++ p.trace party view x.1) := by
  induction p generalizing x with
  | done a =>
    rw [trace, List.append_nil]
    exact Iff.rfl
  | ask r next ih =>
    rw [run_ask, trace, ← List.append_assoc]
    let after := ((party.answer r x.1).2, x.2 ++ view r)
    refine ⟨fun h => (ih _).mp (h.2 _ after ⟨rfl, rfl⟩), fun h => ⟨trivial, ?_⟩⟩
    rintro a ⟨st', shown'⟩ ⟨hanswer, hshown⟩
    obtain ⟨rfl, rfl⟩ := Prod.ext_iff.mp hanswer
    obtain rfl : shown' = x.2 ++ view r := hshown
    exact (ih _).mpr h

namespace Act

theorem meets_showing {m : Act α} {Q : Except Fault α → Session → σ × List δ → Prop} {s : Session}
    {x : σ × List δ} : Meets (party.showing view) m s x Q ↔
      Q (run party m s x.1).1 (run party m s x.1).2.1
        ((run party m s x.1).2.2, x.2 ++ trace party view m s x.1) := Program.meets_showing

end Act

end RowStore
