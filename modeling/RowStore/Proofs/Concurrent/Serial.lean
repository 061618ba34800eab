import RowStore.Proofs.Concurrent.Schedule
import RowStore.Proofs.Table.Effect
import RowStore.Proofs.Table.Sample

/-!
# Writers are serializable

* `Stands` : where a table stands in a scene: idle, before it asks for the lock, with the lock, or
  about to return; `Settled` : the invariant of scenes;
* `Settled.step` : a step keeps it, one lemma for each way in which a table may stand;
* `run_serializable` : whatever the schedule, the sheet and what the operations give are those of
  running, one after another, the operations that were given the lock, in the order in which it was
  given.
-/

namespace RowStore

open Act

variable {ι : Type}

/-! ## Operations under the lock -/

/-- Once the lock is given back, nothing is asked for. -/
theorem Program.Meets.done_of_over {α : Type} {terms : Terms} {p : Program α}
    {Q : α → Course → Prop} {x : Course} (h : p.Meets (writing terms) Q x) (hx : x.lock = .over) :
    ∃ a, p = .done a ∧ Q a x := by
  cases p with
  | done a => exact ⟨a, rfl, h⟩
  | ask r next =>
    have hmay : x.may r := h.1
    cases r <;> simp [Course.may, hx] at hmay

/-- What a serial run gives, given that its operations are writes of tables that are ready. -/
theorem Writers.ready_oneByOne [DecidableEq ι] {ws : Writers ι} {c : Columns}
    (hc : c.isEmpty = false) {sessions : ι → Session} (hs : ∀ i, Ready c (sessions i))
    {ledger : Ledger} {turns : List (ι × Operation)}
    (hturns : ∀ turn ∈ turns, turn.2.isWrite = true) (i : ι) :
    Ready c ((ws.oneByOne sessions ledger turns).sessions i) := by
  induction turns using List.reverseRecOn generalizing i with
  | nil => exact hs i
  | append_singleton turns turn ih =>
    have ih := ih fun turn hturn => hturns turn (List.mem_append_left _ hturn)
    have hop := hturns turn (List.mem_append_right _ (List.mem_singleton_self turn))
    rw [oneByOne_concat, next]
    dsimp only
    by_cases hi : i = turn.1
    · subst hi
      rw [Function.update_self]
      exact (Table.run_solo _ _ (ih _) hc hop _).1
    · rw [Function.update_of_ne hi]
      exact ih i

/-- What becomes of a request that is not about the lock. -/
theorem Writers.asked_of_not_asksLock [DecidableEq ι] (ws : Writers ι) (w : Scene ι) (i : ι)
    (given : Bool) (job : Job) {β : Type} {r : Request β} (hr : ¬ r.asksLock)
    (next : β → Program (Except Fault Outcome × Session)) : ws.asked w i given job r next =
      { w with ledger := (Solo.answer ws.room r w.ledger).2 }.put i (.busy { job with
        requests := job.requests + 1
        program := next (Solo.answer ws.room r w.ledger).1 }) := by
  cases r with
  | acquire | release => exact absurd trivial hr
  | _ => rfl

/-! ## Where the tables stand -/

/-- What a write may count on beside the others. -/
def Writers.terms (ws : Writers ι) : Terms where
  room rows size := size = ws.room rows
  bars seconds := ws.bars seconds = true

section

variable [DecidableEq ι] (ws : Writers ι) (c : Columns) (sessions : ι → Session) (start : Ledger)

/-- What an operation with the lock gives is what it gives in the serial run; one without the lock has
asked for nothing. -/
structure Return.Right (order : List (ι × Operation)) (ret : Return ι) : Prop where
  locked : ∀ n, ret.turn = some n → order[n]? = some (ret.client, ret.op) ∧
    (ws.oneByOne sessions start order).outcomes[n]? = some ret.outcome
  unlocked : ret.turn = none → ret.requests = 0

/-- Where a table stands, given the holder of the lock, the ledger and the order so far. -/
inductive Stands (holder : Option ι) (ledger : Ledger) (order : List (ι × Operation)) (i : ι) :
    Client → Prop
  | idle {s : Session} (hs : Ready c s) (hi : holder ≠ some i) : Stands holder ledger order i (.idle s)
  /-- It has not asked for the lock yet. -/
  | asking {op : Operation} {s : Session} {p : Program (Except Fault Outcome × Session)}
    (hop : op.isWrite = true) (hs : Ready c s) (hi : holder ≠ some i)
    (hp : p = (ws.table i).perform op s) :
    Stands holder ledger order i (.busy ⟨op, none, 0, p⟩)
  /-- It holds the lock: what is left to do is what is left of its run after the turns before it. -/
  | holding {op : Operation} {s : Session} {before : List (ι × Operation)} {requests : Nat}
    {p : Program (Except Fault Outcome × Session)} (hop : op.isWrite = true) (hs : Ready c s)
    (hi : holder = some i) (horder : order = before ++ [(i, op)])
    (hrun : p.run (Solo.party ws.room) ledger = ((ws.table i).perform op s).run (Solo.party ws.room)
      (ws.oneByOne sessions start before).ledger)
    (hmeets : p.Meets (writing ws.terms) (fun a x => Ready c a.2 ∧ x.lock ≠ .held)
      ⟨.held, ledger, false⟩) :
    Stands holder ledger order i (.busy ⟨op, some before.length, requests, p⟩)
  /-- It is done with the lock, or was not given it. -/
  | leaving {op : Operation} {turn : Option Nat} {requests : Nat} {r : Except Fault Outcome}
    {s : Session} (hs : Ready c s) (hi : holder ≠ some i)
    (hright : Return.Right ws sessions start order ⟨i, op, turn, requests, r⟩) :
    Stands holder ledger order i (.busy ⟨op, turn, requests, .done (r, s)⟩)

/-- While no table holds the lock, the sheet is that of the serial run. -/
structure Settled (w : Scene ι) : Prop where
  todo : ∀ i, ∀ op ∈ w.todo i, op.isWrite = true
  turns : ∀ turn ∈ w.order, turn.2.isWrite = true
  ledger : w.holder = none → w.ledger = (ws.oneByOne sessions start w.order).ledger
  returns : ∀ ret ∈ w.returns, Return.Right ws sessions start w.order ret
  clients : ∀ i, Stands ws c sessions start w.holder w.ledger w.order i (w.clients i)

end

variable [DecidableEq ι] {ws : Writers ι} {c : Columns} {sessions : ι → Session} {start : Ledger}

theorem getElem?_of_extended {α : Type} {as bs : List α} (h : as <+: bs) {n : Nat} {a : α}
    (ha : as[n]? = some a) : bs[n]? = some a := by
  obtain ⟨more, rfl⟩ := h
  rw [List.getElem?_append_left (List.getElem?_eq_some_iff.mp ha).1]
  exact ha

/-- Later turns change nothing of what was given before. -/
theorem Return.Right.mono {order order' : List (ι × Operation)} {ret : Return ι}
    (h : Return.Right ws sessions start order ret) (horder : order <+: order') :
    Return.Right ws sessions start order' ret := by
  refine ⟨fun n hn => ?_, h.unlocked⟩
  obtain ⟨hturn, houtcome⟩ := h.locked n hn
  exact ⟨getElem?_of_extended horder hturn, getElem?_of_extended (Writers.outcomes_mono horder) houtcome⟩

/-- An operation that was not given the lock and has asked for nothing. -/
theorem Return.Right.of_unlocked {order : List (ι × Operation)} (i : ι) (op : Operation)
    (r : Except Fault Outcome) : Return.Right ws sessions start order ⟨i, op, none, 0, r⟩ :=
  ⟨fun _ hn => (nomatch hn), fun _ => rfl⟩

/-- A table without the lock does not mind what the others do. -/
theorem Stands.away {holder holder' : Option ι} {ledger ledger' : Ledger}
    {order order' : List (ι × Operation)} {i : ι} {client : Client}
    (h : Stands ws c sessions start holder ledger order i client) (hi : holder ≠ some i)
    (hi' : holder' ≠ some i) (horder : order <+: order') :
    Stands ws c sessions start holder' ledger' order' i client := by
  cases h with
  | idle hs => exact .idle hs hi'
  | asking hop hs _ hp => exact .asking hop hs hi' hp
  | holding _ _ hheld => exact absurd hheld hi
  | leaving hs _ hright => exact .leaving hs hi' (hright.mono horder)

namespace Settled

variable {w : Scene ι} {i : ι} {client : Client}

/-- A table comes further, and leaves lock and sheet alone. -/
theorem quiet (h : Settled ws c sessions start w)
    (hclient : Stands ws c sessions start w.holder w.ledger w.order i client)
    {todo : ι → List Operation} (htodo : ∀ i, ∀ op ∈ todo i, op.isWrite = true)
    {returns : List (Return ι)}
    (hreturns : ∀ ret ∈ returns, Return.Right ws sessions start w.order ret) :
    Settled ws c sessions start ({ w with todo := todo, returns := returns }.put i client) where
  todo := htodo
  turns := h.turns
  ledger := h.ledger
  returns := hreturns
  clients j := by
    by_cases hj : j = i
    · subst hj
      simpa only [Scene.put, Function.update_self] using hclient
    · simpa only [Scene.put, Function.update_of_ne hj] using h.clients j

/-- A table comes further, and no other one holds the lock before or after. -/
theorem moved (h : Settled ws c sessions start w) {holder : Option ι} {ledger : Ledger}
    {order : List (ι × Operation)} (hbefore : ∀ j, j ≠ i → w.holder ≠ some j)
    (hafter : ∀ j, j ≠ i → holder ≠ some j) (horder : w.order <+: order)
    (hturns : ∀ turn ∈ order, turn.2.isWrite = true)
    (hledger : holder = none → ledger = (ws.oneByOne sessions start order).ledger)
    (hclient : Stands ws c sessions start holder ledger order i client) :
    Settled ws c sessions start
      ({ w with holder := holder, ledger := ledger, order := order }.put i client) where
  todo := h.todo
  turns := hturns
  ledger := hledger
  returns ret hret := (h.returns ret hret).mono horder
  clients j := by
    by_cases hj : j = i
    · subst hj
      simpa only [Scene.put, Function.update_self] using hclient
    · simpa only [Scene.put, Function.update_of_ne hj] using
        (h.clients j).away (hbefore j hj) (hafter j hj) horder

theorem step_idle (h : Settled ws c sessions start w) {s : Session} (hw : w.clients i = .idle s)
    (given : Bool) : Settled ws c sessions start (ws.step w i given) := by
  have hstands := h.clients i
  rw [hw] at hstands
  obtain ⟨hs, hi⟩ : Ready c s ∧ w.holder ≠ some i := by
    cases hstands with
    | idle hs hi => exact ⟨hs, hi⟩
  rw [Writers.step, hw]
  dsimp only
  cases htodo : w.todo i with
  | nil => exact h
  | cons op rest =>
    have hmem : ∀ op' ∈ op :: rest, op'.isWrite = true := htodo ▸ h.todo i
    refine h.quiet (.asking (hmem op List.mem_cons_self) hs hi rfl) (fun j => ?_) h.returns
    by_cases hj : j = i
    · subst hj
      rw [Function.update_self]
      exact fun op' hop' => hmem op' (List.mem_cons_of_mem _ hop')
    · rw [Function.update_of_ne hj]
      exact h.todo j

/-- An operation that has not asked for the lock can ask for nothing else. -/
theorem step_asking (h : Settled ws c sessions start w) (hc : c.isEmpty = false) {op : Operation}
    {s : Session} {p : Program (Except Fault Outcome × Session)}
    (hw : w.clients i = .busy ⟨op, none, 0, p⟩) (hop : op.isWrite = true) (hs : Ready c s)
    (hi : w.holder ≠ some i) (hp : p = (ws.table i).perform op s) (given : Bool) :
    Settled ws c sessions start (ws.step w i given) := by
  have hfits : p.Meets (writing ws.terms) (fun a x => Ready c a.2 ∧ x.lock ≠ .held)
      ⟨.before, w.ledger, false⟩ := by
    have hwrites : Meets (writing ws.terms) ((ws.table i).perform op) s ⟨.before, w.ledger, false⟩ _ :=
      Table.meets_perform_writing rfl hs hc hop
    rw [hp]
    exact Program.Meets.mono hwrites fun a x' (hwritten : Table.Written _ _ _ _ _ a.1 a.2 x') =>
      ⟨hwritten.ready, hwritten.lock_ne_held rfl⟩
  rw [Writers.step, hw]
  dsimp only
  cases p with
  | done a =>
    refine h.quiet (.idle hfits.1 hi) h.todo fun ret hret => ?_
    rcases List.mem_append.mp hret with hret | hret
    · exact h.returns ret hret
    · rw [List.mem_singleton.mp hret]
      exact .of_unlocked i op a.1
  | ask r next =>
    obtain ⟨hmay, hnext⟩ := hfits
    cases r with
    | acquire seconds =>
      -- Without the lock the operation can only return.
      have hleaves : ∀ taken x', x'.lock = .over →
          Course.reply ws.terms ⟨.before, w.ledger, false⟩ (.acquire seconds) taken x' →
          Settled ws c sessions start (w.put i (.busy ⟨op, none, 0, next taken⟩)) := by
        intro taken x' hover hreply
        obtain ⟨⟨r, s'⟩, hdone, hs', -⟩ := (hnext taken x' hreply).done_of_over hover
        rw [hdone]
        exact h.quiet (.leaving hs' hi (.of_unlocked i op r)) h.todo h.returns
      unfold Writers.asked
      dsimp only
      by_cases hb : ws.bars seconds = true
      · rw [if_pos hb]
        exact hleaves _ _ rfl (Or.inr (Or.inr ⟨hb, ⟨_, rfl⟩, rfl⟩))
      · rw [if_neg hb]
        by_cases hfree : (given && w.holder.isNone) = true
        · rw [if_pos hfree]
          have hnone : w.holder = none :=
            Option.isNone_iff_eq_none.mp (Bool.and_eq_true_iff.mp hfree).2
          refine h.moved (fun j _ => ?_) (fun j hj => ?_) (List.prefix_append _ _) ?_
            (fun hn => nomatch hn) (.holding hop hs rfl rfl ?_ ?_)
          · rw [hnone]
            exact (Option.some_ne_none j).symm
          · exact fun hsome => hj (Option.some.inj hsome).symm
          · intro turn hturn
            rcases List.mem_append.mp hturn with hturn | hturn
            · exact h.turns turn hturn
            · rw [List.mem_singleton.mp hturn]
              exact hop
          · rw [← hp, ← h.ledger hnone]
            rfl
          · exact hnext _ _ (Or.inl ⟨hb, rfl, rfl⟩)
        · rw [if_neg hfree]
          exact hleaves _ _ rfl (Or.inr (Or.inl ⟨hb, rfl, rfl⟩))
    | _ => cases hmay

/-- What is left of a run when the lock is given back is the result, which is that of the serial
run. -/
theorem next_eq (hc : c.isEmpty = false) (hsessions : ∀ i, Ready c (sessions i))
    {before : List (ι × Operation)} (hturns : ∀ turn ∈ before, turn.2.isWrite = true)
    {op : Operation} (hop : op.isWrite = true) {s : Session} (hs : Ready c s)
    {r : Except Fault Outcome} {s' : Session} {ledger : Ledger}
    (hrun : ((ws.table i).perform op s).run (Solo.party ws.room)
      (ws.oneByOne sessions start before).ledger = ((r, s'), ledger)) :
    (ws.oneByOne sessions start (before ++ [(i, op)])).ledger = ledger ∧
      (ws.oneByOne sessions start (before ++ [(i, op)])).outcomes =
        (ws.oneByOne sessions start before).outcomes ++ [r] := by
  have hready : Ready c ((ws.oneByOne sessions start before).sessions i) :=
    Writers.ready_oneByOne hc hsessions hturns i
  have hours : Act.run (Solo.party ws.room) ((ws.table i).perform op) s
      (ws.oneByOne sessions start before).ledger = (r, s', ledger) := by
    rw [run, hrun]
  -- The log of the serial run is another one, but it does not matter.
  have heffect :=
    (Table.run_solo ws.room (ws.table i) hs hc hop (ws.oneByOne sessions start before).ledger).2
  rw [hours, ← (Table.run_solo ws.room (ws.table i) hready hc hop _).2] at heffect
  obtain ⟨houtcome, hledger⟩ := Prod.ext_iff.mp heffect
  rw [Writers.oneByOne_concat, Writers.next]
  exact ⟨hledger.symm, congrArg (_ ++ [·]) houtcome.symm⟩

/-- With the lock, the sheet is that of a run that has it to itself. -/
theorem step_holding (h : Settled ws c sessions start w) (hc : c.isEmpty = false)
    (hsessions : ∀ i, Ready c (sessions i)) {op : Operation} {s : Session}
    {before : List (ι × Operation)} {requests : Nat}
    {p : Program (Except Fault Outcome × Session)}
    (hw : w.clients i = .busy ⟨op, some before.length, requests, p⟩) (hop : op.isWrite = true)
    (hs : Ready c s) (hi : w.holder = some i) (horder : w.order = before ++ [(i, op)])
    (hrun : p.run (Solo.party ws.room) w.ledger = ((ws.table i).perform op s).run
      (Solo.party ws.room) (ws.oneByOne sessions start before).ledger)
    (hmeets : p.Meets (writing ws.terms) (fun a x => Ready c a.2 ∧ x.lock ≠ .held)
      ⟨.held, w.ledger, false⟩) (given : Bool) :
    Settled ws c sessions start (ws.step w i given) := by
  have hothers : ∀ j, j ≠ i → w.holder ≠ some j := by
    intro j hj hsome
    rw [hi] at hsome
    exact hj (Option.some.inj hsome).symm
  rw [Writers.step, hw]
  dsimp only
  cases p with
  | done a => exact absurd rfl hmeets.2
  | ask r next =>
    obtain ⟨hmay, hnext⟩ := hmeets
    dsimp only
    by_cases hr : r.asksLock
    · cases r with
      | acquire seconds => cases hmay
      | release =>
        obtain ⟨⟨r, s'⟩, hdone, hs', -⟩ := (hnext (.ok ()) _ ⟨rfl, rfl⟩).done_of_over rfl
        have hended : ((ws.table i).perform op s).run (Solo.party ws.room)
            (ws.oneByOne sessions start before).ledger = ((r, s'), w.ledger) := by
          rw [← hrun, Program.run_ask]
          change (next (.ok ())).run _ w.ledger = _
          rw [hdone]
          rfl
        have hbefore : ∀ turn ∈ before, turn.2.isWrite = true := fun turn hturn =>
          h.turns turn (horder ▸ List.mem_append_left _ hturn)
        obtain ⟨hledger, houtcomes⟩ := next_eq hc hsessions hbefore hop hs hended
        have hright : Return.Right ws sessions start w.order
            ⟨i, op, some before.length, requests, r⟩ := by
          refine ⟨?_, fun hn => nomatch hn⟩
          rintro _ ⟨⟩
          have hlength : (ws.oneByOne sessions start before).outcomes.length = before.length :=
            Writers.length_outcomes before
          refine ⟨by rw [horder, List.getElem?_concat_length], ?_⟩
          rw [horder, houtcomes, ← hlength, List.getElem?_concat_length]
        unfold Writers.asked
        dsimp only
        rw [hdone]
        refine h.moved hothers (fun j _ => (Option.some_ne_none j).symm) List.prefix_rfl h.turns
          (fun _ => ?_) (.leaving hs' (Option.some_ne_none i).symm hright)
        rw [horder, hledger]
      | _ => exact hr.elim
    · rw [ws.asked_of_not_asksLock w i given _ hr]
      refine h.moved hothers hothers List.prefix_rfl h.turns (fun hn => ?_)
        (.holding hop hs hi horder ?_ ?_)
      · rw [hi] at hn
        cases hn
      · rw [← hrun, Program.run_ask]
        rfl
      · exact hnext _ _ (Course.reply_solo (fun _ => rfl) rfl hmay hr)

theorem step_leaving (h : Settled ws c sessions start w) {op : Operation} {turn : Option Nat}
    {requests : Nat} {r : Except Fault Outcome} {s : Session}
    (hw : w.clients i = .busy ⟨op, turn, requests, .done (r, s)⟩) (hs : Ready c s)
    (hi : w.holder ≠ some i)
    (hright : Return.Right ws sessions start w.order ⟨i, op, turn, requests, r⟩) (given : Bool) :
    Settled ws c sessions start (ws.step w i given) := by
  rw [Writers.step, hw]
  refine h.quiet (.idle hs hi) h.todo fun ret hret => ?_
  rcases List.mem_append.mp hret with hret | hret
  · exact h.returns ret hret
  · rw [List.mem_singleton.mp hret]
    exact hright

/-- A step keeps the scene settled. -/
theorem step (h : Settled ws c sessions start w) (hc : c.isEmpty = false)
    (hsessions : ∀ i, Ready c (sessions i)) (i : ι) (given : Bool) :
    Settled ws c sessions start (ws.step w i given) := by
  have hstands := h.clients i
  generalize hw : w.clients i = client at hstands
  cases hstands with
  | idle => exact h.step_idle hw given
  | asking hop hs hi hp => exact h.step_asking hc hw hop hs hi hp given
  | holding hop hs hi horder hrun hmeets =>
    exact h.step_holding hc hsessions hw hop hs hi horder hrun hmeets given
  | leaving hs hi hright => exact h.step_leaving hw hs hi hright given

theorem run (h : Settled ws c sessions start w) (hc : c.isEmpty = false)
    (hsessions : ∀ i, Ready c (sessions i)) (schedule : List (ι × Bool)) :
    Settled ws c sessions start (ws.run w schedule) := by
  induction schedule generalizing w with
  | nil => exact h
  | cons turn rest ih => exact ih (h.step hc hsessions turn.1 turn.2)

end Settled

theorem settled_start (hsessions : ∀ i, Ready c (sessions i)) {todo : ι → List Operation}
    (htodo : ∀ i, ∀ op ∈ todo i, op.isWrite = true) :
    Settled ws c sessions start (.start sessions todo start) where
  todo := htodo
  turns _ hturn := nomatch hturn
  ledger _ := rfl
  returns _ hret := nomatch hret
  clients i := .idle (hsessions i) (Option.some_ne_none i).symm

/-- Tables with the same kept columns write to one sheet under one lock, in whatever order their steps
are taken. While no table holds the lock, the sheet is that of running, one after another, the
operations that were given the lock, in the order in which it was given; what such an operation has
returned is what it gives in that serial run. An operation that was not given the lock has asked for
nothing else. No table that is between two operations holds the lock. -/
theorem run_serializable (ws : Writers ι) (hc : c.isEmpty = false)
    (hsessions : ∀ i, Ready c (sessions i)) {todo : ι → List Operation}
    (htodo : ∀ i, ∀ op ∈ todo i, op.isWrite = true) (start : Ledger)
    (schedule : List (ι × Bool)) :
    let w := ws.run (.start sessions todo start) schedule
    let serial := ws.oneByOne sessions start w.order
    (w.holder = none → w.ledger = serial.ledger) ∧
    (∀ ret ∈ w.returns, ∀ n, ret.turn = some n →
      w.order[n]? = some (ret.client, ret.op) ∧ serial.outcomes[n]? = some ret.outcome) ∧
    (∀ ret ∈ w.returns, ret.turn = none → ret.requests = 0) ∧
    ∀ i s, w.clients i = .idle s → w.holder ≠ some i := by
  intro w serial
  have h : Settled ws c sessions start w := (settled_start hsessions htodo).run hc hsessions schedule
  refine ⟨h.ledger, fun ret hret => (h.returns ret hret).locked,
    fun ret hret => (h.returns ret hret).unlocked, fun i s hi => ?_⟩
  have hstands := h.clients i
  rw [hi] at hstands
  cases hstands with
  | idle _ hi => exact hi

open Sample in
/-- Two tables create a record with the same identifier. The second one is given the lock after the
first one has given it back; it reads the rows, finds the identifier taken and sends nothing. -/
theorem run_serializable_of_same_identifier :
    let ws : Writers Bool :=
      ⟨fun _ => table (.int 30000), fun rows => (rows.length, 2), fun _ => false⟩
    let op := Operation.create (user "e3" "Carol")
    let turns (i : Bool) (n : Nat) := List.replicate n (i, true)
    let w := ws.run (.start (fun _ => session) (fun _ => [op]) ⟨rows, []⟩)
      (turns false 1 ++ turns true 1 ++ turns false 5 ++ turns true 5)
    let serial := ws.oneByOne (fun _ => session) ⟨rows, []⟩ w.order
    w.returns.map (fun ret => (ret.client, ret.turn, ret.requests)) =
      [(false, some 0, 2), (true, some 1, 1)] ∧
    (w.holder = none → w.ledger = serial.ledger) ∧
    (∀ ret ∈ w.returns, ∀ n, ret.turn = some n →
      w.order[n]? = some (ret.client, ret.op) ∧ serial.outcomes[n]? = some ret.outcome) ∧
    (∀ ret ∈ w.returns, ret.turn = none → ret.requests = 0) ∧
    ∀ i s, w.clients i = .idle s → w.holder ≠ some i := by
  intro ws op turns
  have hsessions : ∀ _ : Bool, Ready columns session := fun _ => ⟨rfl, rfl⟩
  have htodo : ∀ _ : Bool, ∀ op' ∈ [op], op'.isWrite = true := by
    intro _ op' hop'
    rw [List.mem_singleton.mp hop']
    rfl
  exact ⟨by decide +kernel, run_serializable ws rfl hsessions htodo ⟨rows, []⟩ _⟩

end RowStore
