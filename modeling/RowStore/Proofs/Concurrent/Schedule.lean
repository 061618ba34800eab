import Mathlib.Data.List.Induction
import Mathlib.Logic.Function.Basic
import RowStore.Proofs.Sheet.Solo
import RowStore.Table.Operation

/-!
# Tables that write at the same time

* `Writers` : tables that share one sheet and one lock; `Scene` : how far each of them has come;
* `Writers.step` : one of them takes a step: it starts an operation, asks for something and goes on
  with the answer, or returns. The lock is given to one of them at a time, requests are answered at
  once, and no call fails;
* `Writers.run` : the steps of a schedule. A schedule says whose turn it is, and whether the lock is
  given if it is free: an operation that is to wait for the lock has no turn, and one that has waited
  too long has its turn while the lock is held or not given;
* `Writers.oneByOne` : the same operations one after another, each with the sheet to itself.
-/

namespace RowStore

variable {ι : Type}

/-- Tables that write to one sheet under one lock. -/
structure Writers (ι : Type) where
  table : ι → Table
  /-- The numbers of rows and columns that the worksheet has room for, when it has given rows. -/
  room : Rows → Int × Int
  /-- The waits with which the lock cannot be asked for. -/
  bars : Binary64 → Bool

/-- An operation that has been started. -/
structure Job where
  op : Operation
  /-- Its place in the order in which the lock was given. -/
  turn : Option Nat
  /-- How many requests it has made, those for the lock aside. -/
  requests : Nat
  program : Program (Except Fault Outcome × Session)

inductive Client
  | idle (s : Session)
  | busy (job : Job)

/-- An operation that has returned. -/
structure Return (ι : Type) where
  client : ι
  op : Operation
  turn : Option Nat
  requests : Nat
  outcome : Except Fault Outcome

structure Scene (ι : Type) where
  ledger : Ledger
  holder : Option ι
  /-- The operations that were given the lock, in this order. -/
  order : List (ι × Operation)
  clients : ι → Client
  /-- What the tables have yet to do. -/
  todo : ι → List Operation
  returns : List (Return ι)

/-- No table has done anything yet. -/
def Scene.start (sessions : ι → Session) (todo : ι → List Operation) (ledger : Ledger) : Scene ι where
  ledger := ledger
  holder := none
  order := []
  clients i := .idle (sessions i)
  todo := todo
  returns := []

variable [DecidableEq ι]

/-- A table has come further. -/
def Scene.put (w : Scene ι) (i : ι) (client : Client) : Scene ι :=
  { w with clients := Function.update w.clients i client }

namespace Writers

/-- An operation asks for something and goes on with the answer. -/
def asked (ws : Writers ι) (w : Scene ι) (i : ι) (given : Bool) (job : Job) : {β : Type} →
    Request β → (β → Program (Except Fault Outcome × Session)) → Scene ι
  | _, .acquire seconds, next =>
    if ws.bars seconds then w.put i (.busy { job with program := next (.error .overflow) })
    else if given && w.holder.isNone then
      { w with holder := some i, order := w.order ++ [(i, job.op)] }.put i
        (.busy { job with turn := some w.order.length, program := next (.ok true) })
    else w.put i (.busy { job with program := next (.ok false) })
  | _, .release, next =>
    { w with holder := none }.put i (.busy { job with program := next (.ok ()) })
  | _, r, next =>
    let answered := Solo.answer ws.room r w.ledger
    { w with ledger := answered.2 }.put i
      (.busy { job with requests := job.requests + 1, program := next answered.1 })

/-- A table takes a step. -/
def step (ws : Writers ι) (w : Scene ι) (i : ι) (given : Bool) : Scene ι :=
  match w.clients i with
  | .idle s =>
    match w.todo i with
    | [] => w
    | op :: rest =>
      { w with todo := Function.update w.todo i rest }.put i
        (.busy ⟨op, none, 0, (ws.table i).perform op s⟩)
  | .busy job =>
    match job.program with
    | .done (outcome, s) =>
      let returned : Return ι := ⟨i, job.op, job.turn, job.requests, outcome⟩
      { w with returns := w.returns ++ [returned] }.put i (.idle s)
    | .ask r next => ws.asked w i given job r next

/-- The steps of a schedule. -/
def run (ws : Writers ι) (w : Scene ι) (schedule : List (ι × Bool)) : Scene ι :=
  schedule.foldl (fun w turn => ws.step w turn.1 turn.2) w

end Writers

/-! ## One after another -/

/-- Where a serial run has come to, and what its operations have given. -/
structure Serial (ι : Type) where
  sessions : ι → Session
  ledger : Ledger
  outcomes : List (Except Fault Outcome)

namespace Writers

variable {ws : Writers ι} {sessions : ι → Session} {ledger : Ledger}

/-- One operation, with the sheet to itself. -/
def next (ws : Writers ι) (x : Serial ι) (turn : ι × Operation) : Serial ι :=
  let ended := Act.run (Solo.party ws.room) ((ws.table turn.1).perform turn.2) (x.sessions turn.1)
    x.ledger
  ⟨Function.update x.sessions turn.1 ended.2.1, ended.2.2, x.outcomes ++ [ended.1]⟩

/-- Operations one after another, each with the sheet to itself. -/
def oneByOne (ws : Writers ι) (sessions : ι → Session) (ledger : Ledger)
    (turns : List (ι × Operation)) : Serial ι :=
  turns.foldl ws.next ⟨sessions, ledger, []⟩

theorem oneByOne_concat (turns : List (ι × Operation)) (turn : ι × Operation) :
    ws.oneByOne sessions ledger (turns ++ [turn]) =
      ws.next (ws.oneByOne sessions ledger turns) turn := by
  rw [oneByOne, List.foldl_append]
  rfl

@[simp] theorem length_outcomes (turns : List (ι × Operation)) :
    (ws.oneByOne sessions ledger turns).outcomes.length = turns.length := by
  induction turns using List.reverseRecOn with
  | nil => rfl
  | append_singleton turns turn ih =>
    rw [oneByOne_concat, next, List.length_append, List.length_append, ih]
    rfl

/-- What an operation has given does not depend on the later ones. -/
theorem outcomes_mono {turns turns' : List (ι × Operation)} (h : turns <+: turns') :
    (ws.oneByOne sessions ledger turns).outcomes <+:
      (ws.oneByOne sessions ledger turns').outcomes := by
  obtain ⟨more, rfl⟩ := h
  induction more using List.reverseRecOn with
  | nil => simp
  | append_singleton more turn ih =>
    rw [← List.append_assoc, oneByOne_concat]
    exact ih.trans (List.prefix_append _ _)

end Writers

end RowStore
