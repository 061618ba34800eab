import RowStore.Columns
import RowStore.Grid.Change
import RowStore.Noted
import RowStore.Program

/-!
# Sessions

What a table keeps between its operations: the columns that it has fetched, the changes that wait in
the queue, and the log. An `Act` is a program over a session that may fail; a fault leaves the session
as it was when the fault arose.
-/

namespace RowStore

/-- The state of a table. -/
structure Session where
  columns : Option Columns
  pending : List Change
  notes : List Note

/-- A session in which nothing has happened. -/
def Session.fresh : Session := ⟨none, [], []⟩

/-- A program over a session that may fail. -/
abbrev Act (α : Type) := ExceptT Fault (StateT Session Program) α

namespace Act

variable {α σ : Type}

/-- Asks for something that cannot fail. -/
def ask (r : Request α) : Act α := fun s => Program.ask r fun x => .done (.ok x, s)

/-- Fails if the answer is a fault. -/
def ofAnswer (m : Act (Except Fault α)) : Act α := do
  match ← m with
  | .ok a => return a
  | .error fault => throw fault

/-- The outcome of an act, as a value: this act itself does not fail. -/
def observe (m : Act α) : Act (Except Fault α) :=
  fun s => Program.bind (m s) fun p => .done (.ok p.1, p.2)

/-- Leaves a note in the log. -/
def note (level : NoteLevel) (text : Text) : Act Unit :=
  fun s => .done (.ok (), ⟨s.columns, s.pending, s.notes ++ [⟨level, text⟩]⟩)

/-- A computation that leaves notes, with the log of the session. -/
def ofNoted (m : Noted α) : Act α := fun s =>
  let p := m.runWith s.notes
  .done (p.1, ⟨s.columns, s.pending, p.2⟩)

instance : MonadLift Noted (ExceptT Fault (StateT Session Program)) := ⟨ofNoted⟩

/-- The fetched columns. -/
def columns : Act (Option Columns) := fun s => .done (.ok s.columns, s)

def setColumns (c : Option Columns) : Act Unit :=
  fun s => .done (.ok (), ⟨c, s.pending, s.notes⟩)

/-- The waiting changes. -/
def pending : Act (List Change) := fun s => .done (.ok s.pending, s)

def setPending (changes : List Change) : Act Unit :=
  fun s => .done (.ok (), ⟨s.columns, changes, s.notes⟩)

/-- Runs an act with a party that answers its requests. -/
def run (party : Party σ) (m : Act α) (session : Session) (state : σ) :
    Except Fault α × Session × σ :=
  let p := (m session).run party state
  (p.1.1, p.1.2, p.2)

/-! ## Runs -/

variable {β : Type} (party : Party σ)

@[simp] theorem run_pure (a : α) (session : Session) (state : σ) :
    run party (pure a) session state = (.ok a, session, state) := rfl

@[simp] theorem run_throw (fault : Fault) (session : Session) (state : σ) :
    run party (throw fault : Act α) session state = (.error fault, session, state) := rfl

/-- The second act follows the first one as a program, unless that one has failed. -/
theorem bind_apply (m : Act α) (f : α → Act β) (session : Session) :
    (m >>= f) session = Program.bind (m session) fun p =>
      match p with
      | (.ok a, session) => f a session
      | (.error fault, session) => .done (.error fault, session) := by
  change Program.bind (m session) _ = _
  congr 1
  funext p
  rcases p with ⟨_ | a, session⟩ <;> rfl

/-- The second act runs where the first one has left off, unless that one has failed. -/
theorem run_bind (m : Act α) (f : α → Act β) (session : Session) (state : σ) :
    run party (m >>= f) session state =
      match run party m session state with
      | (.ok a, session, state) => run party (f a) session state
      | (.error fault, session, state) => (.error fault, session, state) := by
  simp only [run, bind_apply, Program.run_bind]
  rcases (m session).run party state with ⟨⟨_ | a, session'⟩, state'⟩ <;> rfl

/-- A result that does not depend on what happens. -/
@[simp] theorem run_liftExcept (e : Except Fault α) (session : Session) (state : σ) :
    run party (liftM e : Act α) session state = (e, session, state) := by
  cases e <;> rfl

@[simp] theorem run_map (f : α → β) (m : Act α) (session : Session) (state : σ) :
    run party (f <$> m) session state =
      ((run party m session state).1.map f, (run party m session state).2) := by
  rw [← bind_pure_comp, run_bind]
  rcases run party m session state with ⟨_ | a, session', state'⟩ <;> rfl

@[simp] theorem run_ask (r : Request α) (session : Session) (state : σ) :
    run party (ask r) session state =
      (.ok (party.answer r state).1, session, (party.answer r state).2) := rfl

/-- An answer that is a fault fails the act that asked for it. -/
@[simp] theorem run_ofAnswer_ask (r : Request (Except Fault α)) (session : Session) (state : σ) :
    run party (ofAnswer (ask r)) session state =
      ((party.answer r state).1, session, (party.answer r state).2) := by
  rw [ofAnswer, run_bind, run_ask]
  dsimp only
  rcases (party.answer r state).1 with _ | a <;> rfl

@[simp] theorem run_note (level : NoteLevel) (text : Text) (session : Session) (state : σ) :
    run party (note level text) session state =
      (.ok (), ⟨session.columns, session.pending, session.notes ++ [⟨level, text⟩]⟩, state) := rfl

@[simp] theorem run_columns (session : Session) (state : σ) :
    run party columns session state = (.ok session.columns, session, state) := rfl

@[simp] theorem run_setColumns (c : Option Columns) (session : Session) (state : σ) :
    run party (setColumns c) session state =
      (.ok (), ⟨c, session.pending, session.notes⟩, state) := rfl

@[simp] theorem run_pending (session : Session) (state : σ) :
    run party pending session state = (.ok session.pending, session, state) := rfl

@[simp] theorem run_setPending (changes : List Change) (session : Session) (state : σ) :
    run party (setPending changes) session state =
      (.ok (), ⟨session.columns, changes, session.notes⟩, state) := rfl

/-- An observed act never fails, and changes what the act itself changes. -/
@[simp] theorem run_observe (m : Act α) (session : Session) (state : σ) :
    run party (observe m) session state =
      (.ok (run party m session state).1, (run party m session state).2.1,
        (run party m session state).2.2) := by
  simp only [run, observe, Program.run_bind, Program.run_done]

@[simp] theorem run_ofNoted (m : Noted α) (session : Session) (state : σ) :
    run party (ofNoted m) session state =
      ((m.runWith session.notes).1,
        ⟨session.columns, session.pending, (m.runWith session.notes).2⟩, state) := rfl

@[simp] theorem run_liftNoted (m : Noted α) (session : Session) (state : σ) :
    run party (liftM m : Act α) session state =
      ((m.runWith session.notes).1,
        ⟨session.columns, session.pending, (m.runWith session.notes).2⟩, state) := rfl

end Act

end RowStore
