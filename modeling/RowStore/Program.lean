import RowStore.Sheet.Rows
import RowStore.Value.Entries

/-!
# Programs that ask

All that the library does outside of itself is to ask: for the write lock, for the rows of a sheet,
for the answer to a query. A `Program` is a tree of such requests: it is done, or it asks and goes on
with the answer. Who answers, and how, is decided where a program is run (`Program.run`): any `Party`
will do.
-/

namespace RowStore

/-- A request to a web address. -/
structure WebRequest where
  url : Text
  params : Entries Value
  headers : Entries Value
  timeout : Value

/-- The status and the body of an answer. -/
structure WebAnswer where
  status : Value
  text : Value

/-- An access token and whether it may still be used. -/
structure Credentials where
  valid : Bool
  token : Value

/-- What a program may ask for, with the type of the answer. -/
inductive Request : Type → Type
  /-- The write lock, within a number of seconds. -/
  | acquire (seconds : Binary64) : Request (Except Fault Bool)
  | release : Request (Except Fault Unit)
  /-- A spreadsheet by its key, or by its address. -/
  | openStore (byAddress : Bool) (locator : Text) : Request (Except Fault Value)
  /-- A worksheet by its title, or the first one. -/
  | openSheet (title : Value) : Request (Except Fault Value)
  /-- The numbers of rows and columns that the worksheet has room for. -/
  | extent : Request (Int × Int)
  | readRows : Request (Except Fault Rows)
  | write (w : SheetWrite) : Request (Except Fault Unit)
  /-- The answer of the query service. -/
  | query (text : Text) : Request (Except Fault Value)
  | credentials : Request Credentials
  | refreshCredentials : Request (Except Fault Unit)
  | get (r : WebRequest) : Request (Except Fault WebAnswer)
  /-- A pause; one of a negative or an endless number of seconds is refused. -/
  | wait (seconds : Value) : Request (Except Fault Unit)

/-- Who answers requests: each answer may depend on a state and change it. -/
structure Party (σ : Type) where
  answer : {β : Type} → Request β → σ → β × σ

/-- A tree of requests with results at its ends. -/
inductive Program (α : Type) : Type 1
  | done (a : α)
  | ask {β : Type} (r : Request β) (next : β → Program α)

namespace Program

variable {α β σ : Type}

/-- Goes on with another program where the first one is done. -/
def bind : Program α → (α → Program β) → Program β
  | done a, f => f a
  | ask r next, f => ask r fun x => bind (next x) f

instance : Monad Program where
  pure := done
  bind := bind

/-- The program of one request. -/
def request (r : Request α) : Program α := ask r done

/-- Runs a program with a party that answers its requests. -/
def run (party : Party σ) : Program α → σ → α × σ
  | done a, s => (a, s)
  | ask r next, s => run party (next (party.answer r s).1) (party.answer r s).2

@[simp] theorem run_done (party : Party σ) (a : α) (s : σ) :
    run party (done a) s = (a, s) := rfl

theorem run_ask (party : Party σ) (r : Request β) (next : β → Program α) (s : σ) :
    run party (ask r next) s = run party (next (party.answer r s).1) (party.answer r s).2 := rfl

theorem run_bind (party : Party σ) (p : Program α) (f : α → Program β) (s : σ) :
    run party (bind p f) s = run party (f (run party p s).1) (run party p s).2 := by
  induction p generalizing s with
  | done a => rfl
  | ask r next ih => simp only [bind, run_ask, ih]

theorem bind_done (p : Program α) : bind p done = p := by
  induction p with
  | done a => rfl
  | ask r next ih => exact congrArg (ask r) (funext ih)

theorem bind_assoc {γ : Type} (p : Program α) (f : α → Program β) (g : β → Program γ) :
    bind (bind p f) g = bind p fun a => bind (f a) g := by
  induction p with
  | done a => rfl
  | ask r next ih => exact congrArg (ask r) (funext ih)

instance : LawfulMonad Program :=
  LawfulMonad.mk' Program bind_done (fun _ _ => rfl) bind_assoc

end Program

end RowStore
