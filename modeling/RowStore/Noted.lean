import RowStore.Fault.Basic
import RowStore.Note

/-!
# Computations that leave notes

A `Noted` computation gives a value or a fault, and in either case the notes that it has left in the
log so far, oldest first.
-/

namespace RowStore

/-- A computation that may fail and leaves notes. -/
abbrev Noted (α : Type) := ExceptT Fault (StateM (List Note)) α

namespace Noted

variable {α : Type}

/-- Leaves a note. -/
def note (level : NoteLevel) (text : Text) : Noted Unit :=
  modify fun notes => notes ++ [⟨level, text⟩]

/-- The outcome and all notes, given the notes before. -/
def runWith (notes : List Note) (m : Noted α) : Except Fault α × List Note :=
  Id.run (StateT.run (ExceptT.run m) notes)

/-- The outcome alone. -/
def outcome (m : Noted α) : Except Fault α := (m.runWith []).1

/-! ## Runs -/

variable {β : Type}

@[simp] theorem runWith_pure (notes : List Note) (a : α) :
    runWith notes (pure a) = (.ok a, notes) := rfl

@[simp] theorem runWith_throw (notes : List Note) (fault : Fault) :
    runWith notes (throw fault : Noted α) = (.error fault, notes) := rfl

@[simp] theorem runWith_note (notes : List Note) (level : NoteLevel) (text : Text) :
    runWith notes (note level text) = (.ok (), notes ++ [⟨level, text⟩]) := rfl

@[simp] theorem runWith_liftExcept (notes : List Note) (e : Except Fault α) :
    runWith notes (liftM e : Noted α) = (e, notes) := by
  cases e <;> rfl

/-- The second computation goes on with the notes of the first one, unless that one has failed. -/
theorem runWith_bind (notes : List Note) (m : Noted α) (f : α → Noted β) :
    runWith notes (m >>= f) =
      match runWith notes m with
      | (.ok a, notes) => runWith notes (f a)
      | (.error fault, notes) => (.error fault, notes) := by
  change runWith notes (ExceptT.bind m f) = _
  unfold runWith ExceptT.bind ExceptT.run
  rcases h : StateT.run (σ := List Note) (m := Id) m notes with ⟨_ | a, notes'⟩ <;>
    simp_all [ExceptT.mk, ExceptT.bindCont, StateT.run_bind] <;> rfl

@[simp] theorem runWith_map (notes : List Note) (f : α → β) (m : Noted α) :
    runWith notes (f <$> m) = ((runWith notes m).1.map f, (runWith notes m).2) := by
  rw [← bind_pure_comp, runWith_bind]
  rcases runWith notes m with ⟨_ | a, notes'⟩ <;> rfl

end Noted

end RowStore
