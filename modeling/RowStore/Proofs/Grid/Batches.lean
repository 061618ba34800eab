import Mathlib.Data.List.SplitBy
import RowStore.Grid.Change

/-!
# Batches are runs of changes

* `Change.alike` : changes of the same kind; `Batch.changes` : the changes that are sent in a batch;
* `map_changes_batches` : the batches of a queue are its maximal runs of changes of the same kind, in
  their order.
-/

namespace RowStore

/-- Whether two changes are of the same kind; a foreign one is of no kind. -/
def Change.alike : Change → Change → Bool
  | append _, append _ => true
  | set _, set _ => true
  | delete _, delete _ => true
  | clear _, clear _ => true
  | _, _ => false

namespace Batch

/-- The changes that are sent in a batch. -/
def changes : Batch → List Change
  | append parts => parts.map .append
  | set blocks => blocks.map .set
  | delete rows => rows.map .delete
  | clear first others => (first :: others).map .clear
  | foreign v => [.foreign v]

theorem changes_single (c : Change) : (single c).changes = [c] := by
  cases c <;> rfl

/-- A change goes into the first batch if it is of the same kind, and before it otherwise. -/
theorem cons_cases (c : Change) (bs : List Batch) :
    (∃ b b' rest, bs = b :: rest ∧ cons c bs = b' :: rest ∧ b'.changes = c :: b.changes ∧
      ∀ d ∈ b.changes.head?, c.alike d = true) ∨
    (cons c bs = single c :: bs ∧ ∀ b ∈ bs.head?, ∀ d ∈ b.changes.head?, c.alike d = false) := by
  rcases bs with _ | ⟨b, rest⟩
  · exact Or.inr ⟨by cases c <;> rfl, nofun⟩
  · cases c with
    | append rows =>
      cases b with
      | append more => exact Or.inl ⟨_, _, _, rfl, rfl, rfl, by simp [changes, Change.alike]⟩
      | _ => exact Or.inr ⟨rfl, by simp [changes, Change.alike]⟩
    | set block =>
      cases b with
      | set more => exact Or.inl ⟨_, _, _, rfl, rfl, rfl, by simp [changes, Change.alike]⟩
      | _ => exact Or.inr ⟨rfl, by simp [changes, Change.alike]⟩
    | delete row =>
      cases b with
      | delete more => exact Or.inl ⟨_, _, _, rfl, rfl, rfl, by simp [changes, Change.alike]⟩
      | _ => exact Or.inr ⟨rfl, by simp [changes, Change.alike]⟩
    | clear startRow =>
      cases b with
      | clear next more => exact Or.inl ⟨_, _, _, rfl, rfl, rfl, by simp [changes, Change.alike]⟩
      | _ => exact Or.inr ⟨rfl, by simp [changes, Change.alike]⟩
    | foreign v => exact Or.inr ⟨by cases b <;> rfl, by simp [Change.alike]⟩

end Batch

/-- Runs of changes of the same kind, none of which goes on in the next one. -/
structure AreRuns (runs : List (List Change)) : Prop where
  nonempty : [] ∉ runs
  alike : ∀ run ∈ runs, run.IsChain fun c d => c.alike d = true
  maximal : runs.IsChain fun run next =>
    ∃ hrun hnext, (run.getLast hrun).alike (next.head hnext) = false

/-- The batches of a queue hold its changes, in their order. -/
theorem flatMap_changes_batches (cs : List Change) : (batches cs).flatMap Batch.changes = cs := by
  induction cs with
  | nil => rfl
  | cons c rest ih =>
    change (Batch.cons c (batches rest)).flatMap Batch.changes = c :: rest
    rcases Batch.cons_cases c (batches rest) with ⟨b, b', bs, hbs, hcons, hb', -⟩ | ⟨hcons, -⟩
    · rw [hbs] at ih
      rw [hcons, List.flatMap_cons, hb', ← ih]
      rfl
    · rw [hcons, List.flatMap_cons, ih, Batch.changes_single]
      rfl

theorem areRuns_batches (cs : List Change) : AreRuns ((batches cs).map Batch.changes) := by
  induction cs with
  | nil => exact ⟨List.not_mem_nil, nofun, List.IsChain.nil⟩
  | cons c rest ih =>
    change AreRuns ((Batch.cons c (batches rest)).map Batch.changes)
    rcases Batch.cons_cases c (batches rest) with ⟨b, b', bs, hbs, hcons, hb', halike⟩ | ⟨hcons, hnew⟩
    · rw [hbs] at ih
      obtain ⟨hn, ha, hm⟩ := ih
      rw [List.map_cons] at hn ha hm
      obtain ⟨hab, habs⟩ := List.forall_mem_cons.mp ha
      rw [hcons, List.map_cons, hb']
      refine ⟨?_, List.forall_mem_cons.mpr ⟨List.isChain_cons.mpr ⟨halike, hab⟩, habs⟩, ?_⟩
      · exact List.not_mem_cons_of_ne_of_not_mem (List.cons_ne_nil _ _).symm
          (List.not_mem_of_not_mem_cons hn)
      · obtain ⟨hnext, hm⟩ := List.isChain_cons.mp hm
        refine List.isChain_cons.mpr ⟨fun next h => ?_, hm⟩
        obtain ⟨hrun, hne, hdiffer⟩ := hnext next h
        exact ⟨List.cons_ne_nil _ _, hne, by rwa [List.getLast_cons hrun]⟩
    · rw [hcons, List.map_cons, Batch.changes_single]
      refine ⟨List.not_mem_cons_of_ne_of_not_mem (List.cons_ne_nil _ _).symm ih.nonempty,
        List.forall_mem_cons.mpr ⟨List.isChain_singleton _, ih.alike⟩,
        List.isChain_cons.mpr ⟨fun next h => ?_, ih.maximal⟩⟩
      rw [List.head?_map] at h
      obtain ⟨b, hb, rfl⟩ := Option.map_eq_some_iff.mp h
      have hne : b.changes ≠ [] := fun h =>
        ih.nonempty (h ▸ List.mem_map_of_mem (List.mem_of_mem_head? hb))
      exact ⟨List.cons_ne_nil _ _, hne, hnew b hb _ (List.head_mem_head? hne)⟩

/-- The batches of a queue are its maximal runs of changes of the same kind, in their order. -/
theorem map_changes_batches (cs : List Change) :
    (batches cs).map Batch.changes = cs.splitBy Change.alike := by
  obtain ⟨hnonempty, halike, hmaximal⟩ := areRuns_batches cs
  rw [← List.splitBy_flatten hnonempty halike hmaximal, ← List.flatMap_def,
    flatMap_changes_batches]

/-- The runs of a mapped list are the mapped runs. -/
theorem splitBy_map {α β : Type} (f : α → β) (r : β → β → Bool) (as : List α) :
    (as.map f).splitBy r = (as.splitBy fun a a' => r (f a) (f a')).map (List.map f) := by
  have hloop : ∀ (as : List α) (a : α) (run : List α) (runs : List (List α)),
      List.splitBy.loop r (as.map f) (f a) (run.map f) (runs.map (List.map f)) =
        (List.splitBy.loop (fun a a' => r (f a) (f a')) as a run runs).map (List.map f) := by
    intro as
    induction as with
    | nil => intro a run runs; simp [List.splitBy.loop]
    | cons b rest ih =>
      intro a run runs
      rw [List.map_cons, List.splitBy.loop, List.splitBy.loop]
      cases r (f a) (f b)
      · have hnext := ih b [] ((a :: run).reverse :: runs)
        rwa [List.map_cons, List.map_reverse] at hnext
      · exact ih b (a :: run) runs
  cases as with
  | nil => rfl
  | cons a rest => exact hloop rest a [] []

end RowStore
