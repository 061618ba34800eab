import RowStore.Table.Operation

/-!
# Operations one after another

* `Table.performAll` : operations are performed one after another, whether or not they fail;
* `performAll_keeps` : what each of them keeps, all of them keep.
-/

namespace RowStore.Table

open Act

variable {σ : Type}

/-- Performs operations one after another. -/
def performAll (party : Party σ) (t : Table) : List Operation → Session → σ → Session × σ
  | [], s, st => (s, st)
  | op :: rest, s, st =>
    let ended := run party (t.perform op) s st
    performAll party t rest ended.2.1 ended.2.2

/-- What every operation keeps, they keep one after another. -/
theorem performAll_keeps {party : Party σ} {t : Table} {I : Session → σ → Prop}
    {ops : List Operation} (hops : ∀ op ∈ ops, ∀ s st, I s st →
      I (run party (t.perform op) s st).2.1 (run party (t.perform op) s st).2.2)
    {s : Session} {st : σ} (h : I s st) :
    I (t.performAll party ops s st).1 (t.performAll party ops s st).2 := by
  induction ops generalizing s st with
  | nil => exact h
  | cons op rest ih =>
    obtain ⟨hop, hrest⟩ := List.forall_mem_cons.mp hops
    exact ih hrest (hop s st h)

end RowStore.Table
