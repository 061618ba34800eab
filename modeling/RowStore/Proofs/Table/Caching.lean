import RowStore.Proofs.Sheet.Scripted
import RowStore.Proofs.Table.Consulted
import RowStore.Proofs.Table.Runs
import RowStore.Proofs.Table.Sample

/-!
# The kept columns are those of the latest answer

* `Table.latest`, `Table.latestOf` : the latest answer to the query for the columns, after one operation
  and after several; there is none before the first one, and none once the columns are dropped;
* `Table.Sends` : the queries of an operation, those for the columns and those of a read;
* `perform_columns`, `perform_sends` : what one operation keeps and sends;
* `performAll_coherent` : whatever operations are performed and whatever is answered, the columns that
  are kept are those that the latest answer describes, and columns that are held are not asked for again.
-/

namespace RowStore

open Act

variable {σ : Type} {party : Party σ} {t : Table}

namespace Operation

/-- Whether an operation gives up the kept columns, whatever they are. -/
def resets : Operation → Bool
  | refresh | invalidate => true
  | _ => false

theorem renews_of_held {op : Operation} (hop : op.resets = false) {s : Session} {c : Columns}
    (h : s.held = some c) : op.renews s = false := by
  have hconsults : (op.consults && s.held.isNone) = false := by
    rw [h]
    exact Bool.and_false _
  cases op with
  | refresh => cases hop
  | _ => exact hconsults

/-- A write sends nothing but the query for the columns. -/
theorem reads_of_isWrite {op : Operation} (hop : op.isWrite = true) : op.reads = false := by
  cases op with
  | findById | find | findMany | getAll | query | toFrame => cases hop
  | _ => rfl

end Operation

namespace Table

/-- The latest answer to the query for the columns after an operation, if there was one before. -/
def latest (party : Party σ) (t : Table) (op : Operation) (s : Session) (st : σ)
    (before : Option (Except Fault Value)) : Option (Except Fault Value) :=
  match op with
  | .invalidate => none
  | op => if op.renews s then some (t.told party s st) else before

/-- The latest answer to the query for the columns after operations. -/
def latestOf (party : Party σ) (t : Table) :
    List Operation → Session → σ → Option (Except Fault Value) → Option (Except Fault Value)
  | [], _, _, before => before
  | op :: rest, s, st, before =>
    let ended := run party (t.perform op) s st
    latestOf party t rest ended.2.1 ended.2.2 (t.latest party op s st before)

/-- What an operation sends: at most one query for the columns, if it renews them, and then at most the
one of a read; a write does not read. -/
structure Sends (party : Party σ) (t : Table) (op : Operation) (s : Session) (st : σ)
    (metadata data : List Text) : Prop where
  all : queries party (t.perform op) s st = metadata ++ data
  asked : metadata = if op.renews s then t.asking party s st else []
  asked_once : metadata.length ≤ 1
  read : data = [] ∨ op.reads = true ∧ t.IsRead party data
  read_once : data.length ≤ 1
  write : op.isWrite = true → data = []

/-! ## One operation -/

/-- The columns that are kept after an operation are those that the latest answer describes. -/
theorem perform_columns (party : Party σ) (t : Table) (op : Operation) (s : Session) (st : σ)
    {before : Option (Except Fault Value)} (h : s.columns = before.bind t.built) :
    (run party (t.perform op) s st).2.1.columns =
      (t.latest party op s st before).bind t.built := by
  by_cases hop : op = .invalidate
  · subst hop
    exact rfl
  · have hlatest : t.latest party op s st before =
        if op.renews s then some (t.told party s st) else before := by
      unfold latest
      split
      · exact absurd rfl hop
      · rfl
    rw [(consulted party t hop s st).columns, hlatest]
    split
    · rfl
    · exact h

theorem perform_sends (party : Party σ) (t : Table) (op : Operation) (s : Session) (st : σ) :
    ∃ metadata data, t.Sends party op s st metadata data := by
  have hsends : ∃ data, queries party (t.perform op) s st =
      (if op.renews s then t.asking party s st else []) ++ data ∧
        (data = [] ∨ op.reads = true ∧ t.IsRead party data) := by
    by_cases hop : op = .invalidate
    · subst hop
      exact ⟨[], rfl, Or.inl rfl⟩
    · exact (consulted party t hop s st).sent
  obtain ⟨data, hall, hdata⟩ := hsends
  refine ⟨_, data, hall, rfl, ?_, hdata, ?_, fun hop => ?_⟩
  · split
    · exact (t.maySend_asking party s st).length_le
    · exact Nat.zero_le 1
  · obtain rfl | ⟨-, hread⟩ := hdata
    · exact Nat.zero_le 1
    · exact hread.length_le
  · obtain rfl | ⟨hreads, -⟩ := hdata
    · rfl
    · rw [Operation.reads_of_isWrite hop] at hreads
      cases hreads

/-- Columns that are held are not asked for by an operation that does not give them up, and they stay. -/
theorem perform_of_held {op : Operation} (hop : op.resets = false) {s : Session} {c : Columns}
    (h : s.held = some c) (st : σ) : (run party (t.perform op) s st).2.1.held = some c ∧
      ∃ data, t.Sends party op s st [] data := by
  have hrenews := Operation.renews_of_held hop h
  have hinvalidate : op ≠ .invalidate := by
    rintro rfl
    cases hop
  obtain ⟨metadata, data, hsends⟩ := perform_sends party t op s st
  have hnone : metadata = [] := by
    rw [hsends.asked, hrenews]
    rfl
  have hkept : (run party (t.perform op) s st).2.1.columns = s.columns := by
    rw [(consulted party t hinvalidate s st).columns, hrenews]
    rfl
  refine ⟨?_, data, hnone ▸ hsends⟩
  rw [Session.held, hkept]
  exact h

/-! ## Operations one after another -/

theorem performAll_columns {ops : List Operation} {s : Session} {st : σ}
    {before : Option (Except Fault Value)} (h : s.columns = before.bind t.built) :
    (t.performAll party ops s st).1.columns = (t.latestOf party ops s st before).bind t.built := by
  induction ops generalizing s st before with
  | nil => exact h
  | cons op rest ih => exact ih (perform_columns party t op s st h)

/-- Whatever operations a table performs and whatever it is answered, in the end it keeps the columns
that the latest answer to the query for them describes; it keeps none if it has not asked, if the answer
was a fault or describes none, or if they were dropped since. Every operation sends the query for the
columns at most once and then at most one query to read, and a write reads nothing. Once columns are
held, and until they are refreshed or dropped, no operation asks for them, and they stay the same. -/
theorem performAll_coherent (party : Party σ) (t : Table) (ops : List Operation) (st : σ) :
    let ended := t.performAll party ops .fresh st
    ended.1.columns = (t.latestOf party ops .fresh st none).bind t.built ∧
    (∀ op, ∃ metadata data, t.Sends party op ended.1 ended.2 metadata data) ∧
    ∀ c, ended.1.held = some c → ∀ more : List Operation, (∀ op ∈ more, op.resets = false) →
      let later := t.performAll party more ended.1 ended.2
      later.1.columns = some c ∧
        ∀ op : Operation, op.resets = false → ∃ data, t.Sends party op later.1 later.2 [] data := by
  intro ended
  refine ⟨performAll_columns rfl, fun op => perform_sends party t op _ _, ?_⟩
  intro c hheld more hmore later
  have hlater : later.1.held = some c :=
    performAll_keeps (I := fun s _ => s.held = some c)
      (fun op hop s st h => (perform_of_held (hmore op hop) h st).1) hheld
  exact ⟨(Session.held_eq_some.mp hlater).1, fun op hop => (perform_of_held hop hlater _).2⟩

open Sample in
/-- The first answer is none, so that the columns are asked for again by a write; from then on they are
held. -/
theorem performAll_coherent_users :
    let party := Scripted.party fun _ => false
    let t := table (.int 30000)
    let st : Scripted := ⟨⟨rows, []⟩, [], [], [.text "busy", answer, answer]⟩
    let ops := [.getAll, .create (user "e3" "Carol")]
    let more := [.updateById (.text "e2") (.mapping [(.text "Name", .text "Bill")])]
    let ended := t.performAll party ops .fresh st
    let later := t.performAll party more ended.1 ended.2
    ended.1.columns = (t.latestOf party ops .fresh st none).bind t.built ∧
    ∃ c, ended.1.held = some c ∧ c.list.length = 2 ∧ later.1.columns = some c ∧
      ∃ data, t.Sends party .getAll later.1 later.2 [] data := by
  intro party t st ops more
  have hheld : (t.performAll party ops .fresh st).1.held.map (·.list.length) = some 2 := by
    decide +kernel
  have hmore : ∀ op ∈ more, op.resets = false := List.forall_mem_singleton.mpr rfl
  obtain ⟨c, hc, hlength⟩ := Option.map_eq_some_iff.mp hheld
  have hcoherent := performAll_coherent party t ops st
  have hlater := hcoherent.2.2 c hc more hmore
  exact ⟨hcoherent.1, c, hc, hlength, hlater.1, hlater.2 .getAll rfl⟩

end Table

end RowStore
