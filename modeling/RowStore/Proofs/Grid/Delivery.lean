import RowStore.Proofs.Grid.Batches
import RowStore.Proofs.Grid.Calls
import RowStore.Proofs.Grid.Confined
import RowStore.Proofs.Grid.Edits
import RowStore.Proofs.Sheet.Scripted
import RowStore.Proofs.Table.Sample

/-!
# What a flush delivers

* `Batch.call` : the call in which a batch is sent; `Grid.tries g b` : how often it is made at most;
* `Attempted`, `BatchEnds` : what the tries of a call leave behind, and how the sending of a batch ends;
* `meets_sendBatch_showing` : the sending of any batch ends in this way;
* `Sends room l bs l'` : the calls of batches lead from one ledger to another; `Sends.rows_of_edits` :
  they do what the edits in them do one after another;
* `flush_delivers` : whichever calls fail, a flush delivers a prefix of the runs of its queue, each of
  them once, and leaves nothing to a following flush.
-/

namespace RowStore

open Act

variable {σ : Type} {party : Party σ}

/-- The call by which a request changes the sheet. -/
def Request.writes : {β : Type} → Request β → List SheetWrite
  | _, .write w => [w]
  | _, _ => []

/-- The calls of batches, each of which can be made, lead from one ledger to another. -/
inductive Sends (room : Ledger → Int × Int) : Ledger → List Batch → Ledger → Prop
  | nil (l : Ledger) : Sends room l [] l
  | cons {l l' : Ledger} {b : Batch} {rest : List Batch} {w? : Option SheetWrite}
    (call : b.call (room l) = .ok w?) (others : Sends room (l.sending w?) rest l') :
    Sends room l (b :: rest) l'

/-- What batches of edits send does what the edits do one after another. -/
theorem Sends.rows_of_edits {room : Ledger → Int × Int} {reach : Rows → Int} (hreach : Reaches reach)
    (hsize : ∀ l : Ledger, min (room l).1 l.rows.length = reach l.rows) {l l' : Ledger}
    {bs : List Batch} {es : List Edit} (h : Sends room l bs l')
    (hbs : bs.flatMap Batch.changes = es.map Edit.change) :
    l'.rows = es.foldl (Edit.applied reach) l.rows := by
  induction h generalizing es with
  | nil l =>
    obtain rfl := List.map_eq_nil_iff.mp hbs.symm
    rfl
  | @cons l l' b rest w? hcall hothers ih =>
    obtain ⟨es₁, es₂, rfl, hb, hrest⟩ := List.map_eq_append_iff.mp hbs.symm
    obtain ⟨w', hrealizes, hsame, -⟩ := b.realizes hreach hb.symm (room l)
    obtain rfl := hsame w? hcall
    rw [ih hrest.symm, hrealizes.effect l (hsize l), List.foldl_append]

/-- How often the call of a batch is made, at most: rows are appended and deleted by one call only. -/
def Grid.tries (g : Grid) : Batch → Nat
  | .set _ => g.limit
  | .clear _ _ => g.limit
  | _ => 1

/-- Some tries of a call: the ledger is as given, and at most `n` calls have been made, all of them this
one. -/
structure Attempted (K : Keeper party) (call : Except Fault (Option SheetWrite)) (n : Nat)
    (y : σ × List SheetWrite) (l : Ledger) (y' : σ × List SheetWrite) : Prop where
  ledger : K.ledger y'.1 = l
  calls : ∃ calls, y'.2 = y.2 ++ calls ∧ calls.length ≤ n ∧ ∀ w ∈ calls, call = .ok (some w)

/-- How the tries of a call end: with its effect, had once, or with a fault and none. -/
def BatchEnds (K : Keeper party) (call : Except Fault (Option SheetWrite)) (n : Nat)
    (y : σ × List SheetWrite) : Except Fault Unit → Session → σ × List SheetWrite → Prop
  | .ok _, _, y' => ∃ w?, call = .ok w? ∧ Attempted K call n y ((K.ledger y.1).sending w?) y'
  | .error _, _, y' => Attempted K call n y (K.ledger y.1) y'

/-- A fault of the call is raised before the call takes effect. -/
def Keeper.Whole (K : Keeper party) (w : SheetWrite) : Prop :=
  ∀ st fault, (party.answer (.write w) st).1 = .error fault →
    K.ledger (party.answer (.write w) st).2 = K.ledger st

/-- A keeper's fault is raised before a call takes effect, unless it is the sheet that refuses the
call. -/
theorem Keeper.whole_of_accepted (K : Keeper party) {w : SheetWrite}
    (h : ∀ rows : Rows, (rows.apply w).1 = .ok ()) : K.Whole w := by
  intro st fault hfault
  rcases K.write w st with ⟨hanswer, -⟩ | ⟨-, -, hl, -⟩
  · rw [hanswer, h] at hfault
    cases hfault
  · exact hl

/-- A sheet refuses no call of edits. -/
theorem Keeper.whole_of_edits (K : Keeper party) {es : List Edit} {b : Batch}
    (hb : b ∈ batches (es.map Edit.change)) {size : Int × Int} {w : SheetWrite}
    (hcall : b.call size = .ok (some w)) : K.Whole w := by
  obtain ⟨run, -, hrun⟩ := Edit.exists_run hb
  obtain ⟨w?, hrealizes, hsame, -⟩ := b.realizes Rows.reaches_length hrun size
  exact K.whole_of_accepted (hrealizes.accepted w (hsame _ hcall).symm)

variable {K : Keeper party} {call : Except Fault (Option SheetWrite)} {m n : Nat}
  {s s' s'' : Session} {y y' y'' : σ × List SheetWrite} {l : Ledger}

namespace Attempted

theorem refl (K : Keeper party) (call : Except Fault (Option SheetWrite)) (n : Nat)
    (y : σ × List SheetWrite) : Attempted K call n y (K.ledger y.1) y :=
  ⟨rfl, [], (List.append_nil _).symm, Nat.zero_le n, nofun⟩

theorem mono (h : Attempted K call m y l y') (hmn : m ≤ n) : Attempted K call n y l y' := by
  obtain ⟨calls, hcalls, hlength, hall⟩ := h.calls
  exact ⟨h.ledger, calls, hcalls, Nat.le_trans hlength hmn, hall⟩

theorem trans (h : Attempted K call m y (K.ledger y.1) y') (h' : Attempted K call n y' l y'') :
    Attempted K call (m + n) y l y'' := by
  obtain ⟨calls, hcalls, hlength, hall⟩ := h.calls
  obtain ⟨more, hmore, hlength', hall'⟩ := h'.calls
  refine ⟨h'.ledger, calls ++ more, ?_, ?_, ?_⟩
  · rw [hmore, hcalls, List.append_assoc]
  · rw [List.length_append]
    exact Nat.add_le_add hlength hlength'
  · exact fun w hw => (List.mem_append.mp hw).elim (hall w) (hall' w)

/-- With `m` calls made in vain, the sending of a batch ends as it goes on. -/
theorem batchEnds (h : Attempted K call m y (K.ledger y.1) y') {r : Except Fault Unit}
    (h' : BatchEnds K call n y' r s' y'') : BatchEnds K call (m + n) y r s' y'' := by
  cases r with
  | error fault => exact h.trans (h.ledger ▸ h')
  | ok _ =>
    obtain ⟨w?, hcall, h'⟩ := h'
    exact ⟨w?, hcall, h.trans (h.ledger ▸ h')⟩

end Attempted

/-! ## One call -/

namespace Grid

/-- A call that is made has its effect, or fails and has none; one that cannot be made fails. -/
theorem meets_sending (hwhole : ∀ w, call = .ok (some w) → K.Whole w) (cause : Text → ServiceFault) :
    Meets (party.showing Request.writes) (SheetCalls.sending call cause) s y
      (BatchEnds K call 1 y) := by
  rw [SheetCalls.sending, meets_bind, meets_liftExcept]
  rcases hcall : call with fault | _ | w
  · exact Attempted.refl K _ 1 y
  · exact ⟨none, rfl, Attempted.refl K _ 1 y⟩
  · dsimp only
    rw [SheetCalls.send, SheetCalls.meets_rewording, meets_ofAnswer_ask]
    refine ⟨trivial, ?_⟩
    rintro r ⟨st', shown⟩ ⟨hanswer, hshown⟩
    obtain ⟨rfl, rfl⟩ := Prod.ext_iff.mp hanswer
    have hcalls : ∃ calls, shown = y.2 ++ calls ∧ calls.length ≤ 1 ∧
        ∀ w' ∈ calls, Except.ok (some w) = Except.ok (ε := Fault) (some w') :=
      ⟨[w], hshown, Nat.le_refl 1, by simp⟩
    rcases h : (party.answer (.write w) y.1).1 with fault | _
    · exact ⟨hwhole w hcall y.1 fault h, hcalls⟩
    · rcases K.write w y.1 with ⟨-, hl⟩ | ⟨fault, hfault, -⟩
      · exact ⟨some w, rfl, hl, hcalls⟩
      · rw [h] at hfault
        cases hfault

/-! ## Its tries -/

/-- What a call meets at every try, its repetitions meet. -/
theorem meets_retrying_showing {try' : Act Unit} (g : Grid) (description : Text)
    (htry : ∀ s₁ y₁, K.ledger y₁.1 = K.ledger y.1 →
      Meets (party.showing Request.writes) try' s₁ y₁ (BatchEnds K call 1 y₁)) :
    Meets (party.showing Request.writes) (g.retrying description try') s y
      (BatchEnds K call g.limit y) := by
  have hwait : ∀ seconds, Leaves (party.showing Request.writes)
      (fun y : σ × List SheetWrite => (K.ledger y.1, y.2)) (Act.ask (.wait seconds)) := by
    refine fun seconds => Leaves.ask (fun _ => trivial) ?_
    rintro y a ⟨st', shown⟩ ⟨hanswer, hshown⟩
    obtain ⟨-, rfl⟩ := Prod.ext_iff.mp hanswer
    exact Prod.ext (K.ledger_answer _ _ id) (hshown.trans (List.append_nil _))
  refine (meets_retrying g description try'
    (I := fun n _ y' => Attempted K call n y (K.ledger y.1) y')
    (D := fun n _ s' y' => BatchEnds K call n y (.ok ()) s' y')
    (fun n attempt fault s' y' h => ?_) (fun n s' y' h => ?_)
    (Attempted.refl K call 0 y)).mono fun r s' y' hr => ?_
  · refine (Leaves.pause hwait g description attempt fault s' y').mono ?_
    rintro _ s'' y'' ⟨-, -, hy⟩
    obtain ⟨hl, hshown⟩ := Prod.ext_iff.mp hy
    exact h.trans ⟨hl.trans h.ledger, [], hshown.trans (List.append_nil _).symm, Nat.le_refl 0, nofun⟩
  · refine (htry s' y' h.ledger).mono fun r s'' y'' hr => ?_
    rcases r with fault | _ <;> exact h.batchEnds hr
  · rcases r with fault | _
    · rcases hr with ⟨-, h⟩ | ⟨m, hm, -, h⟩
      · exact h.mono (Nat.zero_le _)
      · exact h.mono hm
    · obtain ⟨-, m, hm, w?, hcall, h⟩ := hr
      exact ⟨w?, hcall, h.mono hm⟩

/-- The sending of a batch, whatever it holds: its call has its effect once, or the sending fails and
nothing has changed. -/
theorem meets_sendBatch_showing {room : Ledger → Int × Int}
    (hroom : ∀ st, (party.answer .extent st).1 = room (K.ledger st)) (g : Grid) (b : Batch)
    (hwhole : ∀ size w, b.call size = .ok (some w) → K.Whole w) :
    Meets (party.showing Request.writes) (g.sendBatch b) s y
      (BatchEnds K (b.call (room (K.ledger y.1))) (g.tries b) y) := by
  cases b with
  | append parts =>
    obtain ⟨cause, h⟩ := SheetCalls.appendRows_eq g.title.plain parts
    rw [sendBatch, h]
    exact meets_sending (hwhole (0, 0)) cause
  | set blocks =>
    obtain ⟨cause, h⟩ := SheetCalls.setBlocks_eq blocks
    rw [sendBatch, h]
    exact meets_retrying_showing g _ fun s₁ y₁ _ => meets_sending (hwhole (0, 0)) cause
  | delete rows =>
    obtain ⟨cause, h⟩ := SheetCalls.deleteRows_eq g.title.plain rows
    rw [sendBatch, h]
    exact meets_sending (hwhole (0, 0)) cause
  | clear first others =>
    rw [sendBatch, meets_bind, meets_liftExcept]
    rcases hleast : least first others with fault | startRow
    · exact Attempted.refl K _ _ y
    dsimp only
    rw [meets_bind, meets_liftExcept]
    rcases hcheck : startRow.checkText with fault | _
    · exact Attempted.refl K _ _ y
    have hcall : ∀ size, (Batch.clear first others).call size = SheetCalls.clearing startRow size := by
      intro size
      rw [Batch.call, hleast]
      change (startRow.checkText >>= fun _ => SheetCalls.clearing startRow size) = _
      rw [hcheck]
      rfl
    obtain ⟨cause, h⟩ := SheetCalls.clearRows_eq g.title.plain startRow
    dsimp only
    rw [h, hcall]
    refine meets_retrying_showing g _ fun s₁ y₁ hl => ?_
    rw [meets_bind, meets_ask]
    refine ⟨trivial, ?_⟩
    rintro size ⟨st', shown⟩ ⟨hanswer, hshown⟩
    obtain ⟨rfl, rfl⟩ := Prod.ext_iff.mp hanswer
    have hsize : (party.answer .extent y₁.1).1 = room (K.ledger y.1) :=
      (hroom y₁.1).trans (congrArg room hl)
    have hsame : Attempted K (SheetCalls.clearing startRow (room (K.ledger y.1))) 0 y₁
        (K.ledger y₁.1) ((party.answer .extent y₁.1).2, shown) :=
      ⟨K.ledger_answer _ _ id, [], hshown, Nat.le_refl 0, fun _ hw => absurd hw List.not_mem_nil⟩
    dsimp only at hsize ⊢
    rw [hsize]
    exact (meets_sending (fun w hw => hwhole (room (K.ledger y.1)) w ((hcall _).trans hw)) _).mono
      fun _ _ _ => hsame.batchEnds
  | foreign v => exact Attempted.refl K _ _ y

/-! ## All batches -/

/-- The batches are sent in turn, up to the first one of which the sending fails. -/
theorem meets_sendBatches {room : Ledger → Int × Int}
    (hroom : ∀ st, (party.answer .extent st).1 = room (K.ledger st)) (g : Grid) {bs : List Batch}
    (hwhole : ∀ b ∈ bs, ∀ size w, b.call size = .ok (some w) → K.Whole w) :
    Meets (party.showing Request.writes) (bs.forM g.sendBatch) s y fun r _ y' =>
      ∃ j ≤ bs.length, Sends room (K.ledger y.1) (bs.take j) (K.ledger y'.1) ∧
        (j = bs.length ↔ r = .ok ()) ∧ ∃ tries, y'.2 = y.2 ++ tries.flatten ∧
          List.Forall₂ (fun calls b => calls.length ≤ g.tries b ∧
            ∀ w ∈ calls, ∃ l, b.call (room l) = .ok (some w)) tries (bs.take (j + 1)) := by
  induction bs generalizing s y with
  | nil => exact ⟨0, Nat.le_refl 0, .nil _, ⟨fun _ => rfl, fun _ => rfl⟩, [],
      (List.append_nil _).symm, .nil⟩
  | cons b rest ih =>
    obtain ⟨hb, hrest⟩ := List.forall_mem_cons.mp hwhole
    change Meets _ (g.sendBatch b >>= fun _ => rest.forM g.sendBatch) s y _
    rw [meets_bind]
    refine (meets_sendBatch_showing hroom g b hb).mono fun r s' y' hr => ?_
    rcases r with fault | _
    · obtain ⟨calls, hshown, hlength, hcalls⟩ := hr.calls
      refine ⟨0, Nat.zero_le _, ?_, ⟨nofun, nofun⟩, [calls], ?_,
        .cons ⟨hlength, fun w hw => ⟨_, hcalls w hw⟩⟩ .nil⟩
      · rw [hr.ledger]
        exact .nil _
      · rw [hshown, List.flatten_singleton]
    · obtain ⟨w?, hcall, h⟩ := hr
      obtain ⟨calls, hshown, hlength, hcalls⟩ := h.calls
      refine (ih hrest).mono ?_
      rintro r s'' y'' ⟨j, hj, hsends, hend, tries, hshown', htries⟩
      refine ⟨j + 1, Nat.succ_le_succ hj, ?_, ?_, calls :: tries, ?_,
        .cons ⟨hlength, fun w hw => ⟨_, hcalls w hw⟩⟩ htries⟩
      · rw [h.ledger] at hsends
        exact .cons hcall hsends
      · rw [List.length_cons, Nat.succ_inj, hend]
      · rw [hshown', hshown, List.flatten_cons, List.append_assoc]

/-- With nothing waiting a flush asks for nothing. -/
theorem flush_of_nothing (g : Grid) (h : s.pending = []) (st : σ) :
    asked party g.flush s st = [] ∧ run party g.flush s st = (.ok (), s, st) := by
  obtain ⟨columns, pending, notes⟩ := s
  cases h
  exact ⟨rfl, rfl⟩

/-- A flush, whatever waits and whichever calls fail before they take effect. The queue is sent in its
maximal runs of changes of the same kind. The calls of the first `j` of them have been made, each once, and
all of them have been made if and only if the flush returns. Where the changes are edits, the sheet is as
after the edits of these runs, one after another, and every area that is cleared is all cells from the
first row of a run of clearings on. Each run is tried no more often than the grid allows, and none behind
the first that fails. No change is left waiting, and a following flush asks for nothing. -/
theorem flush_delivers {room : Ledger → Int × Int}
    (hroom : ∀ st, (party.answer .extent st).1 = room (K.ledger st)) (g : Grid) (s : Session)
    (hwhole : ∀ b ∈ batches s.pending, ∀ size w, b.call size = .ok (some w) → K.Whole w) (st : σ) :
    let runs := batches s.pending
    let ended := run party g.flush s st
    let writes := trace party Request.writes g.flush s st
    runs.map Batch.changes = s.pending.splitBy Change.alike ∧
    (∃ j ≤ runs.length,
      Sends room (K.ledger st) (runs.take j) (K.ledger ended.2.2) ∧
      (j = runs.length ↔ ended.1 = .ok ()) ∧
      (∀ reach, Reaches reach → (∀ l : Ledger, min (room l).1 l.rows.length = reach l.rows) →
        ∀ es : List Edit, s.pending = es.map Edit.change →
          (K.ledger ended.2.2).rows =
            ((Edit.runs es).take j).flatten.foldl (Edit.applied reach) (K.ledger st).rows) ∧
      ∃ tries, writes = tries.flatten ∧
        List.Forall₂ (fun calls b => calls.length ≤ g.tries b ∧
          ∀ w ∈ calls, ∃ l, b.call (room l) = .ok (some w)) tries (runs.take (j + 1))) ∧
    (∀ es : List Edit, s.pending = es.map Edit.change → ∀ area, .clear area ∈ writes →
      ∃ run ∈ Edit.runs es, ∃ l, Edit.Cleared run (room l) area) ∧
    ended.2.1.pending = [] ∧
    asked party g.flush ended.2.1 ended.2.2 = [] ∧
    run party g.flush ended.2.1 ended.2.2 = (.ok (), ended.2.1, ended.2.2) := by
  intro runs ended writes
  obtain ⟨j, hj, hsends, hend, tries, hshown, htries⟩ := meets_showing.mp
    (meets_sendBatches hroom g hwhole (s := ⟨s.columns, [], s.notes⟩) (y := (st, [])))
  have hwrites : writes = tries.flatten := hshown
  have hempty : ended.2.1.pending = [] := flush_empties party g s st
  refine ⟨map_changes_batches s.pending, ⟨j, hj, hsends, hend, ?_, tries, hwrites, htries⟩, ?_, hempty,
    flush_of_nothing g hempty _⟩
  · intro reach hreach hsize es hes
    refine hsends.rows_of_edits hreach hsize ?_
    rw [hes, List.flatMap_def, List.map_take, Edit.map_changes_batches, ← List.map_take,
      List.map_flatten]
  · intro es hes area harea
    rw [hwrites] at harea
    obtain ⟨calls, hcalls, hmem⟩ := List.mem_flatten.mp harea
    obtain ⟨b, hb, -, hall⟩ := exists_of_forall₂ htries calls hcalls
    obtain ⟨l, hcall⟩ := hall _ hmem
    obtain ⟨run, hrun, hchanges⟩ := Edit.exists_run (hes ▸ List.mem_of_mem_take hb)
    obtain ⟨w?, hrealizes, hsame, -⟩ := b.realizes Rows.reaches_length hchanges (room l)
    exact ⟨run, hrun, l, hrealizes.cleared area (hsame _ hcall).symm⟩

open Sample in
/-- Two appends that are sent as one, a cell of which the first call fails, a deletion of which the only
call fails, and a clearing that is never tried. -/
theorem flush_delivers_users :
    let party := Scripted.party fun _ => false
    let K := Scripted.keeper fun _ => false
    let g := standard (.text "Users")
    let edits : List Edit := [.append [row "e3" "Carol"], .append [row "e4" "Dan"],
      .set (.ofRange (.cell 2 1 (by decide))) [[.text "Alicia"]], .delete 3, .clear 2 (by decide)]
    let s : Session := ⟨none, edits.map Edit.change, []⟩
    let st : Scripted :=
      ⟨⟨rows, []⟩, [none, some (.ofApi (.int 503) "busy"), none, some .unsuitable], [], []⟩
    let ended := run party g.flush s st
    (∃ j < (batches s.pending).length, (K.ledger ended.2.2).rows =
      ((Edit.runs edits).take j).flatten.foldl (Edit.applied fun rows => rows.length)
        (K.ledger st).rows) ∧
    ended.2.1.pending = [] ∧ asked party g.flush ended.2.1 ended.2.2 = [] := by
  intro party K g edits s st
  let room (l : Ledger) : Int × Int := (l.rows.length, l.rows.width)
  have hfails : (run party g.flush s st).1.isOk = false := by decide +kernel
  have hroom : ∀ st, (party.answer .extent st).1 = room (K.ledger st) := fun _ => rfl
  have hsize : ∀ l : Ledger, min (room l).1 l.rows.length = l.rows.length := fun _ => Int.min_self _
  obtain ⟨-, ⟨j, hj, -, hend, hrows, -⟩, -, hempty, hnothing, -⟩ :=
    flush_delivers hroom g s (fun b hb _ _ => K.whole_of_edits hb) st
  have hqueued : s.pending = edits.map Edit.change := rfl
  have hedited := hrows (fun rows => rows.length) Rows.reaches_length hsize edits hqueued
  refine ⟨⟨j, Nat.lt_of_le_of_ne hj fun h => ?_, hedited⟩, hempty, hnothing⟩
  rw [hend.mp h] at hfails
  cases hfails

end Grid

end RowStore
