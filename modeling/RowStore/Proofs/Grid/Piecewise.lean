import Mathlib.Data.List.TakeWhile
import RowStore.Proofs.Grid.Delivery
import RowStore.Proofs.Grid.Edits
import RowStore.Proofs.Sheet.Solo
import RowStore.Proofs.Table.Sample

/-!
# A queue sent at once and in parts

* `Grid.deliver g es` : queues edits and flushes them; `Grid.makes g e` : whether the grid makes the
  call of an edit at all;
* `run_sendBatch_of_edits` : on a sheet where nothing fails a batch of edits does what they do one after
  another;
* `deliver_append` : edits flushed at once leave the sheet that their parts leave when one is flushed
  after the other, and it is the sheet that the edits leave one at a time;
* `deliver_stops` : a clearing from a row that is too long to be written keeps the rest from being sent.
-/

namespace RowStore

open Act

variable {α σ : Type} {party : Party σ} {K : Keeper party} {s : Session} {st : σ} {g : Grid}
  {es : List Edit} {b : Batch} {reach : Rows → Int}

/-! ## Calls that do not fail -/

namespace SheetCalls

/-- Where no call fails, a call that the sheet does not refuse has its effect. -/
theorem run_sending (hst : K.sound st) {w? : Option SheetWrite}
    (haccepted : ∀ w, w? = some w → ∀ rows : Rows, (rows.apply w).1 = .ok ())
    (cause : Text → ServiceFault) (s : Session) :
    ∃ st', run party (sending (.ok w?) cause) s st = (.ok (), s, st') ∧ K.sound st' ∧
      K.ledger st' = (K.ledger st).sending w? := by
  cases w? with
  | none => exact ⟨st, rfl, hst, rfl⟩
  | some w =>
    have hrun : run party (sending (.ok (some w)) cause) s st =
        run party (send w cause) s st := rfl
    rcases K.write w st with ⟨hanswer, hl⟩ | ⟨fault, -, -, hn⟩
    · refine ⟨(party.answer (.write w) st).2, ?_, K.sound_answer _ st hst, hl⟩
      rw [hrun, send, run_rewording, run_ofAnswer_ask, hanswer, haccepted w rfl]
      rfl
    · exact absurd hst hn

end SheetCalls

namespace Grid

theorem retries_of_limit_pos (h : 0 < g.limit) : ∃ n : Nat, g.maxRetries.integer? = some (n : Int) := by
  rw [limit] at h
  cases hretries : g.maxRetries.integer? with
  | none => simp [hretries] at h
  | some retries =>
    rw [hretries, Option.getD_some] at h
    exact ⟨retries.toNat, congrArg some (by omega)⟩

/-- A call that does not fail is made once. -/
theorem run_retrying_of_ok (hlimit : 0 < g.limit) (description : Text) {call : Act α} {a : α}
    {s' : Session} {st' : σ} (h : run party call s st = (.ok a, s', st')) :
    run party (g.retrying description call) s st = (.ok a, s', st') := by
  obtain ⟨n, hn⟩ := retries_of_limit_pos hlimit
  rw [retrying, run_bind, run_liftExcept, hn]
  dsimp only [Value.expected]
  rw [if_neg (by omega), attempts, run_bind, run_observe, h]
  rfl

/-- Without a number of repetitions no call is made. -/
theorem run_retrying_of_limit_eq_zero (hlimit : g.limit = 0) (description : Text) (call : Act α)
    (s : Session) (st : σ) :
    ∃ fault, run party (g.retrying description call) s st = (.error fault, s, st) := by
  rw [limit] at hlimit
  rw [retrying, run_bind, run_liftExcept]
  cases hretries : g.maxRetries.integer? with
  | none => exact ⟨_, rfl⟩
  | some retries =>
    rw [hretries, Option.getD_some] at hlimit
    dsimp only [Value.expected]
    rw [if_pos (by omega)]
    exact ⟨_, rfl⟩

/-! ## Batches of edits -/

/-- Whether the grid makes the call of an edit at all: if it repeats the call, there has to be a number
of repetitions. -/
def makes (g : Grid) (e : Edit) : Bool := 0 < g.tries (.single e.change)

theorem tries_single {c : Change} (hc : c ∈ b.changes) : g.tries (.single c) = g.tries b := by
  cases b with
  | foreign v =>
    cases List.mem_singleton.mp hc
    rfl
  | _ =>
    obtain ⟨_, -, rfl⟩ := List.mem_map.mp hc
    rfl

theorem makes_eq_of_changes (hb : b.changes = es.map Edit.change) {e : Edit} (he : e ∈ es) :
    g.makes e = decide (0 < g.tries b) := by
  rw [makes, tries_single (hb ▸ List.mem_map_of_mem he)]

/-- A batch of which the grid makes no call fails and changes nothing. -/
theorem run_sendBatch_of_tries_eq_zero (party : Party σ) (h : g.tries b = 0) (s : Session) (st : σ) :
    ∃ fault, run party (g.sendBatch b) s st = (.error fault, s, st) := by
  cases b with
  | set blocks => exact run_retrying_of_limit_eq_zero h _ _ s st
  | clear first others =>
    rw [sendBatch, run_bind, run_liftExcept]
    rcases least first others with fault | startRow
    · exact ⟨fault, rfl⟩
    dsimp only
    rw [run_bind, run_liftExcept]
    rcases startRow.checkText with fault | _
    · exact ⟨fault, rfl⟩
    · exact run_retrying_of_limit_eq_zero h _ _ s st
  | append | delete | foreign => cases h

/-- Where no call fails, a batch of edits does what they do one after another. -/
theorem run_sendBatch_of_edits (hreach : Reaches reach)
    (hsize : ∀ st, min (party.answer .extent st).1.1 (K.ledger st).rows.length =
      reach (K.ledger st).rows)
    (hb : b.changes = es.map Edit.change) (htext : ∀ e ∈ es, e.hasText = true) (h : 0 < g.tries b)
    (hst : K.sound st) (s : Session) :
    ∃ st', run party (g.sendBatch b) s st = (.ok (), s, st') ∧ K.sound st' ∧
      (K.ledger st').rows = es.foldl (Edit.applied reach) (K.ledger st).rows := by
  obtain ⟨w?, ⟨haccepted, -, heffect⟩, -, hcalls⟩ := b.realizes hreach hb (party.answer .extent st).1
  have hcall := hcalls htext
  have hrows := heffect (K.ledger st) (hsize st)
  cases b with
  | append parts =>
    obtain ⟨cause, heq⟩ := SheetCalls.appendRows_eq g.title.plain parts
    obtain ⟨st', hrun, hst', hl⟩ := SheetCalls.run_sending hst haccepted cause s
    change Batch.call (0, 0) (.append parts) = _ at hcall
    exact ⟨st', by rw [sendBatch, heq, hcall, hrun], hst', hl ▸ hrows⟩
  | set blocks =>
    obtain ⟨cause, heq⟩ := SheetCalls.setBlocks_eq blocks
    obtain ⟨st', hrun, hst', hl⟩ := SheetCalls.run_sending hst haccepted cause s
    change Batch.call (0, 0) (.set blocks) = _ at hcall
    rw [sendBatch, heq, hcall]
    exact ⟨st', run_retrying_of_ok h _ hrun, hst', hl ▸ hrows⟩
  | delete rows =>
    obtain ⟨cause, heq⟩ := SheetCalls.deleteRows_eq g.title.plain rows
    obtain ⟨st', hrun, hst', hl⟩ := SheetCalls.run_sending hst haccepted cause s
    change Batch.call (0, 0) (.delete rows) = _ at hcall
    exact ⟨st', by rw [sendBatch, heq, hcall, hrun], hst', hl ▸ hrows⟩
  | clear first others =>
    obtain ⟨startRow, hleast, hchecked⟩ := bind_eq_ok hcall
    obtain ⟨_, hcheck, hclearing⟩ := bind_eq_ok hchecked
    obtain ⟨cause, heq⟩ := SheetCalls.clearRows_eq g.title.plain startRow
    obtain ⟨st', hrun, hst', hl⟩ :=
      SheetCalls.run_sending (K.sound_answer .extent st hst) haccepted (cause _) s
    rw [K.ledger_answer .extent st id] at hl
    refine ⟨st', ?_, hst', hl ▸ hrows⟩
    rw [sendBatch, run_bind, run_liftExcept, hleast]
    dsimp only
    rw [run_bind, run_liftExcept, hcheck]
    refine run_retrying_of_ok h _ ?_
    rw [heq, run_bind, run_ask]
    dsimp only
    rw [hclearing, hrun]
  | foreign v => cases hcall

/-! ## Queues of edits -/

/-- Where no call fails, batches of edits do what the edits do one after another, up to the first one of
which the grid makes no call. -/
theorem run_sendBatches (hreach : Reaches reach)
    (hsize : ∀ st, min (party.answer .extent st).1.1 (K.ledger st).rows.length =
      reach (K.ledger st).rows)
    {bs : List Batch} (hne : ∀ b ∈ bs, b.changes ≠ [])
    (hbs : bs.flatMap Batch.changes = es.map Edit.change) (htext : ∀ e ∈ es, e.hasText = true)
    (hst : K.sound st) (s : Session) :
    ∃ r st', run party (bs.forM g.sendBatch) s st = (r, s, st') ∧ K.sound st' ∧
      (K.ledger st').rows = (es.takeWhile g.makes).foldl (Edit.applied reach) (K.ledger st).rows ∧
      (r = .ok () ↔ ∀ e ∈ es, g.makes e = true) := by
  induction bs generalizing es st with
  | nil =>
    obtain rfl := List.map_eq_nil_iff.mp hbs.symm
    exact ⟨.ok (), st, rfl, hst, rfl, fun _ => nofun, fun _ => rfl⟩
  | cons b rest ih =>
    obtain ⟨hnb, hnrest⟩ := List.forall_mem_cons.mp hne
    obtain ⟨es₁, es₂, rfl, hb, hrest⟩ := List.map_eq_append_iff.mp hbs.symm
    obtain ⟨htext₁, htext₂⟩ := List.forall_mem_append.mp htext
    have hmakes : ∀ e ∈ es₁, g.makes e = decide (0 < g.tries b) :=
      fun e he => makes_eq_of_changes hb.symm he
    change ∃ r st', run party (g.sendBatch b >>= fun _ => rest.forM g.sendBatch) s st = _ ∧ _
    rw [run_bind]
    rcases Nat.eq_zero_or_pos (g.tries b) with h | h
    · obtain ⟨fault, hrun⟩ := run_sendBatch_of_tries_eq_zero party h s st
      obtain ⟨e, rest₁, rfl⟩ : ∃ e rest₁, es₁ = e :: rest₁ := by
        refine List.exists_cons_of_ne_nil fun hnil => hnb ?_
        rw [← hb, hnil, List.map_nil]
      have he : g.makes e = false := by
        rw [hmakes e List.mem_cons_self, h]
        rfl
      rw [hrun]
      refine ⟨_, st, rfl, hst, ?_, nofun, fun hall => ?_⟩
      · rw [List.cons_append, List.takeWhile_cons_of_neg (by simp [he])]
        rfl
      · have he' := hall e List.mem_cons_self
        rw [he] at he'
        cases he'
    · obtain ⟨st₁, hrun, hst₁, hl₁⟩ := run_sendBatch_of_edits hreach hsize hb.symm htext₁ h hst s
      obtain ⟨r, st', hrun', hst', hl', hr⟩ := ih hnrest hrest.symm htext₂ hst₁
      have hall : ∀ e ∈ es₁, g.makes e = true := fun e he => (hmakes e he).trans (decide_eq_true h)
      rw [hrun]
      refine ⟨r, st', hrun', hst', ?_, ?_⟩
      · rw [List.takeWhile_append_of_pos hall, List.foldl_append, ← hl₁]
        exact hl'
      · rw [hr, List.forall_mem_append]
        exact ⟨fun h => ⟨hall, h⟩, fun h => h.2⟩

/-- Queues edits and flushes them. -/
def deliver (g : Grid) (es : List Edit) : Act Unit := do
  queueAll (es.map Edit.change)
  g.flush

theorem run_deliver (hreach : Reaches reach)
    (hsize : ∀ st, min (party.answer .extent st).1.1 (K.ledger st).rows.length =
      reach (K.ledger st).rows)
    (g : Grid) (es : List Edit) (htext : ∀ e ∈ es, e.hasText = true) (hs : s.pending = [])
    (hst : K.sound st) :
    ∃ r st', run party (g.deliver es) s st = (r, s, st') ∧ K.sound st' ∧
      (K.ledger st').rows = (es.takeWhile g.makes).foldl (Edit.applied reach) (K.ledger st).rows ∧
      (r = .ok () ↔ ∀ e ∈ es, g.makes e = true) := by
  obtain ⟨columns, pending, notes⟩ := s
  obtain rfl : pending = [] := hs
  have hne : ∀ b ∈ batches (es.map Edit.change), b.changes ≠ [] := fun b hb h =>
    (areRuns_batches _).nonempty (List.mem_map.mpr ⟨b, hb, h⟩)
  exact run_sendBatches hreach hsize hne (flatMap_changes_batches _) htext hst ⟨columns, [], notes⟩

/-- Where no call fails and the numbers have numerals, edits that are flushed at once leave the sheet that
their parts leave when one part is flushed after the other; and if the grid makes their calls at all, both
ways return and the sheet is as the edits leave it one at a time, in the order of the queue. -/
theorem deliver_append (K : Keeper party) (hreach : Reaches reach)
    (hsize : ∀ st, min (party.answer .extent st).1.1 (K.ledger st).rows.length =
      reach (K.ledger st).rows)
    (g : Grid) (first second : List Edit) (htext : ∀ e ∈ first ++ second, e.hasText = true)
    (hs : s.pending = []) (hst : K.sound st) :
    let together := run party (g.deliver (first ++ second)) s st
    let apart := run party (do g.deliver first; g.deliver second) s st
    (K.ledger together.2.2).rows = (K.ledger apart.2.2).rows ∧
    (together.1 = .ok () ↔ apart.1 = .ok ()) ∧
    ((∀ e ∈ first ++ second, g.makes e = true) → together.1 = .ok () ∧
      (K.ledger together.2.2).rows =
        (first ++ second).foldl (Edit.applied reach) (K.ledger st).rows) := by
  intro together apart
  obtain ⟨htext₁, htext₂⟩ := List.forall_mem_append.mp htext
  obtain ⟨r, st', hrun, -, hl, hr⟩ := run_deliver hreach hsize g (first ++ second) htext hs hst
  obtain ⟨r₁, st₁, hrun₁, hst₁, hl₁, hr₁⟩ := run_deliver hreach hsize g first htext₁ hs hst
  obtain ⟨r₂, st₂, hrun₂, -, hl₂, hr₂⟩ := run_deliver hreach hsize g second htext₂ hs hst₁
  have htogether : together = (r, s, st') := hrun
  have hapart : apart = _ := run_bind party (g.deliver first) (fun _ => g.deliver second) s st
  rw [hrun₁] at hapart
  have hone : (∀ e ∈ first ++ second, g.makes e = true) → together.1 = .ok () ∧
      (K.ledger together.2.2).rows =
        (first ++ second).foldl (Edit.applied reach) (K.ledger st).rows := by
    intro hall
    rw [htogether]
    refine ⟨hr.mpr hall, ?_⟩
    rw [hl, List.takeWhile_eq_self_iff.mpr hall]
  rcases r₁ with fault | _
  · have hfirst : ¬ ∀ e ∈ first, g.makes e = true := fun hall => nomatch hr₁.mpr hall
    have hlength : (first.takeWhile g.makes).length ≠ first.length := fun hlength =>
      hfirst (List.takeWhile_eq_self_iff.mp ((List.takeWhile_prefix _).eq_of_length hlength))
    refine ⟨?_, ?_, hone⟩
    · rw [htogether, hapart, hl, hl₁, List.takeWhile_append, if_neg hlength]
    · rw [htogether, hapart]
      refine ⟨fun h => (hfirst fun e he => ?_).elim, nofun⟩
      exact hr.mp h e (List.mem_append_left second he)
  · have hfirst := hr₁.mp rfl
    refine ⟨?_, ?_, hone⟩
    · rw [htogether, hapart]
      dsimp only
      rw [hrun₂, hl, hl₂, hl₁, List.takeWhile_append_of_pos hfirst, List.foldl_append,
        List.takeWhile_eq_self_iff.mpr hfirst]
    · rw [htogether, hapart]
      dsimp only
      rw [hrun₂, hr, hr₂, List.forall_mem_append]
      exact ⟨fun h => h.2, fun h => ⟨hfirst, h⟩⟩

open Sample in
/-- A queue that is cut between two clearings. -/
theorem deliver_append_users :
    let party := Solo.party fun rows => (rows.length, rows.width)
    let g := standard (.text "Users")
    let first : List Edit := [.append [row "e3" "Carol"],
      .set (.ofRange (.cell 2 1 (by decide))) [[.text "Alicia"]],
      .clear 5 (by decide), .clear 4 (by decide)]
    let second : List Edit := [.clear 3 (by decide), .append [row "e4" "Dan"], .delete 2]
    (run party (g.deliver (first ++ second)) .fresh ⟨rows, []⟩).2.2.rows =
        [row "id" "Name", row "e4" "Dan"] ∧
      (run party (do g.deliver first; g.deliver second) .fresh ⟨rows, []⟩).2.2.rows =
        [row "id" "Name", row "e4" "Dan"] := by
  intro party g first second
  have hsize : ∀ l, min (party.answer .extent l).1.1 (l.rows.length : Int) = l.rows.length :=
    fun l => Int.min_self _
  have hst : (Solo.keeper fun rows => (rows.length, rows.width)).sound ⟨rows, []⟩ := trivial
  have hs : Session.fresh.pending = [] := rfl
  obtain ⟨hsame, -, hone⟩ := deliver_append (Solo.keeper fun rows => (rows.length, rows.width))
    Rows.reaches_length hsize g first second (by decide +kernel) hs hst
  obtain ⟨-, hrows⟩ := hone (by decide)
  exact ⟨hrows, hsame.symm.trans hrows⟩

/-- A clearing from a row that is too long to be written is not sent, and what comes after it neither. -/
theorem deliver_stops (party : Party σ) (g : Grid) {n : Int} {positive : 1 ≤ n} (hn : hasNumeral n = false)
    {rest : List Edit} {bs : List Batch}
    (hbs : batches ((Edit.clear n positive :: rest).map Edit.change) = .clear (.int n) [] :: bs)
    (hs : s.pending = []) (st : σ) :
    run party (g.deliver (.clear n positive :: rest)) s st = (.error .malformed, s, st) := by
  obtain ⟨columns, pending, notes⟩ := s
  obtain rfl : pending = [] := hs
  have hdeliver : run party (g.deliver (.clear n positive :: rest)) ⟨columns, [], notes⟩ st =
      run party ((batches ((Edit.clear n positive :: rest).map Edit.change)).forM g.sendBatch)
        ⟨columns, [], notes⟩ st := rfl
  have hsend : run party (g.sendBatch (.clear (.int n) [])) ⟨columns, [], notes⟩ st =
      (.error .malformed, ⟨columns, [], notes⟩, st) := by
    rw [sendBatch, run_bind, run_liftExcept, show least (.int n) [] = .ok (.int n) from rfl]
    dsimp only
    rw [run_bind, run_liftExcept, Value.checkText_of_not_hasText (v := .int n) hn]
  rw [hdeliver, hbs]
  change run party (g.sendBatch (.clear (.int n) []) >>= fun _ => bs.forM g.sendBatch) _ _ = _
  rw [run_bind, hsend]

open Sample in
/-- A row that is appended after a clearing that is not sent is lost, although there is nothing to clear. -/
theorem deliver_loses {n : Int} (positive : 1 ≤ n) (hn : hasNumeral n = false)
    (hfar : ((rows.length : Nat) : Int) < n) :
    let party := Solo.party fun rows => (rows.length, rows.width)
    let g := standard (.text "Users")
    let first : List Edit := [.clear n positive]
    let second : List Edit := [.append [row "e3" "Carol"]]
    let together := run party (g.deliver (first ++ second)) .fresh ⟨rows, []⟩
    let alone := run party (g.deliver first) .fresh ⟨rows, []⟩
    together.2.2.rows = rows ∧
      (run party (g.deliver second) alone.2.1 alone.2.2).2.2.rows = rows ++ [row "e3" "Carol"] ∧
      (first ++ second).foldl (Edit.applied fun rows => rows.length) rows = rows ++ [row "e3" "Carol"] := by
  intro party g first second together alone
  have htogether : together = (.error .malformed, .fresh, ⟨rows, []⟩) := deliver_stops party g hn rfl rfl _
  have halone : alone = (.error .malformed, .fresh, ⟨rows, []⟩) := deliver_stops party g hn rfl rfl _
  have hsize : ∀ l, min (party.answer .extent l).1.1 (l.rows.length : Int) = l.rows.length :=
    fun l => Int.min_self _
  have hst : (Solo.keeper fun rows => (rows.length, rows.width)).sound ⟨rows, []⟩ := trivial
  obtain ⟨r, st', hrun, -, hrows, -⟩ :=
    run_deliver (s := .fresh) Rows.reaches_length hsize g second (by decide) rfl hst
  refine ⟨by rw [htogether], ?_, ?_⟩
  · rw [halone, hrun]
    exact hrows
  · have hfold : (first ++ second).foldl (Edit.applied fun rows => rows.length) rows =
        Rows.clearFrom (fun rows => rows.length) rows n ++ [row "e3" "Carol"] := rfl
    have hclear : Rows.clearFrom (fun rows => rows.length) rows n = rows := Rows.clearFrom_of_lt hfar
    rw [hfold, hclear]

open Sample in
/-- So is one after a clearing from the first row that is too long. -/
theorem deliver_loses_append :
    let party := Solo.party fun rows => (rows.length, rows.width)
    let g := standard (.text "Users")
    let first : List Edit :=
      [.clear (10 ^ longestNumeral : Nat) (Int.natCast_pos.mpr (Nat.pow_pos (by decide)))]
    let second : List Edit := [.append [row "e3" "Carol"]]
    let together := run party (g.deliver (first ++ second)) .fresh ⟨rows, []⟩
    let alone := run party (g.deliver first) .fresh ⟨rows, []⟩
    together.2.2.rows = rows ∧
      (run party (g.deliver second) alone.2.1 alone.2.2).2.2.rows = rows ++ [row "e3" "Carol"] ∧
      (first ++ second).foldl (Edit.applied fun rows => rows.length) rows = rows ++ [row "e3" "Carol"] := by
  have hpow : 10 ^ (1 : Nat) ≤ 10 ^ longestNumeral := Nat.pow_le_pow_right (by decide) (by decide)
  have hfar : ((rows.length : Nat) : Int) < ((10 ^ longestNumeral : Nat) : Int) :=
    Int.ofNat_lt.mpr (Nat.lt_of_lt_of_le (by decide) hpow)
  exact deliver_loses _ hasNumeral_power hfar

end Grid

end RowStore
