import RowStore.Proofs.Fault.Outcome
import RowStore.Proofs.Grid.Revision
import RowStore.Proofs.Noted.Gives
import RowStore.Table.Write

/-!
# What a write plans

* `Intent` : what an operation asks of a sheet once its input is checked;
* `Table.plan` : the revision that an intent makes of a sheet and the number that it gives, or why it
  makes none; this is a function of the sheet alone;
* `Looks`, `Plans` : acts that look at the sheet, and acts that put the changes of a revision into
  the queue; `plans_action` : the action of an intent plans as `Table.plan` says.
-/

namespace RowStore

open Act

variable {α β : Type} {terms : Terms}

/-- An act that looks at the sheet and changes nothing: its outcome is what `out` gives for the rows,
unless a call fails. -/
def Looks (terms : Terms) (m : Act α) (out : Rows → Except Fault α) : Prop :=
  ∀ s x, x.lock = .held → Meets (writing terms) m s x fun r s' x' => Still s x s' x' ∧
    (r = out x.ledger.rows ∨ ∃ fault, r = .error fault ∧ x'.disturbed = true)

namespace Looks

theorem pure (a : α) : Looks terms (Pure.pure a) fun _ => .ok a :=
  fun s x _ => ⟨Still.refl s x, Or.inl rfl⟩

theorem liftExcept (e : Except Fault α) : Looks terms (liftM e : Act α) fun _ => e := by
  intro s x _
  rw [meets_liftExcept]
  exact ⟨Still.refl s x, Or.inl rfl⟩

theorem throw (fault : Fault) : Looks terms (throw fault : Act α) fun _ => .error fault :=
  fun s x _ => ⟨Still.refl s x, Or.inl rfl⟩

theorem note (level : NoteLevel) (text : Text) : Looks terms (Act.note level text) fun _ => .ok () :=
  fun s x _ => ⟨(Still.refl s x).noted _, Or.inl rfl⟩

theorem liftNoted {m : Noted α} {e : Except Fault α} (hm : m.Gives e) :
    Looks terms (liftM m : Act α) fun _ => e :=
  fun s x _ => ⟨(Still.refl s x).noted _, Or.inl (hm s.notes)⟩

theorem bind {m : Act α} {out : Rows → Except Fault α} (hm : Looks terms m out) {f : α → Act β}
    {k : α → Rows → Except Fault β} (hf : ∀ a, Looks terms (f a) (k a)) :
    Looks terms (m >>= f) fun rows => out rows >>= fun a => k a rows := by
  intro s x hx
  rw [meets_bind]
  refine (hm s x hx).mono fun r s' x' ⟨h, hr⟩ => ?_
  rcases r with fault | a
  · refine ⟨h, hr.imp (fun ho => ?_) fun ⟨_, _, hd⟩ => ⟨fault, rfl, hd⟩⟩
    dsimp only
    rw [← ho]
    rfl
  · have ho : out x.ledger.rows = .ok a := by
      rcases hr with ho | ⟨fault, hfault, _⟩
      · exact ho.symm
      · cases hfault
    refine (hf a s' x' (h.lock.trans hx)).mono fun r s'' x'' ⟨h', hr'⟩ => ⟨h.trans h', ?_⟩
    dsimp only
    rw [ho, ← h.ledger]
    exact hr'

theorem congr {m : Act α} {out out' : Rows → Except Fault α} (h : Looks terms m out)
    (ho : ∀ rows, out rows = out' rows) : Looks terms m out' := (funext ho : out = out') ▸ h

theorem readData (g : Grid) : Looks terms g.readData g.seen :=
  fun _ _ hx => Grid.meets_readData hx g

end Looks

/-! ## Matching -/

namespace Match

/-- Each condition on a known header has a text to compare. -/
def Compares (c : Columns) (conditions : Entries Value) : Prop :=
  ∀ e ∈ conditions, c.positions.has e.1 = true → e.2.hasText = true

instance (c : Columns) (conditions : Entries Value) : Decidable (Compares c conditions) :=
  inferInstanceAs (Decidable (∀ e ∈ conditions, _ → _))

/-- The tests of the conditions on known headers. -/
def testsOf (c : Columns) (conditions : Entries Value) : List Test :=
  conditions.filterMap fun e => (c.positions.find? e.1).map fun p => ⟨p, e.2.asText⟩

/-- The positions of the rows that pass all tests, or of the first of them. -/
def positionsOf (ts : List Test) (firstOnly : Bool) (rows : Rows) : List Nat :=
  let found := ((rows.zipIdx 0).filter fun p => passes ts p.1).map (·.2)
  if firstOnly then found.take 1 else found

/-- The tests of conditions that can be compared. -/
def testsFor (c : Columns) (conditions : Entries Value) : Except Fault (List Test) :=
  if Compares c conditions then .ok (testsOf c conditions) else .error .malformed

/-- The positions of the rows that fulfil the conditions; without a condition on a known header there
are none. -/
def found (c : Columns) (seen : Except Fault Rows) (conditions : Value) (firstOnly : Bool) :
    Except Fault (List Nat) :=
  if conditions.isBlank then .ok []
  else do
    let ts ← testsFor c (← conditions.expectEntries)
    if ts.isEmpty then return []
    return positionsOf ts firstOnly (← seen)

theorem gives_test? (c : Columns) {e : Value × Value} (h : c.positions.has e.1 = true → e.2.hasText = true) :
    (test? c e.1 e.2).Gives (.ok ((c.positions.find? e.1).map fun p => ⟨p, e.2.asText⟩)) := by
  rw [Entries.has] at h
  rw [test?]
  cases hposition : c.positions.find? e.1 with
  | none => exact (Noted.gives_note _ _).bind_ok (Noted.gives_pure _)
  | some p =>
    rw [hposition] at h
    dsimp only
    rw [Value.comparedText_of_hasText (h rfl)]
    exact (Noted.gives_liftExcept (.ok _)).bind_ok (Noted.gives_pure _)

/-- A condition on a known header that has no text is a fault. -/
theorem gives_test?_of_not (c : Columns) {e : Value × Value}
    (h : ¬ (c.positions.has e.1 = true → e.2.hasText = true)) : (test? c e.1 e.2).Gives (.error .malformed) := by
  obtain ⟨hknown, htext⟩ := Classical.not_imp.mp h
  obtain ⟨p, hposition⟩ := Option.isSome_iff_exists.mp hknown
  rw [test?, hposition]
  dsimp only
  rw [Value.comparedText_of_not_hasText (Bool.eq_false_iff.mpr htext)]
  exact (Noted.gives_liftExcept (.error _)).bind_error

theorem gives_tests (c : Columns) (conditions : Entries Value) :
    (tests c conditions).Gives (testsFor c conditions) := by
  rw [testsFor]
  split
  case isTrue h => exact Noted.gives_filterMapM fun e he => gives_test? c (h e he)
  case isFalse h =>
    obtain ⟨e, he⟩ := not_forall.mp h
    obtain ⟨hmem, he⟩ := Classical.not_imp.mp he
    refine Noted.gives_filterMapM_error (fun e _ => ?_) ⟨e, hmem, gives_test?_of_not c he⟩
    by_cases htext : c.positions.has e.1 = true → e.2.hasText = true
    · exact Or.inl ⟨_, gives_test? c htext⟩
    · exact Or.inr (gives_test?_of_not c htext)

theorem positionsFrom_map_list (ts : List Test) (firstOnly : Bool) (rows : Rows) :
    positionsFrom ts firstOnly 0 (rows.map .list) = .ok (positionsOf ts firstOnly rows) := by
  cases firstOnly
  · exact positionsFrom_all ts 0 rows
  · exact positionsFrom_first ts 0 rows

/-- The search looks at the rows only if there is something to compare. -/
theorem looks_positions {c : Columns} (hc : c.isEmpty = false) {read : Act Rows}
    {seen : Rows → Except Fault Rows} (hread : Looks terms read seen) (conditions : Value)
    (firstOnly : Bool) :
    Looks terms (positions (some c) (do return (← read).map .list) conditions firstOnly)
      fun rows => found c (seen rows) conditions firstOnly := by
  unfold positions found
  by_cases hblank : conditions.isBlank = true
  · simp only [hblank, if_true]
    exact (Looks.note _ _).bind fun _ => Looks.pure []
  · have hsome : (some c).filter (!·.isEmpty) = some c := by simp [hc]
    simp only [hblank, hsome]
    refine (Looks.liftExcept _).bind fun entries => ?_
    refine (Looks.liftNoted (gives_tests c entries)).bind fun ts => ?_
    by_cases hts : ts.isEmpty = true
    · simp only [hts, if_true]
      exact (Looks.note _ _).bind fun _ => Looks.pure []
    · simp only [hts]
      refine Looks.congr ((hread.bind fun rows => Looks.pure _).bind fun vs => Looks.liftExcept _) ?_
      intro rows
      cases seen rows with
      | error fault => rfl
      | ok below => exact positionsFrom_map_list _ _ _

end Match

/-! ## Intents -/

/-- A planned revision, where the grid makes the call that it needs. -/
def Grid.permitted (g : Grid) (p : Except Fault (Revision × α)) : Except Fault (Revision × α) := do
  let p ← p
  g.permits p.1
  return p

/-- What a write asks of a sheet once its input is checked. -/
inductive Intent
  | append (rows : Rows)
  | set (fields : Entries Value) (conditions : Value) (firstOnly : Bool)
  | erase (conditions : Value) (firstOnly : Bool)
  | clear

namespace Table

/-- The numbers of the rows that match; there has to be one. -/
def matched (t : Table) (c : Columns) (sheet : Rows) (conditions : Value) (firstOnly : Bool) :
    Except Fault (List Int) := do
  let positions ← Match.found c (t.grid.seen sheet) conditions firstOnly
  if positions.isEmpty then throw (Fault.worded (.noRowMatches conditions))
  return positions.map t.grid.rowNumber

/-- The cell of a header in a row, with what is written into it. -/
def cellFor (c : Columns) (row : Int) (field : Value × Value) : Except Fault (Range × Value) :=
  match c.positions.find? field.1 with
  | none => .error .unsuitable
  | some col =>
    match Range.between row col row col with
    | .ok cell => do return (cell, ← field.2.cellOf)
    | .error cause => .error (.address cause)

/-- The cells of all fields, row by row. -/
def cellsFor (c : Columns) (rows : List Int) (fields : Entries Value) :
    Except Fault (List (Range × Value)) :=
  (rows.flatMap fun row => fields.map fun field => (row, field)).mapM fun p => cellFor c p.1 p.2

/-- The revision that an intent makes of a sheet, and the number that it gives. -/
def outline (t : Table) (c : Columns) (sheet : Rows) : Intent → Except Fault (Revision × Nat)
  | .append rows => do
    if let some position := c.identifierHeader.bind c.positions.find? then
      checkTaken position (← t.grid.seen sheet) rows
    return (.append rows, rows.length)
  | .set fields conditions firstOnly => do
    let numbers ← t.matched c sheet conditions firstOnly
    return (.cells (← cellsFor c numbers fields), numbers.length)
  | .erase conditions firstOnly => do
    let numbers ← t.matched c sheet conditions firstOnly
    return (.erase numbers.reverse, numbers.length)
  | .clear => return (.clear (t.grid.headerRowNumber + 1), 1)

/-- The same, where the grid makes the call that the revision needs. -/
def plan (t : Table) (c : Columns) (sheet : Rows) (i : Intent) : Except Fault (Revision × Nat) :=
  t.grid.permitted (t.outline c sheet i)

/-- Rows are appended only if none of their identifiers is in the sheet. -/
theorem outline_append_eq_ok {t : Table} {c : Columns} {sheet rows : Rows} {rev : Revision} {n : Nat}
    (h : t.outline c sheet (.append rows) = .ok (rev, n)) : rev = .append rows ∧ n = rows.length ∧
      ∀ position, c.identifierHeader.bind c.positions.find? = some position →
        ∃ below, t.grid.seen sheet = .ok below ∧ checkTaken position below rows = .ok () := by
  simp only [outline] at h
  cases hposition : c.identifierHeader.bind c.positions.find? with
  | none =>
    rw [hposition] at h
    cases h
    exact ⟨rfl, rfl, fun _ h => nomatch h⟩
  | some position =>
    rw [hposition] at h
    obtain ⟨below, hbelow, h⟩ := bind_eq_ok h
    obtain ⟨_, htaken, h⟩ := bind_eq_ok h
    cases h
    refine ⟨rfl, rfl, ?_⟩
    rintro _ ⟨⟩
    exact ⟨below, hbelow, htaken⟩

/-- What is done for an intent under the lock, before the changes are sent. -/
def action (t : Table) (c : Columns) : Intent → Act Nat
  | .append rows => t.appendRows c rows
  | .set fields conditions firstOnly => t.setFields c fields conditions firstOnly
  | .erase conditions firstOnly => t.deleteRows c conditions firstOnly
  | .clear => do
    Grid.queue (.clearFrom (t.grid.headerRowNumber + 1))
    return 1

theorem looks_matchingRows (t : Table) {c : Columns} (hc : c.isEmpty = false) (conditions : Value)
    (firstOnly : Bool) : Looks terms (t.matchingRows c conditions firstOnly)
      fun sheet => t.matched c sheet conditions firstOnly := by
  refine (Match.looks_positions hc (Looks.readData t.grid) conditions firstOnly).bind
    fun positions => ?_
  split
  · exact (Looks.throw _).bind fun _ => Looks.pure _
  · exact Looks.pure _

theorem cellChange_eq (c : Columns) (row : Int) (field : Value × Value) : cellChange c row field =
    (cellFor c row field).map fun cell => .setCell cell.1 cell.2 := by
  rw [cellChange, cellFor]
  cases c.positions.find? field.1 with
  | none => rfl
  | some col =>
    dsimp only
    cases Range.between row col row col with
    | error cause => rfl
    | ok cell => cases field.2.cellOf <;> rfl

/-- The changes of an update are those of its cells. -/
theorem cellChanges_eq (c : Columns) (rows : List Int) (fields : Entries Value) :
    cellChanges c rows fields =
      (cellsFor c rows fields).map fun cells => (Revision.cells cells).changes := by
  rw [cellChanges, cellsFor]
  induction rows.flatMap fun row => fields.map fun field => (row, field) with
  | nil => rfl
  | cons p rest ih =>
    rw [List.mapM_cons, List.mapM_cons, ih, cellChange_eq]
    cases cellFor c p.1 p.2 with
    | error fault => rfl
    | ok cell =>
      cases rest.mapM fun p => cellFor c p.1 p.2 <;> rfl

end Table

/-! ## Planning -/

/-- An act that looks at the sheet and puts the changes of a revision into the empty queue, as `out`
says for the rows; if it fails, the queue stays empty. -/
def Plans (terms : Terms) (m : Act α) (out : Rows → Except Fault (Revision × α)) : Prop :=
  ∀ s x, x.lock = .held → s.pending = [] → Meets (writing terms) m s x fun r s' x' =>
    match r with
    | .ok a => ∃ rev, out x.ledger.rows = .ok (rev, a) ∧
      Still ⟨s.columns, rev.changes, s.notes⟩ x s' x'
    | .error fault => Still s x s' x' ∧ (out x.ledger.rows = .error fault ∨ x'.disturbed = true)

theorem plans_queueAll (rev : Revision) (a : α) :
    Plans terms (do
      Grid.queueAll rev.changes
      return a) fun _ => .ok (rev, a) := by
  intro s x _ hp
  refine ⟨rev, rfl, rfl, ?_, rfl, rfl, id⟩
  change s.pending ++ rev.changes = rev.changes
  rw [hp, List.nil_append]

/-- An act that looks first and plans by what it has seen. -/
theorem Plans.of_looks {m : Act α} {out : Rows → Except Fault α} (hm : Looks terms m out)
    {f : α → Act β} {k : α → Rows → Except Fault (Revision × β)}
    (hf : ∀ a, (∃ rows, out rows = .ok a) → Plans terms (f a) (k a)) :
    Plans terms (m >>= f) fun rows => out rows >>= fun a => k a rows := by
  intro s x hx hp
  rw [meets_bind]
  refine (hm s x hx).mono fun r s' x' ⟨h, hr⟩ => ?_
  rcases r with fault | a
  · refine ⟨h, hr.imp (fun ho => ?_) fun ⟨_, _, hd⟩ => hd⟩
    dsimp only
    rw [← ho]
    rfl
  · have ho : out x.ledger.rows = .ok a := by
      rcases hr with ho | ⟨fault, hfault, _⟩
      · exact ho.symm
      · cases hfault
    refine (hf a ⟨_, ho⟩ s' x' (h.lock.trans hx) (h.pending.trans hp)).mono fun r s'' x'' hr' => ?_
    rcases r with fault | b
    · obtain ⟨h', hr'⟩ := hr'
      refine ⟨h.trans h', hr'.imp (fun hk => ?_) id⟩
      dsimp only
      rw [ho, ← h.ledger]
      exact hk
    · obtain ⟨rev, hk, h'⟩ := hr'
      refine ⟨rev, ?_, h'.columns.trans h.columns, h'.pending, h'.lock.trans h.lock,
        h'.ledger.trans h.ledger, fun hd => h'.disturbed (h.disturbed hd)⟩
      dsimp only
      rw [ho, ← h.ledger]
      exact hk

theorem plans_action (t : Table) {c : Columns} (hc : c.isEmpty = false) (i : Intent) :
    Plans terms (t.action c i) fun sheet => t.outline c sheet i := by
  cases i with
  | append rows =>
    have hqueue : Plans terms _ _ := plans_queueAll (.append rows) rows.length
    simp only [Table.action, Table.appendRows, Table.outline]
    cases c.identifierHeader.bind c.positions.find? with
    | none => exact hqueue
    | some position =>
      exact Plans.of_looks (Looks.readData t.grid) fun below _ =>
        Plans.of_looks (Looks.liftExcept _) fun _ _ => hqueue
  | set fields conditions firstOnly =>
    refine Plans.of_looks (t.looks_matchingRows hc conditions firstOnly) fun numbers _ => ?_
    rw [Table.cellChanges_eq]
    cases Table.cellsFor c numbers fields with
    | error fault =>
      exact Plans.of_looks (Looks.liftExcept _) (k := fun _ _ => .error fault)
        fun _ ⟨_, h⟩ => nomatch h
    | ok cells =>
      refine Plans.of_looks (Looks.liftExcept _) (k := fun _ _ => .ok (.cells cells, numbers.length))
        fun changes ⟨_, h⟩ => ?_
      cases h
      exact plans_queueAll (.cells cells) numbers.length
  | erase conditions firstOnly =>
    refine Plans.of_looks (t.looks_matchingRows hc conditions firstOnly) fun numbers _ => ?_
    exact plans_queueAll (.erase numbers.reverse) numbers.length
  | clear => exact plans_queueAll (.clear (t.grid.headerRowNumber + 1)) 1

end RowStore
