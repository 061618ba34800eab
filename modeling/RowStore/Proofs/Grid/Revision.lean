import RowStore.Proofs.Address.RoundTrip
import RowStore.Proofs.Fault.Outcome
import RowStore.Proofs.Grid.Retry
import RowStore.Proofs.Sheet.Area
import RowStore.Value.Order

/-!
# Revisions

* `Revision` : what one write does to a sheet; its `changes` are what it puts into the queue, its
  `applied` is what they do one after another, its `call` is the one call in which they are sent;
* `apply_call` : the call does at once what the changes do one after another;
* `meets_flush` : a flush sends the changes of a revision by at most one call that takes effect, and
  leaves the queue empty. If it fails, the sheet is as it was.
-/

namespace RowStore

open Act

/-- What one write does to a sheet; rows are counted from 1. -/
inductive Revision
  /-- Rows go to the end. -/
  | append (rows : Rows)
  /-- Cells are overwritten one after another. -/
  | cells (cells : List (Range × Value))
  /-- Rows are taken out one after another. -/
  | erase (numbers : List Int)
  /-- All rows from one on are dropped. -/
  | clear (number : Int)

namespace Rows

/-- Overwrites one cell. -/
def setCell (rows : Rows) (cell : Range × Value) : Rows :=
  rows.changeRow (Row.setCells · cell.1.col [cell.2]) (cell.1.row - 1)

/-- Takes out the row with a number. -/
def eraseRow (rows : Rows) (number : Int) : Rows := Slice.without (number - 1) number rows

end Rows

namespace Revision

/-- The changes that a write puts into the queue. -/
def changes : Revision → List Change
  | append rows => [.appendRows rows]
  | cells cs => cs.map fun cell => .setCell cell.1 cell.2
  | erase numbers => numbers.map .deleteRow
  | clear number => [.clearFrom number]

/-- What the changes do to a sheet, each of them once. -/
def applied (rows : Rows) : Revision → Rows
  | append more => rows ++ more
  | cells cs => cs.foldl Rows.setCell rows
  | erase numbers => numbers.foldl Rows.eraseRow rows
  | clear number => rows.dropFrom number

/-- The block of one cell. -/
def blockOf (cell : Range × Value) : Block := ⟨.text cell.1.a1, Rows.value [[cell.2]]⟩

/-- The span of one row. -/
def spanOf (number : Int) : Span := ⟨.int (number - 1), .int number⟩

/-- The call in which the changes are sent, if there is anything to send; a clearing depends on the
size of the worksheet. -/
def call (size : Int × Int) : Revision → Option SheetWrite
  | append rows => if rows = [] then none else some (.append rows)
  | cells cs => if cs = [] then none else some (.setBlocks (cs.map blockOf))
  | erase numbers => if numbers = [] then none else some (.deleteSpans (numbers.map spanOf))
  | clear number =>
    if size.1 < number then none
    else some (.clear (SheetCalls.areaFrom (.int number) size.1 size.2))

/-- Whether the size of the worksheet decides what is sent. -/
def asksSize : Revision → Prop
  | clear _ => True
  | _ => False

end Revision

/-! ## What a call does -/

namespace Rows

variable {α : Type}

/-- Changes of which none fails are made one after another. -/
theorem inTurn_eq_foldl {change : Rows → α → Except Fault Unit × Rows} {f : Rows → α → Rows}
    (h : ∀ rows a, change rows a = (.ok (), f rows a)) (rows : Rows) (as : List α) :
    inTurn change rows as = (.ok (), as.foldl f rows) := by
  induction as generalizing rows with
  | nil => rfl
  | cons a rest ih =>
    rw [inTurn, h]
    exact ih _

theorem inTurn_map {β : Type} (change : Rows → β → Except Fault Unit × Rows) (g : α → β)
    (rows : Rows) (as : List α) :
    inTurn change rows (as.map g) = inTurn (fun rows a => change rows (g a)) rows as := by
  induction as generalizing rows with
  | nil => rfl
  | cons a rest ih =>
    simp only [List.map_cons, inTurn, ih]

theorem setBlock_blockOf (rows : Rows) (cell : Range × Value) :
    rows.setBlock (Revision.blockOf cell) = (.ok (), rows.setCell cell) := by
  have htext : (Revision.blockOf cell).range.expectText = .ok cell.1.a1 := rfl
  have hrows : (Revision.blockOf cell).rows.each = .ok [.list [cell.2]] := rfl
  have hparts : blockParts (Revision.blockOf cell) = .ok (cell.1, [.list [cell.2]]) := by
    simp only [blockParts, htext, hrows, bind, Except.bind, Range.named_a1]
    rfl
  rw [setBlock, hparts]
  rfl

theorem deleteSpan_spanOf (rows : Rows) (number : Int) :
    rows.deleteSpan (Revision.spanOf number) = (.ok (), rows.eraseRow number) := rfl

end Rows

namespace Revision

/-- The call does at once what the changes do one after another. -/
theorem apply_call {size : Int × Int} {rev : Revision} {w : SheetWrite}
    (h : rev.call size = some w) (rows : Rows) : rows.apply w = (.ok (), rev.applied rows) := by
  cases rev with
  | append more =>
    obtain ⟨_, h⟩ := Option.ite_none_left_eq_some.mp h
    cases h
    rfl
  | cells cs =>
    obtain ⟨_, h⟩ := Option.ite_none_left_eq_some.mp h
    cases h
    exact (Rows.inTurn_map _ _ _ _).trans (Rows.inTurn_eq_foldl Rows.setBlock_blockOf _ _)
  | erase numbers =>
    obtain ⟨_, h⟩ := Option.ite_none_left_eq_some.mp h
    cases h
    exact (Rows.inTurn_map _ _ _ _).trans (Rows.inTurn_eq_foldl Rows.deleteSpan_spanOf _ _)
  | clear number =>
    obtain ⟨_, h⟩ := Option.ite_none_left_eq_some.mp h
    cases h
    exact Rows.apply_areaFrom rows number size.1 size.2

/-- Without changes nothing is sent, whatever the size. -/
theorem call_of_changes_eq_nil {rev : Revision} (h : rev.changes = []) :
    rev.call (0, 0) = none ∧ ¬ rev.asksSize := by
  cases rev with
  | append rows => cases h
  | cells cs => exact ⟨if_pos (List.map_eq_nil_iff.mp h), id⟩
  | erase numbers => exact ⟨if_pos (List.map_eq_nil_iff.mp h), id⟩
  | clear number => cases h

/-- Where nothing is sent, there was nothing to do in a worksheet with room for its rows. -/
theorem applied_of_call_eq_none {size : Int × Int} {rev : Revision} (h : rev.call size = none)
    {rows : Rows} (hroom : rev.asksSize → (rows.length : Int) ≤ size.1) :
    rev.applied rows = rows := by
  cases rev with
  | append more =>
    by_cases hmore : more = []
    · simp [applied, hmore]
    · simp [call, hmore] at h
  | cells cs =>
    by_cases hcs : cs = []
    · simp [applied, hcs]
    · simp [call, hcs] at h
  | erase numbers =>
    by_cases hnumbers : numbers = []
    · simp [applied, hnumbers]
    · simp [call, hnumbers] at h
  | clear number =>
    have hrows : (rows.length : Int) ≤ size.1 := hroom trivial
    by_cases hlast : size.1 < number
    · have hbound : number - 1 = ((number - 1).toNat : Nat) := by omega
      rw [applied, Rows.dropFrom, hbound, Slice.upTo_natCast, List.take_of_length_le (by omega)]
    · simp [call, hlast] at h

end Revision

/-! ## Sending -/

/-- The ledger after a call, if there was one. -/
def Ledger.sending (l : Ledger) : Option SheetWrite → Ledger
  | none => l
  | some w => l.after w

/-- Where a worksheet has room for its rows, the call of a revision makes its changes. -/
theorem Revision.rows_sending {size : Int × Int} (rev : Revision) (l : Ledger)
    (hroom : rev.asksSize → (l.rows.length : Int) ≤ size.1) :
    (l.sending (rev.call size)).rows = rev.applied l.rows := by
  cases hcall : rev.call size with
  | none => exact (Revision.applied_of_call_eq_none hcall hroom).symm
  | some w => exact congrArg Prod.snd (Revision.apply_call hcall l.rows)

/-- The changes of a revision have been sent, by one call if there was anything to send. -/
structure Sent (terms : Terms) (rev : Revision) (s : Session) (x : Course) (s' : Session)
    (x' : Course) : Prop where
  columns : s'.columns = s.columns
  pending : s'.pending = s.pending
  lock : x'.lock = x.lock
  disturbed : x.disturbed = true → x'.disturbed = true
  ledger : ∃ size, (rev.asksSize → terms.room x.ledger.rows size) ∧
    x'.ledger = x.ledger.sending (rev.call size)

variable {terms : Terms} {rev : Revision} {s s' s'' : Session} {x x' x'' : Course}

theorem Sent.of_still (h : Still s x s' x') (h' : Sent terms rev s' x' s'' x'') :
    Sent terms rev s x s'' x'' where
  columns := h'.columns.trans h.columns
  pending := h'.pending.trans h.pending
  lock := h'.lock.trans h.lock
  disturbed hx := h'.disturbed (h.disturbed hx)
  ledger := h.ledger ▸ h'.ledger

/-- How the sending of a revision ends. -/
def SendingEnds (terms : Terms) (rev : Revision) (s : Session) (x : Course) :
    Except Fault Unit → Session → Course → Prop
  | .ok _, s', x' => Sent terms rev s x s' x'
  | .error _, s', x' => Still s x s' x' ∧ x'.disturbed = true

theorem sendingEnds_nothing {size : Int × Int} (h : rev.call size = none)
    (hroom : rev.asksSize → terms.room x.ledger.rows size) (s : Session) :
    SendingEnds terms rev s x (.ok ()) s x :=
  ⟨rfl, rfl, rfl, id, size, hroom, by rw [h]; rfl⟩

theorem meets_send_call (hx : x.lock = .held) {size : Int × Int} {w : SheetWrite}
    (h : rev.call size = some w) (hroom : rev.asksSize → terms.room x.ledger.rows size)
    (cause : Text → ServiceFault) :
    Meets (writing terms) (SheetCalls.send w cause) s x (SendingEnds terms rev s x) := by
  have hw : (x.ledger.rows.apply w).1 = .ok () := by rw [Revision.apply_call h]
  refine (SheetCalls.meets_send hx w cause hw).mono ?_
  rintro r s' x' ⟨rfl, ⟨rfl, rfl⟩ | ⟨fault, rfl, rfl⟩⟩
  · exact ⟨rfl, rfl, rfl, id, size, hroom, by rw [h]; rfl⟩
  · exact ⟨Still.failed _ x, rfl⟩

namespace Grid

theorem meets_appendRows (hx : x.lock = .held) (title : Text) (rows : Rows) :
    Meets (writing terms) (SheetCalls.appendRows title (rows.map .list)) s x
      (SendingEnds terms (.append rows) s x) := by
  rw [SheetCalls.appendRows]
  by_cases hrows : rows = []
  · subst hrows
    exact sendingEnds_nothing (show Revision.call (0, 0) _ = none from rfl) False.elim s
  · have hcall : (Revision.append rows).call (0, 0) = some (.append rows) := if_neg hrows
    rw [if_neg (by simpa using hrows), Rows.ofValues_map_list]
    exact meets_send_call hx hcall False.elim _

theorem meets_setBlocks (hx : x.lock = .held) (cs : List (Range × Value)) :
    Meets (writing terms) (SheetCalls.setBlocks (cs.map Revision.blockOf)) s x
      (SendingEnds terms (.cells cs) s x) := by
  rw [SheetCalls.setBlocks]
  by_cases hcs : cs = []
  · subst hcs
    exact sendingEnds_nothing (show Revision.call (0, 0) _ = none from rfl) False.elim s
  · have hcall : (Revision.cells cs).call (0, 0) = some (.setBlocks (cs.map Revision.blockOf)) :=
      if_neg hcs
    rw [if_neg (by simpa using hcs)]
    exact meets_send_call hx hcall False.elim _

theorem spansOf_map_int (numbers : List Int) :
    SheetCalls.spansOf (numbers.map .int) = .ok (numbers.map Revision.spanOf) := by
  induction numbers with
  | nil => rfl
  | cons n rest ih =>
    simp only [SheetCalls.spansOf, List.map_cons, List.mapM_cons] at ih ⊢
    rw [ih]
    rfl

theorem meets_deleteRows (hx : x.lock = .held) (title : Text) (numbers : List Int) :
    Meets (writing terms) (SheetCalls.deleteRows title (numbers.map .int)) s x
      (SendingEnds terms (.erase numbers) s x) := by
  rw [SheetCalls.deleteRows]
  by_cases hnumbers : numbers = []
  · subst hnumbers
    exact sendingEnds_nothing (show Revision.call (0, 0) _ = none from rfl) False.elim s
  · have hcall : (Revision.erase numbers).call (0, 0) =
        some (.deleteSpans (numbers.map Revision.spanOf)) := if_neg hnumbers
    rw [if_neg (by simpa using hnumbers), spansOf_map_int]
    exact meets_send_call hx hcall False.elim _

theorem meets_clearRows (hx : x.lock = .held) (title : Text) (number : Int) :
    Meets (writing terms) (SheetCalls.clearRows title (.int number)) s x
      (SendingEnds terms (.clear number) s x) := by
  rw [SheetCalls.clearRows, meets_bind, meets_ask]
  refine ⟨hx, ?_⟩
  rintro size x' ⟨hroom, rfl⟩
  dsimp only
  rw [Value.before_int, meets_bind, meets_liftExcept]
  dsimp only
  by_cases hlast : size.1 < number
  · have hcall : (Revision.clear number).call size = none := if_pos hlast
    rw [if_pos (decide_eq_true hlast)]
    exact sendingEnds_nothing hcall (fun _ => hroom) s
  · have hcall : (Revision.clear number).call size = some
        (.clear (SheetCalls.areaFrom (.int number) size.1 size.2)) := if_neg hlast
    rw [if_neg (by simpa using hlast)]
    exact meets_send_call hx hcall (fun _ => hroom) _

/-! ## Flushing -/

/-- Whether the grid makes the call of a revision: the ones that it repeats need a number of
repetitions, and the row from which a clearing starts has to have a numeral. -/
def permits (g : Grid) : Revision → Except Fault Unit
  | .cells (cell :: rest) => g.allows ("batch update " ++
      toString ((cell :: rest).map Revision.blockOf).length ++ " value ranges to " ++ g.title.plain)
  | .clear number => do
    (Value.int number).checkText
    g.allows ("clear rows from " ++ (Value.int number).plain ++ " in " ++ g.title.plain)
  | _ => .ok ()

/-- How a flush ends. -/
def FlushEnds (terms : Terms) (g : Grid) (rev : Revision) (s : Session) (x : Course) :
    Except Fault Unit → Session → Course → Prop
  | .ok _, s', x' => g.permits rev = .ok () ∧ Sent terms rev s x s' x'
  | .error fault, s', x' =>
    Still s x s' x' ∧ (g.permits rev = .error fault ∨ x'.disturbed = true)

theorem FlushEnds.of_sendingEnds {g : Grid} (hg : g.permits rev = .ok ()) {r : Except Fault Unit}
    (h : SendingEnds terms rev s x r s' x') : FlushEnds terms g rev s x r s' x' := by
  cases r with
  | ok _ => exact ⟨hg, h⟩
  | error fault => exact ⟨h.1, Or.inr h.2⟩

/-- The call of a revision that the grid repeats. -/
theorem meets_retrying_sending (hx : x.lock = .held) (g : Grid) {description : Text}
    (hg : g.permits rev = g.allows description) {call : Act Unit}
    (hcall : ∀ s₁ x₁, x₁.lock = .held →
      Meets (writing terms) call s₁ x₁ (SendingEnds terms rev s₁ x₁)) :
    Meets (writing terms) (g.retrying description call) s x (FlushEnds terms g rev s x) := by
  refine (meets_retrying_writing g description call (I := Still s x)
    (D := fun _ s' x' => Sent terms rev s x s' x') (fun _ _ h => h.lock.trans hx)
    (fun _ _ _ _ h h' => h.trans h') (fun s₁ x₁ h => ?_) (Still.refl s x)).mono
    fun r s' x' hr => ?_
  · refine (hcall s₁ x₁ (h.lock.trans hx)).mono fun r s' x' hr => ?_
    rcases r with fault | _
    · exact ⟨h.trans hr.1, hr.2⟩
    · exact Sent.of_still h hr
  · rcases r with fault | _
    · exact ⟨hr.1, hg ▸ hr.2⟩
    · exact ⟨hg ▸ hr.1, hr.2⟩

/-- The batch in which the changes of a revision are sent. -/
def batchOf : Revision → Batch
  | .append rows => .append [Rows.value rows]
  | .cells cs => .set (cs.map Revision.blockOf)
  | .erase numbers => .delete (numbers.map .int)
  | .clear number => .clear (.int number) []

/-- Changes of one kind are sent in one batch. -/
theorem batches_map {α : Type} {f : α → Change} {b : List α → Batch}
    (hsingle : ∀ a, Batch.single (f a) = b [a])
    (hcons : ∀ a a' as, Batch.cons (f a) [b (a' :: as)] = [b (a :: a' :: as)])
    (hnil : ∀ a, Batch.cons (f a) [] = [Batch.single (f a)])
    (a : α) (as : List α) : batches ((a :: as).map f) = [b (a :: as)] := by
  induction as generalizing a with
  | nil => exact (hnil a).trans (congrArg (fun c => [c]) (hsingle a))
  | cons a' rest ih =>
    have h := ih a'
    rw [batches] at h ⊢
    rw [List.map_cons, List.foldr_cons, h, hcons]

theorem batches_changes (rev : Revision) (h : rev.changes ≠ []) :
    batches rev.changes = [batchOf rev] := by
  cases rev with
  | append rows => rfl
  | cells cs =>
    rcases cs with _ | ⟨cell, rest⟩
    · exact absurd rfl h
    · exact batches_map (f := fun cell : Range × Value => .setCell cell.1 cell.2)
        (b := fun cs => .set (cs.map Revision.blockOf)) (fun _ => rfl) (fun _ _ _ => rfl)
        (fun _ => rfl) cell rest
  | erase numbers =>
    rcases numbers with _ | ⟨n, rest⟩
    · exact absurd rfl h
    · exact batches_map (f := .deleteRow) (b := fun ns => .delete (ns.map .int)) (fun _ => rfl)
        (fun _ _ _ => rfl) (fun _ => rfl) n rest
  | clear number => rfl

theorem meets_sendBatch (hx : x.lock = .held) (g : Grid) (rev : Revision)
    (h : rev.changes ≠ []) :
    Meets (writing terms) (g.sendBatch (batchOf rev)) s x (FlushEnds terms g rev s x) := by
  cases rev with
  | append rows =>
    have hjoined : joined [Rows.value rows] = .ok (rows.map .list) := by
      change Except.ok ([rows.map Value.list].flatten) = _
      rw [List.flatten_singleton]
    change Meets (writing terms) (liftM (joined [Rows.value rows]) >>= _) s x _
    rw [meets_bind, meets_liftExcept, hjoined]
    exact (meets_appendRows hx _ rows).mono fun _ _ _ => FlushEnds.of_sendingEnds rfl
  | cells cs =>
    rcases cs with _ | ⟨cell, rest⟩
    · exact absurd rfl h
    · exact meets_retrying_sending hx g rfl fun s₁ x₁ h => meets_setBlocks h (cell :: rest)
  | erase numbers =>
    exact (meets_deleteRows hx _ numbers).mono fun _ _ _ => FlushEnds.of_sendingEnds rfl
  | clear number =>
    change Meets (writing terms) (liftM (least (.int number) []) >>= _) s x _
    rw [meets_bind, meets_liftExcept]
    change Meets (writing terms) (liftM (Value.int number).checkText >>= _) s x _
    rw [meets_bind, meets_liftExcept]
    have hpermits : g.permits (.clear number) = ((Value.int number).checkText >>= fun _ =>
        g.allows ("clear rows from " ++ (Value.int number).plain ++ " in " ++ g.title.plain)) := rfl
    generalize (Value.int number).checkText = check at hpermits ⊢
    rcases check with fault | _
    · exact ⟨Still.refl s x, Or.inl hpermits⟩
    · exact meets_retrying_sending hx g hpermits fun s₁ x₁ h => meets_clearRows h _ number

theorem permits_of_changes_eq_nil (g : Grid) (h : rev.changes = []) : g.permits rev = .ok () := by
  cases rev with
  | append rows => rfl
  | cells cs => rw [List.map_eq_nil_iff.mp h]; rfl
  | erase numbers => rfl
  | clear number => cases h

/-- A flush sends the changes of a revision by at most one call, or fails and leaves the sheet as it
is; the queue is empty afterwards. -/
theorem meets_flush (hx : x.lock = .held) (g : Grid) (hp : s.pending = rev.changes) :
    Meets (writing terms) g.flush s x (FlushEnds terms g rev ⟨s.columns, [], s.notes⟩ x) := by
  rw [flush, meets_bind, meets_pending]
  dsimp only
  rw [meets_bind, meets_setPending, hp]
  dsimp only
  by_cases hchanges : rev.changes = []
  · obtain ⟨hcall, hasks⟩ := Revision.call_of_changes_eq_nil hchanges
    rw [hchanges]
    exact FlushEnds.of_sendingEnds (permits_of_changes_eq_nil g hchanges)
      (sendingEnds_nothing hcall (fun h => absurd h hasks) _)
  · rw [batches_changes rev hchanges]
    change Meets (writing terms) (g.sendBatch (batchOf rev) >>= fun _ => pure ()) _ x _
    rw [meets_bind]
    refine (meets_sendBatch hx g rev hchanges).mono fun r s' x' hr => ?_
    rcases r with fault | _ <;> exact hr

end Grid

end RowStore
