import RowStore.Proofs.Table.Matched

/-!
# Which rows a deletion takes out

* `Operation.Erases op t c conditions firstOnly` : the operation takes out the rows that conditions select,
  or the first of them; `run_erasure` : it does just that;
* `planned_deleteMany` : the plan of a deletion of all rows that fulfil its conditions;
* `run_deleteMany` : it takes out exactly these rows and gives their number.
-/

namespace RowStore

/-- The operation takes out the rows that conditions select, or the first of them. -/
structure Operation.Erases (op : Operation) (t : Table) (c : Columns) (conditions : Entries Value)
    (firstOnly : Bool) : Prop where
  writes : op.isWrite = true
  given : ∃ records, op.records = .ok records
  asks : t.intent c op = Table.deleting (.mapping conditions) firstOnly

/-- Its conditions are refused, or they have no other fault. -/
theorem Operation.Erases.ends {op : Operation} {t : Table} {c : Columns} {conditions : Entries Value}
    {firstOnly : Bool} (hop : op.Erases t c conditions firstOnly) :
    Ends Fault.IsRefusal (fun _ => True) (t.intent c op) := by
  rw [hop.asks]
  exact (Table.ends_checkConditions _ _).bind fun _ _ => trivial

namespace Operation

variable {t : Table} {c : Columns}

theorem erases_deleteMany (t : Table) (c : Columns) (conditions : Entries Value) :
    (deleteMany (.mapping conditions)).Erases t c conditions false := ⟨rfl, ⟨[], rfl⟩, rfl⟩

theorem erases_delete (t : Table) (c : Columns) (conditions : Entries Value) :
    (delete (.mapping conditions)).Erases t c conditions true := ⟨rfl, ⟨[], rfl⟩, rfl⟩

theorem erases_deleteById {id header : Value} (hheader : t.headerFor c id = .ok header) :
    (deleteById id).Erases t c [(header, id)] true := by
  refine ⟨rfl, ⟨[], rfl⟩, ?_⟩
  rw [Table.intent, hheader]
  rfl

end Operation

namespace Table

variable {σ : Type} {party : Party σ} {K : Keeper party} {t : Table} {c : Columns} {op : Operation}
  {conditions : Entries Value} {firstOnly : Bool} {h : Nat} {top data : Rows}

/-- The plan of a deletion takes out the rows that its conditions select, the last one first, or the first
of them alone. -/
theorem planned_of_erases (hw : Writable K t h) (htop : top.length = h)
    (hop : op.Erases t c conditions firstOnly) (hsome : 0 < data.countP (c.Selects conditions)) :
    t.planned c op (top ++ data) = .ok (.erase (selected c conditions h firstOnly data).reverse,
      if firstOnly then 1 else data.countP (c.Selects conditions)) := by
  have hintent : t.intent c op = .ok (.erase (.mapping conditions) firstOnly) := by
    obtain ⟨row, -, hrow⟩ := List.countP_pos_iff.mp hsome
    obtain ⟨⟨e, he, -⟩, -⟩ := of_decide_eq_true hrow
    rw [hop.asks]
    cases conditions with
    | nil => cases he
    | cons e rest => rfl
  have houtline : t.outline c (top ++ data) (.erase (.mapping conditions) firstOnly) =
      .ok (.erase (selected c conditions h firstOnly data).reverse,
        (selected c conditions h firstOnly data).length) := by
    rw [outline, matched_eq hw htop, if_neg (Nat.pos_iff_ne_zero.mp hsome)]
    rfl
  rw [planned, hintent]
  change t.grid.permitted (t.outline c (top ++ data) _) = _
  rw [houtline, length_selected hsome]
  rfl

/-- Without such rows there is no plan. -/
theorem planned_of_erases_nothing (hw : Writable K t h) (htop : top.length = h)
    (hop : op.Erases t c conditions firstOnly) (hnone : data.countP (c.Selects conditions) = 0) :
    ∃ fault, t.planned c op (top ++ data) = .error fault := by
  rw [planned, hop.asks]
  cases conditions with
  | nil => exact ⟨_, rfl⟩
  | cons e rest =>
    refine ⟨noMatch c (e :: rest), ?_⟩
    change t.grid.permitted (t.outline c (top ++ data) (.erase (.mapping (e :: rest)) firstOnly)) = _
    rw [outline, matched_eq hw htop, if_pos hnone]
    rfl

/-- The rows that a deletion leaves: all but those that its conditions select, or but the first of them. -/
def leftBy (c : Columns) (conditions : Entries Value) (firstOnly : Bool) (data : Rows) : Rows :=
  if firstOnly then data.eraseP fun row => c.Selects conditions row
  else data.filter fun row => ¬ c.Selects conditions row

/-- Where no call fails, a deletion takes out the rows that its conditions select, or the first of them; if
there are none, it fails and leaves the sheet alone. -/
theorem run_erasure (K : Keeper party) (hw : Writable K t h) {s : Session} (hs : Ready c s)
    (hc : c.isEmpty = false) {st : σ} (hst : K.sound st) (htop : top.length = h)
    (hrows : (K.ledger st).rows = top ++ data) (hop : op.Erases t c conditions firstOnly) :
    let k := data.countP (c.Selects conditions)
    let ended := Act.run party (t.perform op) s st
    (0 < k → ended.1 = .ok (op.outcome (.ok (if firstOnly then 1 else k))) ∧
      (K.ledger ended.2.2).rows = top ++ leftBy c conditions firstOnly data) ∧
    (k = 0 → (∃ fault, ended.1 = .ok (op.outcome (.error fault))) ∧
      K.ledger ended.2.2 = K.ledger st) := by
  intro k ended
  refine ⟨fun hsome => ?_, fun hnone => ?_⟩
  · have hplanned := planned_of_erases hw htop hop hsome
    rw [← hrows] at hplanned
    obtain ⟨houtcome, hafter⟩ := run_of_planned K hw hs hc hop.writes hop.given hst hplanned id
    refine ⟨houtcome, hafter.trans ?_⟩
    rw [hrows, Revision.applied, ← htop]
    cases firstOnly with
    | false =>
      refine (Rows.foldl_eraseRow_reverse _ top data).trans ?_
      simp only [leftBy, decide_not]
      rfl
    | true => exact Rows.foldl_eraseRow_first _ top data
  · obtain ⟨fault, hplanned⟩ := planned_of_erases_nothing hw htop hop hnone
    rw [← hrows] at hplanned
    obtain ⟨houtcome, hledger⟩ := run_of_unplanned_of_ends K hw hs hc hop.writes hop.given hst hop.ends hplanned
    exact ⟨⟨fault, houtcome⟩, hledger⟩

/-! ## All rows that fulfil conditions -/

/-- Rows that fulfil conditions on known headers are taken out, the last one first. -/
theorem planned_deleteMany (hw : Writable K t h) (htop : top.length = h)
    (hselects : c.Names conditions ∧ 0 < data.countP (c.Fulfils conditions)) :
    t.planned c (.deleteMany (.mapping conditions)) (top ++ data) =
      .ok (.erase (numbersOf c conditions h data).reverse, data.countP (c.Fulfils conditions)) := by
  have hsame := Columns.selects_eq hselects.1
  have hsome : 0 < data.countP (c.Selects conditions) := by
    simp only [hsame]
    exact hselects.2
  rw [planned_of_erases hw htop (Operation.erases_deleteMany t c conditions) hsome, selected, numbersOf]
  simp only [hsame]
  rfl

/-- Without such rows there is no plan. -/
theorem planned_deleteMany_of_not (hw : Writable K t h) (htop : top.length = h)
    (hselects : ¬ (c.Names conditions ∧ 0 < data.countP (c.Fulfils conditions))) :
    ∃ fault, t.planned c (.deleteMany (.mapping conditions)) (top ++ data) = .error fault := by
  refine planned_of_erases_nothing hw htop (Operation.erases_deleteMany t c conditions) ?_
  refine Nat.eq_zero_of_not_pos fun hsome => hselects ?_
  obtain ⟨row, hmem, hrow⟩ := List.countP_pos_iff.mp hsome
  obtain ⟨hnames, hfulfils⟩ := of_decide_eq_true hrow
  exact ⟨hnames, List.countP_pos_iff.mpr ⟨row, hmem, decide_eq_true hfulfils⟩⟩

/-- Where no call fails, a deletion of all rows that fulfil its conditions takes out exactly these
rows, and the others stay in their order. It gives the number of the rows that it has taken out. If
there are none, or no condition is on a known header, it gives zero and leaves the sheet alone. -/
theorem run_deleteMany (K : Keeper party) (hw : Writable K t h) {s : Session} (hs : Ready c s)
    (hc : c.isEmpty = false) {st : σ} (hst : K.sound st) (htop : top.length = h)
    (hrows : (K.ledger st).rows = top ++ data) (conditions : Entries Value) :
    let k := data.countP (c.Fulfils conditions)
    let ended := Act.run party (t.perform (.deleteMany (.mapping conditions))) s st
    (c.Names conditions ∧ 0 < k → ended.1 = .ok (.count k) ∧
      (K.ledger ended.2.2).rows = top ++ data.filter fun row => ¬ c.Fulfils conditions row) ∧
    (¬ (c.Names conditions ∧ 0 < k) → ended.1 = .ok (.count 0) ∧
      K.ledger ended.2.2 = K.ledger st) := by
  intro k ended
  have hrecords : ∃ records, (Operation.deleteMany (.mapping conditions)).records = .ok records :=
    ⟨[], rfl⟩
  refine ⟨fun hselects => ?_, fun hselects => ?_⟩
  · have hplanned := planned_deleteMany hw htop hselects
    rw [← hrows] at hplanned
    obtain ⟨houtcome, hafter⟩ := run_of_planned K hw hs hc rfl hrecords hst hplanned id
    refine ⟨houtcome, hafter.trans ?_⟩
    rw [hrows, Revision.applied, numbersOf, ← htop, Rows.foldl_eraseRow_reverse]
    simp only [decide_not]
  · obtain ⟨fault, hplanned⟩ := planned_deleteMany_of_not hw htop hselects
    rw [← hrows] at hplanned
    have hends := (Operation.erases_deleteMany t c conditions).ends
    exact run_of_unplanned_of_ends K hw hs hc rfl hrecords hst hends hplanned

open Sample in
/-- Of three users two are called Bob: both rows go, and the row between them stays. -/
theorem run_deleteMany_bobs :
    let K := Scripted.keeper fun _ => false
    let conditions : Entries Value := [(.text "Name", .text "Bob"), (.text "Town", .text "Bonn")]
    let st := Scripted.ofRows [row "id" "Name", row "e1" "Bob", row "e2" "Alice", row "e3" "Bob"]
    let ended := Act.run (Scripted.party fun _ => false)
      ((table (.int 30000)).perform (.deleteMany (.mapping conditions))) session st
    ended.1 = .ok (.count 2) ∧ (K.ledger ended.2.2).rows = [row "id" "Name", row "e2" "Alice"] := by
  intro K conditions st
  have hs : Ready columns session := ⟨rfl, rfl⟩
  have hst : K.sound st := ⟨fun _ h => (nomatch h), fun _ h => nomatch h⟩
  have htop : [row "id" "Name"].length = 1 := rfl
  have hrows : (K.ledger st).rows =
      [row "id" "Name"] ++ [row "e1" "Bob", row "e2" "Alice", row "e3" "Bob"] := rfl
  exact (run_deleteMany K Writable.sample hs rfl hst htop hrows conditions).1 (by decide)

end Table

end RowStore
