import RowStore.Proofs.Response.Projected
import RowStore.Proofs.Sheet.Identifiers
import RowStore.Proofs.Table.NewRows
import RowStore.Proofs.Table.Obtained
import RowStore.Proofs.Table.Sample

/-!
# Records created at once and one by one

* `Operation.Creates op records` : the operation creates these records; `run_creation` : it appends their
  rows if they fit and no identifier is given twice;
* `run_createMany` : so records are created at once; `run_creates` : one by one they are created if they
  fit and no identifier is written twice;
* `run_creation_congr` : what a creation does depends on how it comes by the columns;
* `createMany_iff_creates` : both ways lead to the same sheet, or neither creates all of the records.
-/

namespace RowStore

open Act Table

/-- The operation creates records, and asks for nothing else. -/
structure Operation.Creates (op : Operation) (records : List Value) : Prop where
  writes : op.isWrite = true
  given : op.records = .ok records
  asks : ∀ t c, Table.intent t c op = insertion c records

theorem Operation.creates_create (record : Value) : (Operation.create record).Creates [record] :=
  ⟨rfl, rfl, fun _ _ => rfl⟩

theorem Operation.creates_createMany (records : List Value) :
    (Operation.createMany (.list records)).Creates records := by
  cases records <;> exact ⟨rfl, rfl, fun _ _ => rfl⟩

/-- A creation is one insertion of its records. -/
theorem Operation.Creates.perform_eq {op : Operation} {records : List Value} (hop : op.Creates records)
    (hrecords : records ≠ []) (t : Table) :
    t.perform op = op.outcome <$> t.insert op.name records := by
  cases op with
  | create record =>
    obtain rfl := Except.ok.inj hop.given
    simp only [perform, Table.create, map_eq_pure_bind, bind_assoc, pure_bind]
    rfl
  | createMany v =>
    have hgiven : v.eachGiven = .ok records := hop.given
    simp only [perform, Table.createMany, map_eq_pure_bind, bind_assoc, pure_bind, hgiven]
    rfl
  | _ => exact absurd (Except.ok.inj hop.given).symm hrecords

theorem Operation.Creates.checksFirst {op : Operation} {records : List Value} (hop : op.Creates records)
    (hrecords : records ≠ []) (t : Table) : op.ChecksFirst t :=
  ⟨_, t.checks_insert _ records, hop.perform_eq hrecords t⟩

namespace Table

variable {α β σ : Type} {party : Party σ} {K : Keeper party} {t : Table} {c : Columns} {op : Operation}
  {records : List Value} {h : Nat} {top data : Rows} {s : Session} {st : σ}

/-- The call that appends rows is always made. -/
theorem plan_append (t : Table) (c : Columns) (sheet rows : Rows) :
    t.plan c sheet (.append rows) = t.outline c sheet (.append rows) := by
  rw [plan]
  cases houtline : t.outline c sheet (.append rows) with
  | error fault => rfl
  | ok p =>
    obtain ⟨rev, n⟩ := p
    obtain ⟨rfl, -⟩ := outline_append_eq_ok houtline
    rfl

/-- A creation appends the rows of its records, if they fit and no identifier is given twice. -/
theorem planned_eq_ok_iff (hd : Distinct c.list) (hop : op.Creates records) (hrecords : records ≠ [])
    {sheet : Rows} (hseen : t.grid.seen sheet = .ok data) {plan : Revision × Nat} :
    t.planned c op sheet = .ok plan ↔ ∃ rows, plan = (.append rows, rows.length) ∧
      Fits c data records rows ∧ (givenTexts c records).Nodup := by
  have hplanned : t.planned c op sheet =
      rowsOf c records >>= fun rows => t.outline c sheet (.append rows) := by
    rw [planned, hop.asks, insertion]
    cases rowsOf c records with
    | error fault => rfl
    | ok rows => exact plan_append t c sheet rows
  rw [hplanned]
  constructor
  · intro h
    obtain ⟨rows, hrows, h⟩ := bind_eq_ok h
    obtain ⟨rfl, hnew⟩ := (outline_append_eq_ok_iff hseen).mp h
    obtain ⟨hrows, hgiven⟩ := (rowsOf_eq_ok_iff hrecords).mp hrows
    exact ⟨rows, rfl, ⟨hrows, textsIn_of_newRows hd hrows ▸ hnew⟩, hgiven⟩
  · rintro ⟨rows, rfl, ⟨hrows, hnew⟩, hgiven⟩
    rw [(rowsOf_eq_ok_iff hrecords).mpr ⟨hrows, hgiven⟩]
    exact (outline_append_eq_ok_iff hseen).mpr ⟨rfl, textsIn_of_newRows hd hrows ▸ hnew⟩

/-- Where no call fails, a creation appends the rows of its records if they fit and no identifier is given
twice; otherwise it fails, or raises a fault, and leaves the sheet alone. -/
theorem run_creation (K : Keeper party) (hw : Writable K t h) (hs : Ready c s) (hc : c.isEmpty = false)
    (hd : Distinct c.list) (hst : K.sound st) (htop : top.length = h)
    (hrows : (K.ledger st).rows = top ++ data) (hop : op.Creates records) (hrecords : records ≠ []) :
    let ended := run party (t.perform op) s st
    (∃ rows, (Fits c data records rows ∧ (givenTexts c records).Nodup) ∧
      ended.1 = .ok (op.outcome (.ok rows.length)) ∧
      (K.ledger ended.2.2).rows = top ++ (data ++ rows)) ∨
    ((¬ ∃ rows, Fits c data records rows ∧ (givenTexts c records).Nodup) ∧
      (∃ fault, ended.1 = .ok (op.outcome (.error fault)) ∨
        (rowsOf c records = .error fault ∧ ended.1 = .error fault)) ∧
      K.ledger ended.2.2 = K.ledger st) := by
  intro ended
  have hseen : t.grid.seen (K.ledger st).rows = .ok data := by
    rw [hrows]
    exact hw.seen_append htop data
  have hgiven : ∃ records, op.records = .ok records := ⟨records, hop.given⟩
  cases hplanned : t.planned c op (K.ledger st).rows with
  | ok plan =>
    obtain ⟨rows, rfl, hfits⟩ := (planned_eq_ok_iff hd hop hrecords hseen).mp hplanned
    obtain ⟨houtcome, hafter⟩ := run_of_planned K hw hs hc hop.writes hgiven hst hplanned id
    refine Or.inl ⟨rows, hfits, houtcome, hafter.trans ?_⟩
    rw [hrows, Revision.applied, List.append_assoc]
  | error fault =>
    obtain ⟨hledger, houtcome⟩ := run_of_unplanned K hw hs hc hop.writes hgiven hst hplanned
    refine Or.inr ⟨?_, ⟨fault, houtcome.imp_right fun h => ⟨?_, h.2.2⟩⟩, hledger⟩
    · rintro ⟨rows, hfits⟩
      have hok := (planned_eq_ok_iff hd hop hrecords hseen).mpr ⟨rows, rfl, hfits⟩
      rw [hplanned] at hok
      cases hok
    · have hintent := h.1
      rw [hop.asks, insertion] at hintent
      cases hrowsOf : rowsOf c records with
      | error fault =>
        rw [hrowsOf] at hintent
        cases hintent
        rfl
      | ok rows =>
        rw [hrowsOf] at hintent
        cases hintent

/-- Records are created at once if they fit and no identifier is given twice. -/
theorem run_createMany (K : Keeper party) (hw : Writable K t h) (hs : Ready c s)
    (hc : c.isEmpty = false) (hd : Distinct c.list) (hst : K.sound st) (htop : top.length = h)
    (hrows : (K.ledger st).rows = top ++ data) (hrecords : records ≠ []) :
    let ended := run party (t.perform (.createMany (.list records))) s st
    (ended.1 = .ok (.count records.length) ↔
      ∃ rows, Fits c data records rows ∧ (givenTexts c records).Nodup) ∧
    ∀ rows, Fits c data records rows → (givenTexts c records).Nodup →
      (K.ledger ended.2.2).rows = top ++ (data ++ rows) := by
  intro ended
  rcases run_creation K hw hs hc hd hst htop hrows (Operation.creates_createMany records) hrecords with
    ⟨rows, hfits, houtcome, hafter⟩ | ⟨hnone, ⟨fault, houtcome⟩, -⟩
  · have hcount : ended.1 = .ok (.count records.length) := by
      rw [← length_of_newRows hfits.1.rows]
      exact houtcome
    refine ⟨⟨fun _ => ⟨rows, hfits⟩, fun _ => hcount⟩, fun rows' hfits' _ => ?_⟩
    obtain rfl := hfits.1.unique hfits'
    exact hafter
  · refine ⟨⟨fun hcount => ?_, fun hfits => absurd hfits hnone⟩,
      fun rows hfits hgiven => absurd ⟨rows, hfits, hgiven⟩ hnone⟩
    rcases houtcome with houtcome | ⟨-, houtcome⟩
    · have hzero := Outcome.count.inj (Except.ok.inj (houtcome.symm.trans hcount))
      exact absurd (List.length_eq_zero_iff.mp hzero.symm) hrecords
    · cases houtcome.symm.trans hcount

/-! ## One by one -/

theorem run_mapM_cons (party : Party σ) (f : α → Act β) (a : α) (rest : List α) (s : Session) (st : σ) :
    run party ((a :: rest).mapM f) s st =
      match run party (f a) s st with
      | (.ok b, s', st') =>
        ((run party (rest.mapM f) s' st').1.map (b :: ·), (run party (rest.mapM f) s' st').2)
      | (.error fault, s', st') => (.error fault, s', st') := by
  rw [List.mapM_cons, run_bind]
  rcases run party (f a) s st with ⟨fault | b, s', st'⟩
  · rfl
  · dsimp only
    rw [run_bind]
    rcases run party (rest.mapM f) s' st' with ⟨fault | bs, s'', st''⟩ <;> rfl

theorem map_cons_eq_ok_iff {e : Except Fault (List β)} {b b' : β} {bs : List β} :
    e.map (b :: ·) = .ok (b' :: bs) ↔ b = b' ∧ e = .ok bs := by
  cases e <;> simp [Except.map]

/-- All records are created one by one if they fit and no identifier is written twice. -/
theorem run_creates (K : Keeper party) (hw : Writable K t h) (hs : Ready c s) (hc : c.isEmpty = false)
    (hd : Distinct c.list) (hst : K.sound st) (htop : top.length = h)
    (hrows : (K.ledger st).rows = top ++ data) (records : List Value) :
    let ended := run party (records.mapM fun record => t.perform (.create record)) s st
    (ended.1 = .ok (records.map fun _ => .done true) ↔
      ∃ rows, Fits c data records rows ∧ (writtenTexts c records).Nodup) ∧
    ∀ rows, Fits c data records rows → (writtenTexts c records).Nodup →
      (K.ledger ended.2.2).rows = top ++ (data ++ rows) := by
  induction records generalizing s st data with
  | nil =>
    have hnodup : (writtenTexts c []).Nodup := by
      rw [writtenTexts_nil]
      exact List.nodup_nil
    refine ⟨⟨fun _ => ⟨[], fits_nil_iff.mpr rfl, hnodup⟩, fun _ => rfl⟩, fun rows hfits _ => ?_⟩
    rw [fits_nil_iff.mp hfits, List.append_nil]
    exact hrows
  | cons record rest ih =>
    dsimp only
    rw [run_mapM_cons, List.map_cons]
    have hop := Operation.creates_create record
    have hready := run_ready K t hs hc hop.writes hst
    have hcreated := run_creation K hw hs hc hd hst htop hrows hop (List.cons_ne_nil _ _)
    rcases hran : run party (t.perform (.create record)) s st with ⟨r, s', st'⟩
    rw [hran] at hready hcreated
    rcases hcreated with ⟨rows, ⟨hfits, -⟩, hr, hafter⟩ | ⟨hnone, ⟨fault, hr⟩, -⟩
    · -- The row is there, and the others are created after it.
      obtain rfl : r = .ok (.done true) := hr
      obtain ⟨row, rfl⟩ := hfits.exists_eq_singleton
      obtain ⟨hall, hended⟩ := ih hready.1 hready.2 hafter
      dsimp only
      rw [map_cons_eq_ok_iff, and_iff_right rfl, hall]
      refine ⟨⟨?_, ?_⟩, ?_⟩
      · rintro ⟨more, hmore, hnodup⟩
        exact ⟨row :: more, (fits_cons_iff hd).mpr ⟨row, more, rfl, hfits, hmore, hnodup⟩⟩
      · rintro ⟨rows, hfits'⟩
        obtain ⟨row', more, -, hrow', hmore, hnodup⟩ := (fits_cons_iff hd).mp hfits'
        obtain rfl := List.singleton_inj.mp (hfits.unique hrow')
        exact ⟨more, hmore, hnodup⟩
      · intro rows hfits' hnodup'
        obtain ⟨row', more, rfl, hrow', hmore, hnodup⟩ := (fits_cons_iff hd).mp ⟨hfits', hnodup'⟩
        obtain rfl := List.singleton_inj.mp (hfits.unique hrow')
        rw [hended more hmore hnodup, List.append_assoc]
        rfl
    · -- The first record does not fit, so that not all of them do.
      have hunfit : ∀ rows, ¬ (Fits c data (record :: rest) rows ∧
          (writtenTexts c (record :: rest)).Nodup) := by
        intro rows hfits
        obtain ⟨row, -, -, hrow, -⟩ := (fits_cons_iff hd).mp hfits
        exact hnone ⟨[row], hrow, nodup_givenTexts_singleton c record⟩
      refine ⟨⟨fun hall => ?_, fun ⟨rows, hfits⟩ => absurd hfits (hunfit rows)⟩,
        fun rows hfits hnodup => absurd ⟨hfits, hnodup⟩ (hunfit rows)⟩
      rcases hr with hr | ⟨-, hr⟩
      · obtain rfl : r = .ok (.done false) := hr
        dsimp only at hall
        exact nomatch (map_cons_eq_ok_iff.mp hall).1
      · obtain rfl : r = .error fault := hr
        cases hall

/-! ## Columns that are kept or fetched -/

section

variable (hop : op.Creates records) (hrecords : records ≠ [])
include hop hrecords

/-- What a creation does depends on how it comes by the columns, and on what is so then. -/
theorem run_creation_congr {s' : Session} {st' : σ}
    (h : run party t.requireColumns s st = run party t.requireColumns s' st') :
    run party (t.perform op) s st = run party (t.perform op) s' st' :=
  (hop.checksFirst hrecords t).run_congr h

/-- Without columns no record is created. -/
theorem run_creation_of_error {fault : Fault} (h : (run party t.requireColumns s st).1 = .error fault) :
    (∃ fault, (run party (t.perform op) s st).1 = .error fault) ∨
      ∃ fault, (run party (t.perform op) s st).1 = .ok (op.outcome (.error fault)) := by
  rw [((hop.checksFirst hrecords t).run_of_error h).1]
  split
  · exact Or.inr ⟨fault, rfl⟩
  · exact Or.inl ⟨fault, rfl⟩

end

theorem run_creates_congr (hrecords : records ≠ []) {s' : Session} {st' : σ}
    (h : run party t.requireColumns s st = run party t.requireColumns s' st') :
    run party (records.mapM fun record => t.perform (.create record)) s st =
      run party (records.mapM fun record => t.perform (.create record)) s' st' := by
  obtain ⟨record, rest, rfl⟩ := List.exists_cons_of_ne_nil hrecords
  rw [run_mapM_cons, run_mapM_cons,
    run_creation_congr (Operation.creates_create record) (List.cons_ne_nil _ _) h]

/-- Where there are no columns, not all records are created one by one. -/
theorem creates_of_error (hrecords : records ≠ []) {fault : Fault}
    (h : (run party t.requireColumns s st).1 = .error fault) :
    (run party (records.mapM fun record => t.perform (.create record)) s st).1 ≠
      .ok (records.map fun _ => .done true) := by
  obtain ⟨record, rest, rfl⟩ := List.exists_cons_of_ne_nil hrecords
  have hfirst := run_creation_of_error (Operation.creates_create record) (List.cons_ne_nil _ _) h
  rw [run_mapM_cons, List.map_cons]
  rcases hran : run party (t.perform (.create record)) s st with ⟨r, s', st'⟩
  rw [hran] at hfirst
  rcases hfirst with ⟨fault, hr⟩ | ⟨fault, hr⟩
  · obtain rfl : r = .error fault := hr
    exact fun hall => nomatch hall
  · obtain rfl : r = .ok (.done false) := hr
    dsimp only
    rw [ne_eq, map_cons_eq_ok_iff]
    exact fun hall => nomatch hall.1

/-- Where no call fails, and whatever columns are kept: records are created at once if and only if all of
them are created one by one, and then the sheet is the same. This is so if the identifiers are distinct
as they are given just when they are distinct as they are written. -/
theorem createMany_iff_creates (K : Keeper party) (hw : Writable K t h) (hpending : s.pending = [])
    (hkept : ∀ c, s.columns = some c → Distinct c.list) (hst : K.sound st) (htop : top.length = h)
    (hrows : (K.ledger st).rows = top ++ data) (hrecords : records ≠ [])
    (hsame : ∀ c, (run party t.requireColumns s st).1 = .ok c →
      ((givenTexts c records).Nodup ↔ (writtenTexts c records).Nodup)) :
    let many := run party (t.perform (.createMany (.list records))) s st
    let each := run party (records.mapM fun record => t.perform (.create record)) s st
    (many.1 = .ok (.count records.length) ↔ each.1 = .ok (records.map fun _ => .done true)) ∧
      (many.1 = .ok (.count records.length) →
        (K.ledger many.2.2).rows = (K.ledger each.2.2).rows) := by
  have hmany := Operation.creates_createMany records
  have hrequired := meets_protocol.mp (meets_requireColumns_distinct K t st hpending hkept)
  rcases hran : run party t.requireColumns s st with ⟨fault | c, s', st'⟩
  · have hnone : (run party (t.perform (.createMany (.list records))) s st).1 ≠
        .ok (.count records.length) := by
      rcases run_creation_of_error hmany hrecords (congrArg Prod.fst hran) with ⟨_, hr⟩ | ⟨_, hr⟩
      · rw [hr]
        exact fun hcount => nomatch hcount
      · rw [hr]
        intro hcount
        have hzero := Outcome.count.inj (Except.ok.inj hcount)
        exact hrecords (List.length_eq_zero_iff.mp hzero.symm)
    exact ⟨⟨fun h => absurd h hnone,
      fun h => absurd h (creates_of_error hrecords (congrArg Prod.fst hran))⟩, fun h => absurd h hnone⟩
  · rw [hran] at hrequired hsame
    obtain ⟨⟨hdistinct, hspared⟩, hrequires⟩ := hrequired
    have hkept' : s'.columns = some c ∧ c.isEmpty = false := by
      generalize hcolumns : s'.columns = o at hrequires
      cases hrequires with
      | kept hempty => exact ⟨rfl, hempty⟩
    have hagain : run party t.requireColumns s st = run party t.requireColumns s' st' :=
      hran.trans (run_requireColumns_of_kept party t hkept'.1 hkept'.2 st').symm
    have hs : Ready c s' := ⟨hkept'.1, hspared.pending⟩
    have hd : Distinct c.list := hdistinct c hkept'.1
    have hst' : K.sound st' := hspared.reached.sound K hst
    have hrows' : (K.ledger st').rows = top ++ data := (congrArg Ledger.rows hspared.ledger).trans hrows
    dsimp only
    rw [run_creation_congr hmany hrecords hagain, run_creates_congr hrecords hagain]
    obtain ⟨hall, hafter⟩ := run_createMany K hw hs hkept'.2 hd hst' htop hrows' hrecords
    obtain ⟨heach, hafter'⟩ := run_creates K hw hs hkept'.2 hd hst' htop hrows' records
    rw [hall, heach, hsame c rfl]
    refine ⟨Iff.rfl, ?_⟩
    rintro ⟨rows, hfits, hwritten⟩
    rw [hafter rows hfits ((hsame c rfl).mpr hwritten), hafter' rows hfits hwritten]

/-- The columns of the users. -/
def userColumns : List Json.Document := [
  .object [("id", .text "A"), ("label", .text "id"), ("type", .text "string")],
  .object [("id", .text "B"), ("label", .text "Name"), ("type", .text "string")]]

open Sample Response in
/-- The columns are fetched first; one identifier has white space before it. -/
theorem createMany_iff_creates_users :
    let party := Scripted.party fun _ => false
    let K : Keeper party := Scripted.keeper fun _ => false
    let t := table (.int 30000)
    let st : Scripted := ⟨⟨rows, []⟩, [], [], [tableAnswer userColumns []]⟩
    let records := [user "e3" "Carol", user " e4" "Dave"]
    let many := run party (t.perform (.createMany (.list records))) .fresh st
    let each := run party (records.mapM fun record => t.perform (.create record)) .fresh st
    Rows.identifiers 0 ((K.ledger many.2.2).rows.drop 1) =
      [("e1" : String), ("e2" : String), ("e3" : String), (" e4" : String)].map Text.ofString ∧
    (many.1 = .ok (.count records.length) ↔ each.1 = .ok (records.map fun _ => .done true)) ∧
      (many.1 = .ok (.count records.length) →
        (K.ledger many.2.2).rows = (K.ledger each.2.2).rows) := by
  intro party K t st records
  have hanswer : Columns.ofAnswer (tableAnswer userColumns []) t.identifier = .ok columns :=
    (hasTable_tableAnswer userColumns []).ofAnswer_eq _
  have ht : Describes party t columns st := by
    refine Scripted.describes rfl fun v hv fetched hfetched => ?_
    rw [List.mem_singleton.mp hv, hanswer] at hfetched
    cases hfetched
    rfl
  have hcalm : Calm K columns st (K.ledger st) .fresh st := ⟨⟨Or.inl rfl, rfl⟩, rfl, .refl⟩
  have hsame : ∀ c, (run party t.requireColumns .fresh st).1 = .ok c →
      ((givenTexts c records).Nodup ↔ (writtenTexts c records).Nodup) := by
    intro c hc
    obtain ⟨-, ⟨hrun, -⟩ | ⟨fault, hrun⟩⟩ := meets_protocol.mp (meets_requireColumns ht hcalm)
    · cases hc.symm.trans hrun
      decide +kernel
    · cases hc.symm.trans hrun
  have hst : K.sound st := ⟨fun _ h => (nomatch h), fun _ h => nomatch h⟩
  have hrows : (K.ledger st).rows = [row "id" "Name"] ++ [row "e1" "Alice", row "e2" "Bob"] := rfl
  have hkept : ∀ c, Session.fresh.columns = some c → Distinct c.list := fun _ h => nomatch h
  have htop : [row "id" "Name"].length = 1 := rfl
  have hrecords : records ≠ [] := List.cons_ne_nil _ _
  have hpending : Session.fresh.pending = [] := rfl
  have hw : Writable K t 1 := Writable.sample
  exact ⟨by decide +kernel,
    createMany_iff_creates K hw hpending hkept hst htop hrows hrecords hsame⟩

open Sample in
/-- Two identifiers that differ in white space alone are one identifier to a creation at once, and two to
a creation one by one. -/
theorem creates_padded_identifiers :
    let party := Scripted.party fun _ => false
    let t := table (.int 30000)
    let records := [user "e9" "Bob", user " e9" "Bob"]
    (run party (t.perform (.createMany (.list records))) session (.ofRows rows)).1 = .ok (.count 0) ∧
    (run party (records.mapM fun record => t.perform (.create record)) session (.ofRows rows)).1 =
      .ok [.done true, .done true] := by
  intro party t records
  refine ⟨rfl, ?_⟩
  let K := Scripted.keeper fun _ => false
  have hs : Ready columns session := ⟨rfl, rfl⟩
  have hread : Columns.ofDescriptors descriptors t.identifier = .ok columns := rfl
  have hst : K.sound (.ofRows rows) := ⟨fun _ h => (nomatch h), fun _ h => nomatch h⟩
  have htop : [row "id" "Name"].length = 1 := rfl
  have hrows : (K.ledger (.ofRows rows)).rows =
      [row "id" "Name"] ++ [row "e1" "Alice", row "e2" "Bob"] := rfl
  have hnew : ∀ text ∈ textsIn columns [row "e1" "Alice", row "e2" "Bob"],
      text ∉ writtenTexts columns records := by decide +kernel
  have hfits : Fits columns [row "e1" "Alice", row "e2" "Bob"] records
      [row "e9" "Bob", row " e9" "Bob"] := ⟨rfl, fun text h h' => hnew text h h'⟩
  exact (run_creates K Writable.sample hs rfl (distinct_ofDescriptors hread) hst htop hrows records).1.mpr
    ⟨_, hfits, by decide +kernel⟩

end Table

end RowStore
