import RowStore.Proofs.Grid.Confined
import RowStore.Proofs.Table.Fetched
import RowStore.Proofs.Table.Input
import RowStore.Proofs.Table.Queries

/-!
# What an operation asks about the columns

* `Table.told`, `Table.asking` : what the query for the columns is answered from a session that keeps
  none, and what is sent for it; `Table.built` : the columns that an answer describes;
* `Consulted renews reads` : the kept columns are as they were, or, if the act `renews` them, they are
  what is built from the answer it is told; it has sent what was asked for that, and then, if it `reads`,
  what one read sends;
* `Consults party t renews reads m` : so does the act `m`, from every session; one rule for each step of
  an act;
* `Operation.renews`, `Operation.reads` : what of this an operation does; `Consults.perform` : it does
  it.
-/

namespace RowStore

open Act Query

variable {α β σ : Type} {party : Party σ} {t : Table}

/-- The columns that a session keeps, if there are any among them. -/
def Session.held (s : Session) : Option Columns := s.columns.filter (!·.isEmpty)

theorem Session.held_eq_some {s : Session} {c : Columns} :
    s.held = some c ↔ s.columns = some c ∧ c.isEmpty = false := by
  simp [held, Option.filter_eq_some_iff]

namespace Table

/-- What the query for the columns is answered, from a session that keeps none. -/
def told (party : Party σ) (t : Table) (s : Session) (st : σ) : Except Fault Value :=
  (run party (t.fetch columnsQuery) ⟨none, s.pending, s.notes⟩ st).1

/-- The queries that are sent for it. -/
def asking (party : Party σ) (t : Table) (s : Session) (st : σ) : List Text :=
  queries party (t.fetch columnsQuery) ⟨none, s.pending, s.notes⟩ st

/-- The columns that an answer describes, if it is one and describes columns. -/
def built (t : Table) (answer : Except Fault Value) : Option Columns :=
  (answer >>= fun a => Columns.ofAnswer a t.identifier).toOption

/-- The queries that one read sends. -/
def IsRead (party : Party σ) (t : Table) (sent : List Text) : Prop :=
  ∃ query s st, sent = queries party (t.read query) s st

/-- At most one query is sent for the columns, and no other one. -/
theorem maySend_asking (party : Party σ) (t : Table) (s : Session) (st : σ) :
    t.MaySend columnsQuery (t.asking party s st) := by
  obtain ⟨-, sent, hsent, hmay⟩ :=
    meets_sending.mp (SendsOne.fetch t columnsQuery ⟨none, s.pending, s.notes⟩ (st, []))
  rwa [asking, show queries party _ _ st = sent from hsent]

/-- A read sends at most one query. -/
theorem IsRead.length_le {sent : List Text} (h : t.IsRead party sent) : sent.length ≤ 1 := by
  obtain ⟨query, s, st, rfl⟩ := h
  obtain ⟨-, sent, hsent, hmay⟩ := meets_sending.mp (SendsOne.read t query s (st, []))
  obtain rfl : queries party (t.read query) s st = sent := hsent
  exact hmay.length_le

end Table

/-! ## Operations -/

/-- A mapping that is not empty. -/
def Value.hasEntries : Value → Bool
  | .mapping (_ :: _) => true
  | _ => false

theorem Value.hasEntries_eq_false {v : Value} (h : ∀ e rest, v = .mapping (e :: rest) → False) :
    v.hasEntries = false := by
  unfold hasEntries
  split
  · exact (h _ _ rfl).elim
  · rfl

namespace Operation

/-- Whether an operation gets to ask for the columns: some refuse their arguments first. -/
def consults : Operation → Bool
  | findById id | updateById id _ | deleteById id => Table.mayIdentify id
  | find conditions => conditions.hasEntries
  | findMany request => (Descriptor.requested request).isOk
  | createMany records => records.eachGiven.isOk
  | toFrame records => records.isNull
  | getAll | query _ | create _ | update .. | updateMany .. | delete _ | deleteMany _ => true
  | clearData | refresh | invalidate | columns => false

/-- Whether an operation in a session fetches the columns anew. -/
def renews : Operation → Session → Bool
  | refresh, _ => true
  | op, s => op.consults && s.held.isNone

/-- Whether an operation may send a query besides the one for the columns. -/
def reads : Operation → Bool
  | findById _ | find _ | findMany _ | getAll | query _ => true
  | toFrame records => records.isNull
  | _ => false

end Operation

/-! ## Acts -/

/-- How the kept columns and the queries sent have changed. -/
structure Consulted (party : Party σ) (t : Table) (renews reads : Bool) (s : Session)
    (x : σ × List Text) (s' : Session) (x' : σ × List Text) : Prop where
  columns : s'.columns = if renews then t.built (t.told party s x.1) else s.columns
  sent : ∃ data, x'.2 = x.2 ++ (if renews then t.asking party s x.1 else []) ++ data ∧
    (data = [] ∨ reads = true ∧ t.IsRead party data)

namespace Consulted

variable {renews reads : Bool} {s s₁ s' : Session} {x x₁ x' : σ × List Text}

theorem refl (reads : Bool) (s : Session) (x : σ × List Text) :
    Consulted party t false reads s x s x :=
  ⟨rfl, [], by simp, Or.inl rfl⟩

/-- What is read is read after the columns are there. -/
theorem trans (h : Consulted party t renews false s x s₁ x₁)
    (h' : Consulted party t false reads s₁ x₁ s' x') : Consulted party t renews reads s x s' x' := by
  obtain ⟨_, hx₁, rfl | ⟨⟨⟩, -⟩⟩ := h.sent
  obtain ⟨data, hx', hdata⟩ := h'.sent
  refine ⟨h'.columns.trans h.columns, data, ?_, hdata⟩
  rw [hx', hx₁]
  simp

/-- Then nothing more is sent, and the kept columns stay. -/
theorem then_same (h : Consulted party t renews reads s x s₁ x₁) (hc : s'.columns = s₁.columns)
    (hx : x'.2 = x₁.2) : Consulted party t renews reads s x s' x' :=
  ⟨hc.trans h.columns, hx ▸ h.sent⟩

end Consulted

/-- From every session an act renews the columns where `renews` says so, and then it reads once at
most. -/
def Consults (party : Party σ) (t : Table) (renews : Session → Bool) (reads : Bool) (m : Act α) :
    Prop :=
  ∀ s x, Meets party.sending m s x fun _ s' x' => Consulted party t (renews s) reads s x s' x'

/-- An act that does not renew the columns. -/
abbrev Spends (party : Party σ) (t : Table) (reads : Bool) (m : Act α) : Prop :=
  Consults party t (fun _ => false) reads m

theorem Request.queries_of_asksSheet {r : Request α} (h : r.AsksSheet) : r.queries = [] := by
  cases r with
  | query | get => exact h.elim False.elim False.elim
  | _ => rfl

namespace Consults

variable {renews : Session → Bool} {reads : Bool}

theorem of_silent {m : Act α} (hm : Silent party m) : Spends party t reads m :=
  fun s x => (hm s x).mono fun _ _ _ ⟨hc, _, hx⟩ => (Consulted.refl reads s x).then_same hc hx

/-- What is asked about the sheet and its lock is no query. -/
theorem of_confined {m : Act α} (hm : Confined Request.AsksSheet m) : Spends party t reads m := by
  intro s x
  have hsent : queries party m s x.1 = [] :=
    (queries_eq_trace party m s x.1).trans
      (hm.trace_eq_nil (fun _ => Request.queries_of_asksSheet) s x.1)
  refine meets_sending.mpr ((Consulted.refl reads s x).then_same (hm.columns_run s x.1) ?_)
  exact (congrArg (x.2 ++ ·) hsent).trans (List.append_nil _)

theorem bind {m : Act α} {f : α → Act β} (hm : Consults party t renews false m)
    (hf : ∀ a, Spends party t reads (f a)) : Consults party t renews reads (m >>= f) := by
  intro s x
  rw [meets_bind]
  refine (hm s x).mono ?_
  rintro (fault | a) s₁ x₁ h
  · exact h.trans (.refl reads s₁ x₁)
  · exact (hf a s₁ x₁).mono fun _ _ _ h' => h.trans h'

theorem then_silent {m : Act α} {f : α → Act β} (hm : Consults party t renews reads m)
    (hf : ∀ a, Silent party (f a)) : Consults party t renews reads (m >>= f) := by
  intro s x
  rw [meets_bind]
  refine (hm s x).mono ?_
  rintro (fault | a) s₁ x₁ h
  · exact h
  · exact (hf a s₁ x₁).mono fun _ _ _ ⟨hc, _, hx⟩ => h.then_same hc hx

/-- What is made of the value of an act. -/
theorem mapped {m : Act α} (hm : Consults party t renews reads m) (f : α → β) :
    Consults party t renews reads (do return f (← m)) := hm.then_silent fun _ => Leaves.pure _

theorem catching {m : Act α} (hm : Consults party t renews reads m) (holds : Fault.Kind → Bool)
    (level : NoteLevel) (label : String) :
    Consults party t renews reads (Table.catching holds level label m) := by
  have hobserved : Consults party t renews reads (Act.observe m) := by
    intro s x
    rw [meets_observe]
    exact hm s x
  refine hobserved.then_silent fun r => ?_
  cases r with
  | ok a => exact Leaves.pure _
  | error fault =>
    dsimp only
    split
    · exact (Leaves.note _ _).bind fun _ => Leaves.pure _
    · exact Leaves.throw _

theorem congr {m : Act α} {renews' : Session → Bool} (hm : Consults party t renews reads m)
    (h : ∀ s, renews' s = renews s) : Consults party t renews' reads m := by
  obtain rfl : renews' = renews := funext h
  exact hm

/-! ## Columns -/

/-- What is answered and what is built from it, from a session that keeps no columns. -/
theorem meets_built (party : Party σ) (t : Table) (s : Session) (x : σ × List Text) :
    Meets party.sending (do
    let answer ← t.fetch Table.columnsQuery
    Columns.ofAnswer answer t.identifier) ⟨none, s.pending, s.notes⟩ x fun r s' x' =>
      s'.columns = none ∧ r.toOption = t.built (t.told party s x.1) ∧
        x'.2 = x.2 ++ t.asking party s x.1 := by
  have htold : Meets party.sending (t.fetch Table.columnsQuery) ⟨none, s.pending, s.notes⟩ x
      fun r _ x' => r = t.told party s x.1 ∧ x'.2 = x.2 ++ t.asking party s x.1 :=
    meets_sending.mpr ⟨rfl, rfl⟩
  rw [meets_bind]
  refine ((SendsOne.fetch t _ _ x).and htold).mono ?_
  rintro (fault | answer) s' x' ⟨⟨hc, -⟩, hr, hx⟩
  · exact ⟨hc, by rw [← hr]; rfl, hx⟩
  · dsimp only
    rw [meets_liftExcept]
    exact ⟨hc, by rw [← hr]; rfl, hx⟩

theorem fetchColumns : Consults party t (fun _ => true) false t.fetchColumns := by
  intro s x
  rw [Table.fetchColumns, meets_bind, meets_setColumns]
  dsimp only
  rw [meets_bind, Table.catching, meets_bind, meets_observe]
  refine (meets_built party t s x).mono ?_
  rintro (fault | c) s' x' ⟨hc, hbuilt, hx⟩
  · have h : Consulted party t true false s x s' x' :=
      ⟨hc.trans hbuilt, [], hx.trans (List.append_nil _).symm, Or.inl rfl⟩
    dsimp only
    split
    · exact h.then_same rfl rfl
    · exact h
  · dsimp only
    rw [meets_pure]
    dsimp only
    rw [meets_bind]
    refine (meets_noteColumns c s' x').mono ?_
    rintro _ s'' x'' ⟨rfl, -, -, rfl⟩
    exact ⟨hbuilt, [], hx.trans (List.append_nil _).symm, Or.inl rfl⟩

theorem getColumns : Consults party t (fun s => s.held.isNone) false t.getColumns := by
  intro s x
  rw [Table.getColumns, meets_bind, meets_columns]
  dsimp only
  split
  · rename_i c hc
    have hheld : s.held = some c := hc
    rw [hheld]
    exact .refl false s x
  · rename_i hc
    have hheld : s.held = none := hc
    rw [hheld]
    exact fetchColumns s x

theorem knownColumns : Consults party t (fun s => s.held.isNone) false t.knownColumns :=
  getColumns.mapped _

theorem requireColumns : Consults party t (fun s => s.held.isNone) false t.requireColumns := by
  refine knownColumns.then_silent fun o => ?_
  split
  · exact Leaves.pure _
  · exact Leaves.throw _

/-- The columns that are required are held. -/
theorem meets_requireColumns_held (s : Session) (x : σ × List Text) :
    Meets party.sending t.requireColumns s x fun r s' _ => ∀ c, r = .ok c → s'.held = some c := by
  have hanswered := (meets_built party t s x).mono fun r s' x' h =>
    (⟨h.1, trivial, by cases r <;> trivial⟩ :
      s'.columns = none ∧ True ∧ Ends (fun _ => True) (fun _ => True) r)
  refine (meets_requireColumns_of_answered (F := fun _ _ => True) hanswered
    ⟨fun _ _ => trivial, trivial⟩).mono ?_
  rintro r s' x' ⟨-, hrequires⟩ c rfl
  generalize hc : s'.columns = o at hrequires
  cases hrequires with
  | kept hempty => exact Session.held_eq_some.mpr ⟨hc, hempty⟩

theorem requireIdentifier (id : Value) :
    Consults party t (fun s => Table.mayIdentify id && s.held.isNone) false
      (t.requireIdentifier id) := by
  cases hid : Table.mayIdentify id with
  | false =>
    rw [Table.requireIdentifier_of_not_mayIdentify hid]
    exact of_silent (Leaves.throw _)
  | true =>
    rw [Table.requireIdentifier_of_mayIdentify hid]
    refine (requireColumns.then_silent fun c => ?_).congr fun s => Bool.true_and _
    split
    · exact Leaves.pure _
    · exact Leaves.throw _

theorem requireConditions (conditions : Value) :
    Consults party t (fun s => conditions.hasEntries && s.held.isNone) false
      (t.requireConditions conditions) := by
  unfold Table.requireConditions
  split
  · refine (requireColumns.then_silent fun c => ?_).congr fun s => Bool.true_and _
    dsimp only
    split
    · exact Leaves.pure _
    · exact Leaves.throw _
  · rename_i hconditions
    rw [Value.hasEntries_eq_false hconditions]
    exact of_silent (Leaves.throw _)

/-! ## Reads -/

theorem read (t : Table) (query : Text) : Spends party t true (t.read query) := by
  intro s x
  have hsent : Meets party.sending (t.read query) s x fun _ _ x' =>
      x'.2 = x.2 ++ queries party (t.read query) s x.1 := meets_sending.mpr rfl
  refine ((SendsOne.read t query s x).and hsent).mono ?_
  rintro r s' x' ⟨⟨hc, -⟩, hx⟩
  refine ⟨hc, _, ?_, Or.inr ⟨rfl, query, s, x.1, rfl⟩⟩
  rw [hx]
  simp

theorem findFirst (t : Table) (operation : String) (conditions : Entries Value) :
    Spends party t true (t.findFirst operation conditions) := by
  refine (of_silent Leaves.columns).bind fun c => (of_silent (Leaves.liftNoted _)).bind fun query => ?_
  refine (read t query).then_silent fun r => ?_
  split
  · exact Leaves.pure _
  · exact (Leaves.note _ _).bind fun _ => Leaves.pure _
  · exact Leaves.pure _

theorem findById (id : Value) :
    Consults party t (Operation.findById id).renews true (t.findById id) := by
  refine ((requireIdentifier id).catching _ _ _).bind fun r => ?_
  split
  · exact findFirst t _ _
  · exact of_silent (Leaves.pure _)

theorem find (conditions : Value) :
    Consults party t (Operation.find conditions).renews true (t.find conditions) := by
  refine ((requireConditions conditions).catching _ _ _).bind fun r => ?_
  split
  · exact findFirst t _ _
  · exact of_silent (Leaves.pure _)

theorem findMany (request : Value) :
    Consults party t (Operation.findMany request).renews true (t.findMany request) := by
  have hrenews : ∀ s, (Operation.findMany request).renews s =
    ((Descriptor.requested request).isOk && s.held.isNone) := fun _ => rfl
  rw [Table.findMany, Table.catchingRefusal]
  cases hrequest : Descriptor.requested request with
  | error fault =>
    intro s x
    rw [hrenews, hrequest, meets_bind, Table.catching, meets_bind, meets_observe, meets_liftExcept]
    dsimp only
    split
    · exact (Consulted.refl true s x).then_same rfl rfl
    · exact .refl true s x
  | ok d =>
    have hread : Consults party t (fun s => s.held.isNone) true (do
        let query ← compile (← t.knownColumns) d
        return (← t.read query).toOption) :=
      knownColumns.bind fun c => (of_silent (Leaves.liftNoted _)).bind fun query =>
        (read t query).mapped _
    refine hread.congr fun s => ?_
    rw [hrenews, hrequest]
    exact Bool.true_and _

theorem getAll : Consults party t Operation.getAll.renews true t.getAll := (findMany .null).mapped _

theorem query (text : Value) : Consults party t (Operation.query text).renews true (t.query text) := by
  have hresolved : Consults party t (fun s => s.held.isNone) false (do
      let columns ← t.knownColumns
      Bracket.resolve columns text) := knownColumns.then_silent fun c => Leaves.liftExcept _
  refine ((hresolved.catching _ _ _).bind fun r => ?_).congr fun s => Bool.true_and _
  split
  · exact (read t _).mapped _
  · exact of_silent (Leaves.pure _)

theorem toFrame (records : Value) :
    Consults party t (Operation.toFrame records).renews records.isNull (t.toFrame records) := by
  have hframe : ∀ v : Value, Silent party (do
      let headers := ((← Act.columns).map Columns.headers).getD []
      Frame.ofValue v headers) := fun v => Leaves.columns.bind fun _ => Leaves.liftExcept _
  unfold Table.toFrame
  split
  · exact getAll.then_silent fun _ => (Leaves.pure _).bind hframe
  · rename_i hrecords
    have hnull : records.isNull = false := by
      unfold Value.isNull
      split
      · exact (hrecords rfl).elim
      · rfl
    refine (of_silent ((Leaves.pure _).bind hframe)).congr fun s => ?_
    change (records.isNull && s.held.isNone) = false
    rw [hnull, Bool.false_and]

/-! ## Writes -/

/-- A locked write sends no query. -/
theorem write (t : Table) (operation done : String) {action : Act Nat}
    (haction : Confined Request.AsksGrid action) :
    Spends party t false (t.write operation done action) := by
  have hexecuted := Confined.execute t.writer operation (haction.mono fun _ => Or.inl)
  refine (of_confined hexecuted).then_silent fun r => ?_
  have hnoted : Silent party (Table.noteCount operation done r) := by
    cases r with
    | error fault => exact Leaves.pure ()
    | ok n => exact Leaves.note _ _
  exact hnoted.bind fun _ => Leaves.pure _

theorem clearData : Spends party t false t.clearData := by
  refine (of_confined (Confined.execute t.writer _ (Confined.queue _))).then_silent fun r => ?_
  split
  · exact (Leaves.note _ _).bind fun _ => Leaves.pure _
  · exact Leaves.pure _

/-- A write whose input is checked against the columns first. -/
theorem checked {γ : Type} (operation : String) {k : Columns → Act γ} (hk : ∀ c, Silent party (k c))
    {g : Except Fault γ → Act (Except Fault Nat)} (hg : ∀ r, Spends party t false (g r)) :
    Consults party t (fun s => s.held.isNone) false
      (Table.catchingRefusal operation (t.requireColumns >>= k) >>= g) :=
  ((requireColumns.then_silent hk).catching _ _ _).bind hg

theorem insert (operation : String) (records : List Value) :
    Consults party t (fun s => s.held.isNone) false (t.insert operation records) := by
  refine checked operation (fun c => (Leaves.liftNoted _).bind fun _ => Leaves.pure _) fun r => ?_
  cases r with
  | error fault => exact of_silent (Leaves.pure _)
  | ok p => exact write t _ _ (Confined.appendRows t p.1 p.2)

theorem change (operation : String) (conditions fields : Value) (firstOnly : Bool) :
    Consults party t (fun s => s.held.isNone) false
      (t.change operation conditions fields firstOnly) := by
  refine checked operation (fun c => (Leaves.liftExcept _).bind fun _ =>
    (Leaves.liftNoted _).bind fun _ => Leaves.pure _) fun r => ?_
  cases r with
  | error fault => exact of_silent (Leaves.pure _)
  | ok p => exact write t _ _ (Confined.setFields t p.1 p.2 conditions firstOnly)

theorem erase (operation : String) (conditions : Value) (firstOnly : Bool) :
    Consults party t (fun s => s.held.isNone) false (t.erase operation conditions firstOnly) := by
  refine checked operation (fun c => (Leaves.liftExcept _).bind fun _ => Leaves.pure _) fun r => ?_
  cases r with
  | error fault => exact of_silent (Leaves.pure _)
  | ok c => exact write t _ _ (Confined.deleteRows t c conditions firstOnly)

/-- If there is a header for the identifier, columns are held. -/
theorem meets_requireIdentifier_held (id : Value) (s : Session) (x : σ × List Text) :
    Meets party.sending (t.requireIdentifier id) s x fun r s' _ =>
      ∀ header, r = .ok header → s'.held.isNone = false := by
  cases hid : Table.mayIdentify id with
  | false =>
    rw [Table.requireIdentifier_of_not_mayIdentify hid]
    rintro header ⟨⟩
  | true =>
    rw [Table.requireIdentifier_of_mayIdentify hid, meets_bind]
    refine (meets_requireColumns_held s x).mono ?_
    rintro (fault | c) s' x' hheld
    · rintro header ⟨⟩
    · dsimp only
      split
      · intro header _
        rw [hheld c rfl]
        rfl
      · rintro header ⟨⟩

theorem identifierCondition (operation : String) (id : Value) :
    Consults party t (fun s => Table.mayIdentify id && s.held.isNone) false
      (t.identifierCondition operation id) := by
  refine ((requireIdentifier id).catching _ _ _).then_silent fun r => ?_
  split <;> exact Leaves.pure _

/-- If there is a condition on the identifier, columns are held. -/
theorem meets_identifierCondition_held (operation : String) (id : Value) (s : Session)
    (x : σ × List Text) : Meets party.sending (t.identifierCondition operation id) s x
      fun r s' _ => ∀ condition, r = .ok (some condition) → s'.held.isNone = false := by
  rw [Table.identifierCondition, Table.catchingRefusal, Table.catching, meets_bind, meets_bind,
    meets_observe]
  refine (meets_requireIdentifier_held id s x).mono ?_
  rintro (fault | header) s' x' hheld
  · dsimp only
    split <;> rintro condition ⟨⟩
  · exact fun _ _ => hheld header rfl

/-- A write to the record with an identifier asks for the columns twice, but the second time they are
held. -/
theorem byId (operation : String) (id : Value) {m : Value → Act (Except Fault Nat)}
    (hm : ∀ condition, Consults party t (fun s => s.held.isNone) false (m condition)) :
    Consults party t (fun s => Table.mayIdentify id && s.held.isNone) false (do
      match ← t.identifierCondition operation id with
      | some condition => return Table.succeeded (← m condition)
      | none => return false) := by
  intro s x
  rw [meets_bind]
  refine ((identifierCondition operation id s x).and
    (meets_identifierCondition_held operation id s x)).mono ?_
  rintro (fault | _ | condition) s₁ x₁ ⟨h, hheld⟩
  · exact h
  · exact h
  · refine ((hm condition).mapped Table.succeeded s₁ x₁).mono fun r s' x' h' => h.trans ?_
    rwa [hheld condition rfl] at h'

theorem createMany (records : Value) :
    Consults party t (Operation.createMany records).renews false (t.createMany records) := by
  have hrenews : ∀ s, (Operation.createMany records).renews s =
    (records.eachGiven.isOk && s.held.isNone) := fun _ => rfl
  rw [Table.createMany]
  cases hrecords : records.eachGiven with
  | error fault =>
    intro s x
    rw [hrenews, hrecords]
    exact Consulted.refl false s x
  | ok rs =>
    rw [hrecords] at hrenews
    exact ((insert "create_many" rs).mapped Table.countOf).congr hrenews

/-! ## Operations -/

/-- Operations other than dropping the columns renew them and read as they are said to. -/
theorem perform {op : Operation} (hop : op ≠ .invalidate) :
    Consults party t op.renews op.reads (t.perform op) := by
  cases op with
  | findById id => exact (findById id).mapped _
  | find conditions => exact (find conditions).mapped _
  | findMany request => exact (findMany request).mapped _
  | getAll => exact getAll.mapped _
  | query text => exact (query text).mapped _
  | toFrame records => exact (toFrame records).mapped _
  | create record => exact ((insert "create" [record]).mapped Table.succeeded).mapped _
  | createMany records => exact (createMany records).mapped _
  | updateById id fields =>
    exact (byId "update_by_id" id fun condition => change "update_by_id" condition fields true).mapped _
  | update conditions fields =>
    exact ((change "update" conditions fields true).mapped Table.succeeded).mapped _
  | updateMany conditions fields =>
    exact ((change "update_many" conditions fields false).mapped Table.countOf).mapped _
  | deleteById id =>
    exact (byId "delete_by_id" id fun condition => erase "delete_by_id" condition true).mapped _
  | delete conditions => exact ((erase "delete" conditions true).mapped Table.succeeded).mapped _
  | deleteMany conditions =>
    exact ((erase "delete_many" conditions false).mapped Table.countOf).mapped _
  | clearData => exact clearData.mapped _
  | refresh => exact (fetchColumns.mapped _).mapped _
  | invalidate => exact absurd rfl hop
  | columns => exact of_silent (Leaves.columns.bind fun _ => Leaves.pure _)

end Consults

/-- What an operation other than dropping the columns has changed of them, and sent. -/
theorem Table.consulted (party : Party σ) (t : Table) {op : Operation} (hop : op ≠ .invalidate)
    (s : Session) (st : σ) :
    let ended := run party (t.perform op) s st
    Consulted party t (op.renews s) op.reads s (st, []) ended.2.1
      (ended.2.2, queries party (t.perform op) s st) :=
  meets_sending.mp (Consults.perform hop s (st, []))

end RowStore
