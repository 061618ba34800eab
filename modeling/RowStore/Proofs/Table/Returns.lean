import RowStore.Lock.Mutex
import RowStore.Proofs.Response.RoundTrip
import RowStore.Proofs.Table.Locked
import RowStore.Proofs.Table.Sample
import RowStore.Proofs.Table.Served

/-!
# Operations return

* `Writer.Lends w party start held` : the write lock can be asked for, and what is taken can be given
  back; `Yields.execute` : a locked write then returns, whatever its action does;
* `Operation.IsDocumented op`, `Operation.Returns op outcome` : arguments of the documented types, and
  the outcomes that an operation may have;
* `Yields.perform` : on a table that is served no operation raises a fault, and every one returns.
-/

namespace RowStore

open Act Json Query Response

variable {α σ : Type} {party : Party σ} {start : σ} {held : σ → Prop} {t : Table}

/-! ## Locked writes -/

/-- The lock can be asked for with the writer's wait; once it is taken it stays so until it is given
back, and then it can be given back. -/
structure Writer.Lends (w : Writer) (party : Party σ) (start : σ) (held : σ → Prop) : Prop where
  acquire : ∃ seconds, w.ready = .ok seconds ∧ ∀ st, party.Reaches start st → ∃ taken,
    (party.answer (.acquire seconds) st).1 = .ok taken ∧
      (taken = true → held (party.answer (.acquire seconds) st).2)
  keeps : party.Keeps held
  release : ∀ st, held st → (party.answer .release st).1 = .ok ()

/-- A request of which the answer is known. -/
theorem Act.meets_known {β : Type} {r : Request (Except Fault α)} {s : Session} {st : σ} {a : α}
    (h : (party.answer r st).1 = .ok a) {k : α → Act β} {Q : Except Fault β → Session → σ → Prop}
    (hk : Meets party.protocol (k a) s (party.answer r st).2 Q) :
    Meets party.protocol (ofAnswer (ask r) >>= k) s st Q := by
  rw [meets_bind, meets_ofAnswer_ask]
  refine ⟨trivial, ?_⟩
  rintro _ _ hanswer
  obtain ⟨rfl, rfl⟩ := Prod.ext_iff.mp hanswer
  rw [h]
  exact hk

namespace Writer

variable {w : Writer} {seconds : Binary64} {s : Session} {st : σ}

/-- A writer that can take the lock does so, or notes that it was refused. -/
theorem meets_takeLock_of_lends (hready : w.ready = .ok seconds)
    (hacquire : ∀ st, party.Reaches start st → ∃ taken,
      (party.answer (.acquire seconds) st).1 = .ok taken ∧
        (taken = true → held (party.answer (.acquire seconds) st).2))
    (h : Steady (party.Reaches start) s st) :
    Meets party.protocol (w.takeLock seconds) s st fun r s' st' =>
      Steady (party.Reaches start) s' st' ∧ ∃ taken, r = .ok taken ∧ (taken = true → held st') := by
  obtain ⟨taken, htaken, hheld⟩ := hacquire st h.holds
  have hsteady : Steady (party.Reaches start) s (party.answer (.acquire seconds) st).2 :=
    ⟨h.codes, h.holds.answer _⟩
  rw [takeLock_eq, meets_bind, meets_liftExcept, (ready_eq_ok hready).2]
  refine meets_known htaken ?_
  cases taken with
  | true => exact ⟨hsteady, true, rfl, hheld⟩
  | false => cases w.lockPath <;> exact ⟨hsteady.noted rfl, false, rfl, nofun⟩

end Writer

namespace Yields

theorem settle {I : σ → Prop} (description : Text) (r : Except Fault α) :
    Yields party I Fault.Never (fun _ => True) (Writer.settle description r) := by
  intro s st h
  obtain ⟨_, hsettle⟩ := Writer.settle_eq description r s
  exact (meets_of_done hsettle).mpr ⟨h.noted rfl, trivial⟩

/-- A locked write returns, whatever its action does. -/
theorem execute {w : Writer} (hlends : w.Lends party start held) {action : Act α}
    (haction : Confined Request.AsksGrid action) (description : Text) :
    Yields party (party.Reaches start) Fault.Never (fun _ => True) (w.execute description action) := by
  intro s st h
  obtain ⟨seconds, hready, hacquire⟩ := hlends.acquire
  rw [Writer.execute, meets_bind, meets_liftExcept, (Writer.ready_eq_ok hready).1]
  dsimp only
  rw [meets_bind]
  refine (Writer.meets_takeLock_of_lends hready hacquire h).mono ?_
  rintro _ s₁ st₁ ⟨h₁, taken, rfl, hheld⟩
  cases taken with
  | false => exact ⟨h₁.noted rfl, trivial⟩
  | true =>
    -- while the lock is held, the states are those that were reached and still hold it
    let I : σ → Prop := fun st => party.Reaches start st ∧ held st
    have hI : party.Keeps I := fun r st hr hst => ⟨hst.1.answer r, hlends.keeps r st hr hst.2⟩
    have hlocked : Steadies party I (do
        let a ← action
        w.grid.flush
        return a) :=
      (haction.bind fun a => (Confined.flush w.grid).bind fun _ => Confined.pure a).steadies
        (fun _ => Request.AsksGrid.not_asksLock) hI
    have hobserved : Yields party I Fault.Never (fun _ => True) (Act.observe do
        let a ← action
        w.grid.flush
        return a) := (observe hlocked).mono (fun _ => id) fun _ _ => trivial
    dsimp only
    rw [if_pos rfl, meets_bind]
    refine (hobserved s₁ st₁ ⟨h₁.codes, h₁.holds, hheld rfl⟩).mono ?_
    rintro (fault | outcome) s₂ st₂ ⟨h₂, hends⟩
    · exact hends.elim
    · dsimp only
      rw [meets_bind]
      refine (settle description outcome s₂ st₂ h₂).mono ?_
      rintro (fault | result) s₃ st₃ ⟨h₃, hends⟩
      · exact hends.elim
      · dsimp only
        refine meets_known (hlends.release st₃ h₃.holds.2) ?_
        exact ⟨⟨h₃.codes, h₃.holds.1.answer _⟩, trivial⟩

/-! ## Writes -/

/-- A check that starts with the columns, and what is done with its outcome. -/
theorem checked (hshaped : t.IsServed party start IsShaped) {γ : Type} (operation : String)
    {k : Columns → Act γ}
    (hk : ∀ c, Yields party (party.Reaches start) Fault.IsRefusal (fun _ => True) (k c))
    {g : Except Fault γ → Act (Except Fault Nat)}
    (herror : ∀ fault, g (.error fault) = Pure.pure (.error fault))
    (hok : ∀ a, Yields party (party.Reaches start) Fault.Never (fun _ => True) (g (.ok a))) :
    Yields party (party.Reaches start) Fault.Never (fun _ => True)
      (Table.catchingRefusal operation (t.requireColumns >>= k) >>= g) := by
  have hchecked := (requireColumns hshaped).bind fun c _ => hk c
  refine (hchecked.catching (fun _ h => h) _ _).bind fun r _ => ?_
  cases r with
  | error fault =>
    rw [herror]
    exact pure trivial
  | ok a => exact hok a

theorem identifierCondition (hshaped : t.IsServed party start IsShaped) (hname : t.identifier.hasText = true)
    (operation : String) {id : Value} (hid : id.hasText = true) :
    Yields party (party.Reaches start) Fault.Never (fun _ => True) (t.identifierCondition operation id) := by
  refine ((requireIdentifier hshaped hname hid).catching (fun _ h => h) _ _).bind fun r _ => ?_
  split <;> exact pure trivial

/-- A write to the record with an identifier. -/
theorem byId (hshaped : t.IsServed party start IsShaped) (hname : t.identifier.hasText = true)
    (operation : String) {id : Value} (hid : id.hasText = true) {m : Value → Act (Except Fault Nat)}
    (hm : ∀ condition, Yields party (party.Reaches start) Fault.Never (fun _ => True) (m condition)) :
    Yields party (party.Reaches start) Fault.Never (fun _ => True) (do
      match ← t.identifierCondition operation id with
      | some condition => return Table.succeeded (← m condition)
      | none => return false) := by
  refine (identifierCondition hshaped hname operation hid).bind fun r _ => ?_
  cases r with
  | none => exact pure trivial
  | some condition => exact (hm condition).mapped _

section
variable (hlends : t.writer.Lends party start held)
include hlends

theorem write (operation done : String) {action : Act Nat}
    (haction : Confined Request.AsksGrid action) :
    Yields party (party.Reaches start) Fault.Never (fun _ => True) (t.write operation done action) := by
  refine (execute hlends haction operation).bind fun r _ => ?_
  have hnoted : Yields party (party.Reaches start) Fault.Never (fun _ => True)
      (Table.noteCount operation done r) := by
    cases r with
    | error fault => exact pure trivial
    | ok n => exact note _ _
  exact hnoted.bind fun _ _ => pure trivial

theorem clearData : Yields party (party.Reaches start) Fault.Never (fun _ => True) t.clearData := by
  refine (execute hlends (Confined.queue _) _).bind fun r _ => ?_
  cases r with
  | ok _ => exact (note _ _).bind fun _ _ => pure trivial
  | error fault => exact pure trivial

variable (hshaped : t.IsServed party start IsShaped)
include hshaped

theorem insert (operation : String) {records : List Value} (htexts : Value.haveTexts records = true) :
    Yields party (party.Reaches start) Fault.Never (fun _ => True) (t.insert operation records) := by
  refine checked hshaped operation (fun c => ?_) (fun _ => rfl) fun p => ?_
  · have hrows : (Table.rowsFor c records).EndsIn Fault.IsRefusal (fun _ => True) :=
      (Table.gives_rowsFor c records).endsIn ((Table.ends_rowsOf records).isRefusal htexts)
    exact (liftNoted hrows).bind fun _ _ => pure trivial
  · exact write hlends operation "appended" (Confined.appendRows t p.1 p.2)

theorem change (operation : String) (conditions fields : Value) (firstOnly : Bool) :
    Yields party (party.Reaches start) Fault.Never (fun _ => True)
      (t.change operation conditions fields firstOnly) := by
  refine checked hshaped operation (fun c => ?_) (fun _ => rfl) fun p => ?_
  · have hfields : (Table.fieldsFor c fields).EndsIn Fault.IsRefusal (fun _ => True) :=
      (Table.gives_fieldsFor c fields).endsIn (Table.ends_fieldsChanged fields)
    exact (liftExcept (Table.ends_checkConditions conditions _)).bind fun _ _ =>
      (liftNoted hfields).bind fun _ _ => pure trivial
  · exact write hlends operation "updated" (Confined.setFields t p.1 p.2 conditions firstOnly)

theorem erase (operation : String) (conditions : Value) (firstOnly : Bool) :
    Yields party (party.Reaches start) Fault.Never (fun _ => True)
      (t.erase operation conditions firstOnly) := by
  refine checked hshaped operation (fun c => ?_) (fun _ => rfl) fun c => ?_
  · exact (liftExcept (Table.ends_checkConditions conditions _)).bind fun _ _ => pure trivial
  · exact write hlends operation "deleted" (Confined.deleteRows t c conditions firstOnly)

end

end Yields

/-! ## Operations -/

namespace Operation

/-- Arguments of the documented types: a request as callers may give it, a query that is a text, and
records that can be gone through. What is made of records outside of the table is left out. Whether the
arguments have texts is said by `Operation.hasText`. -/
def IsDocumented : Operation → Prop
  | findMany request => Descriptor.IsRequest request
  | query text => ∃ t, text = .text t
  | createMany records => Holds (fun _ => True) records
  | toFrame _ => False
  | _ => True

/-- Whether an outcome is one that an operation may have. -/
def Returns : Operation → Outcome → Prop
  | findById _, .record _ | find _, .record _ => True
  | findMany _, .records _ | query _, .records _ | getAll, .records (some _) => True
  | toFrame _, .frame _ => True
  | create _, .done _ | updateById .., .done _ | update .., .done _ | deleteById _, .done _ => True
  | delete _, .done _ | clearData, .done _ | refresh, .done _ => True
  | createMany _, .count _ | updateMany .., .count _ | deleteMany _, .count _ => True
  | invalidate, .nothing => True
  | columns, .columns _ => True
  | _, _ => False

end Operation

/-- On a table that is served every operation returns. Only reads need the cells of the answers, and
only writes need the lock. -/
theorem Yields.perform {op : Operation} (hop : op.IsDocumented) (htext : op.hasText = true)
    (hname : t.identifier.hasText = true) (hshaped : t.IsServed party start IsShaped)
    (hlegible : op.isWrite = false → t.IsServed party start IsLegible)
    (hlends : op.isWrite = true → t.writer.Lends party start held) :
    Yields party (party.Reaches start) Fault.Never op.Returns (t.perform op) := by
  cases op with
  | findById id => exact (findById hshaped (hlegible rfl) hname htext).bind fun _ _ => pure trivial
  | find conditions => exact (find hshaped (hlegible rfl) htext).bind fun _ _ => pure trivial
  | findMany request => exact (findMany hshaped (hlegible rfl) hop htext).bind fun _ _ => pure trivial
  | getAll => exact (getAll hshaped (hlegible rfl)).bind fun _ _ => pure trivial
  | query text =>
    obtain ⟨text, rfl⟩ := hop
    exact (query hshaped (hlegible rfl) text).bind fun _ _ => pure trivial
  | toFrame records => exact hop.elim
  | create record =>
    have htexts : Value.haveTexts [record] = true := Value.haveTexts_iff.mpr (List.forall_mem_singleton.mpr htext)
    exact ((insert (hlends rfl) hshaped _ htexts).mapped _).bind fun _ _ => pure trivial
  | createMany records =>
    have hgiven : Ends Fault.Never (fun rs => Value.haveTexts rs = true) records.eachGiven := by
      obtain ⟨rs, hrs, -⟩ := (ends_eachGiven hop).exists_ok
      rw [hrs]
      exact Value.haveTexts_iff.mpr (Value.hasText_of_eachGiven hrs htext)
    have hinserted := (liftExcept hgiven).bind fun rs hrs =>
      (insert (hlends rfl) hshaped "create_many" hrs).mapped Table.countOf
    exact hinserted.bind fun _ _ => pure trivial
  | updateById id fields =>
    exact (byId hshaped hname _ htext fun condition => change (hlends rfl) hshaped _ condition fields true).bind
      fun _ _ => pure trivial
  | update conditions fields =>
    exact ((change (hlends rfl) hshaped _ conditions fields true).mapped _).bind fun _ _ => pure trivial
  | updateMany conditions fields =>
    exact ((change (hlends rfl) hshaped _ conditions fields false).mapped _).bind fun _ _ => pure trivial
  | deleteById id =>
    exact (byId hshaped hname _ htext fun condition => erase (hlends rfl) hshaped _ condition true).bind
      fun _ _ => pure trivial
  | delete conditions =>
    exact ((erase (hlends rfl) hshaped _ conditions true).mapped _).bind fun _ _ => pure trivial
  | deleteMany conditions =>
    exact ((erase (hlends rfl) hshaped _ conditions false).mapped _).bind fun _ _ => pure trivial
  | clearData => exact (clearData (hlends rfl)).bind fun _ _ => pure trivial
  | refresh => exact ((fetchColumns hshaped).mapped _).bind fun _ _ => pure trivial
  | invalidate => exact (setColumns (o := none) nofun).bind fun _ _ => pure trivial
  | columns => exact Yields.columns.bind fun _ _ => pure trivial

namespace Table

variable {s : Session}

/-- Operations one after another return, each of them an outcome that it may have. -/
theorem performAll_returns {ops : List Operation} (hops : ∀ op ∈ ops, op.IsDocumented ∧ op.hasText = true)
    (hname : t.identifier.hasText = true) (hshaped : t.IsServed party start IsShaped)
    (hlegible : t.IsServed party start IsLegible)
    (hlends : t.writer.Lends party start held)
    (hs : ∀ c, s.columns = some c → HasTextCodes c) :
    ∃ outcomes, (run party (ops.mapM t.perform) s start).1 = .ok outcomes ∧
      List.Forall₂ Operation.Returns ops outcomes := by
  have hyields := Yields.mapM fun op hop =>
    Yields.perform (hops op hop).1 (hops op hop).2 hname hshaped (fun _ => hlegible) fun _ => hlends
  obtain ⟨-, hends⟩ := meets_protocol.mp (hyields s start ⟨hs, .refl⟩)
  cases hrun : (run party (ops.mapM t.perform) s start).1 with
  | error fault =>
    rw [hrun] at hends
    exact hends.elim
  | ok outcomes =>
    rw [hrun] at hends
    exact ⟨outcomes, rfl, hends⟩

/-- Every operation returns an outcome that it may have, and leaves columns with texts as codes, if
the queries are answered as documented or with one of this library's own faults, and if what the operation
compares and writes by itself has a text. Cells have to be legible only where they are read, and the lock has to
be lent only for writes. (Arrays and objects in an answer are taken to be read at any depth.) -/
theorem perform_returns {op : Operation} (hop : op.IsDocumented) (htext : op.hasText = true)
    (hname : t.identifier.hasText = true) (hshaped : t.IsServed party start IsShaped)
    (hlegible : op.isWrite = false → t.IsServed party start IsLegible)
    (hlends : op.isWrite = true → t.writer.Lends party start held)
    (hs : ∀ c, s.columns = some c → HasTextCodes c) :
    ∃ outcome, (run party (t.perform op) s start).1 = .ok outcome ∧ op.Returns outcome ∧
      ∀ c, (run party (t.perform op) s start).2.1.columns = some c → HasTextCodes c := by
  obtain ⟨hsteady, hends⟩ := meets_protocol.mp
    (Yields.perform hop htext hname hshaped hlegible hlends s start ⟨hs, .refl⟩)
  cases hrun : (run party (t.perform op) s start).1 with
  | error fault =>
    rw [hrun] at hends
    exact hends.elim
  | ok outcome =>
    rw [hrun] at hends
    exact ⟨outcome, rfl, hends, hsteady.codes⟩

end Table

/-! ## Users who come on a date -/

namespace Sample

/-- A party with a lock within the process that answers every query alike. -/
def service (answer : Value) : Party Mutex where
  answer
    | .acquire seconds, m => m.acquire seconds
    | .release, m => m.release
    | .openStore .., m => (.error .unsuitable, m)
    | .openSheet _, m => (.error .unsuitable, m)
    | .extent, m => ((3, 2), m)
    | .readRows, m => (.ok rows, m)
    | .write _, m => (.ok (), m)
    | .query _, m => (.ok answer, m)
    | .credentials, m => (⟨false, .null⟩, m)
    | .refreshCredentials, m => (.error .unsuitable, m)
    | .get _, m => (.error .unsuitable, m)
    | .wait _, m => (.ok (), m)

theorem isServed_service {p : Entries Value → Prop} {answer : Value}
    (h : ∀ payload, payload? answer = some payload → p payload) (waitMs : Value) (start : Mutex) :
    (table waitMs).IsServed (service answer) start p := by
  intro query s st _
  change Ends _ _ (run _ (ofAnswer (ask (.query query))) s st).1
  rw [run_ofAnswer_ask]
  exact h

theorem lends_service (answer : Value) (start : Mutex) :
    (table (.int 30000)).writer.Lends (service answer) start fun m => m.held = true where
  acquire := by
    have hwait : ((table (.int 30000)).writer.ready.toOption.any fun seconds =>
        (Mutex.checkWait seconds).isOk) = true := by decide +kernel
    cases hready : (table (.int 30000)).writer.ready with
    | error fault =>
      rw [hready] at hwait
      cases hwait
    | ok seconds =>
      rw [hready] at hwait
      change (Mutex.checkWait seconds).isOk = true at hwait
      have hcheck : Mutex.checkWait seconds = .ok () := by
        cases h : Mutex.checkWait seconds with
        | error fault =>
          rw [h] at hwait
          cases hwait
        | ok _ => rfl
      refine ⟨seconds, rfl, fun m _ => ?_⟩
      change ∃ taken, (m.acquire seconds).1 = .ok taken ∧
        (taken = true → (m.acquire seconds).2.held = true)
      rw [Mutex.acquire, hcheck]
      dsimp only
      split
      · exact ⟨false, rfl, nofun⟩
      · exact ⟨true, rfl, fun _ => rfl⟩
  keeps := by
    intro β r m hr hm
    cases r with
    | acquire seconds => exact absurd trivial hr
    | release => exact absurd trivial hr
    | _ => exact hm
  release := by
    intro m hm
    change m.release.1 = .ok ()
    rw [Mutex.release, if_pos hm]

/-- The column of identifiers and the one of dates. -/
def arrivalColumns : List Document := [
  .object [("id", .text "A"), ("label", .text "id"), ("type", .text "string")],
  .object [("id", .text "B"), ("label", .text "When"), ("type", .text "date")]]

/-- The row of a user who comes on a date. -/
def arrivalRow (id date : Str) : Document :=
  .object [("c", .list [.object [("v", .text id)], .object [("v", .text date)]])]

/-- Two users, of whom one comes on a date and the other one soon. -/
def arrivals (date : Str) : List (Str × Document) := [("status", .text "ok"),
  ("table", .object [("cols", .list arrivalColumns),
    ("rows", .list [arrivalRow "e1" date, arrivalRow "e2" "soon"])])]

/-- The answer that holds them. -/
def arrivalsAnswer (date : Str) : Value :=
  .text (opening ++ .char '(' :: ((Document.object (arrivals date)).write ++ .char ')' :: ";"))

theorem payload?_arrivalsAnswer (date : Str) :
    payload? (arrivalsAnswer date) = some (Document.memberValues (arrivals date)) := by
  have hopening : .char '(' ∉ opening := by decide
  have hclosing : .char ')' ∉ (";" : Text) := by decide
  rw [payload?, arrivalsAnswer, Value.text?, Option.bind_eq_bind, Option.bind_some,
    Envelope.framed?_append hopening hclosing]
  simp only [Option.bind_eq_bind, Option.bind_some, Document.read?_write]
  rfl

theorem isShaped_arrivals (date : Str) : IsShaped (Document.memberValues (arrivals date)) where
  cols := by
    rintro _ ⟨⟩
    refine Or.inr ⟨Document.values arrivalColumns, rfl, ?_⟩
    exact List.forall_mem_cons.mpr ⟨⟨_, "A", "id", rfl, rfl, rfl⟩,
      List.forall_mem_singleton.mpr ⟨_, "B", "When", rfl, rfl, rfl⟩⟩
  rows := by
    have hrow : ∀ id date, IsRow (arrivalRow id date).value := by
      intro id date
      refine ⟨_, [_, _], rfl, rfl, ?_⟩
      exact List.forall_mem_cons.mpr ⟨Or.inr ⟨_, rfl⟩,
        List.forall_mem_singleton.mpr (Or.inr ⟨_, rfl⟩)⟩
    rintro _ ⟨⟩
    refine Or.inr ⟨[_, _], rfl, ?_⟩
    exact List.forall_mem_cons.mpr ⟨hrow _ _, List.forall_mem_singleton.mpr (hrow _ _)⟩
  errors := Or.inl rfl

theorem not_dateOverflows_of_isOk {v : Value} (h : (dateOf v).isOk = true) : ¬ DateOverflows v := by
  rw [← dateOf_fails_iff]
  rintro ⟨fault, hfault⟩
  rw [hfault] at h
  cases h

theorem not_illegible_arrivalRow {id date : Str} (h : (dateOf (.text date.text)).isOk = true)
    {position : Nat} {d : Value} (hd : (Document.values arrivalColumns)[position]? = some d)
    {cell : Entries Value}
    (hcell : cellAt (cellsOf (arrivalRow id date).value) position = .ok (.mapping cell)) :
    ¬ Illegible (typeOf d) (Value.get cell "v") := by
  rcases position with _ | _ | position
  · cases hd
    change ¬ Illegible (TypeTag.ofName TypeTag.string.name) _
    rw [TypeTag.ofName_name]
    exact nofun
  · cases hd
    cases hcell
    change ¬ Illegible (TypeTag.ofName TypeTag.date.name) _
    rw [TypeTag.ofName_name]
    exact not_dateOverflows_of_isOk h
  · cases hd

theorem isLegible_arrivals {date : Str} (h : (dateOf (.text date.text)).isOk = true) :
    IsLegible (Document.memberValues (arrivals date)) where
  warnings := Or.inl rfl
  cells := by
    rintro _ _ _ ⟨⟩ ⟨⟩ ⟨⟩
    refine List.forall_mem_cons.mpr ⟨fun _ _ hd _ => not_illegible_arrivalRow h hd,
      List.forall_mem_singleton.mpr ?_⟩
    exact fun _ _ hd _ => not_illegible_arrivalRow (by decide +kernel) hd

end Sample

namespace Table

open Sample

/-- Users are read of whom one has a text in the place of a date, and one of them is updated. -/
theorem perform_returns_arrivals :
    let party := service (arrivalsAnswer "Date(2024,0,15)")
    let update := Operation.update (.mapping [(.text "id", .text "e2")])
      (.mapping [(.text "When", .text "2024-01-16")])
    (∃ outcome, (run party ((table (.int 30000)).perform .getAll) .fresh .free).1 = .ok outcome ∧
      Operation.getAll.Returns outcome ∧
      ∀ c, (run party ((table (.int 30000)).perform .getAll) .fresh .free).2.1.columns = some c →
        HasTextCodes c) ∧
    (∃ outcome, (run party ((table (.int 30000)).perform update) .fresh .free).1 = .ok outcome ∧
      update.Returns outcome ∧
      ∀ c, (run party ((table (.int 30000)).perform update) .fresh .free).2.1.columns = some c →
        HasTextCodes c) := by
  intro party update
  have hserved : ∀ p, p (Document.memberValues (arrivals "Date(2024,0,15)")) →
      (table (.int 30000)).IsServed party .free p := by
    intro p hp
    refine isServed_service (fun payload h => ?_) _ _
    rw [payload?_arrivalsAnswer] at h
    cases h
    exact hp
  have hshaped := hserved IsShaped (isShaped_arrivals _)
  have hlegible := hserved IsLegible (isLegible_arrivals (by decide +kernel))
  have hlends := lends_service (arrivalsAnswer "Date(2024,0,15)") .free
  exact ⟨perform_returns trivial rfl rfl hshaped (fun _ => hlegible) (fun _ => hlends) nofun,
    perform_returns trivial rfl rfl hshaped nofun (fun _ => hlends) nofun⟩

/-- With a year beyond what a word can hold the fault is raised by the read itself. -/
theorem getAll_raises_of_long_year :
    ¬ ∃ outcome, (run (service (arrivalsAnswer "Date(99999999999,0,15)"))
      ((table (.int 30000)).perform .getAll) .fresh .free).1 = .ok outcome := by
  have h : (run (service (arrivalsAnswer "Date(99999999999,0,15)"))
      ((table (.int 30000)).perform .getAll) .fresh .free).1.isOk = false := by decide +kernel
  rintro ⟨outcome, houtcome⟩
  rw [houtcome] at h
  cases h

end Table

end RowStore
