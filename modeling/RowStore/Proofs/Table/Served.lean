import RowStore.Proofs.Grid.Confined
import RowStore.Proofs.Query.First
import RowStore.Proofs.Response.Answered
import RowStore.Proofs.Table.Reading

/-!
# Reads of a table that is served

* `Table.IsServed t party start p` : from the state `start` on, every query is answered by a payload with
  the property `p`, by no payload, or with one of this library's own faults;
* `Yields.knownColumns`, `Yields.requireColumns` : columns from shaped answers have texts as codes, and
  only refused input is raised;
* `Yields.read` : a query is answered, whatever the answer is; `Yields.findById` and the others : so are
  the operations that read.
-/

namespace RowStore

open Act Query Response

variable {α σ : Type} {party : Party σ} {start : σ} {t : Table}

/-- From a state on, every query is answered by a payload with a property, by no payload, or with one
of this library's own faults. -/
def Table.IsServed (t : Table) (party : Party σ) (start : σ) (p : Entries Value → Prop) : Prop :=
  ∀ query s st, party.Reaches start st →
    Ends Fault.IsRecord (fun answer => ∀ payload, payload? answer = some payload → p payload)
      (run party (t.fetch query) s st).1

namespace Yields

variable {I : σ → Prop} {allowed : Fault → Prop} {good : α → Prop}

/-- Faults that are noted and given as values. -/
theorem catching {m : Act α} (hm : Yields party I allowed good m) {holds : Fault.Kind → Bool}
    (hall : ∀ fault, allowed fault → holds fault.kind = true) (level : NoteLevel) (label : String) :
    Yields party I Fault.Never (Ends allowed good) (Table.catching holds level label m) := by
  refine hm.observe.bind fun r hr => ?_
  cases r with
  | ok a => exact pure hr
  | error fault =>
    dsimp only
    rw [if_pos (hall fault hr)]
    exact (note _ _).bind fun _ _ => pure hr

theorem refuse (cause : ValidationFault) :
    Yields party I Fault.IsRefusal good (MonadExcept.throw (.validation cause) : Act α) := throw rfl

/-! ## Queries -/

theorem fetch {p : Entries Value → Prop} (h : t.IsServed party start p) (query : Text) :
    Yields party (party.Reaches start) Fault.IsRecord
      (fun answer => ∀ payload, payload? answer = some payload → p payload) (t.fetch query) := by
  intro s st hst
  have hask : ∀ {β : Type} (r : Request β), Leaves party.protocol (fun _ => ()) (Act.ask r) :=
    fun _ => Leaves.ask (fun _ => trivial) fun _ _ _ _ => rfl
  have hleaves := Leaves.fetch (hask _) (hask _) (fun _ => hask _) (fun _ => hask _) t query s st
  have hrun : Meets party.protocol (t.fetch query) s st fun r _ st' =>
      r = (run party (t.fetch query) s st).1 ∧ party.Reaches start st' :=
    meets_protocol.mpr ⟨rfl, hst.holds.run _ s⟩
  refine (hleaves.and hrun).mono ?_
  rintro r s' st' ⟨⟨hc, -⟩, rfl, hreached⟩
  exact ⟨⟨hc ▸ hst.codes, hreached⟩, h query s st hst.holds⟩

/-! ## Columns -/

theorem noteColumns (c : Columns) : Yields party I allowed (fun _ => True) (Table.noteColumns c) := by
  rw [Table.noteColumns]
  split
  · exact (note _ _).bind fun _ _ => note _ _
  · exact note _ _

section
variable (hshaped : t.IsServed party start IsShaped)
include hshaped

theorem fetchColumns : Yields party (party.Reaches start) Fault.Never
    (Ends Fault.IsRecord HasTextCodes) t.fetchColumns := by
  refine (setColumns (o := none) nofun).bind fun _ _ => ?_
  have hfetched : Yields party (party.Reaches start) Fault.IsRecord HasTextCodes (do
      let answer ← t.fetch Table.columnsQuery
      Columns.ofAnswer answer t.identifier) :=
    (fetch hshaped _).bind fun answer hanswer => liftExcept (Columns.ends_ofAnswer hanswer _)
  refine (hfetched.catching (fun _ => id) _ _).bind fun r hr => ?_
  cases r with
  | error fault => exact pure hr
  | ok c =>
    refine (noteColumns c).bind fun _ _ => (setColumns ?_).bind fun _ _ => pure hr
    rintro _ ⟨⟩
    exact hr

theorem getColumns : Yields party (party.Reaches start) Fault.Never
    (Ends Fault.IsRecord HasTextCodes) t.getColumns := by
  refine columns.bind fun o ho => ?_
  split
  · rename_i c hc
    exact pure (ho c (Option.filter_eq_some_iff.mp hc).1)
  · exact fetchColumns hshaped

theorem knownColumns : Yields party (party.Reaches start) Fault.Never
    (fun o => ∀ c, o = some c → HasTextCodes c) t.knownColumns := by
  refine (getColumns hshaped).bind fun r hr => pure ?_
  cases r with
  | error fault => exact nofun
  | ok c =>
    rintro _ ⟨⟩
    exact hr

theorem requireColumns :
    Yields party (party.Reaches start) Fault.IsRefusal HasTextCodes t.requireColumns := by
  refine ((knownColumns hshaped).mono (fun _ => False.elim) fun _ => id).bind fun o ho => ?_
  split
  · rename_i c hc
    exact pure (ho c (Option.filter_eq_some_iff.mp hc).1)
  · exact refuse _

/-- An identifier that has a text is refused, or its column has a header. -/
theorem requireIdentifier (hname : t.identifier.hasText = true) {id : Value} (hid : id.hasText = true) :
    Yields party (party.Reaches start) Fault.IsRefusal (fun _ => True) (t.requireIdentifier id) := by
  have hmissing : (Fault.validation (.identifierColumnMissing t.identifier)).hasMessage = true := hname
  cases hmay : Table.mayIdentify id with
  | false =>
    rw [Table.requireIdentifier_of_not_mayIdentify hmay, Table.identifierFault, if_pos hid]
    exact refuse _
  | true =>
    rw [Table.requireIdentifier_of_mayIdentify hmay, Fault.worded_of_hasMessage hmissing]
    refine (requireColumns hshaped).bind fun c _ => ?_
    split
    · exact pure trivial
    · exact refuse _

/-- Conditions that have texts are refused, or are what is looked for. -/
theorem requireConditions {conditions : Value} (htext : conditions.hasText = true) :
    Yields party (party.Reaches start) Fault.IsRefusal
      (fun entries => ∀ e ∈ entries, e.2.hasText = true) (t.requireConditions conditions) := by
  unfold Table.requireConditions
  split
  · rename_i e rest
    have hentries := Value.entriesHaveTexts_iff.mp htext
    refine (requireColumns hshaped).bind fun c _ => ?_
    have hunknown : (Fault.validation (.unknownConditions
        ((Entries.names (e :: rest)).filter fun name => !c.codes.has name))).hasMessage = true := by
      refine Value.haveTexts_iff.mpr fun name hname => ?_
      obtain ⟨entry, hentry, rfl⟩ := List.mem_map.mp (List.mem_filter.mp hname).1
      exact (hentries entry hentry).1
    dsimp only
    rw [Fault.worded_of_hasMessage hunknown]
    split
    · exact pure fun entry hentry => (hentries entry hentry).2
    · exact refuse _
  · exact refuse _

end

/-! ## Reads -/

section
variable (hshaped : t.IsServed party start IsShaped) (hlegible : t.IsServed party start IsLegible)
include hshaped hlegible

/-- What a query is answered can be decoded, or it is noted why not. -/
theorem read (query : Text) :
    Yields party (party.Reaches start) Fault.Never (fun _ => True) (t.read query) := by
  have hserved : t.IsServed party start fun payload => IsShaped payload ∧ IsLegible payload := by
    intro query s st hst
    have hs := hshaped query s st hst
    have hl := hlegible query s st hst
    cases hrun : (run party (t.fetch query) s st).1 with
    | error fault =>
      rw [hrun] at hs
      exact hs
    | ok answer =>
      rw [hrun] at hs hl
      exact fun payload hpayload => ⟨hs payload hpayload, hl payload hpayload⟩
  have hparsed : Yields party (party.Reaches start) Fault.IsRecord (fun _ => True) (do
      let answer ← t.fetch query
      let columns ← Act.columns
      return (← parse columns answer).records) :=
    (fetch hserved query).bind fun answer hanswer => columns.bind fun c _ =>
      (liftNoted (endsIn_parse (fun payload h => (hanswer payload h).1)
        (fun payload h => (hanswer payload h).2) c)).bind fun _ _ => pure trivial
  exact (hparsed.catching (fun _ => id) _ _).mono (fun _ => id) fun _ _ => trivial

theorem findFirst (operation : String) {conditions : Entries Value}
    (htexts : ∀ e ∈ conditions, e.2.hasText = true) :
    Yields party (party.Reaches start) Fault.Never (fun _ => True)
      (t.findFirst operation conditions) := by
  refine columns.bind fun c hc => ?_
  refine (liftNoted (endsIn_compile hc (Descriptor.isFormed_first conditions)
    fun _ _ => Descriptor.hasTexts_first htexts)).bind fun query _ => ?_
  refine (read hshaped hlegible query).bind fun r _ => ?_
  split
  · exact pure trivial
  · exact (note _ _).bind fun _ _ => pure trivial
  · exact pure trivial

theorem findById (hname : t.identifier.hasText = true) {id : Value} (hid : id.hasText = true) :
    Yields party (party.Reaches start) Fault.Never (fun _ => True) (t.findById id) := by
  refine ((requireIdentifier hshaped hname hid).catching (fun _ h => h) _ _).bind fun r _ => ?_
  split
  · exact findFirst hshaped hlegible _ (List.forall_mem_singleton.mpr hid)
  · exact pure trivial

theorem find {conditions : Value} (htext : conditions.hasText = true) :
    Yields party (party.Reaches start) Fault.Never (fun _ => True) (t.find conditions) := by
  refine ((requireConditions hshaped htext).catching (fun _ h => h) _ _).bind fun r hr => ?_
  cases r with
  | error fault => exact pure trivial
  | ok entries => exact findFirst hshaped hlegible _ hr

theorem findMany {request : Value} (h : Descriptor.IsRequest request) (htext : request.hasText = true) :
    Yields party (party.Reaches start) Fault.Never (fun _ => True) (t.findMany request) := by
  have hrequested : Ends Fault.IsRefusal (fun d => d.IsFormed ∧ ∀ c, d.HasTexts c)
      (Descriptor.requested request) := by
    have hends := Descriptor.ends_requested h
    cases hrequest : Descriptor.requested request with
    | error fault =>
      rw [hrequest] at hends
      exact hends
    | ok d =>
      rw [hrequest] at hends
      exact ⟨hends, Descriptor.hasTexts_of_requested hrequest htext⟩
  refine ((liftExcept hrequested).catching (fun _ h => h) _ _).bind fun r hr => ?_
  cases r with
  | error fault => exact pure trivial
  | ok d =>
    refine (knownColumns hshaped).bind fun c hc => ?_
    refine (liftNoted (endsIn_compile hc hr.1 fun c _ => hr.2 c)).bind fun query _ => ?_
    exact (read hshaped hlegible query).bind fun _ _ => pure trivial

theorem getAll : Yields party (party.Reaches start) Fault.Never (fun _ => True) t.getAll :=
  (findMany hshaped hlegible Descriptor.isRequest_null rfl).bind fun _ _ => pure trivial

theorem query (text : Text) :
    Yields party (party.Reaches start) Fault.Never (fun _ => True) (t.query (.text text)) := by
  have hresolved : Yields party (party.Reaches start) Fault.IsRefusal (fun _ => True) (do
      let columns ← t.knownColumns
      Bracket.resolve columns (.text text)) :=
    ((knownColumns hshaped).mono (fun _ => False.elim) fun _ => id).bind fun c hc =>
      liftExcept (Bracket.ends_resolve hc text)
  refine (hresolved.catching (fun _ h => h) _ _).bind fun r _ => ?_
  split
  · exact (read hshaped hlegible _).bind fun _ _ => pure trivial
  · exact pure trivial

end

end Yields

end RowStore
