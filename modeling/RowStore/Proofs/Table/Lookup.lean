import RowStore.Proofs.Query.First
import RowStore.Proofs.Table.Fetched
import RowStore.Proofs.Table.Input
import RowStore.Proofs.Table.Queries
import RowStore.Proofs.Table.Returns

/-!
# The queries of a look-up

A look-up asks for the columns unless they are kept, and then for the first record that fulfils all of
its conditions; it never asks for records with fewer of them.

* `Operation.sought c op` : the conditions of a look-up over the columns `c`, if they allow it;
* `Table.Tells t party st` : in the state `st` the query for the columns is answered as the query service
  would answer it, or with one of this library's own faults;
* `meets_requireColumns_texts`, `meets_checked` : what is known once the columns are there and the
  conditions are checked;
* `lookup_queries` : the queries that a look-up sends.
-/

namespace RowStore

open Act Query Response

variable {α σ : Type} {party : Party σ} {t : Table}

/-- A look-up of one record, by its identifier or by conditions. -/
def Operation.isLookup : Operation → Bool
  | .findById _ => true
  | .find _ => true
  | _ => false

/-- The conditions of a look-up over the columns of a sheet: they are not empty and name headers only,
or an identifier that has a text, and not a blank one, is sought in the identifier column. -/
def Operation.sought (c : Columns) : Operation → Option (Entries Value)
  | .findById id =>
    if Table.mayIdentify id then c.identifierHeader.map fun header => [(header, id)] else none
  | .find (.mapping (e :: rest)) =>
    if (e :: rest).all fun e => c.codes.has e.1 then some (e :: rest) else none
  | _ => none

/-- The kept columns have texts as headers and codes. -/
def Session.KeepsTexts (s : Session) : Prop := ∀ c, s.columns = some c → c.HasTexts

/-- In a state the query for the columns is answered by one of this library's own faults, or by what tells
no columns or such as the query service describes. -/
def Table.Tells (t : Table) (party : Party σ) (st : σ) : Prop :=
  ∀ s, Ends Fault.IsRecord
    (fun answer => ∀ payload, payload? answer = some payload → TellsColumns payload)
    (run party (t.fetch Table.columnsQuery) s st).1

/-- Columns with texts are kept, and no query was sent but the one for the columns. -/
structure Asked (sent sent' : List Text) (s' : Session) : Prop where
  texts : s'.KeepsTexts
  sent : ∃ asked : List Text, sent' = sent ++ asked ∧ (asked = [] ∨ asked = [(Table.columnsQuery : Text)])

theorem Asked.refl {s : Session} (h : s.KeepsTexts) (sent : List Text) : Asked sent sent s :=
  ⟨h, [], (List.append_nil sent).symm, Or.inl rfl⟩

theorem Table.MaySend.asked {sent : List Text} (h : t.MaySend Table.columnsQuery sent) :
    sent = [] ∨ sent = [(Table.columnsQuery : Text)] := h.symm.imp_left And.left

/-! ## Columns -/

theorem meets_answered_texts {s : Session} {x : σ × List Text} (h : t.Tells party x.1) :
    Meets party.sending (do
      let answer ← t.fetch Table.columnsQuery
      Columns.ofAnswer answer t.identifier) s x fun r s' x' => s'.columns = s.columns ∧
        (∃ asked : List Text, x'.2 = x.2 ++ asked ∧
          (asked = [] ∨ asked = [(Table.columnsQuery : Text)])) ∧
        Ends Fault.IsRecord Columns.HasTexts r := by
  have hends : Meets party.sending (t.fetch Table.columnsQuery) s x fun r _ _ =>
      Ends Fault.IsRecord (fun answer => ∀ payload, payload? answer = some payload →
        TellsColumns payload) r := meets_sending.mpr (h s)
  rw [meets_bind]
  refine ((SendsOne.fetch t _ s x).and hends).mono ?_
  rintro (fault | answer) s' x' ⟨⟨hc, asked, hx, hasked⟩, hends⟩
  · exact ⟨hc, ⟨asked, hx, hasked.asked⟩, hends⟩
  · dsimp only
    rw [meets_liftExcept]
    exact ⟨hc, ⟨asked, hx, hasked.asked⟩, Columns.ends_columns hends _⟩

/-- The columns that are required are there, or it is refused to go on and there are none. -/
theorem meets_requireColumns_texts {s : Session} {x : σ × List Text} (hkept : s.KeepsTexts)
    (h : t.Tells party x.1) : Meets party.sending t.requireColumns s x fun r s' x' =>
      Asked x.2 x'.2 s' ∧
      ((∃ c, r = .ok c ∧ s'.columns = some c ∧ c.isEmpty = false) ∨
        (∃ cause, r = .error (.validation cause)) ∧ ∀ c, s'.columns = some c → c.isEmpty = true) := by
  refine (meets_requireColumns_of_answered (F := fun _ x' => ∃ asked : List Text,
    x'.2 = x.2 ++ asked ∧ (asked = [] ∨ asked = [(Table.columnsQuery : Text)]))
    (meets_answered_texts h) ⟨hkept, (Asked.refl hkept x.2).sent⟩).mono ?_
  rintro r s' x' ⟨hholding, hrequires⟩
  refine ⟨⟨hholding.kept, hholding.holds⟩, ?_⟩
  generalize ho : s'.columns = o at hrequires
  cases hrequires with
  | kept hempty => exact Or.inl ⟨_, rfl, rfl, hempty⟩
  | refused hnone => exact Or.inr ⟨⟨_, rfl⟩, hnone⟩
  | raised hraised => exact absurd hraised.1 hraised.2

/-! ## Conditions -/

/-- A refusal is noted and given as a value; a text that cannot be written is raised. -/
theorem meets_catchingRefusal {φ : Type} {P : Protocol φ} {m : Act α} {s : Session} {x : φ}
    {Q : Except Fault (Except Fault α) → Session → φ → Prop} {operation : String}
    (h : Meets P m s x fun r s' x' => (∃ a, r = .ok a ∧ Q (.ok (.ok a)) s' x') ∨
      (∃ cause, r = .error (.validation cause) ∧
        ∀ notes, Q (.ok (.error (.validation cause))) ⟨s'.columns, s'.pending, notes⟩ x') ∨
      (r = .error .malformed ∧ Q (.error .malformed) s' x')) :
    Meets P (Table.catchingRefusal operation m) s x Q := by
  rw [Table.catchingRefusal, Table.catching, meets_bind, meets_observe]
  refine h.mono ?_
  rintro _ s' x' (⟨a, rfl, hQ⟩ | ⟨cause, rfl, hQ⟩ | ⟨rfl, hQ⟩)
  · exact hQ
  · exact hQ _
  · exact hQ

/-- The conditions are checked: they are allowed over columns that are kept, or there are no columns over which
they are; or it cannot be said why not, for a number in them that is too long. -/
inductive Checked (t : Table) (op : Operation) : Except Fault (Entries Value) → Session → Prop
  | allowed {c : Columns} {entries : Entries Value} {s' : Session} (hc : s'.columns = some c)
    (hempty : c.isEmpty = false) (hsought : op.sought c = some entries) : Checked t op (.ok entries) s'
  | refused {cause : ValidationFault} {s' : Session}
    (hnone : ∀ c, s'.columns = some c → c.isEmpty = false → op.sought c = none) :
    Checked t op (.error (.validation cause)) s'
  | raised {s' : Session} (htext : (op.hasText && t.identifier.hasText) = false) :
    Checked t op (.error .malformed) s'

/-- A refusal for a cause, or the fault of a cause that cannot be worded. -/
theorem Checked.worded {op : Operation} {cause : ValidationFault} {s' : Session}
    (hnone : ∀ c, s'.columns = some c → c.isEmpty = false → op.sought c = none)
    (htext : cause.hasMessage = false → (op.hasText && t.identifier.hasText) = false) :
    Checked t op (.error (Fault.worded (.validation cause))) s' := by
  cases h : cause.hasMessage with
  | true =>
    rw [Fault.worded_of_hasMessage (f := .validation cause) h]
    exact .refused hnone
  | false =>
    rw [Fault.worded_of_not_hasMessage (f := .validation cause) h]
    exact .raised (htext h)

theorem meets_requireConditions {s : Session} {x : σ × List Text} (hkept : s.KeepsTexts)
    (h : t.Tells party x.1) (conditions : Value) :
    Meets party.sending (t.requireConditions conditions) s x fun r s' x' =>
      Asked x.2 x'.2 s' ∧ Checked t (.find conditions) r s' := by
  unfold Table.requireConditions
  split
  · rename_i e rest
    rw [meets_bind]
    refine (meets_requireColumns_texts hkept h).mono ?_
    rintro _ s' x' ⟨hasked, ⟨c, rfl, hc, hempty⟩ | ⟨⟨cause, rfl⟩, hnone⟩⟩
    · dsimp only
      have hunknown : (Entries.names (e :: rest)).filter (fun name => !c.codes.has name) = [] ↔
          (e :: rest).all (fun e => c.codes.has e.1) = true := by
        simp [Entries.names, List.filter_eq_nil_iff, List.all_eq_true]
      split
      · rename_i hall
        refine ⟨hasked, .allowed hc hempty ?_⟩
        rw [Operation.sought, if_pos (hunknown.mp (List.isEmpty_iff.mp hall))]
      · rename_i hsome
        refine ⟨hasked, .worded (fun c' hc' _ => ?_) fun hnames => ?_⟩
        · cases hc.symm.trans hc'
          rw [Operation.sought, if_neg fun hall => hsome (List.isEmpty_iff.mpr (hunknown.mpr hall))]
        · have htext : (Operation.find (.mapping (e :: rest))).hasText = false := by
            refine Bool.eq_false_iff.mpr fun htext => Bool.false_ne_true (hnames.symm.trans ?_)
            refine Value.haveTexts_iff.mpr fun name hname => ?_
            obtain ⟨entry, hentry, rfl⟩ := List.mem_map.mp (List.mem_filter.mp hname).1
            exact (Value.entriesHaveTexts_iff.mp htext entry hentry).1
          rw [htext, Bool.false_and]
    · refine ⟨hasked, .refused fun c hc hempty => ?_⟩
      rw [hnone c hc] at hempty
      cases hempty
  · rename_i hconditions
    refine ⟨Asked.refl hkept _, .refused fun c _ _ => ?_⟩
    rw [Operation.sought]
    · exact fun id h => nomatch h
    · rintro e rest ⟨⟩
      exact hconditions e rest rfl

theorem meets_requireIdentifier {s : Session} {x : σ × List Text} (hkept : s.KeepsTexts)
    (h : t.Tells party x.1) (id : Value) :
    Meets party.sending (t.requireIdentifier id) s x fun r s' x' =>
      Asked x.2 x'.2 s' ∧ Checked t (.findById id) (r.map fun header => [(header, id)]) s' := by
  cases hid : Table.mayIdentify id with
  | false =>
    have hnone : ∀ c, (Operation.findById id).sought c = none := fun c => by
      rw [Operation.sought, hid, if_neg Bool.false_ne_true]
    rw [Table.requireIdentifier_of_not_mayIdentify hid, Table.identifierFault]
    refine ⟨Asked.refl hkept _, ?_⟩
    cases htext : id.hasText with
    | true => exact .refused fun c _ _ => hnone c
    | false => exact .raised (by rw [Operation.hasText, htext, Bool.false_and])
  | true =>
    rw [Table.requireIdentifier_of_mayIdentify hid, meets_bind]
    refine (meets_requireColumns_texts hkept h).mono ?_
    rintro _ s' x' ⟨hasked, ⟨c, rfl, hc, hempty⟩ | ⟨⟨cause, rfl⟩, hnone⟩⟩
    · dsimp only
      split
      · rename_i header hheader
        refine ⟨hasked, .allowed hc hempty ?_⟩
        rw [Operation.sought, hid, if_pos rfl, hheader]
        rfl
      · rename_i hheader
        refine ⟨hasked, .worded (fun c' hc' _ => ?_) fun hname => ?_⟩
        · cases hc.symm.trans hc'
          rw [Operation.sought, hid, if_pos rfl, hheader]
          rfl
        · have hname : t.identifier.hasText = false := hname
          rw [hname, Bool.and_false]
    · refine ⟨hasked, .refused fun c hc hempty => ?_⟩
      rw [hnone c hc] at hempty
      cases hempty

/-! ## Look-ups -/

/-- Conditions that are sought name headers. -/
theorem known_of_sought {c : Columns} (hc : c.HasTexts) {op : Operation} {entries : Entries Value}
    (h : op.sought c = some entries) :
    entries ≠ [] ∧ ∀ e ∈ entries, ∃ col ∈ c.list, col.header.equals e.1 = true := by
  unfold Operation.sought at h
  split at h
  · split at h
    · obtain ⟨header, hheader, rfl⟩ := Option.map_eq_some_iff.mp h
      obtain ⟨col, hcol, rfl⟩ := Columns.exists_of_identifierHeader hheader
      obtain ⟨text, -, htext, -⟩ := hc col hcol
      refine ⟨List.cons_ne_nil _ _, List.forall_mem_singleton.mpr ⟨col, hcol, ?_⟩⟩
      rw [htext]
      exact beq_self_eq_true text
    · cases h
  · split at h
    · rename_i hall
      cases h
      refine ⟨List.cons_ne_nil _ _, fun e he => ?_⟩
      obtain ⟨code, hcode⟩ := Option.isSome_iff_exists.mp (List.all_eq_true.mp hall e he)
      obtain ⟨k, hk, heq⟩ := Entries.exists_of_find? hcode
      obtain ⟨col, hcol, hpair⟩ := List.mem_map.mp hk
      cases hpair
      exact ⟨col, hcol, heq⟩
    · cases h
  · cases h

/-- What a look-up sends once its conditions are checked. -/
theorem meets_findFirst {s : Session} {x : σ × List Text} {c : Columns} (hc : s.columns = some c)
    {entries : Entries Value} {query : Text}
    (hquery : (compile (some c) (Descriptor.first entries)).Gives (.ok query)) (operation : String) :
    Meets party.sending (t.findFirst operation entries) s x fun _ s' x' => s'.columns = s.columns ∧
      ∃ sent, x'.2 = x.2 ++ sent ∧ t.MaySend query sent := by
  rw [Table.findFirst, meets_bind, meets_columns]
  dsimp only
  rw [meets_bind, meets_liftNoted, hc, hquery s.notes]
  dsimp only
  refine (SendsOne.bind (SendsOne.read t query) fun r => ?_) ⟨some c, s.pending, _⟩ x
  split
  · exact Leaves.pure _
  · exact (Leaves.note _ _).bind fun _ => Leaves.pure _
  · exact Leaves.pure _

/-- Compiling conditions of which one has no text fails before anything is sent. -/
theorem meets_findFirst_of_error {s : Session} {x : σ × List Text} {c : Columns} (hc : s.columns = some c)
    {entries : Entries Value} (hquery : (compile (some c) (Descriptor.first entries)).Gives (.error .malformed))
    (operation : String) :
    Meets party.sending (t.findFirst operation entries) s x fun r s' x' =>
      r = .error .malformed ∧ s'.columns = s.columns ∧ x' = x := by
  rw [Table.findFirst, meets_bind, meets_columns]
  dsimp only
  rw [meets_bind, meets_liftNoted, hc, hquery s.notes]
  exact ⟨rfl, rfl, rfl⟩

/-- The end of a look-up: it has sent its query over the columns that are kept, with a comparison for
each of its conditions; or there are no columns that allow it, and it has sent none and found nothing; or a
number in it is too long to be written, and it has sent none and fails. -/
def Answered (t : Table) (op : Operation) (sent : List Text) (r : Except Fault (Option Record))
    (s' : Session) : Prop :=
  (∃ c entries comparisons, s'.columns = some c ∧ c.isEmpty = false ∧ op.sought c = some entries ∧
    List.Forall₂ (IsComparison c) entries comparisons ∧ t.MaySend (firstWhere comparisons) sent) ∨
  (sent = [] ∧ r = .ok none ∧
    ∀ c, s'.columns = some c → c.isEmpty = false → op.sought c = none) ∨
  (sent = [] ∧ r = .error .malformed ∧ (op.hasText && t.identifier.hasText) = false)

/-- Conditions that are sought have texts if the look-up has one. -/
theorem hasText_of_sought {c : Columns} {op : Operation} {entries : Entries Value}
    (h : op.sought c = some entries) (htext : op.hasText = true) : ∀ e ∈ entries, e.2.hasText = true := by
  unfold Operation.sought at h
  split at h
  · split at h
    · obtain ⟨header, -, rfl⟩ := Option.map_eq_some_iff.mp h
      exact List.forall_mem_singleton.mpr htext
    · cases h
  · split at h
    · cases h
      exact fun e he => (Value.entriesHaveTexts_iff.mp htext e he).2
    · cases h
  · cases h

/-- A look-up whose conditions are checked first. -/
theorem meets_checked {operation : String} {m : Act α} {conditions : α → Entries Value}
    {op : Operation} {s : Session} {x : σ × List Text}
    (h : Meets party.sending m s x fun r s' x' => Asked x.2 x'.2 s' ∧ Checked t op (r.map conditions) s')
    {next : Except Fault α → Act (Option Record)}
    (hok : ∀ a, next (.ok a) = t.findFirst operation (conditions a))
    (herror : ∀ fault, next (.error fault) = pure none) :
    Meets party.sending (Table.catchingRefusal operation m >>= next) s x fun r s' x' =>
      ∃ sent sent', Asked x.2 sent s' ∧ x'.2 = sent ++ sent' ∧ Answered t op sent' r s' := by
  rw [meets_bind]
  refine meets_catchingRefusal (h.mono ?_)
  rintro (fault | a) s' x' ⟨hasked, hchecked⟩
  · generalize hr : Except.map conditions (.error fault) = r at hchecked
    cases hchecked with
    | allowed => cases hr
    | @refused cause _ hnone =>
      cases hr
      refine Or.inr (Or.inl ⟨cause, rfl, fun notes => ?_⟩)
      dsimp only
      rw [herror]
      exact ⟨x'.2, [], ⟨hasked.texts, hasked.sent⟩, (List.append_nil _).symm, Or.inr (Or.inl ⟨rfl, rfl, hnone⟩)⟩
    | raised htext =>
      cases hr
      exact Or.inr (Or.inr ⟨rfl, x'.2, [], hasked, (List.append_nil _).symm, Or.inr (Or.inr ⟨rfl, rfl, htext⟩)⟩)
  · generalize hr : Except.map conditions (.ok a) = r at hchecked
    cases hchecked with
    | refused => cases hr
    | raised => cases hr
    | @allowed c entries _ hc hempty hsought =>
      cases hr
      refine Or.inl ⟨a, rfl, ?_⟩
      obtain ⟨hne, hknown⟩ := known_of_sought (hasked.texts c hc) hsought
      dsimp only
      rw [hok]
      by_cases htexts : ∀ e ∈ conditions a, e.2.hasText = true
      · obtain ⟨comparisons, hcomparisons, hquery⟩ :=
          gives_compile_first (hasked.texts c hc) hempty hne htexts hknown
        refine (meets_findFirst hc hquery operation).mono ?_
        rintro r s'' x'' ⟨hc', sent, hx, hsent⟩
        have htexts : s''.KeepsTexts := fun c hc => hasked.texts c (hc' ▸ hc)
        exact ⟨x'.2, sent, ⟨htexts, hasked.sent⟩, hx,
          Or.inl ⟨c, _, comparisons, hc'.trans hc, hempty, hsought, hcomparisons, hsent⟩⟩
      · have hquery := gives_compile_first_of_not (hasked.texts c hc) hempty htexts hknown
        have htext : op.hasText = false :=
          Bool.eq_false_iff.mpr fun htext => htexts (hasText_of_sought hsought htext)
        refine (meets_findFirst_of_error hc hquery operation).mono ?_
        rintro r s'' x'' ⟨rfl, hc', rfl⟩
        have htexts : s''.KeepsTexts := fun c hc => hasked.texts c (hc' ▸ hc)
        exact ⟨x''.2, [], ⟨htexts, hasked.sent⟩, (List.append_nil _).symm,
          Or.inr (Or.inr ⟨rfl, rfl, by rw [htext, Bool.false_and]⟩)⟩

/-- A look-up asks for the columns at most once and then for nothing, or for the first record that fulfils
exactly its conditions. Where there are no columns that allow them, it asks for no record and finds
none; and where a number in it is too long to be written, it asks for no record and fails. -/
theorem lookup_queries {op : Operation} (hop : op.isLookup = true) {s : Session} {st : σ}
    (hkept : s.KeepsTexts) (h : t.Tells party st) :
    ∃ asked sent r, queries party (t.perform op) s st = asked ++ sent ∧
      (asked = [] ∨ asked = [(Table.columnsQuery : Text)]) ∧
      (run party (t.perform op) s st).1 = r.map Outcome.record ∧
      Answered t op sent r (run party (t.perform op) s st).2.1 ∧
      (run party (t.perform op) s st).2.1.KeepsTexts := by
  suffices hlookup : Meets party.sending (t.perform op) s (st, []) fun r s' x' =>
      ∃ sent sent' found, Asked [] sent s' ∧ x'.2 = sent ++ sent' ∧ r = found.map Outcome.record ∧
        Answered t op sent' found s' by
    obtain ⟨asked, sent, r, ⟨htexts, _, rfl, hasked⟩, hsent, hr, hanswered⟩ :=
      meets_sending.mp hlookup
    exact ⟨asked, sent, r, hsent, hasked, hr, hanswered, htexts⟩
  have hmapped : ∀ {m : Act (Option Record)}, (Meets party.sending m s (st, []) fun r s' x' =>
      ∃ sent sent', Asked [] sent s' ∧ x'.2 = sent ++ sent' ∧ Answered t op sent' r s') →
      Meets party.sending (do return Outcome.record (← m)) s (st, []) fun r s' x' =>
        ∃ sent sent' found, Asked [] sent s' ∧ x'.2 = sent ++ sent' ∧ r = found.map Outcome.record ∧
          Answered t op sent' found s' := by
    intro m hm
    rw [meets_bind]
    refine hm.mono ?_
    rintro (fault | found) s' x' ⟨sent, sent', hasked, hx, hanswered⟩
    · exact ⟨sent, sent', .error fault, hasked, hx, rfl, hanswered⟩
    · exact ⟨sent, sent', .ok found, hasked, hx, rfl, hanswered⟩
  cases op with
  | findById id =>
    have hchecked := meets_requireIdentifier (x := (st, [])) hkept h id
    exact hmapped (meets_checked hchecked (fun _ => rfl) fun _ => rfl)
  | find conditions =>
    have hchecked : Meets party.sending (t.requireConditions conditions) s (st, []) fun r s' x' =>
        Asked [] x'.2 s' ∧ Checked t (.find conditions) (r.map fun entries => entries) s' := by
      refine (meets_requireConditions hkept h conditions).mono ?_
      rintro (fault | entries) s' x' hchecked <;> exact hchecked
    exact hmapped (meets_checked hchecked (fun _ => rfl) fun _ => rfl)
  | _ => cases hop

/-- A look-up with two conditions, one of them on a null value and one on a text with a quote. -/
def absent : Operation := .find (.mapping [(.text "When", .null), (.text "id", .text "x' or 1")])

theorem lookup_queries_absent :
    let party := Sample.service (Sample.arrivalsAnswer "Date(2024,0,15)")
    let t := Sample.table (.int 30000)
    absent.isLookup = true ∧ Session.fresh.KeepsTexts ∧ t.Tells party .free ∧
    queries party (t.perform absent) .fresh .free =
      [("select * limit 1" : Text), ("where B is null and A = 'x\\' or 1' limit 1" : Text)] ∧
    ∃ asked sent r, queries party (t.perform absent) .fresh .free = asked ++ sent ∧
      (asked = [] ∨ asked = [(Table.columnsQuery : Text)]) ∧
      (run party (t.perform absent) .fresh .free).1 = r.map Outcome.record ∧
      Answered t absent sent r (run party (t.perform absent) .fresh .free).2.1 ∧
      (run party (t.perform absent) .fresh .free).2.1.KeepsTexts := by
  intro party t
  have htells : t.Tells party .free := by
    refine fun s => Sample.isServed_service (fun payload h => ?_) _ _ _ s _ .refl
    rw [Sample.payload?_arrivalsAnswer] at h
    cases h
    exact (Sample.isShaped_arrivals _).tellsColumns
  have hkept : Session.fresh.KeepsTexts := fun _ h => nomatch h
  exact ⟨rfl, hkept, htells, by decide +kernel, lookup_queries rfl hkept htells⟩

end RowStore
