import RowStore.Proofs.Fault.Outcome
import RowStore.Proofs.Table.Plan
import RowStore.Proofs.Value.Entries
import RowStore.Table.Operation

/-!
# The input of a write

* `Table.rowsOf`, `Table.fieldsChanged` : the rows of new records and the fields of an update, without
  the notes that are left on the way;
* `Table.intent t c op` : what a write asks of a sheet once its input is checked against the columns
  `c`, or why the input is refused; `intent_cases` : what that may be;
* `Operation.hasText` : whether the arguments that an operation compares or writes by itself have texts;
  `Table.ends_intent` : the input of a write is refused or good, unless it has no text;
* `Table.mayIdentify` : a value that has a text, and not a blank one, may identify a record;
* `Settles` : an act that asks for nothing where the columns are kept, with its outcome.
-/

namespace RowStore

open Act

variable {α β : Type}

/-! ## Records and fields -/

namespace Table

/-- The entries whose names are headers. -/
def known (c : Columns) (entries : Entries Value) : Entries Value :=
  entries.filter fun e => c.positions.has e.1

/-- The cells of a record, and the identifier texts with the record's own. -/
def rowFor (c : Columns) (position : Nat) (before : List Text) (record : Value) :
    Except Fault (Row × List Text) :=
  match record with
  | .mapping (e :: rest) => do
    let entries : Entries Value := e :: rest
    if (known c entries).isEmpty then
      throw (Fault.worded (.validation (.recordUnknown position entries.names)))
    match c.identifierHeader with
    | some header =>
      let text ← identifierText position header (known c entries) before
      return (← cellsOf c (known c entries), before ++ [text])
    | none => return (← cellsOf c (known c entries), before)
  | _ => throw (.validation (.recordEmpty position))

/-- The rows of records, from a position and the identifier texts before it on. -/
def rowsThrough (c : Columns) (position : Nat) (before : List Text) :
    List Value → Except Fault Rows
  | [] => .ok []
  | record :: rest => do
    let (row, texts) ← rowFor c position before record
    return row :: (← rowsThrough c (position + 1) texts rest)

/-- The rows of the records to be created. -/
def rowsOf (c : Columns) (records : List Value) : Except Fault Rows :=
  if records.isEmpty then throw (.validation .noRecords) else rowsThrough c 0 [] records

/-- The fields that an update changes: those of known headers other than the identifier's. -/
def fieldsChanged (c : Columns) (fields : Value) : Except Fault (Entries Value) :=
  match fields with
  | .mapping (e :: rest) => do
    let changes := (known c (e :: rest)).filter fun e =>
      c.identifierHeader.all fun header => !e.1.equals header
    if changes.isEmpty then throw (.validation .payloadUnknown)
    return changes
  | _ => throw (.validation .payloadEmpty)

theorem gives_knownFields (c : Columns) (what : String) (entries : Entries Value) :
    (knownFields c what entries).Gives (.ok (known c entries)) := by
  rw [knownFields]
  dsimp only
  split
  · exact (Noted.gives_note _ _).bind_ok (Noted.gives_pure _)
  · exact Noted.gives_pure _

theorem gives_rowOf (c : Columns) (position : Nat) (before : List Text) (record : Value) :
    (rowOf c position before record).Gives (rowFor c position before record) := by
  by_cases hrecord : ∃ e rest, record = .mapping (e :: rest)
  · obtain ⟨e, rest, rfl⟩ := hrecord
    rw [rowOf, rowFor]
    refine (gives_knownFields c _ _).bind_ok ?_
    dsimp only
    split
    · exact (Noted.gives_throw _).bind_error
    · cases c.identifierHeader with
      | none => exact (Noted.gives_liftExcept _).bind fun _ => Noted.gives_pure _
      | some header =>
        exact (Noted.gives_liftExcept _).bind fun _ =>
          (Noted.gives_liftExcept _).bind fun _ => Noted.gives_pure _
  · have hrecord := fun e rest h => hrecord ⟨e, rest, h⟩
    rw [rowOf, rowFor]
    · exact Noted.gives_throw _
    · exact hrecord
    · exact hrecord

theorem gives_rowsFrom (c : Columns) (position : Nat) (before : List Text) (records : List Value) :
    (rowsFrom c position before records).Gives (rowsThrough c position before records) := by
  induction records generalizing position before with
  | nil => exact Noted.gives_pure _
  | cons record rest ih =>
    refine (gives_rowOf c position before record).bind fun p => ?_
    exact (ih (position + 1) p.2).bind fun _ => Noted.gives_pure _

theorem gives_rowsFor (c : Columns) (records : List Value) :
    (rowsFor c records).Gives (rowsOf c records) := by
  rw [rowsFor, rowsOf]
  split
  · exact Noted.gives_throw _
  · exact gives_rowsFrom c 0 [] records

theorem gives_withoutIdentifier (c : Columns) (entries : Entries Value) :
    (withoutIdentifier c entries).Gives (.ok (entries.filter fun e =>
      c.identifierHeader.all fun header => !e.1.equals header)) := by
  rw [withoutIdentifier]
  cases c.identifierHeader with
  | none =>
    have hall : (entries.filter fun e => Option.all (fun header => !e.1.equals header) none) =
        entries := List.filter_eq_self.mpr fun _ _ => rfl
    rw [hall]
    exact Noted.gives_pure _
  | some header =>
    dsimp only
    cases hheader : entries.has header with
    | true => exact (Noted.gives_note _ _).bind_ok (Noted.gives_pure _)
    | false =>
      have hall : (entries.filter fun e => Option.all (fun header => !e.1.equals header)
          (some header)) = entries :=
        List.filter_eq_self.mpr fun e he => by simp [Entries.has_eq_false_iff.mp hheader e he]
      rw [hall, if_neg Bool.false_ne_true]
      exact Noted.gives_pure _

theorem gives_fieldsFor (c : Columns) (fields : Value) :
    (fieldsFor c fields).Gives (fieldsChanged c fields) := by
  by_cases hfields : ∃ e rest, fields = .mapping (e :: rest)
  · obtain ⟨e, rest, rfl⟩ := hfields
    rw [fieldsFor, fieldsChanged]
    refine (gives_knownFields c _ _).bind_ok ((gives_withoutIdentifier c _).bind_ok ?_)
    dsimp only
    split
    · exact (Noted.gives_throw _).bind_error
    · exact Noted.gives_pure _
  · have hfields := fun e rest h => hfields ⟨e, rest, h⟩
    rw [fieldsFor, fieldsChanged]
    · exact Noted.gives_throw _
    · exact hfields
    · exact hfields

end Table

/-! ## What a write asks for -/

namespace Operation

/-- Whether an operation is one that writes. -/
def isWrite : Operation → Bool
  | create _ | createMany _ | updateById .. | update .. | updateMany .. => true
  | deleteById _ | delete _ | deleteMany _ | clearData => true
  | _ => false

/-- The name under which a write appears in the log. -/
def name : Operation → String
  | create _ => "create"
  | createMany _ => "create_many"
  | updateById .. => "update_by_id"
  | update .. => "update"
  | updateMany .. => "update_many"
  | deleteById _ => "delete_by_id"
  | delete _ => "delete"
  | deleteMany _ => "delete_many"
  | _ => "clear_data"

/-- The records that are to be created. -/
def records : Operation → Except Fault (List Value)
  | create record => .ok [record]
  | createMany records => records.eachGiven
  | _ => .ok []

/-- Whether the arguments that an operation compares or writes by itself have texts. The conditions and fields of
updates and deletions are left out: they are compared and written under the lock. -/
def hasText : Operation → Bool
  | findById id | updateById id _ | deleteById id => id.hasText
  | find conditions => conditions.hasText
  | findMany request => request.hasText
  | create record => record.hasText
  | createMany records => records.hasText
  | _ => true

/-- What a write gives: how many rows it has changed, or whether it has succeeded. -/
def outcome : Operation → Except Fault Nat → Outcome
  | createMany _, r | updateMany .., r | deleteMany _, r => .count (Table.countOf r)
  | _, r => .done (Table.succeeded r)

end Operation

namespace Table

/-- What the creation of records asks of a sheet. -/
def insertion (c : Columns) (records : List Value) : Except Fault Intent := do
  return .append (← rowsOf c records)

/-- What an update asks of a sheet. -/
def updating (c : Columns) (conditions fields : Value) (firstOnly : Bool) : Except Fault Intent := do
  checkConditions conditions .noUpdateConditions
  return .set (← fieldsChanged c fields) conditions firstOnly

/-- What a deletion asks of a sheet. -/
def deleting (conditions : Value) (firstOnly : Bool) : Except Fault Intent := do
  checkConditions conditions .noDeleteConditions
  return .erase conditions firstOnly

/-- The header of the identifier column, which has to be there. -/
def requiredHeader (t : Table) (c : Columns) : Except Fault Value :=
  match c.identifierHeader with
  | some header => return header
  | none => throw (Fault.worded (.validation (.identifierColumnMissing t.identifier)))

/-- The header of the identifier column, for an identifier that has a text which is not empty. -/
def headerFor (t : Table) (c : Columns) (id : Value) : Except Fault Value := do
  id.checkText
  if !isIdentifier id then throw (.validation .identifierEmpty)
  t.requiredHeader c

/-- What a write asks of a sheet, or why its input is refused. -/
def intent (t : Table) (c : Columns) : Operation → Except Fault Intent
  | .create record => insertion c [record]
  | .createMany records => do insertion c (← records.eachGiven)
  | .updateById id fields => do
    let header ← t.headerFor c id
    updating c (.mapping [(header, id)]) fields true
  | .update conditions fields => updating c conditions fields true
  | .updateMany conditions fields => updating c conditions fields false
  | .deleteById id => do
    let header ← t.headerFor c id
    deleting (.mapping [(header, id)]) true
  | .delete conditions => deleting conditions true
  | .deleteMany conditions => deleting conditions false
  | _ => .ok .clear

variable {c : Columns} {i : Intent}

theorem insertion_eq_ok {records : List Value} (h : insertion c records = .ok i) :
    ∃ rows, rowsOf c records = .ok rows ∧ i = .append rows := by
  obtain ⟨rows, hrows, h⟩ := bind_eq_ok h
  cases h
  exact ⟨rows, hrows, rfl⟩

theorem updating_eq_ok {conditions fields : Value} {firstOnly : Bool}
    (h : updating c conditions fields firstOnly = .ok i) :
    ∃ changes, fieldsChanged c fields = .ok changes ∧ i = .set changes conditions firstOnly := by
  obtain ⟨_, _, h⟩ := bind_eq_ok h
  obtain ⟨changes, hchanges, h⟩ := bind_eq_ok h
  cases h
  exact ⟨changes, hchanges, rfl⟩

theorem deleting_eq_ok {conditions : Value} {firstOnly : Bool}
    (h : deleting conditions firstOnly = .ok i) : i = .erase conditions firstOnly := by
  obtain ⟨_, _, h⟩ := bind_eq_ok h
  cases h
  rfl

/-- What the intent of a write may be. -/
theorem intent_cases {t : Table} {op : Operation} (h : t.intent c op = .ok i) :
    (∃ records rows, op.records = .ok records ∧ rowsOf c records = .ok rows ∧ i = .append rows) ∨
      (∃ fields changes conditions firstOnly, fieldsChanged c fields = .ok changes ∧
        i = .set changes conditions firstOnly) ∨
      (∃ conditions firstOnly, i = .erase conditions firstOnly) ∨ i = .clear := by
  cases op with
  | create record =>
    obtain ⟨rows, hrows, rfl⟩ := insertion_eq_ok h
    exact Or.inl ⟨_, rows, rfl, hrows, rfl⟩
  | createMany records =>
    obtain ⟨rs, hrs, h⟩ := bind_eq_ok h
    obtain ⟨rows, hrows, rfl⟩ := insertion_eq_ok h
    exact Or.inl ⟨_, rows, hrs, hrows, rfl⟩
  | updateById id fields =>
    obtain ⟨header, _, h⟩ := bind_eq_ok h
    obtain ⟨changes, hchanges, rfl⟩ := updating_eq_ok h
    exact Or.inr (Or.inl ⟨_, changes, _, _, hchanges, rfl⟩)
  | update conditions fields =>
    obtain ⟨changes, hchanges, rfl⟩ := updating_eq_ok h
    exact Or.inr (Or.inl ⟨_, changes, _, _, hchanges, rfl⟩)
  | updateMany conditions fields =>
    obtain ⟨changes, hchanges, rfl⟩ := updating_eq_ok h
    exact Or.inr (Or.inl ⟨_, changes, _, _, hchanges, rfl⟩)
  | deleteById id =>
    obtain ⟨header, _, h⟩ := bind_eq_ok h
    exact Or.inr (Or.inr (Or.inl ⟨_, _, deleting_eq_ok h⟩))
  | delete conditions => exact Or.inr (Or.inr (Or.inl ⟨_, _, deleting_eq_ok h⟩))
  | deleteMany conditions => exact Or.inr (Or.inr (Or.inl ⟨_, _, deleting_eq_ok h⟩))
  | _ =>
    cases h
    exact Or.inr (Or.inr (Or.inr rfl))

end Table

/-! ## Refusals -/

/-- A cause that can be worded is a refusal. -/
theorem ends_worded (f : ValidationFault) {good : α → Prop} :
    Ends (Fault.Refuses f.hasMessage) good (.error (Fault.worded (.validation f))) := by
  cases h : f.hasMessage with
  | true =>
    rw [Fault.worded_of_hasMessage (f := .validation f) h]
    exact Or.inl rfl
  | false =>
    rw [Fault.worded_of_not_hasMessage (f := .validation f) h]
    exact Or.inr ⟨rfl, rfl⟩

theorem Value.ends_comparedText (v : Value) :
    Ends (Fault.Refuses v.hasText) (· = v.asText) v.comparedText := by
  cases h : v.hasText with
  | true =>
    rw [comparedText_of_hasText h]
    rfl
  | false =>
    rw [comparedText_of_not_hasText h]
    exact Or.inr ⟨rfl, rfl⟩

theorem Value.ends_cellOf (v : Value) : Ends (Fault.Refuses v.hasText) (· = v.toCell) v.cellOf := by
  cases h : v.hasCell with
  | true =>
    rw [cellOf_of_hasCell h]
    rfl
  | false =>
    rw [cellOf_of_not_hasCell h]
    exact Or.inr ⟨rfl, Bool.eq_false_iff.mpr fun htext => Bool.false_ne_true (h.symm.trans (hasCell_of_hasText htext))⟩

/-- The values of a value that has a text have texts. -/
theorem Value.hasText_of_eachGiven {v : Value} {values : List Value} (h : v.eachGiven = .ok values)
    (hv : v.hasText = true) : ∀ value ∈ values, value.hasText = true := by
  rw [eachGiven] at h
  split at h
  · cases h
    exact fun _ hvalue => absurd hvalue List.not_mem_nil
  · cases hitems : v.items? with
    | none =>
      rw [each, hitems] at h
      cases h
    | some items =>
      rw [each, hitems] at h
      cases h
      exact hasText_of_items? hitems hv

namespace Table

variable {c : Columns}

/-- A record has no text where a value that stands in one of its fields has none. -/
theorem hasText_eq_false_of_known {entries : Entries Value} {header : Value}
    (h : (((known c entries).find? header).getD .null).hasText = false) :
    (Value.mapping entries).hasText = false := by
  refine Bool.eq_false_iff.mpr fun htext => Bool.false_ne_true (h.symm.trans ?_)
  refine Entries.hasText_getD_find? (fun e he => ?_) header
  exact (Value.entriesHaveTexts_iff.mp htext e (List.mem_filter.mp he).1).2

theorem ends_identifierText (position : Nat) (header : Value) (entries : Entries Value) (before : List Text) :
    Ends (Fault.Refuses (Value.mapping entries).hasText) (fun _ => True)
      (identifierText position header (known c entries) before) := by
  have htext := ((((known c entries).find? header).getD .null).ends_comparedText).refuses
    hasText_eq_false_of_known
  refine htext.bind fun text _ => ?_
  change Ends _ _ (if _ then _ else _)
  split
  · exact Or.inl rfl
  · split
    · exact Or.inl rfl
    · exact trivial

theorem ends_cellsOf (entries : Entries Value) :
    Ends (Fault.Refuses (Value.mapping entries).hasText) (fun _ => True) (cellsOf c (known c entries)) := by
  have hcell : ∀ header ∈ c.headers, Ends (Fault.Refuses (Value.mapping entries).hasText) (fun _ => True)
      (Value.cellOf (((known c entries).find? header).getD .null)) := fun _ _ =>
    ((Value.ends_cellOf _).refuses hasText_eq_false_of_known).mono (fun _ => id) fun _ _ => trivial
  exact (Ends.mapM hcell).mono (fun _ => id) fun _ _ => trivial

theorem ends_rowFor (position : Nat) (before : List Text) (record : Value) :
    Ends (Fault.Refuses record.hasText) (fun _ => True) (rowFor c position before record) := by
  unfold rowFor
  split
  · rename_i e rest
    have hnames : Value.haveTexts (Entries.names (e :: rest)) = false →
        (Value.mapping (e :: rest)).hasText = false := by
      refine fun hnames => Bool.eq_false_iff.mpr fun htext => ?_
      have hall : Value.haveTexts (Entries.names (e :: rest)) = true := by
        refine Value.haveTexts_iff.mpr fun name hname => ?_
        obtain ⟨field, hfield, rfl⟩ := List.mem_map.mp hname
        exact (Value.entriesHaveTexts_iff.mp htext field hfield).1
      exact Bool.false_ne_true (hnames.symm.trans hall)
    dsimp only
    split
    · exact (ends_worded (.recordUnknown position (Entries.names (e :: rest)))).refuses hnames
    · cases c.identifierHeader with
      | none => exact (ends_cellsOf _).bind fun _ _ => trivial
      | some header =>
        exact (ends_identifierText position header _ before).bind fun _ _ =>
          (ends_cellsOf _).bind fun _ _ => trivial
  · exact Or.inl rfl

/-- Records are refused, or have rows; only those that have no text may fail in another way. -/
theorem ends_rowsOf (records : List Value) :
    Ends (Fault.Refuses (Value.haveTexts records)) (fun _ => True) (rowsOf c records) := by
  have hthrough : ∀ position before, Ends (Fault.Refuses (Value.haveTexts records)) (fun _ => True)
      (rowsThrough c position before records) := by
    induction records with
    | nil => exact fun _ _ => trivial
    | cons record rest ih =>
      intro position before
      rw [Value.haveTexts]
      refine ((ends_rowFor position before record).refuses ?_).bind fun p _ =>
        ((ih (position + 1) p.2).refuses ?_).bind fun _ _ => trivial
      · exact fun htext => by rw [htext, Bool.false_and]
      · exact fun htext => by rw [htext, Bool.and_false]
  rw [rowsOf]
  split
  · exact Or.inl rfl
  · exact hthrough 0 []

theorem ends_fieldsChanged (fields : Value) :
    Ends Fault.IsRefusal (fun _ => True) (fieldsChanged c fields) := by
  unfold fieldsChanged
  split
  · dsimp only
    split
    · rfl
    · exact trivial
  · rfl

theorem ends_checkConditions (conditions : Value) (cause : ValidationFault) :
    Ends Fault.IsRefusal (fun _ => True) (checkConditions conditions cause) := by
  rw [checkConditions]
  split
  · rfl
  · exact trivial

theorem ends_updating (conditions fields : Value) (firstOnly : Bool) :
    Ends Fault.IsRefusal (fun _ => True) (updating c conditions fields firstOnly) :=
  (ends_checkConditions _ _).bind fun _ _ => (ends_fieldsChanged _).bind fun _ _ => trivial

theorem ends_deleting (conditions : Value) (firstOnly : Bool) :
    Ends Fault.IsRefusal (fun _ => True) (deleting conditions firstOnly) :=
  (ends_checkConditions _ _).bind fun _ _ => trivial

end Table

/-! ## Identifiers -/

namespace Table

/-- A value that may identify a record has a text, and this is not blank. -/
def mayIdentify (id : Value) : Bool := id.hasText && isIdentifier id

/-- Why a value may not identify a record. -/
def identifierFault (id : Value) : Fault := if id.hasText then .validation .identifierEmpty else .malformed

/-- An identifier that has a text is refused, or its column has a header. -/
theorem ends_headerFor (t : Table) (c : Columns) (id : Value) :
    Ends (Fault.Refuses (id.hasText && t.identifier.hasText)) (fun _ => True) (t.headerFor c id) := by
  rw [headerFor]
  cases htext : id.hasText with
  | false =>
    rw [Value.checkText_of_not_hasText htext]
    exact Or.inr ⟨rfl, rfl⟩
  | true =>
    rw [Value.checkText_of_hasText htext, Bool.true_and]
    change Ends _ _ (if _ then _ else _)
    split
    · exact Or.inl rfl
    · change Ends _ _ (t.requiredHeader c)
      rw [requiredHeader]
      cases c.identifierHeader with
      | some header => exact trivial
      | none => exact ends_worded (.identifierColumnMissing t.identifier)

/-- The input of a write is refused or good, unless it, or the name of the identifier, has no text. -/
theorem ends_intent (t : Table) (c : Columns) {op : Operation} (hrecords : ∃ records, op.records = .ok records) :
    Ends (Fault.Refuses (op.hasText && t.identifier.hasText)) (fun _ => True) (t.intent c op) := by
  have hinsertion : ∀ records, (Value.haveTexts records = false → op.hasText = false) →
      Ends (Fault.Refuses (op.hasText && t.identifier.hasText)) (fun _ => True) (insertion c records) :=
    fun records htext => ((ends_rowsOf records).refuses fun hnone => by rw [htext hnone, Bool.false_and]).bind
      fun _ _ => trivial
  have hrefused : ∀ {e : Except Fault Intent}, Ends Fault.IsRefusal (fun _ => True) e →
      Ends (Fault.Refuses (op.hasText && t.identifier.hasText)) (fun _ => True) e :=
    fun h => h.mono (fun _ => Or.inl) fun _ => id
  cases op with
  | create record =>
    refine hinsertion [record] fun htext => ?_
    rwa [Value.haveTexts, Value.haveTexts, Bool.and_true] at htext
  | createMany records =>
    obtain ⟨rs, hrs⟩ := hrecords
    change records.eachGiven = .ok rs at hrs
    rw [intent, hrs]
    refine hinsertion rs fun htext => Bool.eq_false_iff.mpr fun hall => ?_
    exact Bool.false_ne_true (htext.symm.trans (Value.haveTexts_iff.mpr (Value.hasText_of_eachGiven hrs hall)))
  | updateById id fields =>
    exact (t.ends_headerFor c id).bind fun _ _ => hrefused (ends_updating _ _ _)
  | update conditions fields => exact hrefused (ends_updating _ _ _)
  | updateMany conditions fields => exact hrefused (ends_updating _ _ _)
  | deleteById id => exact (t.ends_headerFor c id).bind fun _ _ => hrefused (ends_deleting _ _)
  | delete conditions => exact hrefused (ends_deleting _ _)
  | deleteMany conditions => exact hrefused (ends_deleting _ _)
  | _ => exact trivial

variable {t : Table} {id : Value}

theorem requireIdentifier_of_mayIdentify (h : mayIdentify id = true) : t.requireIdentifier id = (do
    match (← t.requireColumns).identifierHeader with
    | some header => return header
    | none => throw (Fault.worded (.validation (.identifierColumnMissing t.identifier)))) := by
  obtain ⟨htext, hblank⟩ := Bool.and_eq_true_iff.mp h
  rw [requireIdentifier, Value.checkText_of_hasText htext, hblank]
  rfl

theorem requireIdentifier_of_not_mayIdentify (h : mayIdentify id = false) :
    t.requireIdentifier id = throw (identifierFault id) := by
  rw [requireIdentifier, identifierFault]
  cases htext : id.hasText with
  | false =>
    rw [Value.checkText_of_not_hasText htext]
    rfl
  | true =>
    rw [mayIdentify, htext, Bool.true_and] at h
    rw [Value.checkText_of_hasText htext, h]
    rfl

end Table

/-! ## Acts that only check -/

/-- An act that asks for nothing and has a fixed outcome where the columns `c` are kept; it changes
the log alone. -/
def Settles (c : Columns) (m : Act α) (e : Except Fault α) : Prop :=
  ∀ {φ : Type} (P : Protocol φ) (s : Session) (x : φ), s.columns = some c →
    Meets P m s x fun r s' x' => r = e ∧ s'.columns = s.columns ∧ s'.pending = s.pending ∧ x' = x

namespace Settles

variable {c : Columns}

theorem pure (a : α) : Settles c (Pure.pure a) (.ok a) := fun _ _ _ _ => ⟨rfl, rfl, rfl, rfl⟩

theorem throw (fault : Fault) : Settles c (throw fault : Act α) (.error fault) :=
  fun _ _ _ _ => ⟨rfl, rfl, rfl, rfl⟩

theorem liftExcept (e : Except Fault α) : Settles c (liftM e : Act α) e := by
  intro φ P s x _
  rw [meets_liftExcept]
  exact ⟨rfl, rfl, rfl, rfl⟩

theorem liftNoted {m : Noted α} {e : Except Fault α} (hm : m.Gives e) :
    Settles c (liftM m : Act α) e := fun _ s _ _ => ⟨hm s.notes, rfl, rfl, rfl⟩

theorem bind {m : Act α} {e : Except Fault α} (hm : Settles c m e) {f : α → Act β}
    {k : α → Except Fault β} (hf : ∀ a, Settles c (f a) (k a)) : Settles c (m >>= f) (e >>= k) := by
  intro φ P s x hs
  rw [meets_bind]
  refine (hm P s x hs).mono ?_
  rintro r s' x' ⟨rfl, hc, hp, rfl⟩
  cases r with
  | error fault => exact ⟨rfl, hc, hp, rfl⟩
  | ok a =>
    refine (hf a P s' x' (hc.trans hs)).mono ?_
    rintro r s'' x'' ⟨rfl, hc', hp', rfl⟩
    exact ⟨rfl, hc'.trans hc, hp'.trans hp, rfl⟩

theorem requireColumns (t : Table) (hc : c.isEmpty = false) : Settles c t.requireColumns (.ok c) := by
  intro φ P s x hs
  have hkept : s.columns.filter (!·.isEmpty) = some c := by simp [hs, hc]
  have hget : Meets P t.getColumns s x fun r s' x' => r = .ok (.ok c) ∧ s' = s ∧ x' = x := by
    rw [Table.getColumns, meets_bind, meets_columns]
    dsimp only
    rw [hkept]
    exact ⟨rfl, rfl, rfl⟩
  rw [Table.requireColumns, Table.knownColumns, bind_assoc, meets_bind]
  refine hget.mono ?_
  rintro r s' x' ⟨rfl, rfl, rfl⟩
  have hsome : (Except.ok (ε := Fault) c).toOption.filter (!·.isEmpty) = some c := by
    simp [Except.toOption, hc]
  dsimp only
  rw [pure_bind, hsome]
  exact ⟨rfl, rfl, rfl, rfl⟩

end Settles

end RowStore
