import RowStore.Proofs.Session.Trace
import RowStore.Proofs.Table.Input
import RowStore.Proofs.Table.Locked

/-!
# How a write ends

* `Carries P t c known B name W` : what a write needs to know of the protocol under which it runs. Its
  columns are `c`, if they are to be had, `B` holds until it asks for the lock, and `W` says how a
  locked write ends;
* `Performed` : the ways in which a write ends. Its input is refused before the lock is asked for, or
  cannot be written as a text, or it runs as one locked write; `meets_perform` : every write ends in one
  of these ways;
* `meets_perform_writing` : with kept columns, under the protocol of writes;
* `Operation.failure` : what a write comes to whose input has a fault; `run_of_refused` : it asks for
  nothing.
-/

namespace RowStore

open Act

variable {α β γ φ : Type}

/-- What a write needs to know of the protocol under which it runs. -/
structure Carries (P : Protocol φ) (t : Table) (c : Columns) (known : Prop)
    (B : Session → φ → Prop) (name : String)
    (W : Intent → Except Fault (Except Fault Nat) → Session → φ → Prop) : Prop where
  /-- The log does not matter. -/
  noted : ∀ {s s' x}, B s x → s'.columns = s.columns → s'.pending = s.pending → B s' x
  /-- The columns are `c`; only if they are not known from the start they may not be had. -/
  columns : ∀ {s x}, B s x → Meets P t.requireColumns s x fun r s' x' =>
    B s' x' ∧ ((r = .ok c ∧ s'.columns = some c) ∨ ((∃ fault, r = .error fault) ∧ ¬ known))
  write : ∀ {s x}, B s x → s.columns = some c → ∀ done i,
    Meets P (t.write name done (t.action c i)) s x (W i)
  clear : ∀ {s x}, B s x →
    Meets P (t.writer.execute name (Grid.queue (.clearFrom (t.grid.headerRowNumber + 1)))) s x
      fun r s' x' => ∀ s'', s''.columns = s'.columns → s''.pending = s'.pending →
        W .clear (r.map fun e => e.map fun _ => 1) s'' x'

/-- What becomes of a check that ends in `e` if the columns are to be had: a refusal becomes a value, and any
other fault is raised. -/
inductive Caught (known : Prop) (e : Except Fault α) (R : Prop) : Except Fault (Except Fault α) → Prop
  | passed {a : α} (h : e = .ok a) (hR : R) : Caught known e R (.ok (.ok a))
  | refused {fault : Fault} (h : (e = .error fault ∧ fault.kind.isValidation = true) ∨ ¬ known) :
    Caught known e R (.ok (.error fault))
  | raised {fault : Fault} (h : (e = .error fault ∧ fault.kind.isValidation = false) ∨ ¬ known) :
    Caught known e R (.error fault)

/-- How a write with an intent ends: its input is refused or raises a fault, the columns are not to be had, or it
is carried out. -/
inductive Attempt (known : Prop) (B : Session → φ → Prop)
    (W : Intent → Except Fault (Except Fault Nat) → Session → φ → Prop)
    (intent : Except Fault Intent) : Except Fault (Except Fault Nat) → Session → φ → Prop
  | invalid {fault : Fault} {s : Session} {x : φ}
    (h : (intent = .error fault ∧ fault.kind.isValidation = true) ∨ ¬ known) (hB : B s x) :
    Attempt known B W intent (.ok (.error fault)) s x
  | raised {fault : Fault} {s : Session} {x : φ}
    (h : (intent = .error fault ∧ fault.kind.isValidation = false) ∨ ¬ known) (hB : B s x) :
    Attempt known B W intent (.error fault) s x
  | tried {i : Intent} {r : Except Fault (Except Fault Nat)} {s : Session} {x : φ}
    (h : intent = .ok i) (hends : W i r s x) : Attempt known B W intent r s x

/-- How a write ends; records that cannot be gone through raise a fault at once. -/
inductive Performed (known : Prop) (B : Session → φ → Prop)
    (W : Intent → Except Fault (Except Fault Nat) → Session → φ → Prop) (t : Table) (c : Columns)
    (op : Operation) : Except Fault Outcome → Session → φ → Prop
  | unlisted {fault : Fault} {s : Session} {x : φ} (h : op.records = .error fault) (hB : B s x) :
    Performed known B W t c op (.error fault) s x
  | attempted {records : List Value} {r : Except Fault (Except Fault Nat)} {s : Session} {x : φ}
    (hrecords : op.records = .ok records) (h : Attempt known B W (t.intent c op) r s x) :
    Performed known B W t c op (r.map op.outcome) s x

namespace Carries

open Table

variable {P : Protocol φ} {t : Table} {c : Columns} {known : Prop} {B : Session → φ → Prop}
  {name : String} {W : Intent → Except Fault (Except Fault Nat) → Session → φ → Prop}
  {s : Session} {x : φ}

/-- A check that starts with the columns: if they are to be had, it ends as it should. -/
theorem meets_requireColumns (h : Carries P t c known B name W) (hB : B s x) {k : Columns → Act α}
    {e : Except Fault α} (hk : Settles c (k c) e) :
    Meets P (t.requireColumns >>= k) s x fun r s' x' =>
      B s' x' ∧ ((r = e ∧ s'.columns = some c) ∨ ((∃ fault, r = .error fault) ∧ ¬ known)) := by
  rw [meets_bind]
  refine (h.columns hB).mono ?_
  rintro r s' x' ⟨hB', ⟨rfl, hc⟩ | ⟨⟨fault, rfl⟩, hknown⟩⟩
  · refine (hk P s' x' hc).mono ?_
    rintro r s'' x'' ⟨rfl, hc', hp', rfl⟩
    exact ⟨h.noted hB' hc' hp', Or.inl ⟨rfl, hc'.trans hc⟩⟩
  · exact ⟨hB', Or.inr ⟨⟨fault, rfl⟩, hknown⟩⟩

/-- Refused input becomes a value, with a note; any other fault is raised. -/
theorem meets_catchingRefusal (h : Carries P t c known B name W) {m : Act α} {e : Except Fault α}
    {R : Session → Prop}
    (hm : Meets P m s x fun r s' x' =>
      B s' x' ∧ ((r = e ∧ R s') ∨ ((∃ fault, r = .error fault) ∧ ¬ known))) :
    Meets P (catchingRefusal name m) s x fun r s' x' => B s' x' ∧ Caught known e (R s') r := by
  rw [catchingRefusal, catching, meets_bind, meets_observe]
  refine hm.mono ?_
  rintro (fault | a) s' x' ⟨hB', hr⟩
  · have hwhy : e = .error fault ∨ ¬ known := hr.imp (fun he => he.1.symm) And.right
    dsimp only
    by_cases hfault : fault.kind.isValidation = true
    · rw [if_pos hfault]
      exact ⟨h.noted hB' rfl rfl, .refused (hwhy.imp_left fun he => ⟨he, hfault⟩)⟩
    · rw [if_neg hfault]
      exact ⟨hB', .raised (hwhy.imp_left fun he => ⟨he, Bool.eq_false_iff.mpr hfault⟩)⟩
  · obtain ⟨he, hR'⟩ := hr.resolve_right fun ⟨⟨_, hfault⟩, _⟩ => nomatch hfault
    exact ⟨hB', .passed he.symm hR'⟩

/-- An operation that checks its input, and carries out the intent that comes of it. -/
theorem meets_checked (h : Carries P t c known B name W) (hB : B s x) {k : Columns → Act γ}
    {e : Except Fault γ} (hk : Settles c (k c) e)
    {i : γ → Intent} {intent : Except Fault Intent} (hintent : intent = e >>= fun a => pure (i a))
    {g : Except Fault γ → Act (Except Fault Nat)} (done : String)
    (herror : ∀ fault, g (.error fault) = pure (.error fault))
    (hok : ∀ a, e = .ok a → g (.ok a) = t.write name done (t.action c (i a))) :
    Meets P (catchingRefusal name (t.requireColumns >>= k) >>= g) s x (Attempt known B W intent) := by
  subst hintent
  have hfails : ∀ {fault : Fault} {valid : Prop}, (e = .error fault ∧ valid) ∨ ¬ known →
      ((e >>= fun a => pure (i a)) = .error fault ∧ valid) ∨ ¬ known := by
    rintro fault valid (⟨rfl, hvalid⟩ | hknown)
    · exact Or.inl ⟨rfl, hvalid⟩
    · exact Or.inr hknown
  rw [meets_bind]
  refine (h.meets_catchingRefusal (R := fun s => s.columns = some c)
    (h.meets_requireColumns hB hk)).mono ?_
  rintro _ s' x' ⟨hB', hcaught⟩
  cases hcaught with
  | @passed a he hc =>
    dsimp only
    rw [hok a he]
    exact (h.write hB' hc done (i a)).mono fun r s'' x'' hW => .tried (by rw [he]; rfl) hW
  | refused hwhy =>
    dsimp only
    rw [herror]
    exact .invalid (hfails hwhy) hB'
  | raised hwhy => exact .raised (hfails hwhy) hB'

theorem meets_insert (h : Carries P t c known B name W) (hB : B s x) (records : List Value) :
    Meets P (t.insert name records) s x (Attempt known B W (insertion c records)) := by
  have hsettles : Settles c (do return (c, ← rowsFor c records)) (do return (c, ← rowsOf c records)) :=
    Settles.bind (Settles.liftNoted (gives_rowsFor c records)) fun _ => Settles.pure _
  have hintent : insertion c records =
      (do return (c, ← rowsOf c records)) >>= fun p => pure (.append p.2) := by
    simp only [insertion, bind_assoc, pure_bind]
  refine h.meets_checked hB hsettles hintent "appended" (fun _ => rfl) fun p hp => ?_
  obtain ⟨_, _, hp⟩ := bind_eq_ok hp
  cases hp
  rfl

theorem meets_change (h : Carries P t c known B name W) (hB : B s x) (conditions fields : Value)
    (firstOnly : Bool) : Meets P (t.change name conditions fields firstOnly) s x
      (Attempt known B W (updating c conditions fields firstOnly)) := by
  have hsettles : Settles c (do
      checkConditions conditions .noUpdateConditions
      return (c, ← fieldsFor c fields)) (do
      checkConditions conditions .noUpdateConditions
      return (c, ← fieldsChanged c fields)) :=
    Settles.bind (Settles.liftExcept _) fun _ =>
      Settles.bind (Settles.liftNoted (gives_fieldsFor c fields)) fun _ => Settles.pure _
  have hintent : updating c conditions fields firstOnly = (do
      checkConditions conditions .noUpdateConditions
      return (c, ← fieldsChanged c fields)) >>= fun p => pure (.set p.2 conditions firstOnly) := by
    simp only [updating, bind_assoc, pure_bind]
  refine h.meets_checked hB hsettles hintent "updated" (fun _ => rfl) fun p hp => ?_
  obtain ⟨_, _, hp⟩ := bind_eq_ok hp
  obtain ⟨_, _, hp⟩ := bind_eq_ok hp
  cases hp
  rfl

theorem meets_erase (h : Carries P t c known B name W) (hB : B s x) (conditions : Value)
    (firstOnly : Bool) : Meets P (t.erase name conditions firstOnly) s x
      (Attempt known B W (deleting conditions firstOnly)) := by
  have hsettles : Settles c (do
      checkConditions conditions .noDeleteConditions
      return c) (do
      checkConditions conditions .noDeleteConditions
      return c) :=
    Settles.bind (Settles.liftExcept _) fun _ => Settles.pure c
  have hintent : deleting conditions firstOnly = (do
      checkConditions conditions .noDeleteConditions
      return c) >>= fun _ => pure (.erase conditions firstOnly) := by
    simp only [deleting, bind_assoc, pure_bind]
  refine h.meets_checked hB hsettles hintent "deleted" (fun _ => rfl) fun c' hc' => ?_
  obtain ⟨_, _, hc'⟩ := bind_eq_ok hc'
  cases hc'
  rfl

/-- The header of the identifier is there only if the identifier and the columns could be checked. -/
theorem meets_requireIdentifier (h : Carries P t c known B name W) (hB : B s x) (id : Value) :
    Meets P (t.requireIdentifier id) s x fun r s' x' =>
      B s' x' ∧ ((r = t.headerFor c id ∧ True) ∨ ((∃ fault, r = .error fault) ∧ ¬ known)) := by
  rw [requireIdentifier, headerFor, meets_bind, meets_liftExcept]
  cases id.checkText with
  | error fault => exact ⟨hB, Or.inl ⟨rfl, trivial⟩⟩
  | ok _ =>
    cases isIdentifier id with
    | false => exact ⟨hB, Or.inl ⟨rfl, trivial⟩⟩
    | true =>
      refine (h.meets_requireColumns hB (e := t.requiredHeader c) ?_).mono ?_
      · rw [requiredHeader]
        cases c.identifierHeader with
        | none => exact Settles.throw _
        | some header => exact Settles.pure header
      · rintro r s' x' ⟨hB', hr⟩
        exact ⟨hB', hr.imp_left fun h => ⟨h.1, trivial⟩⟩

/-- The condition on the identifier is there only if it could be checked. -/
theorem meets_identifierCondition (h : Carries P t c known B name W) (hB : B s x) (id : Value) :
    Meets P (t.identifierCondition name id) s x fun r s' x' => B s' x' ∧
      ((∃ header, t.headerFor c id = .ok header ∧ r = .ok (some (.mapping [(header, id)]))) ∨
        (r = .ok none ∧ ∃ fault,
          (t.headerFor c id = .error fault ∧ fault.kind.isValidation = true) ∨ ¬ known) ∨
        ∃ fault, r = .error fault ∧
          ((t.headerFor c id = .error fault ∧ fault.kind.isValidation = false) ∨ ¬ known)) := by
  rw [identifierCondition, meets_bind]
  refine (h.meets_catchingRefusal (R := fun _ => True) (h.meets_requireIdentifier hB id)).mono ?_
  rintro _ s' x' ⟨hB', hcaught⟩
  cases hcaught with
  | @passed header hheader => exact ⟨hB', Or.inl ⟨header, hheader, rfl⟩⟩
  | @refused fault hwhy => exact ⟨hB', Or.inr (Or.inl ⟨rfl, fault, hwhy⟩)⟩
  | @raised fault hwhy => exact ⟨hB', Or.inr (Or.inr ⟨fault, rfl, hwhy⟩)⟩

variable {op : Operation}

/-- The outcome of an operation is made from the result of its write. -/
theorem meets_outcome {records : List Value} (hrecords : op.records = .ok records)
    {m : Act (Except Fault Nat)} (hm : Meets P m s x (Attempt known B W (t.intent c op)))
    {g : Except Fault Nat → γ} {f : γ → Outcome} (hf : ∀ r, f (g r) = op.outcome r) :
    Meets P (do return f (← (do return g (← m)))) s x (Performed known B W t c op) := by
  rw [meets_bind, meets_bind]
  refine hm.mono fun r s' x' h => ?_
  rcases r with fault | r
  · exact .attempted hrecords h
  · dsimp only
    rw [meets_pure]
    dsimp only
    rw [meets_pure, hf]
    exact .attempted hrecords h

theorem meets_createMany (h : Carries P t c known B "create_many" W) (hB : B s x) (records : Value) :
    Meets P (t.perform (.createMany records)) s x (Performed known B W t c (.createMany records)) := by
  cases hrecords : records.eachGiven with
  | error fault =>
    rw [perform, createMany, hrecords]
    exact .unlisted hrecords hB
  | ok rs =>
    have hintent : t.intent c (.createMany records) = insertion c rs := by
      rw [intent, hrecords]
      rfl
    rw [perform, createMany, hrecords]
    have hattempt := h.meets_insert hB rs
    rw [← hintent] at hattempt
    exact meets_outcome (show (Operation.createMany records).records = .ok rs from hrecords) hattempt
      fun _ => rfl

/-- An operation on the record with an identifier. -/
theorem meets_byId (h : Carries P t c known B name W) (hB : B s x) {id : Value}
    (hrecords : op.records = .ok []) (houtcome : ∀ r, op.outcome r = .done (succeeded r))
    {k : Value → Except Fault Intent} (hintent : t.intent c op = t.headerFor c id >>= k)
    {m : Value → Act (Except Fault Nat)} (hm : ∀ header s x, B s x →
      Meets P (m (.mapping [(header, id)])) s x (Attempt known B W (k header))) :
    Meets P ((do
      match ← t.identifierCondition name id with
      | some condition => return succeeded (← m condition)
      | none => return false) >>= fun done => pure (.done done)) s x
      (Performed known B W t c op) := by
  have hfails : ∀ {fault : Fault} {valid : Prop}, (t.headerFor c id = .error fault ∧ valid) ∨ ¬ known →
      (t.intent c op = .error fault ∧ valid) ∨ ¬ known := by
    rintro fault valid (⟨hheader, hvalid⟩ | hknown)
    · exact Or.inl ⟨by rw [hintent, hheader]; rfl, hvalid⟩
    · exact Or.inr hknown
  rw [bind_assoc, meets_bind]
  refine (h.meets_identifierCondition hB id).mono ?_
  rintro _ s' x' ⟨hB', ⟨header, hheader, rfl⟩ | ⟨rfl, fault, hwhy⟩ | ⟨fault, rfl, hwhy⟩⟩
  · have hattempt := hm header s' x' hB'
    have hk : t.intent c op = k header := by
      rw [hintent, hheader]
      rfl
    rw [← hk] at hattempt
    have hmeets := meets_outcome hrecords hattempt fun r => (houtcome r).symm
    dsimp only
    rw [meets_bind] at hmeets ⊢
    exact hmeets
  · have hattempted : Performed known B W t c op _ s' x' := .attempted hrecords (.invalid (hfails hwhy) hB')
    rw [Except.map, houtcome] at hattempted
    exact hattempted
  · exact .attempted (r := .error fault) hrecords (.raised (hfails hwhy) hB')

theorem meets_clearData (h : Carries P t c known B "clear_data" W) (hB : B s x) :
    Meets P (t.perform .clearData) s x (Performed known B W t c .clearData) := by
  rw [perform, clearData, bind_assoc, meets_bind]
  refine (h.clear hB).mono ?_
  rintro (fault | fault | _) s' x' hW
  · exact .attempted (r := .error fault) rfl (.tried rfl (hW s' rfl rfl))
  · exact .attempted (r := .ok (.error fault)) rfl (.tried rfl (hW s' rfl rfl))
  · exact .attempted (r := .ok (.ok 1)) rfl (.tried rfl (hW _ rfl rfl))

/-- Every write ends in one of the given ways. -/
theorem meets_perform (h : Carries P t c known B op.name W) (hop : op.isWrite = true) (hB : B s x) :
    Meets P (t.perform op) s x (Performed known B W t c op) := by
  cases op with
  | create record => exact meets_outcome rfl (h.meets_insert hB [record]) fun _ => rfl
  | createMany records => exact h.meets_createMany hB records
  | updateById id fields =>
    exact h.meets_byId hB rfl (fun _ => rfl) rfl fun header s x hB => h.meets_change hB _ fields true
  | update conditions fields =>
    exact meets_outcome rfl (h.meets_change hB conditions fields true) fun _ => rfl
  | updateMany conditions fields =>
    exact meets_outcome rfl (h.meets_change hB conditions fields false) fun _ => rfl
  | deleteById id =>
    exact h.meets_byId hB rfl (fun _ => rfl) rfl fun header s x hB => h.meets_erase hB _ true
  | delete conditions =>
    exact meets_outcome rfl (h.meets_erase hB conditions true) fun _ => rfl
  | deleteMany conditions =>
    exact meets_outcome rfl (h.meets_erase hB conditions false) fun _ => rfl
  | clearData => exact h.meets_clearData hB
  | _ => cases hop

end Carries

/-- What a write comes to whose input has a fault: a refusal is its outcome, and any other fault is raised. -/
def Operation.failure (op : Operation) (fault : Fault) : Except Fault Outcome :=
  if fault.kind.isValidation then .ok (op.outcome (.error fault)) else .error fault

/-! ## Under the protocol of writes -/

variable {terms : Terms}

/-- The columns are kept and no change is waiting. -/
structure Ready (c : Columns) (s : Session) : Prop where
  columns : s.columns = some c
  pending : s.pending = []

/-- A locked write of rows whose number does not matter. -/
theorem WriteEnds.map {w : Writer} {description : Text} {planned : Except Fault (Revision × α)}
    {x x' : Course} {r : Except Fault (Except Fault α)} (f : α → β)
    (h : WriteEnds terms w description planned x r x') :
    WriteEnds terms w description (planned.map fun p => (p.1, f p.2)) x
      (r.map fun e => e.map f) x' := by
  cases h with
  | unready h => exact .unready h
  | barred h hbars => exact .barred h hbars
  | refused h hbars => exact .refused h hbars
  | failed h hbars hwhy hkept =>
    refine .failed h hbars (hwhy.imp_left fun hplanned => ?_) hkept
    rw [hplanned]
    rfl
  | made h hbars hplanned hroom =>
    refine .made h hbars ?_ hroom
    rw [hplanned]
    rfl

namespace Table

variable {t : Table} {c : Columns} {op : Operation} {s : Session} {x : Course}

/-- How a write ends that starts with kept columns and an empty queue. -/
abbrev Written (terms : Terms) (t : Table) (c : Columns) (op : Operation) (x : Course) :
    Except Fault Outcome → Session → Course → Prop :=
  Performed True (fun s x' => Ready c s ∧ x' = x) (fun i r s x' => Ready c s ∧
    WriteEnds terms t.writer op.name (t.plan c x.ledger.rows i) x r x') t c op

/-- A write leaves its table ready. -/
theorem Written.ready {r : Except Fault Outcome} {x' : Course} (h : Written terms t c op x r s x') :
    Ready c s := by
  cases h with
  | unlisted _ hB => exact hB.1
  | attempted _ h =>
    cases h with
    | invalid _ hB => exact hB.1
    | raised _ hB => exact hB.1
    | tried _ hends => exact hends.1

/-- A write never returns with the lock. -/
theorem Written.lock_ne_held {r : Except Fault Outcome} {x' : Course}
    (h : Written terms t c op x r s x') (hx : x.lock = .before) : x'.lock ≠ .held := by
  cases h with
  | unlisted _ hB => simp [hB.2, hx]
  | attempted _ h =>
    cases h with
    | invalid _ hB => simp [hB.2, hx]
    | raised _ hB => simp [hB.2, hx]
    | tried _ hends =>
      cases hends.2 with
      | unready => simp [hx]
      | barred | refused | failed | made => simp

theorem meets_write (hx : x.lock = .before) (hs : Ready c s) (hc : c.isEmpty = false)
    (operation done : String) (i : Intent) :
    Meets (writing terms) (t.write operation done (t.action c i)) s x fun r s' x' => Ready c s' ∧
      WriteEnds terms t.writer operation (t.plan c x.ledger.rows i) x r x' := by
  rw [write, meets_bind]
  refine (Writer.meets_execute hx hs.pending (plans_action t hc i) operation).mono ?_
  rintro (fault | r) s' x' ⟨hcolumns, hpending, hends⟩
  · exact ⟨⟨hcolumns.trans hs.columns, hpending⟩, hends⟩
  · cases r <;> exact ⟨⟨hcolumns.trans hs.columns, hpending⟩, hends⟩

theorem meets_executeClear (hx : x.lock = .before) (hs : s.pending = []) (t : Table) (c : Columns)
    (operation : String) :
    Meets (writing terms)
      (t.writer.execute operation (Grid.queue (.clearFrom (t.grid.headerRowNumber + 1)))) s x
      fun r s' x' => s'.columns = s.columns ∧ s'.pending = [] ∧ WriteEnds terms t.writer operation
        (t.plan c x.ledger.rows .clear) x (r.map fun e => e.map fun _ => 1) x' := by
  have hplans : Plans terms (Grid.queue (.clearFrom (t.grid.headerRowNumber + 1)))
      fun _ => .ok (.clear (t.grid.headerRowNumber + 1), ()) :=
    plans_queueAll (.clear (t.grid.headerRowNumber + 1)) ()
  have hplan : t.plan c x.ledger.rows .clear =
      (t.grid.permitted (.ok (.clear (t.grid.headerRowNumber + 1), ()))).map
        fun p => (p.1, 1) := by
    change (t.grid.permits _ >>= fun _ => pure _) =
      Except.map _ (t.grid.permits _ >>= fun _ => pure _)
    cases t.grid.permits (.clear (t.grid.headerRowNumber + 1)) <;> rfl
  refine (Writer.meets_execute hx hs hplans operation).mono ?_
  rintro r s' x' ⟨hcolumns, hpending, hends⟩
  rw [hplan]
  exact ⟨hcolumns, hpending, hends.map fun _ => 1⟩

/-- With kept columns a write carries on by its locked write and its clearing alone. -/
theorem carries_of_kept {P : Protocol φ} {known : Prop} {x : φ} {name : String}
    {W : Intent → Except Fault (Except Fault Nat) → Session → φ → Prop} (hc : c.isEmpty = false)
    (hwrite : ∀ s, Ready c s → ∀ done i, Meets P (t.write name done (t.action c i)) s x (W i))
    (hclear : ∀ s, Ready c s →
      Meets P (t.writer.execute name (Grid.queue (.clearFrom (t.grid.headerRowNumber + 1)))) s x
        fun r s' x' => ∀ s'', s''.columns = s'.columns → s''.pending = s'.pending →
          W .clear (r.map fun e => e.map fun _ => 1) s'' x') :
    Carries P t c known (fun s x' => Ready c s ∧ x' = x) name W := by
  refine ⟨?_, ?_, ?_, ?_⟩
  · rintro s s' _ ⟨hs, rfl⟩ hcolumns hpending
    exact ⟨⟨hcolumns.trans hs.columns, hpending.trans hs.pending⟩, rfl⟩
  · rintro s _ ⟨hs, rfl⟩
    refine (Settles.requireColumns t hc _ s _ hs.columns).mono ?_
    rintro _ s' _ ⟨rfl, hcolumns, hpending, rfl⟩
    have hs' : Ready c s' := ⟨hcolumns.trans hs.columns, hpending.trans hs.pending⟩
    exact ⟨⟨hs', rfl⟩, Or.inl ⟨rfl, hs'.columns⟩⟩
  · rintro s _ ⟨hs, rfl⟩
    exact fun _ => hwrite s hs
  · rintro s _ ⟨hs, rfl⟩
    exact hclear s hs

theorem meets_perform_writing (hx : x.lock = .before) (hs : Ready c s) (hc : c.isEmpty = false)
    (hop : op.isWrite = true) : Meets (writing terms) (t.perform op) s x (Written terms t c op x) := by
  refine Carries.meets_perform (carries_of_kept hc ?_ ?_) hop ⟨hs, rfl⟩
  · intro s hs done i
    exact meets_write hx hs hc op.name done i
  · intro s hs
    refine (meets_executeClear hx hs.pending t c op.name).mono ?_
    rintro r s' x' ⟨hc', hp', hends⟩ s'' hcolumns hpending
    exact ⟨⟨hcolumns.trans (hc'.trans hs.columns), hpending.trans hp'⟩, hends⟩

/-! ## Refused input -/

/-- A write whose input has a fault asks for nothing. -/
theorem run_of_refused {σ : Type} (party : Party σ) (hs : Ready c s) (hc : c.isEmpty = false)
    (hop : op.isWrite = true) (hrecords : ∃ records, op.records = .ok records) {fault : Fault}
    (hintent : t.intent c op = .error fault) (st : σ) :
    (run party (t.perform op) s st).1 = op.failure fault ∧
      (run party (t.perform op) s st).2.2 = st ∧ asked party (t.perform op) s st = [] := by
  -- Whether anything is asked for shows in the units of a view that shows nothing else.
  have hcarries : Carries (party.showing fun _ => [()]) t c True
      (fun s x' => Ready c s ∧ x' = (st, [])) op.name fun _ _ _ _ => True :=
    carries_of_kept hc (fun _ _ _ _ => meets_showing.mpr trivial)
      fun _ _ => meets_showing.mpr fun _ _ _ => trivial
  have hperformed := meets_showing.mp (hcarries.meets_perform hop ⟨hs, rfl⟩)
  rw [asked_eq_nil_iff]
  obtain ⟨records, hrecords⟩ := hrecords
  generalize (run party (t.perform op) s st).1 = r at hperformed ⊢
  cases hperformed with
  | unlisted hunlisted =>
    rw [hrecords] at hunlisted
    cases hunlisted
  | attempted _ h =>
    cases h with
    | invalid hwhy hB =>
      obtain ⟨hfault, hvalid⟩ := hwhy.resolve_right (not_not_intro trivial)
      cases hintent.symm.trans hfault
      exact ⟨(if_pos hvalid).symm, Prod.ext_iff.mp hB.2⟩
    | raised hwhy hB =>
      obtain ⟨hfault, hvalid⟩ := hwhy.resolve_right (not_not_intro trivial)
      cases hintent.symm.trans hfault
      exact ⟨(if_neg (Bool.eq_false_iff.mp hvalid)).symm, Prod.ext_iff.mp hB.2⟩
    | tried hi =>
      rw [hintent] at hi
      cases hi

end Table

end RowStore
