import RowStore.Proofs.Session.Leaves
import RowStore.Proofs.Sheet.Scripted
import RowStore.Proofs.Table.Fetched
import RowStore.Proofs.Table.Input

/-!
# Reads leave the sheet alone

* `Tidy c s` : the columns are `c` or have to be fetched, and no change is waiting;
* `Keeper.Spared K start l` : no change is waiting, the sheet is that of the ledger `l`, and the party has
  come from the state `start`;
* `Describes party t c start` : from the state `start` on, every answer that describes columns
  describes `c`;
* `Calm K c start l s st` : the session is tidy, the sheet is that of the ledger `l`, and the party has
  come from the state `start`;
* `Spares K c start m` : the act `m` keeps what is calm calm; one rule for each step of an act, and
  `Spares.perform` for all operations that are no writes.
-/

namespace RowStore

open Act

variable {α β σ : Type} {party : Party σ} {K : Keeper party} {c : Columns} {t : Table} {start : σ}

/-- The states that a party may come to. -/
inductive Party.Reaches (party : Party σ) (start : σ) : σ → Prop
  | refl : Reaches party start start
  | answer {β : Type} {st : σ} (h : Reaches party start st) (r : Request β) :
    Reaches party start (party.answer r st).2

theorem Party.Reaches.run {st : σ} (h : party.Reaches start st) (m : Act α) (s : Session) :
    party.Reaches start (Act.run party m s st).2.2 := by
  have hprogram : ∀ (p : Program (Except Fault α × Session)) (st : σ), party.Reaches start st →
      party.Reaches start (p.run party st).2 := by
    intro p
    induction p with
    | done a => exact fun st h => h
    | ask r next ih => exact fun st h => ih _ _ (h.answer r)
  exact hprogram (m s) st h

/-- A sound party stays sound. -/
theorem Party.Reaches.sound {st : σ} (h : party.Reaches start st) (K : Keeper party)
    (hstart : K.sound start) : K.sound st := by
  induction h with
  | refl => exact hstart
  | answer _ r ih => exact K.sound_answer r _ ih

/-- A request that does not change the sheet leaves the ledger alone. -/
theorem Keeper.leaves_ask (K : Keeper party) {r : Request α} (hr : ¬ r.changesSheet) :
    Leaves party.protocol K.ledger (Act.ask r) := by
  refine Leaves.ask (fun _ => trivial) fun st a st' hanswer => ?_
  obtain ⟨-, rfl⟩ := Prod.ext_iff.mp hanswer
  exact K.ledger_answer r st hr

theorem Keeper.leaves_fetch (K : Keeper party) (t : Table) (query : Text) :
    Leaves party.protocol K.ledger (t.fetch query) :=
  Leaves.fetch (K.leaves_ask id) (K.leaves_ask id) (fun _ => K.leaves_ask id)
    (fun _ => K.leaves_ask id) t query

/-- No change is waiting, the sheet is that of a ledger, and the party has come from a state. -/
structure Keeper.Spared (K : Keeper party) (start : σ) (l : Ledger) (pending : List Change) (st : σ) :
    Prop where
  pending : pending = []
  ledger : K.ledger st = l
  reached : party.Reaches start st

/-- From a state on, every answer that describes columns describes `c`. -/
def Describes (party : Party σ) (t : Table) (c : Columns) (start : σ) : Prop :=
  ∀ s st, party.Reaches start st → ∀ answer fetched,
    (run party (t.fetch Table.columnsQuery) s st).1 = .ok answer →
    Columns.ofAnswer answer t.identifier = .ok fetched → fetched = c

/-- The columns are `c` or have to be fetched, and no change is waiting. -/
structure Tidy (c : Columns) (s : Session) : Prop where
  columns : s.columns = none ∨ s.columns = some c
  pending : s.pending = []

/-- A tidy session, and a sheet as it was. -/
structure Calm (K : Keeper party) (c : Columns) (start : σ) (l : Ledger) (s : Session) (st : σ) :
    Prop where
  tidy : Tidy c s
  ledger : K.ledger st = l
  reached : party.Reaches start st

theorem Calm.noted {l : Ledger} {s s' : Session} {st : σ} (h : Calm K c start l s st)
    (hc : s'.columns = s.columns) (hp : s'.pending = s.pending) : Calm K c start l s' st :=
  ⟨⟨hc ▸ h.tidy.columns, hp ▸ h.tidy.pending⟩, h.ledger, h.reached⟩

/-- An act that keeps a session tidy and the sheet as it is. -/
def Spares (K : Keeper party) (c : Columns) (start : σ) (m : Act α) : Prop :=
  ∀ l s st, Calm K c start l s st →
    Meets party.protocol m s st fun _ s' st' => Calm K c start l s' st'

namespace Spares

theorem pure (a : α) : Spares K c start (Pure.pure a : Act α) := fun _ _ _ h => h

theorem throw (fault : Fault) : Spares K c start (throw fault : Act α) := fun _ _ _ h => h

theorem liftExcept (e : Except Fault α) : Spares K c start (liftM e : Act α) := by
  intro l s st h
  rw [meets_liftExcept]
  exact h

theorem liftNoted (m : Noted α) : Spares K c start (liftM m : Act α) := fun _ _ _ h => h.noted rfl rfl

theorem note (level : NoteLevel) (text : Text) : Spares K c start (Act.note level text) :=
  fun _ _ _ h => h.noted rfl rfl

theorem columns : Spares K c start Act.columns := fun _ _ _ h => h

theorem invalidate : Spares K c start Table.invalidate :=
  fun _ _ _ h => ⟨⟨Or.inl rfl, h.tidy.pending⟩, h.ledger, h.reached⟩

theorem bind {m : Act α} {f : α → Act β} (hm : Spares K c start m)
    (hf : ∀ a, Spares K c start (f a)) : Spares K c start (m >>= f) := by
  intro l s st h
  rw [meets_bind]
  refine (hm l s st h).mono ?_
  rintro (fault | a) s' st' h'
  · exact h'
  · exact hf a l s' st' h'

theorem observe {m : Act α} (hm : Spares K c start m) : Spares K c start (Act.observe m) := by
  intro l s st h
  rw [meets_observe]
  exact hm l s st h

theorem catching {m : Act α} (hm : Spares K c start m) (holds : Fault.Kind → Bool) (level : NoteLevel)
    (label : String) : Spares K c start (Table.catching holds level label m) := by
  refine hm.observe.bind fun r => ?_
  cases r with
  | ok a => exact pure _
  | error fault =>
    dsimp only
    split
    · exact (note _ _).bind fun _ => pure _
    · exact throw fault

/-- An act that leaves the session and the ledger alone. -/
theorem of_leaves {m : Act α} (hm : Leaves party.protocol K.ledger m) : Spares K c start m := by
  intro l s st h
  have hreached : Meets party.protocol m s st fun _ _ st' => party.Reaches start st' :=
    meets_protocol.mpr (h.reached.run m s)
  refine ((hm s st).and hreached).mono fun _ s' st' ⟨⟨hc, hp, hl⟩, hr⟩ => ?_
  exact ⟨⟨hc ▸ h.tidy.columns, hp ▸ h.tidy.pending⟩, hl.trans h.ledger, hr⟩

theorem fetch (t : Table) (query : Text) : Spares K c start (t.fetch query) :=
  of_leaves (K.leaves_fetch t query)

end Spares

/-! ## Columns -/

/-- The end of the query for the columns; what is good of the columns comes from its answer. -/
theorem Keeper.meets_answered (K : Keeper party) {good : Columns → Prop} {l : Ledger} {s : Session}
    {st : σ} (h : K.Spared start l s.pending st)
    (hgood : ∀ answer fetched, (run party (t.fetch Table.columnsQuery) s st).1 = .ok answer →
      Columns.ofAnswer answer t.identifier = .ok fetched → good fetched) :
    Meets party.protocol (do
      let answer ← t.fetch Table.columnsQuery
      Columns.ofAnswer answer t.identifier) s st fun r s' st' => s'.columns = s.columns ∧
        K.Spared start l s'.pending st' ∧ Ends (fun _ => True) good r := by
  have hran : Meets party.protocol (t.fetch Table.columnsQuery) s st fun r _ st' =>
      r = (run party (t.fetch Table.columnsQuery) s st).1 ∧ party.Reaches start st' :=
    meets_protocol.mpr ⟨rfl, h.reached.run _ s⟩
  rw [meets_bind]
  refine ((K.leaves_fetch t _ s st).and hran).mono ?_
  rintro (fault | answer) s' st' ⟨⟨hc, hp, hl⟩, hrun, hreached⟩
  · exact ⟨hc, ⟨hp.trans h.pending, hl.trans h.ledger, hreached⟩, trivial⟩
  · dsimp only
    rw [meets_liftExcept]
    refine ⟨hc, ⟨hp.trans h.pending, hl.trans h.ledger, hreached⟩, ?_⟩
    cases hfetched : Columns.ofAnswer answer t.identifier with
    | error fault => exact trivial
    | ok fetched => exact hgood answer fetched hrun.symm hfetched

/-- A calm session, by what is kept. -/
theorem calm_iff_holding {l : Ledger} {s : Session} {st : σ} :
    Calm K c start l s st ↔ Holding (· = c) (K.Spared start l) s st := by
  have hcolumns : (s.columns = none ∨ s.columns = some c) ↔ ∀ c', s.columns = some c' → c' = c := by
    cases s.columns <;> simp
  exact ⟨fun h => ⟨hcolumns.mp h.tidy.columns, h.tidy.pending, h.ledger, h.reached⟩,
    fun h => ⟨⟨hcolumns.mpr h.kept, h.holds.pending⟩, h.holds.ledger, h.holds.reached⟩⟩

section

variable (ht : Describes party t c start) {l : Ledger} {s : Session} {st : σ}
  (h : Calm K c start l s st)
include ht h

theorem meets_described : Meets party.protocol (do
    let answer ← t.fetch Table.columnsQuery
    Columns.ofAnswer answer t.identifier) ⟨none, s.pending, s.notes⟩ st fun r s' st' =>
      s'.columns = none ∧ K.Spared start l s'.pending st' ∧ Ends (fun _ => True) (· = c) r :=
  K.meets_answered ⟨h.tidy.pending, h.ledger, h.reached⟩ (ht _ st h.reached)

/-- The columns that are required are `c`, if they are to be had. -/
theorem meets_requireColumns : Meets party.protocol t.requireColumns s st fun r s' st' =>
    Calm K c start l s' st' ∧ ((r = .ok c ∧ s'.columns = some c) ∨ ∃ fault, r = .error fault) := by
  refine (meets_requireColumns_of_answered (meets_described ht h) (calm_iff_holding.mp h)).mono ?_
  rintro r s' st' ⟨hholding, hrequires⟩
  refine ⟨calm_iff_holding.mpr hholding, ?_⟩
  generalize hcolumns : s'.columns = o at hrequires
  cases hrequires with
  | kept hempty =>
    obtain rfl := hholding.kept _ hcolumns
    exact Or.inl ⟨rfl, rfl⟩
  | refused | raised => exact Or.inr ⟨_, rfl⟩

end

namespace Spares

theorem fetchColumns (ht : Describes party t c start) : Spares K c start t.fetchColumns :=
  fun _ _ _ h => (meets_fetchColumns_of_answered (meets_described ht h)).mono
    fun _ _ _ h => calm_iff_holding.mpr h.1

theorem knownColumns (ht : Describes party t c start) : Spares K c start t.knownColumns := by
  have hgot : Spares K c start t.getColumns := fun _ _ _ h =>
    (meets_getColumns_of_answered (meets_described ht h) (calm_iff_holding.mp h)).mono
      fun _ _ _ h => calm_iff_holding.mpr h.1
  exact hgot.bind fun _ => pure _

theorem requireColumns (ht : Describes party t c start) : Spares K c start t.requireColumns :=
  fun _ _ _ h => (meets_requireColumns ht h).mono fun _ _ _ h => h.1

/-! ## Reads -/

theorem read (t : Table) (query : Text) : Spares K c start (t.read query) := by
  rw [Table.read]
  refine catching ?_ _ _ _
  exact (fetch t query).bind fun _ => columns.bind fun _ => (liftNoted _).bind fun _ => pure _

theorem findFirst (t : Table) (operation : String) (conditions : Entries Value) :
    Spares K c start (t.findFirst operation conditions) := by
  refine columns.bind fun _ => (liftNoted _).bind fun query => (read t query).bind fun r => ?_
  split
  · exact pure _
  · exact (note _ _).bind fun _ => pure _
  · exact pure _

theorem requireIdentifier (ht : Describes party t c start) (id : Value) :
    Spares K c start (t.requireIdentifier id) := by
  cases hid : Table.mayIdentify id with
  | false =>
    rw [Table.requireIdentifier_of_not_mayIdentify hid]
    exact throw _
  | true =>
    rw [Table.requireIdentifier_of_mayIdentify hid]
    refine (requireColumns ht).bind fun c' => ?_
    split
    · exact pure _
    · exact throw _

theorem requireConditions (ht : Describes party t c start) (conditions : Value) :
    Spares K c start (t.requireConditions conditions) := by
  unfold Table.requireConditions
  split
  · refine (requireColumns ht).bind fun c' => ?_
    dsimp only
    split
    · exact pure _
    · exact throw _
  · exact throw _

theorem findById (ht : Describes party t c start) (id : Value) : Spares K c start (t.findById id) := by
  refine (catching (requireIdentifier ht id) _ _ _).bind fun r => ?_
  split
  · exact findFirst t _ _
  · exact pure _

theorem find (ht : Describes party t c start) (conditions : Value) :
    Spares K c start (t.find conditions) := by
  refine (catching (requireConditions ht conditions) _ _ _).bind fun r => ?_
  split
  · exact findFirst t _ _
  · exact pure _

theorem findMany (ht : Describes party t c start) (request : Value) :
    Spares K c start (t.findMany request) := by
  refine (catching (liftExcept _) _ _ _).bind fun r => ?_
  split
  · exact (knownColumns ht).bind fun _ => (liftNoted _).bind fun _ => (read t _).bind fun _ => pure _
  · exact pure _

theorem getAll (ht : Describes party t c start) : Spares K c start t.getAll :=
  (findMany ht .null).bind fun _ => pure _

theorem query (ht : Describes party t c start) (text : Value) : Spares K c start (t.query text) := by
  have hresolved := catching (K := K) ((knownColumns ht).bind fun columns =>
    liftExcept (Query.Bracket.resolve columns text)) Fault.Kind.isValidation .warning "query: "
  refine hresolved.bind fun r => ?_
  split
  · exact (read t _).bind fun _ => pure _
  · exact pure _

theorem toFrame (ht : Describes party t c start) (records : Value) :
    Spares K c start (t.toFrame records) := by
  have hframe : ∀ v : Value, Spares K c start (do
      let headers := ((← Act.columns).map Columns.headers).getD []
      Frame.ofValue v headers) := fun v => columns.bind fun _ => liftExcept _
  unfold Table.toFrame
  split
  · exact (getAll ht).bind fun _ => (pure _).bind hframe
  · exact (pure _).bind hframe

/-- An operation that is no write leaves the sheet alone. -/
theorem perform (ht : Describes party t c start) {op : Operation} (hop : op.isWrite = false) :
    Spares K c start (t.perform op) := by
  cases op with
  | findById id => exact (findById ht id).bind fun _ => pure _
  | find conditions => exact (find ht conditions).bind fun _ => pure _
  | findMany request => exact (findMany ht request).bind fun _ => pure _
  | getAll => exact (getAll ht).bind fun _ => pure _
  | query text => exact (query ht text).bind fun _ => pure _
  | toFrame records => exact (toFrame ht records).bind fun _ => pure _
  | refresh => exact ((fetchColumns ht).bind fun _ => pure _).bind fun _ => pure _
  | invalidate => exact invalidate.bind fun _ => pure _
  | columns => exact columns.bind fun _ => pure _
  | _ => cases hop

end Spares

/-! ## A sheet with scripted faults -/

theorem Scripted.mem_replies {bars : Binary64 → Bool} {first last : Scripted}
    (h : (Scripted.party bars).Reaches first last) : ∀ v ∈ last.replies, v ∈ first.replies := by
  induction h with
  | refl => exact fun _ hv => hv
  | @answer β st _ r ih =>
    intro v hv
    refine ih v ?_
    cases r with
    | query text =>
      simp only [party, answer] at hv
      split at hv
      · exact hv
      · rename_i hreplies
        rw [hreplies]
        exact List.mem_cons_of_mem _ hv
    | acquire seconds => simp only [party, answer] at hv; split at hv <;> exact hv
    | readRows => simp only [party, answer] at hv; split at hv <;> exact hv
    | write w => simp only [party, answer] at hv; split at hv <;> exact hv
    | _ => exact hv

/-- Scripted answers of which each describes `c`, or no columns. -/
theorem Scripted.describes {bars : Binary64 → Bool} {first : Scripted} (hsource : t.source = .service)
    (hreplies : ∀ v ∈ first.replies, ∀ fetched,
      Columns.ofAnswer v t.identifier = .ok fetched → fetched = c) :
    Describes (Scripted.party bars) t c first := by
  intro s st hst answer fetched hanswer
  refine hreplies answer (mem_replies hst answer ?_) fetched
  rw [Table.fetch, hsource] at hanswer
  dsimp only at hanswer
  rw [run_ofAnswer_ask] at hanswer
  cases hrest : st.replies with
  | nil =>
    simp only [party, Scripted.answer, hrest] at hanswer
    cases hanswer
  | cons v rest =>
    simp only [party, Scripted.answer, hrest] at hanswer
    cases hanswer
    exact List.mem_cons_self

end RowStore
