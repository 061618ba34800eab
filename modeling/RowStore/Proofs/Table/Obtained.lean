import RowStore.Proofs.Columns.Identifier
import RowStore.Proofs.Table.Effect
import RowStore.Proofs.Table.Reading

/-!
# Writes that obtain the columns first

* `Operation.ChecksFirst op t` : the operation obtains the columns, which are kept or fetched, and checks
  its input before it goes on; `ChecksFirst.run_congr`, `ChecksFirst.run_of_error` : what it does depends
  on how it comes by the columns, and without columns it fails;
* `Obtained K t c s st s' st'` : the columns `c` are obtained, and nothing else has been done;
  `exists_obtained` : this is so once they are there.
-/

namespace RowStore

open Act Table

variable {α β σ : Type} {party : Party σ} {K : Keeper party} {t : Table} {c : Columns} {op : Operation}
  {s s' : Session} {st st' : σ} {fault : Fault}

/-- An act that obtains the columns and checks its input under a name; it does not go on with input that
is refused. -/
def Table.Checks (t : Table) (name : String) (m : Act (Except Fault Nat)) : Prop :=
  ∃ (γ : Type) (k : Columns → Act γ) (g : Except Fault γ → Act (Except Fault Nat)),
    m = catchingRefusal name (t.requireColumns >>= k) >>= g ∧
      ∀ fault, g (.error fault) = pure (.error fault)

/-- An operation that obtains the columns and checks its input before it goes on. -/
def Operation.ChecksFirst (op : Operation) (t : Table) : Prop :=
  ∃ m, t.Checks op.name m ∧ t.perform op = op.outcome <$> m

namespace Table

theorem checks_insert (t : Table) (name : String) (records : List Value) :
    t.Checks name (t.insert name records) := ⟨_, _, _, rfl, fun _ => rfl⟩

theorem checks_change (t : Table) (name : String) (conditions fields : Value) (firstOnly : Bool) :
    t.Checks name (t.change name conditions fields firstOnly) := ⟨_, _, _, rfl, fun _ => rfl⟩

theorem checks_erase (t : Table) (name : String) (conditions : Value) (firstOnly : Bool) :
    t.Checks name (t.erase name conditions firstOnly) := ⟨_, _, _, rfl, fun _ => rfl⟩

end Table

namespace Operation

theorem checksFirst_updateMany (t : Table) (conditions fields : Value) :
    (updateMany conditions fields).ChecksFirst t := by
  refine ⟨_, t.checks_change _ conditions fields false, ?_⟩
  simp only [perform, Table.updateMany, map_eq_pure_bind, bind_assoc, pure_bind]
  rfl

theorem checksFirst_delete (t : Table) (conditions : Value) : (delete conditions).ChecksFirst t := by
  refine ⟨_, t.checks_erase _ conditions true, ?_⟩
  simp only [perform, Table.delete, map_eq_pure_bind, bind_assoc, pure_bind]
  rfl

theorem checksFirst_deleteMany (t : Table) (conditions : Value) :
    (deleteMany conditions).ChecksFirst t := by
  refine ⟨_, t.checks_erase _ conditions false, ?_⟩
  simp only [perform, Table.deleteMany, map_eq_pure_bind, bind_assoc, pure_bind]
  rfl

end Operation

/-! ## Columns that are kept or fetched -/

theorem run_bind_congr {m : Act α} (h : run party m s st = run party m s' st') (f : α → Act β) :
    run party (m >>= f) s st = run party (m >>= f) s' st' := by
  rw [run_bind, run_bind, h]

namespace Operation.ChecksFirst

/-- What the operation does depends on how it comes by the columns, and on what is so then. -/
theorem run_congr (hop : op.ChecksFirst t)
    (h : run party t.requireColumns s st = run party t.requireColumns s' st') :
    run party (t.perform op) s st = run party (t.perform op) s' st' := by
  obtain ⟨_, ⟨γ, k, g, rfl, -⟩, hperform⟩ := hop
  have hchecked : run party (catchingRefusal op.name (t.requireColumns >>= k)) s st =
      run party (catchingRefusal op.name (t.requireColumns >>= k)) s' st' := by
    refine run_bind_congr ?_ _
    rw [run_observe, run_observe, run_bind_congr h]
  rw [hperform, run_map, run_map, run_bind_congr hchecked]

/-- Without columns the operation fails; where it is refused to go on, it does nothing more. -/
theorem run_of_error (hop : op.ChecksFirst t)
    (h : (run party t.requireColumns s st).1 = .error fault) :
    (run party (t.perform op) s st).1 =
        (if fault.kind.isValidation then .ok (op.outcome (.error fault)) else .error fault) ∧
      (run party (t.perform op) s st).2.2 = (run party t.requireColumns s st).2.2 := by
  obtain ⟨_, ⟨γ, k, g, rfl, hg⟩, hperform⟩ := hop
  rw [hperform, run_map, run_bind, catchingRefusal, catching, run_bind, run_observe, run_bind]
  rcases hran : run party t.requireColumns s st with ⟨r, s', st'⟩
  rw [hran] at h
  obtain rfl : r = .error fault := h
  dsimp only
  cases fault.kind.isValidation with
  | false => exact ⟨rfl, rfl⟩
  | true =>
    rw [if_pos rfl, run_bind, run_note]
    dsimp only
    rw [run_pure]
    dsimp only
    rw [hg]
    exact ⟨rfl, rfl⟩

end Operation.ChecksFirst

namespace Table

/-- Columns that are kept are had at once. -/
theorem run_requireColumns_of_kept (party : Party σ) (t : Table) (hs : s.columns = some c)
    (hc : c.isEmpty = false) (st : σ) : run party t.requireColumns s st = (.ok c, s, st) := by
  have hkept : s.columns.filter (!·.isEmpty) = some c := by simp [hs, hc]
  have hget : run party t.getColumns s st = (.ok (.ok c), s, st) := by
    rw [getColumns, run_bind, run_columns]
    dsimp only
    rw [hkept]
    rfl
  have hsome : (Except.ok (ε := Fault) c).toOption.filter (!·.isEmpty) = some c := by
    simp [Except.toOption, hc]
  rw [requireColumns, knownColumns, bind_assoc, run_bind, hget]
  dsimp only
  rw [pure_bind, hsome]
  rfl

/-- Columns that are kept or fetched are distinct, and so far nothing has been done. -/
theorem meets_requireColumns_distinct (K : Keeper party) (t : Table) (st : σ) (hpending : s.pending = [])
    (hkept : ∀ c, s.columns = some c → Distinct c.list) :
    Meets party.protocol t.requireColumns s st fun r s' st' =>
      Holding (fun c => Distinct c.list) (K.Spared st (K.ledger st)) s' st' ∧
        Requires (fun _ => True) r s'.columns :=
  meets_requireColumns_of_answered
    (K.meets_answered ⟨hpending, rfl, .refl⟩ fun _ _ _ hfetched => distinct_ofAnswer hfetched)
    ⟨hkept, hpending, rfl, .refl⟩

end Table

/-- Columns are obtained from a session and a state; they are kept now, and nothing else has been done. -/
structure Obtained (K : Keeper party) (t : Table) (c : Columns) (s : Session) (st : σ) (s' : Session)
    (st' : σ) : Prop where
  ready : Ready c s'
  filled : c.isEmpty = false
  distinct : Distinct c.list
  sound : K.sound st → K.sound st'
  ledger : K.ledger st' = K.ledger st
  again : run party t.requireColumns s st = run party t.requireColumns s' st'

section

variable (K) (t) (hpending : s.pending = []) (hkept : ∀ c, s.columns = some c → Distinct c.list)
include hpending hkept

/-- Columns that are there are obtained. -/
theorem exists_obtained (h : (run party t.requireColumns s st).1 = .ok c) :
    ∃ s' st', Obtained K t c s st s' st' := by
  have hrequired := meets_protocol.mp (meets_requireColumns_distinct K t st hpending hkept)
  rcases hran : run party t.requireColumns s st with ⟨r, s', st'⟩
  rw [hran] at h hrequired
  obtain rfl : r = .ok c := h
  obtain ⟨⟨hdistinct, hspared⟩, hrequires⟩ := hrequired
  have hheld : s'.columns = some c ∧ c.isEmpty = false := by
    generalize hcolumns : s'.columns = o at hrequires
    cases hrequires with
    | kept hempty => exact ⟨rfl, hempty⟩
  refine ⟨s', st', ⟨hheld.1, hspared.pending⟩, hheld.2, hdistinct c hheld.1, fun hst => ?_,
    hspared.ledger, ?_⟩
  · exact hspared.reached.sound K hst
  · rw [hran, run_requireColumns_of_kept party t hheld.1 hheld.2]

end

/-! ## The columns of the users -/

namespace Sample

theorem distinct_columns : Distinct columns.list := ⟨by decide, by decide⟩

theorem distinct_of_kept : ∀ c, session.columns = some c → Distinct c.list := by
  rintro _ ⟨⟩
  exact distinct_columns

end Sample

end RowStore
