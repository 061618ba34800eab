import RowStore.Proofs.Fault.Outcome
import RowStore.Proofs.Session.Meets
import RowStore.Table.Basic

/-!
# How columns are come by

Columns are kept, or they are fetched by one query, which may fail. Under any protocol:

* `Holding good F s x` : the kept columns are good, and `F` holds of the waiting changes and the state;
* `Obtains` : how the columns end that are asked for; `meets_fetchColumns_of_answered` and
  `meets_requireColumns_of_answered` : this follows from how the query for them ends.
-/

namespace RowStore

open Act

variable {φ : Type} {P : Protocol φ} {t : Table} {good : Columns → Prop}
  {F : List Change → φ → Prop} {allowed : Fault → Prop} {s : Session} {x : φ}

/-- The kept columns are good, and something holds of the waiting changes and the state. -/
structure Holding (good : Columns → Prop) (F : List Change → φ → Prop) (s : Session) (x : φ) :
    Prop where
  kept : ∀ c, s.columns = some c → good c
  holds : F s.pending x

/-- A fault of the query for the columns that is raised, since it is none of the library's own. -/
def Raises (allowed : Fault → Prop) (fault : Fault) : Prop := allowed fault ∧ ¬ fault.IsRecord

/-- The columns are there and kept; or their query has failed, and none are kept. -/
inductive Obtains (allowed : Fault → Prop) :
    Except Fault (Except Fault Columns) → Option Columns → Prop
  | kept (c : Columns) : Obtains allowed (.ok (.ok c)) (some c)
  | noted (fault : Fault) : Obtains allowed (.ok (.error fault)) none
  | raised {fault : Fault} (h : Raises allowed fault) : Obtains allowed (.error fault) none

/-- The columns that are required are there, or it is refused to go on; then there are none. -/
inductive Requires (allowed : Fault → Prop) : Except Fault Columns → Option Columns → Prop
  | kept {c : Columns} (h : c.isEmpty = false) : Requires allowed (.ok c) (some c)
  | refused {o : Option Columns} (h : ∀ c, o = some c → c.isEmpty = true) :
    Requires allowed (.error (.validation .noColumns)) o
  | raised {fault : Fault} (h : Raises allowed fault) : Requires allowed (.error fault) none

theorem meets_noteColumns (c : Columns) (s : Session) (x : φ) :
    Meets P (Table.noteColumns c) s x fun r s' x' =>
      r = .ok () ∧ s'.columns = s.columns ∧ s'.pending = s.pending ∧ x' = x := by
  rw [Table.noteColumns]
  split
  · rw [meets_bind, meets_note]
    exact ⟨rfl, rfl, rfl, rfl⟩
  · exact ⟨rfl, rfl, rfl, rfl⟩

section

variable (hanswered : Meets P (do
    let answer ← t.fetch Table.columnsQuery
    Columns.ofAnswer answer t.identifier) ⟨none, s.pending, s.notes⟩ x fun r s' x' =>
      s'.columns = none ∧ F s'.pending x' ∧ Ends allowed good r)
include hanswered

theorem meets_fetchColumns_of_answered : Meets P t.fetchColumns s x fun r s' x' =>
    Holding good F s' x' ∧ Obtains allowed r s'.columns := by
  rw [Table.fetchColumns, meets_bind, meets_setColumns]
  dsimp only
  rw [meets_bind, Table.catching, meets_bind, meets_observe]
  refine hanswered.mono ?_
  rintro (fault | c) s' x' ⟨hc, hF, hends⟩
  · dsimp only
    have hnone : ∀ c, s'.columns = some c → good c := by
      intro c hkept
      rw [hc] at hkept
      cases hkept
    split
    · refine ⟨⟨hnone, hF⟩, ?_⟩
      rw [hc]
      exact .noted fault
    · rename_i hfault
      refine ⟨⟨hnone, hF⟩, ?_⟩
      rw [hc]
      exact .raised ⟨hends, hfault⟩
  · dsimp only
    rw [meets_pure]
    dsimp only
    rw [meets_bind]
    refine (meets_noteColumns c s' x').mono ?_
    rintro _ s'' x'' ⟨rfl, -, hp, rfl⟩
    refine ⟨⟨?_, hp.symm ▸ hF⟩, .kept c⟩
    rintro _ ⟨⟩
    exact hends

/-- If columns are kept, these are had, and the query is not sent. -/
theorem meets_getColumns_of_answered (h : Holding good F s x) : Meets P t.getColumns s x fun r s' x' =>
    Holding good F s' x' ∧ Obtains allowed r s'.columns := by
  rw [Table.getColumns, meets_bind, meets_columns]
  dsimp only
  split
  · rename_i c hc
    refine ⟨h, ?_⟩
    rw [(Option.filter_eq_some_iff.mp hc).1]
    exact .kept c
  · exact meets_fetchColumns_of_answered hanswered

theorem meets_requireColumns_of_answered (h : Holding good F s x) :
    Meets P t.requireColumns s x fun r s' x' =>
      Holding good F s' x' ∧ Requires allowed r s'.columns := by
  rw [Table.requireColumns, Table.knownColumns, bind_assoc, meets_bind]
  refine (meets_getColumns_of_answered hanswered h).mono ?_
  rintro r s' x' ⟨h', hobtains⟩
  generalize ho : s'.columns = o at hobtains
  cases hobtains with
  | kept c =>
    dsimp only
    rw [pure_bind]
    cases hempty : c.isEmpty with
    | false =>
      have hsome : (Except.ok (ε := Fault) c).toOption.filter (!·.isEmpty) = some c := by
        simp [Except.toOption, hempty]
      rw [hsome]
      refine ⟨h', ?_⟩
      rw [ho]
      exact .kept hempty
    | true =>
      have hnone : (Except.ok (ε := Fault) c).toOption.filter (!·.isEmpty) = none := by
        simp [Except.toOption, hempty]
      rw [hnone]
      refine ⟨h', .refused fun c' hc' => ?_⟩
      cases ho.symm.trans hc'
      exact hempty
  | noted fault =>
    refine ⟨h', .refused fun c' hc' => ?_⟩
    cases ho.symm.trans hc'
  | raised hraised => exact ⟨h', .raised hraised⟩

end

end RowStore
