import RowStore.Proofs.Columns.Types
import RowStore.Proofs.Query.Compiled

/-!
# Conditions and the types of their columns

A condition is written by the type that stands under the code of its column, whatever codes the columns
have.

* `Comparison.of` : a column compared with a value;
* `gives_comparison`, `endsIn_comparison` : what a condition compiles to;
* `types_of_columns` : where a column's own type stands under its names, and the conditions that are
  therefore written by it.
-/

namespace RowStore.Query

variable {c : Columns}

/-- The comparison of the column with a code with a value, by a type. -/
def Comparison.of (code : Value) (type : TypeTag) (v : Value) : Comparison :=
  ⟨code.plain, if v.isNull then none else some (Literal.chosen v type)⟩

/-- The comparison of a known header with a value, by the type of the header's own column. -/
def ownComparison? (c : Columns) (e : Value × Value) : Option Comparison :=
  (columnOf? c e.1).map fun col => Comparison.of col.code col.type e.2

/-- A condition on a known header compares its column by the type that stands under the column's
code. -/
theorem gives_comparison (c : Columns) {e : Value × Value}
    (he : (columnOf? c e.1).isSome → e.2.hasText = true) :
    (comparison? c e.1 e.2).Gives
      (.ok ((columnOf? c e.1).map fun col => Comparison.of col.code (c.typeOf col.code) e.2)) := by
  unfold comparison?
  refine (gives_resolve c "where" e.1).bind_ok ?_
  rw [codeOf?_eq]
  cases hcol : columnOf? c e.1 with
  | none => exact Noted.gives_pure _
  | some col =>
    dsimp only [Option.map_some, Comparison.of]
    cases e.2.isNull with
    | true => exact Noted.gives_pure _
    | false =>
      exact (Literal.gives_ofValue (he (Option.isSome_of_eq_some hcol)) _).bind_ok (Noted.gives_pure _)

/-- A fault of any kind. -/
abbrev AnyFault (_ : Fault) : Prop := True

/-- Where a condition compiles at all, it is compared by the type that stands under its column's code. -/
theorem endsIn_comparison (c : Columns) (e : Value × Value) :
    Noted.EndsIn AnyFault
      (· = (columnOf? c e.1).map fun col => Comparison.of col.code (c.typeOf col.code) e.2)
      (comparison? c e.1 e.2) := by
  by_cases h : (columnOf? c e.1).isSome → e.2.hasText = true
  · exact (gives_comparison c h).endsIn rfl
  · obtain ⟨hknown, htext⟩ := Classical.not_imp.mp h
    exact (gives_comparison?_of_not hknown (Bool.eq_false_iff.mpr htext)).endsIn trivial

/-- Where conditions compile at all, each is compared by the type that stands under its column's code. -/
theorem endsIn_comparisonsOf (c : Columns) (conditions : Value) :
    Noted.EndsIn AnyFault
      (· = (entriesOf conditions).filterMap fun e =>
        (columnOf? c e.1).map fun col => Comparison.of col.code (c.typeOf col.code) e.2)
      (comparisonsOf c conditions) := by
  unfold comparisonsOf entriesOf
  cases hb : conditions.isBlank with
  | true => exact Noted.endsIn_pure rfl
  | false =>
    have hentries : Ends AnyFault (· = conditions.entries?.getD []) conditions.expectEntries := by
      rw [Value.expectEntries]
      cases conditions.entries? <;> trivial
    refine (Noted.endsIn_liftExcept hentries).bind fun entries h => ?_
    subst h
    exact Noted.endsIn_filterMapM fun e _ => endsIn_comparison c e

theorem endsIn_any {α : Type} (m : Noted α) : Noted.EndsIn AnyFault (fun _ => True) m := by
  intro notes
  cases (m.runWith notes).1 <;> trivial

/-- Where each condition's column has its own type under its code, the text that is compiled compares
every condition by the type of its own column. -/
theorem endsIn_compile_typed (c : Columns) (d : Descriptor)
    (htypes : ∀ e ∈ entriesOf d.conditions, ∀ col, columnOf? c e.1 = some col →
      c.typeOf col.code = col.type) :
    Noted.EndsIn AnyFault
      (fun text => ∃ clauses : Clauses, text = clauses.render ∧
        clauses.comparisons = (entriesOf d.conditions).filterMap (ownComparison? c))
      (compile (some c) d) := by
  have hown : ((entriesOf d.conditions).filterMap fun e =>
      (columnOf? c e.1).map fun col => Comparison.of col.code (c.typeOf col.code) e.2) =
      (entriesOf d.conditions).filterMap (ownComparison? c) := by
    refine List.filterMap_congr fun e he => Option.map_congr fun col hcol => ?_
    rw [htypes e he col hcol]
  rw [compile]
  split
  · rename_i hempty
    have hnone : ∀ e, ownComparison? c e = none := by
      intro e
      rw [ownComparison?, columnOf?, List.isEmpty_iff.mp hempty]
      cases e.1.text? <;> rfl
    have hnothing : ∃ clauses : Clauses, ([] : Text) = clauses.render ∧
        clauses.comparisons = (entriesOf d.conditions).filterMap (ownComparison? c) :=
      ⟨⟨[], [], [], none, none⟩, rfl, (List.filterMap_eq_nil_iff.mpr fun e _ => hnone e).symm⟩
    rw [compile.degraded]
    split
    · exact (endsIn_any _).bind fun _ _ => Noted.endsIn_pure hnothing
    · exact Noted.endsIn_pure hnothing
  · have hclauses : Noted.EndsIn AnyFault (fun clauses => clauses.comparisons =
        (entriesOf d.conditions).filterMap (ownComparison? c)) (clausesOf c d) := by
      refine (endsIn_any _).bind fun select _ => ?_
      refine (endsIn_comparisonsOf c d.conditions).bind fun comparisons hcomparisons => ?_
      refine (endsIn_any _).bind fun order _ => (endsIn_any _).bind fun limit _ => ?_
      exact (endsIn_any _).bind fun offset _ => Noted.endsIn_pure (hcomparisons.trans hown)
    exact hclauses.bind fun clauses h => Noted.endsIn_pure ⟨clauses, rfl, h⟩

/-- Columns that have been read, with codes that all differ, keep the order and the types of their
descriptors. A column's own type stands under its code unless a later column of another type has that
code for its header, and under its header unless a later column of another type has that header for its
code. Conditions on columns that keep their codes are written by the columns' own types. -/
theorem types_of_columns {descriptors : List Value} {identifier : Value}
    (hread : Columns.ofDescriptors descriptors identifier = .ok c)
    (hcodes : c.list.Pairwise fun a b => a.code.equals b.code = false) :
    List.Forall₂ (fun descriptor col => Column.IsOf col descriptor) descriptors c.list ∧
    (∀ (i : Nat) (hi : i < c.list.length),
      (c.typeOf c.list[i].code = c.list[i].type ↔ c.list[i].KeepsCode (c.list.drop (i + 1))) ∧
      (c.typeOf c.list[i].header = c.list[i].type ↔
        c.list[i].KeepsHeader (c.list.drop (i + 1)))) ∧
    ∀ (d : Descriptor) (text : Text), (compile (some c) d).outcome = .ok text →
      (∀ e ∈ entriesOf d.conditions, ∀ (i : Nat) (hi : i < c.list.length),
        c.list[i].header.equals e.1 = true → c.list[i].KeepsCode (c.list.drop (i + 1))) →
      ∃ clauses : Clauses, text = clauses.render ∧
        clauses.comparisons = (entriesOf d.conditions).filterMap (ownComparison? c) := by
  have hc := coded_ofDescriptors hread hcodes
  refine ⟨Columns.forall₂_ofDescriptors hread,
    fun i hi => ⟨Columns.typeOf_code_iff hc, Columns.typeOf_header_iff hc⟩, ?_⟩
  intro d text htext hkeeps
  have htyped := endsIn_compile_typed c d fun e he col hcol => by
    obtain ⟨t, ht, hfind⟩ := Option.bind_eq_some_iff.mp hcol
    obtain ⟨i, hi, rfl⟩ := List.mem_iff_getElem.mp (List.mem_of_find?_eq_some hfind)
    have hname : e.1 = .text t := by
      cases hv : e.1 <;> rw [hv] at ht <;> cases ht
      rfl
    refine (Columns.typeOf_code_iff hc).mpr (hkeeps e he i hi ?_)
    rw [hname]
    exact List.find?_some (p := fun col : Column => col.header.equals (.text t)) hfind
  have hends := htyped []
  rw [show ((compile (some c) d).runWith []).1 = .ok text from htext] at hends
  exact hends

/-- Three columns: the header of the second one is the code of the first one, and the third one has no
label. -/
def guests : Columns :=
  ⟨[⟨.text "Age", .text "A", .number⟩, ⟨.text "A", .text "B", .number⟩, ⟨.text "C", .text "C", .boolean⟩],
    .text "id"⟩

/-- The guests of an age that have come. -/
def arrived : Descriptor :=
  ⟨.null, .mapping [(.text "Age", .int 36), (.text "C", .bool true)], .null, .null, .null⟩

/-- The header that is also a code stands for a column of the same type, so all is as the descriptors
say. -/
theorem types_of_columns_guests :
    Columns.ofDescriptors
      [Columns.described "A" " Age " "number", Columns.described "B" "A" "Number",
        Columns.described "C" "  " "boolean"]
      (.text "id") = .ok guests ∧
    guests.list.Pairwise (fun a b => a.code.equals b.code = false) ∧
    guests.typeOf (.text "A") = .number ∧ guests.typeOf (.text "C") = .boolean ∧
    ∃ text, (compile (some guests) arrived).outcome = .ok text ∧ ∃ clauses : Clauses,
      text = clauses.render ∧
      clauses.comparisons = [⟨"A", some (.integer 36)⟩, ⟨"C", some (.truth true)⟩] := by
  have hread : Columns.ofDescriptors
      [Columns.described "A" " Age " "number", Columns.described "B" "A" "Number",
        Columns.described "C" "  " "boolean"]
      (.text "id") = .ok guests := rfl
  have hcodes : guests.list.Pairwise fun a b => a.code.equals b.code = false := by decide
  obtain ⟨-, htypes, hcompile⟩ := types_of_columns hread hcodes
  have hkeeps : ∀ (i : Nat) (hi : i < guests.list.length),
      guests.list[i].KeepsCode (guests.list.drop (i + 1)) := by decide
  have htext : (compile (some guests) arrived).outcome = .ok "where A = 36 and C = true" :=
    eq_ok_of_toOption (by decide +kernel)
  refine ⟨hread, hcodes, (htypes 0 (by decide)).1.mpr (hkeeps 0 _),
    (htypes 2 (by decide)).1.mpr (hkeeps 2 _), _, htext, ?_⟩
  exact hcompile arrived _ htext fun e _ i hi _ => hkeeps i hi

/-- Two columns of different types: the header of the second one is the code of the first one. -/
def graded : Columns := ⟨[⟨.text "Age", .text "A", .number⟩, ⟨.text "A", .text "B", .string⟩], .text "id"⟩

/-- A condition on the numbers of the first column is written for texts. -/
theorem compile_misreads_graded :
    Columns.ofDescriptors
        [Columns.described "A" "Age" "number", Columns.described "B" "A" "string"] (.text "id") =
      .ok graded ∧
    graded.list.Pairwise (fun a b => a.code.equals b.code = false) ∧
    graded.typeOf (.text "A") = .string ∧
    (compile (some graded) ⟨.null, .mapping [(.text "Age", .int 36)], .null, .null, .null⟩).outcome =
      .ok "where A = '36'" ∧
    (compile (some graded) ⟨.null, .mapping [(.text "Age", .int 36)], .null, .null, .null⟩).outcome ≠
      .ok "where A = 36" := by
  have hcompiled : (compile (some graded)
      ⟨.null, .mapping [(.text "Age", .int 36)], .null, .null, .null⟩).outcome = .ok "where A = '36'" :=
    eq_ok_of_toOption (by decide +kernel)
  refine ⟨rfl, by decide, rfl, hcompiled, fun h => ?_⟩
  have htext : ("where A = '36'" : Text) = ("where A = 36" : Text) :=
    Except.ok.inj (hcompiled.symm.trans h)
  revert htext
  decide

end RowStore.Query
