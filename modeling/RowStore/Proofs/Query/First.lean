import RowStore.Proofs.Query.Requested
import RowStore.Proofs.Query.Typed
import RowStore.Proofs.Response.Answered

/-!
# Queries for the first match

* `firstWhere` : the query for the first record that fulfils comparisons;
* `IsComparison c e p` : `p` compares the column whose header is the name of the condition `e`, and with
  its value;
* `gives_compile_first` : conditions on known headers compile to this query, with one comparison for
  each of them and in their order.
-/

namespace RowStore.Query

variable {c : Columns}

/-- The query for the first record that fulfils all comparisons. -/
def firstWhere (comparisons : List Comparison) : Text :=
  "where " ++ Text.join " and " (comparisons.map Comparison.render) ++ " limit 1"

theorem render_first {comparisons : List Comparison} (hne : comparisons ≠ []) :
    (Clauses.mk [] comparisons [] (some 1) none).render = firstWhere comparisons := by
  have hparts : (comparisons.map Comparison.render).isEmpty = false := by simpa using hne
  have hwhere : Clauses.clause "where" " and " (comparisons.map Comparison.render) =
      "where " ++ Text.join " and " (comparisons.map Comparison.render) := by
    rw [Clauses.clause, hparts]
    rfl
  have htexts : (Clauses.mk [] comparisons [] (some 1) none).texts.filter (· ≠ []) =
      ["where " ++ Text.join " and " (comparisons.map Comparison.render), "limit 1"] := by
    rw [Clauses.texts, hwhere]
    rfl
  rw [Clauses.render, htexts, Text.join, firstWhere, List.append_assoc]
  rfl

/-- A comparison of the column that a condition names, by the type under its code. -/
def IsComparison (c : Columns) (e : Value × Value) (p : Comparison) : Prop :=
  ∃ col ∈ c.list, col.header = e.1 ∧ p = Comparison.of col.code (c.typeOf col.code) e.2

theorem comparisonOf?_eq (hc : HasTextCodes c) (e : Value × Value) :
    comparisonOf? c e =
      (columnOf? c e.1).map fun col => Comparison.of col.code (c.typeOf col.code) e.2 := by
  rw [comparisonOf?, wordOf?, Option.map_map]
  refine Option.map_congr fun col hcol => ?_
  obtain ⟨t, -, hfind⟩ := Option.bind_eq_some_iff.mp hcol
  obtain ⟨code, hcode⟩ := hc col (List.mem_of_find?_eq_some hfind)
  rw [Comparison.of, Function.comp, hcode]
  rfl

/-- A name that equals a header leads to the column that has it. -/
theorem exists_columnOf? (hc : c.HasTexts) {col : Column} (hcol : col ∈ c.list) {name : Value}
    (h : col.header.equals name = true) :
    ∃ found ∈ c.list, columnOf? c name = some found ∧ found.header = name := by
  have htext : ∀ other ∈ c.list, other.header.equals name = true → other.header = name := by
    intro other hother heq
    obtain ⟨t, -, ht, -⟩ := hc other hother
    rw [ht] at heq ⊢
    cases name with
    | text u => rw [beq_iff_eq.mp heq]
    | _ => cases heq
  obtain ⟨t, -, ht, -⟩ := hc col hcol
  obtain rfl : .text t = name := ht.symm.trans (htext col hcol h)
  cases hfind : c.list.find? fun col => col.header.equals (.text t) with
  | none => exact absurd h (List.find?_eq_none.mp hfind col hcol)
  | some found =>
    have hmem := List.mem_of_find?_eq_some hfind
    exact ⟨found, hmem, hfind, htext found hmem (List.find?_some (p := fun col : Column =>
      col.header.equals (.text t)) hfind)⟩

/-- The request for a first match has texts if its conditions have. -/
theorem Descriptor.hasTexts_first {entries : Entries Value} (htexts : ∀ e ∈ entries, e.2.hasText = true) :
    (Descriptor.first entries).HasTexts c where
  conditions := by
    intro e he _
    cases entries with
    | nil => cases he
    | cons first rest => exact htexts e he
  limit := by
    rintro n ⟨⟩ _
    decide +kernel
  offset := nofun

/-- Conditions on known headers, with values that have texts, compile to one comparison each. -/
theorem gives_compile_first (hc : c.HasTexts) (hempty : c.isEmpty = false) {entries : Entries Value}
    (hne : entries ≠ []) (htexts : ∀ e ∈ entries, e.2.hasText = true)
    (hknown : ∀ e ∈ entries, ∃ col ∈ c.list, col.header.equals e.1 = true) :
    ∃ comparisons, List.Forall₂ (IsComparison c) entries comparisons ∧
      (compile (some c) (Descriptor.first entries)).Gives (.ok (firstWhere comparisons)) := by
  have hcodes := hc.hasTextCodes
  have hcomparisons : List.Forall₂ (IsComparison c) entries
      (entries.filterMap (comparisonOf? c)) := by
    clear hne htexts
    induction entries with
    | nil => exact .nil
    | cons e rest ih =>
      obtain ⟨⟨col, hcol, heq⟩, hrest⟩ := List.forall_mem_cons.mp hknown
      obtain ⟨found, hfound, hname, hheader⟩ := exists_columnOf? hc hcol heq
      have hsome := comparisonOf?_eq hcodes e
      rw [hname] at hsome
      rw [List.filterMap_cons_some hsome]
      exact .cons ⟨found, hfound, hheader, rfl⟩ (ih hrest)
  have hsome : entries.filterMap (comparisonOf? c) ≠ [] := by
    intro hnil
    rw [hnil] at hcomparisons
    cases hcomparisons
    exact hne rfl
  have hasked : askedClauses c (Descriptor.first entries) =
      ⟨[], entries.filterMap (comparisonOf? c), [], some 1, none⟩ := by
    have hentries : entriesOf (.mapping entries) = entries := by
      cases entries <;> rfl
    rw [askedClauses]
    simp only [Descriptor.first, hentries]
    rfl
  refine ⟨_, hcomparisons, ?_⟩
  rw [← render_first hsome, ← hasked]
  exact gives_compile hempty hcodes (Descriptor.isFormed_first entries) (Descriptor.hasTexts_first htexts)

/-- Conditions on known headers of which one has a value without a text do not compile. -/
theorem gives_compile_first_of_not (hc : c.HasTexts) (hempty : c.isEmpty = false) {entries : Entries Value}
    (htexts : ¬ ∀ e ∈ entries, e.2.hasText = true)
    (hknown : ∀ e ∈ entries, ∃ col ∈ c.list, col.header.equals e.1 = true) :
    (compile (some c) (Descriptor.first entries)).Gives (.error .malformed) := by
  refine gives_compile_of_not hempty hc.hasTextCodes (Descriptor.isFormed_first entries) fun hall => htexts ?_
  intro e he
  obtain ⟨col, hcol, heq⟩ := hknown e he
  obtain ⟨found, -, hname, -⟩ := exists_columnOf? hc hcol heq
  have hentries : entriesOf (.mapping entries) = entries := by
    cases entries <;> rfl
  refine hall.conditions e ?_ (Option.isSome_of_eq_some hname)
  change e ∈ entriesOf (.mapping entries)
  rwa [hentries]

end RowStore.Query
