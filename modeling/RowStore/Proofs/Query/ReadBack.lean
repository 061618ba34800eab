import RowStore.Proofs.Query.Asked
import RowStore.Proofs.Table.Sample

/-!
# Queries read back

* `read_render` : the text of clauses that can be written says what the clauses say;
* `read_compile` : the text of a compiled descriptor says what the descriptor asks of the known
  columns, and nothing else; only a number that is too long to be written keeps one from compiling.
-/

namespace RowStore.Query

/-! ## The text of clauses -/

namespace Clauses

/-- Clauses that have a text: their codes are words, their numbers finite and without a sign. -/
structure Writable (c : Clauses) : Prop where
  select : ∀ code ∈ c.select, IsCode code
  comparisons : ∀ p ∈ c.comparisons, IsCode p.code ∧ ∀ l ∈ p.literal, l.IsFinite
  order : ∀ o ∈ c.order, IsCode o.code
  limit : ∀ n ∈ c.limit, 0 ≤ n
  offset : ∀ n ∈ c.offset, 0 ≤ n

end Clauses

theorem join_ne_nil {u : Text} (hu : u ≠ []) (us : List Text) :
    Text.join " " (u :: us) ≠ [] := by
  cases us with
  | nil => simpa [Text.join] using hu
  | cons v us => simp [Text.join, List.intercalate_cons_cons, hu]

/-- Texts with blanks between them, and a blank before them. -/
theorem lead_join {us : List Text} (hus : ∀ u ∈ us, u ≠ []) :
    lead (Text.join " " us) = us.flatMap lead := by
  induction us with
  | nil => rfl
  | cons u us ih =>
    have hu := hus u List.mem_cons_self
    cases us with
    | nil => simp [Text.join]
    | cons v us =>
      have hv := join_ne_nil (hus v (by simp)) us
      have hrest := ih fun u hu => hus u (List.mem_cons_of_mem _ hu)
      rw [List.flatMap_cons, ← hrest, lead, lead, lead, if_neg (by simpa using join_ne_nil hu _),
        if_neg (by simpa using hu), if_neg (by simpa using hv)]
      simp [Text.join, List.intercalate_cons_cons, Text.ofString, Text.ofChars]

theorem lead_join_filter (us : List Text) :
    lead (Text.join " " (us.filter (· ≠ []))) = us.flatMap lead := by
  rw [lead_join fun u hu => by simpa using (List.mem_filter.mp hu).2]
  induction us with
  | nil => rfl
  | cons u us ih =>
    rw [List.filter_cons, List.flatMap_cons]
    by_cases hu : u = []
    · rw [if_neg (by simpa using hu), ih, hu]
      rfl
    · rw [if_pos (by simpa using hu), List.flatMap_cons, ih]

section
variable {keywords : List String} {t : Text}

theorem readDirection_eq_none (hasc : after? " ASC" t = none) (hdesc : after? " DESC" t = none) :
    readDirection t = (none, t) := by
  rw [readDirection, hasc, hdesc]

theorem readClause_select {codes : List Text} (hcodes : ∀ code ∈ codes, IsCode code)
    (ht : Opens ["where", "order by", "limit", "offset"] t) :
    readClause "select" ", " readCode (lead (Clauses.clause "select" ", " codes) ++ t) =
      some (codes, t) := by
  have hread : readClause "select" ", " readCode
      (lead (Clauses.clause "select" ", " (codes.map id)) ++ t) = some (codes.map id, t) := by
    refine readClause_lead (fun hne => ?_) (ht.after?_eq_none (by decide) (by decide +kernel))
    refine readMany_join EndsCode (by decide) (fun t => ?_) hne
      (fun code hcode t ht => readCode_append (hcodes code hcode) ht) ht.endsWord.endsCode
      (ht.after?_eq_none (by decide) (by decide +kernel))
    rintro _ ⟨⟩
    rfl
  rwa [List.map_id] at hread

theorem readClause_where {comparisons : List Comparison}
    (hc : ∀ c ∈ comparisons, IsCode c.code ∧ ∀ l ∈ c.literal, l.IsFinite)
    (ht : Opens ["order by", "limit", "offset"] t) :
    readClause "where" " and " readComparison
      (lead (Clauses.clause "where" " and " (comparisons.map Comparison.render)) ++ t) =
      some (comparisons.map Comparison.predicate, t) := by
  refine readClause_lead (fun hne => ?_) (ht.after?_eq_none (by decide) (by decide +kernel))
  refine readMany_join EndsWord (by decide) (fun t => ?_) hne
    (fun c hmem t ht => readComparison_render (hc c hmem).1 (hc c hmem).2 ht) ht.endsWord
    (ht.after?_eq_none (by decide) (by decide +kernel))
  rintro _ ⟨⟩
  rfl

theorem readClause_order {order : List OrderTerm} (ho : ∀ o ∈ order, IsCode o.code)
    (ht : Opens ["limit", "offset"] t) :
    readClause "order by" ", " readTerm
      (lead (Clauses.clause "order by" ", " (order.map OrderTerm.render)) ++ t) =
      some (order, t) := by
  have hread : readClause "order by" ", " readTerm
      (lead (Clauses.clause "order by" ", " (order.map OrderTerm.render)) ++ t) =
      some (order.map id, t) := by
    refine readClause_lead (fun hne => ?_) (ht.after?_eq_none (by decide) (by decide +kernel))
    refine readMany_join (fun t => EndsCode t ∧ readDirection t = (none, t)) (by decide)
      (fun t => ⟨?_, rfl⟩) hne (fun o hmem t ht => readTerm_render (ho o hmem) ht.1 ht.2)
      ⟨ht.endsWord.endsCode, ?_⟩ (ht.after?_eq_none (by decide) (by decide +kernel))
    · rintro _ ⟨⟩
      rfl
    · exact readDirection_eq_none (ht.after?_eq_none (by decide) (by decide +kernel))
        (ht.after?_eq_none (by decide) (by decide +kernel))
  rwa [List.map_id] at hread

end

/-- The text of clauses that can be written says what the clauses say. -/
theorem read_render {c : Clauses} (h : c.Writable) : read c.render = some c.meaning := by
  have ho0 : Opens [] [] := Or.inl rfl
  have ho1 := ho0.lead_append (numberClause_cases "offset" c.offset)
  have ho2 := ho1.lead_append (numberClause_cases "limit" c.limit)
  have ho3 := ho2.lead_append (clause_cases "order by" ", " (c.order.map OrderTerm.render))
  have ho4 := ho3.lead_append
    (clause_cases "where" " and " (c.comparisons.map Comparison.render))
  have htext : lead c.render = c.texts.flatMap lead := lead_join_filter c.texts
  simp only [Clauses.texts, List.flatMap_cons, List.flatMap_nil] at htext
  rw [read, htext, readClause_select h.select ho4]
  simp only [bind, Option.bind]
  rw [readClause_where h.comparisons ho3]
  dsimp only
  rw [readClause_order h.order ho2]
  dsimp only
  rw [readNumberClause_lead h.limit ho1.endsWord
    (ho1.after?_eq_none (by decide) (by decide +kernel))]
  dsimp only
  rw [readNumberClause_lead h.offset ho0.endsWord (ho0.after?_eq_none (by decide) (by decide))]
  rfl

/-! ## Compiled descriptors -/

section
variable {c : Columns}

theorem writable_askedClauses (hc : HasCodes c) (d : Descriptor) : (askedClauses c d).Writable where
  select code hcode := by
    obtain ⟨name, -, hname⟩ := List.mem_filterMap.mp hcode
    exact isCode_of_wordOf? hc hname
  comparisons p hp := by
    obtain ⟨e, -, he⟩ := List.mem_filterMap.mp hp
    obtain ⟨t, ht, rfl⟩ := Option.map_eq_some_iff.mp he
    refine ⟨isCode_of_wordOf? hc ht, fun l hl => ?_⟩
    dsimp only at hl
    split at hl
    · cases hl
    · cases hl
      exact Literal.isFinite_chosen _ _
  order o ho := by
    obtain ⟨e, -, he⟩ := List.mem_filterMap.mp ho
    obtain ⟨p, -, hp⟩ := Option.bind_eq_some_iff.mp he
    obtain ⟨t, ht, hterm⟩ := Option.bind_eq_some_iff.mp hp
    cases hterm
    exact isCode_of_wordOf? hc ht
  limit n hn := Int.le_of_lt (limitOf?_eq_some_iff.mp hn).2
  offset n hn := (offsetOf?_eq_some_iff.mp hn).2

/-- A descriptor of the right form compiles if what is written of it has texts, and the text that it
compiles to says what it asks of the known columns and nothing else: whatever stands in a value is read back
as a part of that value. Otherwise it is refused. -/
theorem read_compile (hempty : c.isEmpty = false) (hc : HasCodes c) {d : Descriptor}
    (hd : d.IsFormed) :
    (d.HasTexts c → ∃ text m, (compile (some c) d).Gives (.ok text) ∧ read text = some m ∧
      ∀ m', d.Asks c m' ↔ m' = m) ∧
    (¬ d.HasTexts c → (compile (some c) d).Gives (.error .malformed)) := by
  refine ⟨fun ht => ?_, gives_compile_of_not hempty hc.hasTextCodes hd⟩
  exact ⟨(askedClauses c d).render, (askedClauses c d).meaning, gives_compile hempty hc.hasTextCodes hd ht,
    read_render (writable_askedClauses hc d), fun _ => asks_iff c hd⟩

end

/-- A request with a condition on a text that looks like the rest of a query. -/
def forged : Descriptor :=
  ⟨.list [.text "Name", .text "Age"], .mapping [(.text "Name", .text "x' or A = 'e1\\")],
    .list [.list [.text "id", .text "desc"]], .int 5, .bool true⟩

theorem hasCodes_sample : HasCodes Sample.columns := by
  intro col hcol
  simp only [Sample.columns, List.mem_cons, List.not_mem_nil, or_false] at hcol
  rcases hcol with rfl | rfl
  · exact ⟨"A", ⟨['A'], by decide, List.forall_mem_singleton.mpr rfl, rfl⟩, rfl⟩
  · exact ⟨"B", ⟨['B'], by decide, List.forall_mem_singleton.mpr rfl, rfl⟩, rfl⟩

theorem read_compile_forged :
    Sample.columns.isEmpty = false ∧ HasCodes Sample.columns ∧ forged.IsFormed ∧
      forged.HasTexts Sample.columns ∧
      ∃ text m, (compile (some Sample.columns) forged).Gives (.ok text) ∧ read text = some m ∧
        m.select = [("B" : Text)] ∧ m.predicates = [⟨"B", some (.quoted "x' or A = 'e1\\")⟩] ∧
        m.order = [⟨"A", some .descending⟩] ∧ m.limit = some 5 ∧ m.offset = none := by
  have hformed : forged.IsFormed := by
    refine ⟨fun _ => rfl, fun _ => rfl, fun _ => rfl, fun e he => ?_⟩
    cases List.mem_singleton.mp he
    exact ⟨_, rfl⟩
  have htexts : forged.HasTexts Sample.columns := by
    refine ⟨fun e he _ => ?_, ?_, nofun⟩
    · cases List.mem_singleton.mp he
      rfl
    · rintro n ⟨⟩ _
      decide +kernel
  obtain ⟨text, m, htext, hread, hm⟩ := (read_compile rfl hasCodes_sample hformed).1 htexts
  have hmeaning := (hm (askedClauses Sample.columns forged).meaning).mp ((asks_iff _ hformed).mpr rfl)
  subst hmeaning
  exact ⟨rfl, hasCodes_sample, hformed, htexts, text, _, htext, hread, rfl, rfl, rfl, rfl, rfl⟩

/-- A request for more rows than can be written. -/
def endless : Descriptor := ⟨.null, .null, .null, .int (10 ^ longestNumeral : Nat), .null⟩

/-- It is of the right form, but does not compile. -/
theorem compile_refuses_endless :
    Sample.columns.isEmpty = false ∧ HasCodes Sample.columns ∧ endless.IsFormed ∧
      ¬ ∃ text m, (compile (some Sample.columns) endless).Gives (.ok text) ∧ read text = some m ∧
        endless.Asks Sample.columns m := by
  have hformed : endless.IsFormed :=
    ⟨nofun, nofun, nofun, fun _ he => absurd he List.not_mem_nil⟩
  have hlong : ¬ endless.HasTexts Sample.columns := fun h => by
    have hnumeral := h.limit _ rfl (Int.natCast_pos.mpr (Nat.pow_pos (by decide)))
    rw [hasNumeral_power] at hnumeral
    cases hnumeral
  have hrefused := gives_compile_of_not rfl hasCodes_sample.hasTextCodes hformed hlong
  refine ⟨rfl, hasCodes_sample, hformed, ?_⟩
  rintro ⟨text, m, htext, -⟩
  exact nomatch (hrefused []).symm.trans (htext [])

end RowStore.Query
