import Mathlib.Data.List.Forall2
import RowStore.Proofs.Query.First
import RowStore.Proofs.Query.Pieces
import RowStore.Proofs.Table.Matched

/-!
# What queries and writes look for

Under one condition a query asks for a text in quotes, and a write looks for cells with a text.

* `Value.IsVerbatim`, `Value.plain_eq_asText_iff` : the values for which the two texts are one;
* `Query.SoughtUnder c e p test` : a comparison in a query and the test of a write, made of one condition;
* `Query.sought_alike` : queries and writes make such pairs of their conditions, and look for the same text
  under a condition iff its value is verbatim.
-/

namespace RowStore

namespace Value

/-- A value that has no other text in comparisons: it is neither null nor a boolean, and no double without
a fraction. -/
def IsVerbatim : Value → Prop
  | null => False
  | bool _ => False
  | real x => x.isIntegral = false
  | _ => True

theorem plain_eq_asText_iff (v : Value) : v.plain = v.asText ↔ v.IsVerbatim := by
  cases v with
  | null => exact iff_of_false (by decide) id
  | bool b => cases b <;> exact iff_of_false (by decide) id
  | real x =>
    rw [IsVerbatim, asText]
    cases hintegral : x.isIntegral with
    | false => exact iff_of_true rfl rfl
    | true =>
      obtain ⟨n, hn⟩ := Binary64.exists_truncate? hintegral
      rw [hn, if_pos rfl]
      refine iff_of_false (fun h => ?_) Bool.true_eq_false.mp
      exact ne_toString_of_integerOf? x.integerOf?_text n (Text.ofString_inj.mp h)
  | _ => exact iff_of_true rfl trivial

instance (v : Value) : Decidable v.IsVerbatim := decidable_of_iff _ v.plain_eq_asText_iff

end Value

namespace Query

variable {c : Columns} {name : Value}

/-- The column that a query finds under a name is the one that a write finds. -/
theorem position_of_columnOf? (hd : Distinct c.list) {col : Column} (h : columnOf? c name = some col) :
    ∃ p, c.positions.find? name = some p ∧ c.list[p]? = some col ∧ col.header = name := by
  obtain ⟨t, hname, hfind⟩ := Option.bind_eq_some_iff.mp h
  obtain rfl : name = .text t := by
    cases name <;> cases hname
    rfl
  have heq := List.find?_some (p := fun col : Column => col.header.equals (.text t)) hfind
  obtain ⟨p, hp⟩ := List.mem_iff_getElem?.mp (List.mem_of_find?_eq_some hfind)
  have hheaders : c.headers[p]? = some col.header := by
    rw [Columns.headers, List.getElem?_map, hp, Option.map_some]
  exact ⟨p, (Columns.find?_positions_iff hd).mpr ⟨_, hheaders, heq⟩, hp, Value.equals_text_iff.mp heq⟩

/-- A name under which a query finds no column is none of a write's either. -/
theorem find?_positions_of_columnOf? (hc : c.HasTexts) (hd : Distinct c.list)
    (h : columnOf? c name = none) : c.positions.find? name = none := by
  refine Option.eq_none_iff_forall_ne_some.mpr fun p hp => ?_
  obtain ⟨header, hheader, heq⟩ := (Columns.find?_positions_iff hd).mp hp
  obtain ⟨col, hcol, rfl⟩ := Option.map_eq_some_iff.mp (List.getElem?_map ▸ hheader)
  obtain ⟨found, -, hcolumn, -⟩ := exists_columnOf? hc (List.mem_of_getElem? hcol) heq
  cases h.symm.trans hcolumn

/-- A comparison in a query and the test of a write, made of one condition. They are about one column; where
it holds neither numbers nor booleans and the value is not null, the query compares it with a text in quotes,
and the write looks for the same text iff the value is verbatim. -/
structure SoughtUnder (c : Columns) (e : Value × Value) (p : Comparison) (test : Match.Test) : Prop where
  column : ∃ col, c.list[test.position]? = some col ∧ col.header = e.1 ∧ col.code = .text p.code
  expected : test.text = e.2.asText
  alike : c.typeOf (.text p.code) ≠ .number → c.typeOf (.text p.code) ≠ .boolean → e.2.isNull = false →
    ∃ t, p.literal = some (.quoted t) ∧ (t = test.text ↔ e.2.IsVerbatim)

/-- The comparisons of a query and the tests of a write, made of the same conditions: in their order, one of
each for every condition on a known header. -/
inductive MadeOf (c : Columns) : Entries Value → List Comparison → List Match.Test → Prop
  | nil : MadeOf c [] [] []
  | known {e : Value × Value} {rest : Entries Value} {p : Comparison} {ps : List Comparison}
      {test : Match.Test} {tests : List Match.Test} (hfirst : SoughtUnder c e p test)
      (hrest : MadeOf c rest ps tests) : MadeOf c (e :: rest) (p :: ps) (test :: tests)
  | unknown {e : Value × Value} {rest : Entries Value} {ps : List Comparison} {tests : List Match.Test}
      (hfirst : c.positions.has e.1 = false) (hrest : MadeOf c rest ps tests) :
      MadeOf c (e :: rest) ps tests

/-- A column of neither numbers nor booleans is compared with the text of the value in quotes. -/
theorem chosen_eq_quoted {type : TypeTag} (hnumber : type ≠ .number) (hboolean : type ≠ .boolean)
    (v : Value) : Literal.chosen v type = .quoted v.plain := by
  cases type with
  | number => exact absurd rfl hnumber
  | boolean => exact absurd rfl hboolean
  | _ => rfl

/-- A query and a write leave out the same conditions, and make alike what they make of the others. -/
theorem madeOf_comparisons (hc : c.HasTexts) (hd : Distinct c.list) (entries : Entries Value) :
    MadeOf c entries (entries.filterMap (comparisonOf? c)) (Match.testsOf c entries) := by
  induction entries with
  | nil => exact .nil
  | cons e rest ih =>
    have hcomparison := comparisonOf?_eq hc.hasTextCodes e
    cases hcolumn : columnOf? c e.1 with
    | none =>
      have hposition := find?_positions_of_columnOf? hc hd hcolumn
      rw [hcolumn, Option.map_none] at hcomparison
      rw [List.filterMap_cons_none hcomparison, Match.testsOf,
        List.filterMap_cons_none (by rw [hposition, Option.map_none])]
      exact .unknown (by rw [Entries.has, hposition]; rfl) ih
    | some col =>
      obtain ⟨p, hposition, hcol, hheader⟩ := position_of_columnOf? hd hcolumn
      obtain ⟨_, code, -, hcode⟩ := hc col (List.mem_of_getElem? hcol)
      rw [hcolumn, Option.map_some, hcode] at hcomparison
      rw [List.filterMap_cons_some hcomparison, Match.testsOf,
        List.filterMap_cons_some (by rw [hposition, Option.map_some])]
      refine .known ⟨⟨col, hcol, hheader, hcode⟩, rfl, fun hnumber hboolean hnull => ?_⟩ ih
      refine ⟨e.2.plain, ?_, e.2.plain_eq_asText_iff⟩
      rw [Comparison.of, hnull, ← chosen_eq_quoted hnumber hboolean]
      rfl

/-- In a column of neither numbers nor booleans a value that has a text is written in quotes, and read back as
this text, which is the text of comparisons iff the value is verbatim. So, of any request whose values have
texts, the text that is sent compares the columns that a write with the same conditions tests, and looks for the
same text under a condition iff its value is verbatim. A value without a text is neither written nor compared. -/
theorem sought_alike (hempty : c.isEmpty = false) (hc : c.HasTexts) (hd : Distinct c.list) {d : Descriptor}
    (hformed : d.IsFormed) :
    (∀ (v : Value) (type : TypeTag), type ≠ .number → type ≠ .boolean →
      (v.hasText = true → v.comparedText = .ok v.asText ∧ ∃ body,
        (Literal.ofValue v type).Gives (.ok (.quoted v.plain)) ∧
          (Literal.quoted v.plain).render = .char '\'' :: body ∧ readQuoted body = some (v.plain, []) ∧
          (v.plain = v.asText ↔ v.IsVerbatim)) ∧
      (v.hasText = false → (Literal.ofValue v type).Gives (.error .malformed) ∧
        v.comparedText = .error .malformed)) ∧
    (d.HasTexts c → ∃ clauses : Clauses, (compile (some c) d).Gives (.ok clauses.render) ∧
      MadeOf c (entriesOf d.conditions) clauses.comparisons (Match.testsOf c (entriesOf d.conditions))) ∧
    (¬ d.HasTexts c → (compile (some c) d).Gives (.error .malformed)) := by
  refine ⟨fun v type hnumber hboolean => ⟨fun htext => ?_, fun htext => ?_⟩, fun htexts => ?_,
    gives_compile_of_not hempty hc.hasTextCodes hformed⟩
  · have hgives := Literal.gives_ofValue htext type
    rw [chosen_eq_quoted hnumber hboolean] at hgives
    exact ⟨Value.comparedText_of_hasText htext, _, hgives, rfl, readQuoted_escapePoint v.plain [],
      v.plain_eq_asText_iff⟩
  · exact ⟨Literal.gives_ofValue_of_not htext type, Value.comparedText_of_not_hasText htext⟩
  · exact ⟨askedClauses c d, gives_compile hempty hc.hasTextCodes hformed htexts, madeOf_comparisons hc hd _⟩

theorem hasTexts_columns : Sample.columns.HasTexts :=
  List.forall_mem_cons.mpr ⟨⟨_, _, rfl, rfl⟩, List.forall_mem_singleton.mpr ⟨_, _, rfl, rfl⟩⟩

open Sample in
/-- A user with a number for an identifier and a quote in the name, from a town that the sheet does not
tell. -/
theorem sought_alike_obrien :
    let conditions : Entries Value :=
      [(.text "id", .int 7), (.text "Town", .text "Cork"), (.text "Name", .text "O'Brien")]
    let d := Descriptor.first conditions
    (∃ body, (Literal.ofValue (.int 7) .string).Gives (.ok (.quoted "7")) ∧
      (Literal.quoted "7").render = .char '\'' :: body ∧ readQuoted body = some (("7" : Text), []) ∧
      Value.plain (.int 7) = Value.asText (.int 7)) ∧
    columns.isEmpty = false ∧ columns.HasTexts ∧ Distinct columns.list ∧ d.IsFormed ∧
      ∃ clauses : Clauses, (compile (some columns) d).Gives (.ok clauses.render) ∧
        MadeOf columns conditions clauses.comparisons (Match.testsOf columns conditions) := by
  intro conditions d
  have hdistinct : Distinct columns.list := ⟨by decide, by decide⟩
  have hformed : d.IsFormed := Descriptor.isFormed_first conditions
  have htexts : d.HasTexts columns := Descriptor.hasTexts_first (by decide +kernel)
  obtain ⟨hvalues, hrequest, -⟩ := sought_alike (c := columns) rfl hasTexts_columns hdistinct hformed
  obtain ⟨-, body, hgives, hbody, hread, hsame⟩ :=
    (hvalues (.int 7) .string (by decide) (by decide)).1 (by decide +kernel)
  exact ⟨⟨body, hgives, hbody, hread, hsame.mpr trivial⟩, rfl, hasTexts_columns, hdistinct, hformed,
    hrequest htexts⟩

/-- The number ten as a double. -/
def tenPointZero : Binary64 := (Binary64.ofInt? 10).getD .zero

open Sample in
/-- A write finds the user whose identifier is 10 by the number 10.0, and the query for that user asks for
another text; so it is with a user who is called TRUE. -/
theorem compile_seeks_other_texts :
    let id : Entries Value := [(.text "id", .real tenPointZero)]
    let name : Entries Value := [(.text "Name", .bool true)]
    columns.Fulfils id (row "10" "TRUE") ∧ columns.Fulfils name (row "10" "TRUE") ∧
      (compile (some columns) (Descriptor.first id)).outcome = .ok "where A = '10.0' limit 1" ∧
      (compile (some columns) (Descriptor.first name)).outcome = .ok "where B = 'True' limit 1" := by
  intro id name
  have hcodes := hasTexts_columns.hasTextCodes
  have hid := (gives_compile rfl hcodes (Descriptor.isFormed_first id)
    (Descriptor.hasTexts_first (by decide +kernel))).outcome
  have hname := (gives_compile rfl hcodes (Descriptor.isFormed_first name)
    (Descriptor.hasTexts_first (by decide +kernel))).outcome
  have htexts : (askedClauses columns (Descriptor.first id)).render = "where A = '10.0' limit 1" ∧
      (askedClauses columns (Descriptor.first name)).render = "where B = 'True' limit 1" := by
    decide +kernel
  rw [htexts.1] at hid
  rw [htexts.2] at hname
  exact ⟨by decide +kernel, by decide +kernel, hid, hname⟩

end Query
end RowStore
