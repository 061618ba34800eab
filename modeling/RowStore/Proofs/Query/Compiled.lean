import RowStore.Proofs.Noted.Gives
import RowStore.Proofs.Value.Entries
import RowStore.Query.Clauses

/-!
# What a descriptor compiles to

* `Literal.chosen` : the literal with which a value is compared;
* `columnOf?` : the column that a name selects;
* `askedClauses` : the clauses that a descriptor asks for, each from its own part of the descriptor;
* `HasTextCodes`, `HasCodes` : columns whose codes are texts, and words of capital letters;
* `Descriptor.IsFormed`, `Descriptor.HasTexts` : descriptors of the right form, and ones of which all that
  is written has a text;
* `gives_compile`, `gives_compile_of_not` : a descriptor of the right form compiles to the text of these
  clauses if it has texts, and fails otherwise.
-/

namespace RowStore.Query

/-! ## Literals -/

namespace Literal

/-- A literal that has a text in the query language: its number is finite. -/
def IsFinite (l : Literal) : Prop := ∀ x, l = .decimal x → x.isFinite = true

/-- The number that a value is in a column of numbers. -/
def numberIn? (v : Value) : Option Literal :=
  match v with
  | .bool _ => none
  | .int n => some (integer n)
  | v => ((realOf? v).filter Binary64.isFinite).map ofReal

/-- The literal for a value in a column of a type: the text of the value in quotes, unless it is a
number in a column of numbers or a boolean in one of booleans. -/
def chosen (v : Value) (type : TypeTag) : Literal :=
  match type with
  | .number => (numberIn? v).getD (quoted v.plain)
  | .boolean => ((truthOf? v).map truth).getD (quoted v.plain)
  | _ => quoted v.plain

theorem isFinite_ofReal {x : Binary64} (hx : x.isFinite = true) : (ofReal x).IsFinite := by
  intro y hy
  rw [ofReal] at hy
  split at hy
  · split at hy
    · cases hy
    · cases hy
      exact hx
  · cases hy
    exact hx

theorem isFinite_chosen (v : Value) (type : TypeTag) : (chosen v type).IsFinite := by
  have hquoted : (quoted v.plain).IsFinite := by rintro x ⟨⟩
  have hnumber : ∀ l, numberIn? v = some l → l.IsFinite := by
    intro l hl
    unfold numberIn? at hl
    split at hl
    · cases hl
    · cases hl
      rintro x ⟨⟩
    · obtain ⟨x, hx, rfl⟩ := Option.map_eq_some_iff.mp hl
      exact isFinite_ofReal (Option.filter_eq_some_iff.mp hx).2
  unfold chosen
  split
  · cases h : numberIn? v with
    | none => exact hquoted
    | some l => exact hnumber l h
  · cases truthOf? v with
    | none => exact hquoted
    | some b => rintro x ⟨⟩
  · exact hquoted

theorem gives_numberOf? (v : Value) : (numberOf? v).Gives (.ok (numberIn? v)) := by
  fun_cases numberIn? v with
  | case1 b => exact Noted.gives_pure _
  | case2 n => exact Noted.gives_pure _
  | case3 v hbool hint =>
    rw [numberOf?]
    · cases (realOf? v).filter Binary64.isFinite with
      | none => exact (Noted.gives_note _ _).bind_ok (Noted.gives_pure _)
      | some x => exact Noted.gives_pure _
    · exact hbool
    · exact hint

theorem gives_ofValue {v : Value} (h : v.hasText = true) (type : TypeTag) :
    (ofValue v type).Gives (.ok (chosen v type)) := by
  unfold ofValue
  rw [Value.checkText_of_hasText h]
  refine (Noted.gives_liftExcept (.ok ())).bind_ok ?_
  cases type with
  | number => exact (gives_numberOf? v).bind_ok (Noted.gives_pure _)
  | boolean =>
    unfold chosen
    cases truthOf? v <;> exact Noted.gives_pure _
  | _ => exact Noted.gives_pure _

/-- A value without a text is compared with nothing. -/
theorem gives_ofValue_of_not {v : Value} (h : v.hasText = false) (type : TypeTag) :
    (ofValue v type).Gives (.error .malformed) := by
  unfold ofValue
  rw [Value.checkText_of_not_hasText h]
  exact (Noted.gives_liftExcept (.error .malformed)).bind_error

end Literal

/-! ## Parts of a descriptor -/

/-- Columns whose codes are texts. -/
def HasTextCodes (c : Columns) : Prop := ∀ col ∈ c.list, ∃ t, col.code = .text t

/-- A code of capital letters. -/
def IsCode (t : Text) : Prop :=
  ∃ cs, cs ≠ [] ∧ (∀ c ∈ cs, Column.isCapital c = true) ∧ t = Text.ofChars cs

/-- Columns whose codes are words of capital letters. -/
def HasCodes (c : Columns) : Prop := ∀ col ∈ c.list, ∃ t, IsCode t ∧ col.code = .text t

theorem HasCodes.hasTextCodes {c : Columns} (hc : HasCodes c) : HasTextCodes c := by
  intro col hcol
  obtain ⟨t, -, ht⟩ := hc col hcol
  exact ⟨t, ht⟩

/-- The parts that a list gives; a blank value has none. -/
def partsOf (v : Value) : List Value := if v.isBlank then [] else v.items?.getD []

/-- The entries of a mapping; a blank value has none. -/
def entriesOf (v : Value) : Entries Value := if v.isBlank then [] else v.entries?.getD []

/-- A descriptor of the right form: lists of headers and of order entries, and a mapping of
conditions, each of which may be blank. The headers and the values in it are arbitrary, and so are
the limit and the offset. -/
structure Descriptor.IsFormed (d : Descriptor) : Prop where
  select : d.select.isBlank = false → d.select.items?.isSome
  conditions : d.conditions.isBlank = false → d.conditions.entries?.isSome
  order : d.order.isBlank = false → d.order.items?.isSome
  entry : ∀ e ∈ partsOf d.order, ∃ p, orderParts e = .ok p

/-- The column whose header a name is. -/
def columnOf? (c : Columns) (name : Value) : Option Column :=
  name.text?.bind fun t => c.list.find? fun col => col.header.equals (.text t)

/-- The code of a header as a word. -/
def wordOf? (c : Columns) (name : Value) : Option Text := (columnOf? c name).map fun col => col.code.plain

/-- A descriptor of which all that is written has a text: the values for known headers, the limit and the
offset. -/
structure Descriptor.HasTexts (c : Columns) (d : Descriptor) : Prop where
  conditions : ∀ e ∈ entriesOf d.conditions, (columnOf? c e.1).isSome → e.2.hasText = true
  limit : ∀ n, d.limit = .int n → 0 < n → hasNumeral n = true
  offset : ∀ n, d.offset = .int n → 0 ≤ n → hasNumeral n = true

/-- The comparison of a known header with a value. -/
def comparisonOf? (c : Columns) (e : Value × Value) : Option Comparison :=
  (wordOf? c e.1).map fun code =>
    ⟨code, if e.2.isNull then none else some (Literal.chosen e.2 (c.typeOf (.text code)))⟩

/-- The order term of an entry with a known header. -/
def termOf? (c : Columns) (e : Value) : Option OrderTerm := do
  let p ← (orderParts e).toOption
  let code ← wordOf? c p.1
  return ⟨code, directionOf? p.2⟩

/-! ## Compilation -/

section
variable {c : Columns}

theorem codeOf?_eq (c : Columns) (name : Value) : codeOf? c name = (columnOf? c name).map (·.code) := by
  rw [codeOf?, columnOf?, Option.map_bind]
  congr 1
  funext t
  rw [Entries.findText?, Columns.codes, Entries.find?_eq, List.find?_map, Option.map_map]
  rfl

theorem wordOf?_eq (c : Columns) (name : Value) : wordOf? c name = (codeOf? c name).map Value.plain := by
  rw [codeOf?_eq, Option.map_map]
  rfl

theorem mem_of_columnOf? {name : Value} {col : Column} (h : columnOf? c name = some col) : col ∈ c.list := by
  obtain ⟨t, -, hfind⟩ := Option.bind_eq_some_iff.mp h
  exact List.mem_of_find?_eq_some hfind

/-- A code that is found is one of a column. -/
theorem exists_column_of_codeOf? {name code : Value} (h : codeOf? c name = some code) :
    ∃ col ∈ c.list, col.code = code := by
  rw [codeOf?_eq] at h
  obtain ⟨col, hcol, rfl⟩ := Option.map_eq_some_iff.mp h
  exact ⟨col, mem_of_columnOf? hcol, rfl⟩

theorem exists_of_codeOf? (hc : HasTextCodes c) {name code : Value} (h : codeOf? c name = some code) :
    ∃ t, code = .text t := by
  obtain ⟨col, hcol, rfl⟩ := exists_column_of_codeOf? h
  exact hc col hcol

theorem isCode_of_wordOf? (hc : HasCodes c) {name : Value} {t : Text}
    (h : wordOf? c name = some t) : IsCode t := by
  obtain ⟨col, hcol, rfl⟩ := Option.map_eq_some_iff.mp h
  obtain ⟨t, ht, htext⟩ := hc col (mem_of_columnOf? hcol)
  rw [htext]
  exact ht

theorem gives_resolve (c : Columns) (clause : String) (name : Value) :
    (resolve c clause name).Gives (.ok (codeOf? c name)) := by
  unfold resolve
  cases codeOf? c name with
  | none => exact (Noted.gives_note _ _).bind_ok (Noted.gives_pure _)
  | some code => exact Noted.gives_pure _

theorem gives_each {v : Value} {parts : List Value} (h : v.items? = some parts) :
    (liftM v.each : Noted (List Value)).Gives (.ok parts) := by
  rw [Value.each, h]
  exact Noted.gives_liftExcept _

theorem gives_selectCodes (hc : HasTextCodes c) {select : Value}
    (hs : select.isBlank = false → select.items?.isSome) :
    (selectCodes c select).Gives (.ok ((partsOf select).filterMap (wordOf? c))) := by
  unfold selectCodes partsOf
  cases hb : select.isBlank with
  | true => exact Noted.gives_pure _
  | false =>
    obtain ⟨names, hnames⟩ := Option.isSome_iff_exists.mp (hs hb)
    have hcodes : (names.filterMapM (resolve c "select")).Gives
        (.ok (names.filterMap (codeOf? c))) :=
      Noted.gives_filterMapM fun name _ => gives_resolve c "select" name
    have htexts : ((names.filterMap (codeOf? c)).mapM fun code => code.expectText : Noted _).Gives
        (.ok ((names.filterMap (codeOf? c)).map Value.plain)) := by
      refine Noted.gives_mapM fun code hcode => ?_
      obtain ⟨name, -, hname⟩ := List.mem_filterMap.mp hcode
      obtain ⟨t, rfl⟩ := exists_of_codeOf? hc hname
      exact Noted.gives_pure _
    have hwords : (select.items?.getD []).filterMap (wordOf? c) =
        (names.filterMap (codeOf? c)).map Value.plain := by
      rw [hnames, List.map_filterMap]
      exact List.filterMap_congr fun name _ => wordOf?_eq c name
    simp only [Bool.false_eq_true, if_false]
    rw [hwords]
    exact (gives_each hnames).bind_ok (hcodes.bind_ok htexts)

theorem gives_comparison? (hc : HasTextCodes c) {e : Value × Value}
    (he : (columnOf? c e.1).isSome → e.2.hasText = true) :
    (comparison? c e.1 e.2).Gives (.ok (comparisonOf? c e)) := by
  unfold comparison? comparisonOf?
  rw [wordOf?_eq]
  refine (gives_resolve c "where" e.1).bind_ok ?_
  cases hcode : codeOf? c e.1 with
  | none => exact Noted.gives_pure _
  | some code =>
    obtain ⟨t, rfl⟩ := exists_of_codeOf? hc hcode
    obtain ⟨col, hcol, -⟩ := Option.map_eq_some_iff.mp ((codeOf?_eq c e.1).symm.trans hcode)
    dsimp only
    cases hnull : e.2.isNull with
    | true => exact Noted.gives_pure _
    | false =>
      exact (Literal.gives_ofValue (he (Option.isSome_of_eq_some hcol)) _).bind_ok (Noted.gives_pure _)

/-- A known header is not compared with a value without a text. -/
theorem gives_comparison?_of_not {e : Value × Value} (hknown : (columnOf? c e.1).isSome)
    (h : e.2.hasText = false) : (comparison? c e.1 e.2).Gives (.error .malformed) := by
  obtain ⟨col, hcol⟩ := Option.isSome_iff_exists.mp hknown
  have hnull : e.2.isNull = false := by
    cases hv : e.2 <;> rw [hv] at h <;> first | rfl | cases h
  unfold comparison?
  refine (gives_resolve c "where" e.1).bind_ok ?_
  rw [codeOf?_eq, hcol, Option.map_some]
  dsimp only
  rw [hnull, if_neg Bool.false_ne_true]
  exact (Literal.gives_ofValue_of_not h _).bind_error

theorem gives_comparisonsOf (hc : HasTextCodes c) {conditions : Value}
    (hs : conditions.isBlank = false → conditions.entries?.isSome) :
    ((∀ e ∈ entriesOf conditions, (columnOf? c e.1).isSome → e.2.hasText = true) →
      (comparisonsOf c conditions).Gives
        (.ok ((entriesOf conditions).filterMap (comparisonOf? c)))) ∧
    ((∃ e ∈ entriesOf conditions, (columnOf? c e.1).isSome ∧ e.2.hasText = false) →
      (comparisonsOf c conditions).Gives (.error .malformed)) := by
  unfold comparisonsOf entriesOf
  cases hb : conditions.isBlank with
  | true => exact ⟨fun _ => Noted.gives_pure _, fun ⟨_, he, _⟩ => absurd he List.not_mem_nil⟩
  | false =>
    obtain ⟨entries, hentries⟩ := Option.isSome_iff_exists.mp (hs hb)
    have hexpect : (liftM conditions.expectEntries : Noted (List (Value × Value))).Gives
        (.ok entries) := by
      rw [Value.expectEntries, hentries]
      exact Noted.gives_liftExcept _
    simp only [Bool.false_eq_true, if_false]
    rw [hentries, Option.getD_some]
    refine ⟨fun htexts => hexpect.bind_ok (Noted.gives_filterMapM fun e he =>
      gives_comparison? hc (htexts e he)), ?_⟩
    rintro ⟨e, he, hknown, htext⟩
    refine hexpect.bind_ok (Noted.gives_filterMapM_error (fun e _ => ?_)
      ⟨e, he, gives_comparison?_of_not hknown htext⟩)
    by_cases hfails : (columnOf? c e.1).isSome ∧ e.2.hasText = false
    · exact Or.inr (gives_comparison?_of_not hfails.1 hfails.2)
    · exact Or.inl ⟨_, gives_comparison? hc fun hsome =>
        Bool.of_not_eq_false fun hnot => hfails ⟨hsome, hnot⟩⟩

/-- The code and the direction of an entry with a known header. -/
def orderItemOf? (c : Columns) (e : Value) : Option (Value × Option Direction) := do
  let p ← (orderParts e).toOption
  let code ← codeOf? c p.1
  return (code, directionOf? p.2)

theorem gives_orderItem? {e : Value} (he : ∃ p, orderParts e = .ok p) :
    (orderItem? c e).Gives (.ok (orderItemOf? c e)) := by
  obtain ⟨⟨name, direction⟩, hp⟩ := he
  unfold orderItem? orderItemOf?
  rw [hp]
  refine (Noted.gives_liftExcept (.ok (name, direction))).bind_ok ?_
  refine (gives_resolve c "order by" name).bind_ok ?_
  change Noted.Gives _ (.ok ((codeOf? c name).bind fun code => some (code, directionOf? direction)))
  cases codeOf? c name with
  | none => exact Noted.gives_pure _
  | some code => exact Noted.gives_pure _

theorem termOf?_eq (c : Columns) (e : Value) :
    termOf? c e = (orderItemOf? c e).map fun i => ⟨i.1.plain, i.2⟩ := by
  unfold termOf? orderItemOf?
  cases (orderParts e).toOption with
  | none => rfl
  | some p => cases h : codeOf? c p.1 <;> simp [wordOf?_eq, h]

theorem gives_orderTerms (hc : HasTextCodes c) {order : Value}
    (hs : order.isBlank = false → order.items?.isSome)
    (he : ∀ e ∈ partsOf order, ∃ p, orderParts e = .ok p) :
    (orderTerms c order).Gives (.ok ((partsOf order).filterMap (termOf? c))) := by
  unfold orderTerms
  unfold partsOf at he ⊢
  cases hb : order.isBlank with
  | true => exact Noted.gives_pure _
  | false =>
    obtain ⟨entries, hentries⟩ := Option.isSome_iff_exists.mp (hs hb)
    simp only [hb, hentries, Option.getD_some, Bool.false_eq_true, if_false] at he ⊢
    have hitems := Noted.gives_filterMapM fun e hmem => gives_orderItem? (c := c) (he e hmem)
    have hterms : ((entries.filterMap (orderItemOf? c)).mapM fun i => orderTerm i.1 i.2
        : Noted _).Gives (.ok ((entries.filterMap (orderItemOf? c)).map fun i =>
          ⟨i.1.plain, i.2⟩)) := by
      refine Noted.gives_mapM fun i hi => ?_
      obtain ⟨e, -, hitem⟩ := List.mem_filterMap.mp hi
      obtain ⟨p, -, hp⟩ := Option.bind_eq_some_iff.mp hitem
      obtain ⟨code, hcode, hpair⟩ := Option.bind_eq_some_iff.mp hp
      cases hpair
      obtain ⟨t, rfl⟩ := exists_of_codeOf? hc hcode
      cases directionOf? p.2 <;> exact Noted.gives_pure _
    have hmap : entries.filterMap (termOf? c) =
        (entries.filterMap (orderItemOf? c)).map fun i => ⟨i.1.plain, i.2⟩ := by
      rw [List.map_filterMap]
      exact congrArg (entries.filterMap ·) (funext (termOf?_eq c))
    rw [hmap]
    exact (gives_each hentries).bind_ok (hitems.bind_ok hterms)

/-- The clauses that a descriptor compiles to. -/
def askedClauses (c : Columns) (d : Descriptor) : Clauses :=
  ⟨(partsOf d.select).filterMap (wordOf? c),
    (entriesOf d.conditions).filterMap (comparisonOf? c),
    (partsOf d.order).filterMap (termOf? c), limitOf? d.limit, offsetOf? d.offset⟩

theorem limitOf?_eq_some_iff {v : Value} {n : Int} : limitOf? v = some n ↔ v = .int n ∧ 0 < n := by
  cases v <;> simp [limitOf?]
  omega

theorem offsetOf?_eq_some_iff {v : Value} {n : Int} :
    offsetOf? v = some n ↔ v = .int n ∧ 0 ≤ n := by
  cases v <;> simp [offsetOf?]
  omega

theorem numberFor_of_all {n : Option Int} (h : ∀ m, n = some m → hasNumeral m = true) :
    numberFor n = .ok n := by
  refine if_pos ?_
  cases n with
  | none => rfl
  | some m => exact h m rfl

theorem numberFor_of_not {n : Option Int} (h : ∃ m, n = some m ∧ hasNumeral m = false) :
    numberFor n = .error .malformed := by
  obtain ⟨m, rfl, hm⟩ := h
  exact if_neg (by rw [Option.all_some, hm]; exact Bool.false_ne_true)

/-- What is not written in a descriptor that has no texts. -/
theorem Descriptor.not_hasTexts {d : Descriptor} (h : ¬ d.HasTexts c) :
    (∃ e ∈ entriesOf d.conditions, (columnOf? c e.1).isSome ∧ e.2.hasText = false) ∨
      (∃ n, limitOf? d.limit = some n ∧ hasNumeral n = false) ∨
      ∃ n, offsetOf? d.offset = some n ∧ hasNumeral n = false := by
  by_contra hnone
  rw [not_or, not_or] at hnone
  obtain ⟨hconditions, hlimit, hoffset⟩ := hnone
  refine h ⟨fun e he hsome => ?_, fun n hn hpos => ?_, fun n hn hpos => ?_⟩
  · exact Bool.of_not_eq_false fun hnot => hconditions ⟨e, he, hsome, hnot⟩
  · exact Bool.of_not_eq_false fun hnot => hlimit ⟨n, limitOf?_eq_some_iff.mpr ⟨hn, hpos⟩, hnot⟩
  · exact Bool.of_not_eq_false fun hnot => hoffset ⟨n, offsetOf?_eq_some_iff.mpr ⟨hn, hpos⟩, hnot⟩

theorem gives_clausesOf (hc : HasTextCodes c) {d : Descriptor} (hd : d.IsFormed) (ht : d.HasTexts c) :
    (clausesOf c d).Gives (.ok (askedClauses c d)) := by
  have hlimit : numberFor (limitOf? d.limit) = .ok (limitOf? d.limit) :=
    numberFor_of_all fun n hn => (limitOf?_eq_some_iff.mp hn).elim (ht.limit n)
  have hoffset : numberFor (offsetOf? d.offset) = .ok (offsetOf? d.offset) :=
    numberFor_of_all fun n hn => (offsetOf?_eq_some_iff.mp hn).elim (ht.offset n)
  unfold clausesOf
  rw [hlimit, hoffset]
  exact (gives_selectCodes hc hd.select).bind_ok <|
    ((gives_comparisonsOf hc hd.conditions).1 ht.conditions).bind_ok <|
      (gives_orderTerms hc hd.order hd.entry).bind_ok <|
        (Noted.gives_liftExcept _).bind_ok <| (Noted.gives_liftExcept _).bind_ok (Noted.gives_pure _)

theorem gives_clausesOf_of_not (hc : HasTextCodes c) {d : Descriptor} (hd : d.IsFormed)
    (ht : ¬ d.HasTexts c) : (clausesOf c d).Gives (.error .malformed) := by
  unfold clausesOf
  refine (gives_selectCodes hc hd.select).bind_ok ?_
  obtain ⟨hcomparisons, hfails⟩ := gives_comparisonsOf hc hd.conditions
  by_cases hconditions : ∃ e ∈ entriesOf d.conditions, (columnOf? c e.1).isSome ∧ e.2.hasText = false
  · exact (hfails hconditions).bind_error
  have htexts : ∀ e ∈ entriesOf d.conditions, (columnOf? c e.1).isSome → e.2.hasText = true :=
    fun e he hsome => Bool.of_not_eq_false fun hnot => hconditions ⟨e, he, hsome, hnot⟩
  refine (hcomparisons htexts).bind_ok ((gives_orderTerms hc hd.order hd.entry).bind_ok ?_)
  rcases Descriptor.not_hasTexts ht with h | hlimit | hoffset
  · exact absurd h hconditions
  · rw [numberFor_of_not hlimit]
    exact (Noted.gives_liftExcept _).bind_error
  · by_cases hlimit : ∃ n, limitOf? d.limit = some n ∧ hasNumeral n = false
    · rw [numberFor_of_not hlimit]
      exact (Noted.gives_liftExcept _).bind_error
    · rw [numberFor_of_all fun n hn => Bool.of_not_eq_false fun hnot => hlimit ⟨n, hn, hnot⟩,
        numberFor_of_not hoffset]
      exact (Noted.gives_liftExcept _).bind_ok (Noted.gives_liftExcept _).bind_error

/-- With columns, a descriptor that has texts compiles to the text of its clauses. -/
theorem gives_compile (hempty : c.isEmpty = false) (hc : HasTextCodes c) {d : Descriptor}
    (hd : d.IsFormed) (ht : d.HasTexts c) :
    (compile (some c) d).Gives (.ok (askedClauses c d).render) := by
  rw [compile, if_neg (by simp [hempty])]
  exact (gives_clausesOf hc hd ht).bind_ok (Noted.gives_pure _)

/-- One that has no texts does not compile. -/
theorem gives_compile_of_not (hempty : c.isEmpty = false) (hc : HasTextCodes c) {d : Descriptor}
    (hd : d.IsFormed) (ht : ¬ d.HasTexts c) : (compile (some c) d).Gives (.error .malformed) := by
  rw [compile, if_neg (by simp [hempty])]
  exact (gives_clausesOf_of_not hc hd ht).bind_error

end

end RowStore.Query
