import Mathlib.Data.List.Nodup
import RowStore.Proofs.Columns.Descriptors

/-!
# The columns that descriptors describe

Descriptors whose codes differ are read as columns iff the names that they give differ, too. The mappings
between headers, codes and positions are then inverse to each other.

* `Description` : a descriptor with texts for its code and its label; `Description.name` : the header that it
  gives;
* `readColumns_values`, `exists_readColumns_of_repeated` : descriptors are read one by one, up to the first one
  whose name is there already;
* `IsSnapshot` : how the mappings of columns fit together;
* `ofDescriptors_snapshot` : they do so wherever descriptors can be read at all.
-/

namespace RowStore.Columns

/-- A descriptor with a text for its code, which is not empty, and a text for its label. -/
structure Description where
  fields : Entries Value
  code : Text
  label : Text
  code_eq : Value.get fields "id" = .text code
  label_eq : Value.get fields "label" = .text label
  code_ne : code ≠ []

namespace Description

/-- The descriptor as it stands in an answer. -/
def value (d : Description) : Value := .mapping d.fields

/-- The name of the column: its label without white space at the ends, or its code when that is empty. -/
def name (d : Description) : Text :=
  if (Text.trim d.label).isEmpty then d.code else Text.trim d.label

/-- The column that is described. -/
def column (d : Description) : Column :=
  ⟨.text d.name, .text d.code, TypeTag.ofValue (Value.get d.fields "type")⟩

end Description

/-- The first description whose name is that of one of those before it. -/
structure FirstRepeat (ds before : List Description) (d : Description) : Prop where
  split : ∃ after, ds = before ++ d :: after
  nodup : (before.map Description.name).Nodup
  repeated : d.name ∈ before.map Description.name

/-! ## Reading descriptors -/

theorem labelText_text (label : Text) : labelText (.text label) = .ok (Text.trim label) := by
  cases label with
  | nil => rfl
  | cons p rest => rfl

theorem headerOf_description (d : Description) :
    headerOf (.text d.label) (.text d.code) = .ok (.text d.name) := by
  rw [headerOf, labelText_text, Description.name]
  change Except.ok _ = _
  split <;> rfl

theorem any_header_iff {before : List Description} {name : Text} :
    (before.map Description.column).any (·.header.equals (.text name)) = true ↔
      name ∈ before.map Description.name := by
  simp only [List.any_map, List.any_eq_true, Function.comp_apply, Description.column, Value.equals_text_iff,
    Value.text.injEq, List.mem_map]

/-- A descriptor is read unless its name is there already. -/
theorem readColumn_value (before : List Description) (d : Description) :
    readColumn (before.map Description.column) d.value =
      if d.name ∈ before.map Description.name then
        .error (.parse (.duplicateHeader (.text d.name) (.text d.code)))
      else .ok d.column := by
  have hgiven : (Value.text d.code).isBlank = false := by simp [Value.isBlank, d.code_ne]
  rw [Description.value, readColumn, d.code_eq, d.label_eq, headerOf_description]
  simp only [hgiven, Value.isKey, bind, Except.bind, pure, Except.pure, throw, throwThe,
    MonadExceptOf.throw, Bool.not_true, Bool.false_eq_true, if_false, any_header_iff]
  rfl

theorem readColumns_cons (before rest : List Description) (d : Description) :
    readColumns (before.map Description.column) ((d :: rest).map Description.value) =
      if d.name ∈ before.map Description.name then
        .error (.parse (.duplicateHeader (.text d.name) (.text d.code)))
      else readColumns ((before ++ [d]).map Description.column) (rest.map Description.value) := by
  rw [List.map_cons, readColumns, readColumn_value, List.map_append, List.map_singleton]
  split <;> rfl

/-- Descriptors with different names are read one after another. -/
theorem readColumns_values {before rest : List Description}
    (h : ((before ++ rest).map Description.name).Nodup) :
    readColumns (before.map Description.column) (rest.map Description.value) =
      .ok ((before ++ rest).map Description.column) := by
  induction rest generalizing before with
  | nil => rw [List.append_nil]; rfl
  | cons d rest ih =>
    have hnew : d.name ∉ before.map Description.name := fun hmem =>
      List.disjoint_of_nodup_append (List.map_append ▸ h) hmem List.mem_cons_self
    rw [List.append_cons] at h ⊢
    rw [readColumns_cons, if_neg hnew, ih h]

/-- Where names repeat, the first descriptor whose name is there already is refused. -/
theorem exists_readColumns_of_repeated {before rest : List Description}
    (hbefore : (before.map Description.name).Nodup)
    (h : ¬ ((before ++ rest).map Description.name).Nodup) :
    ∃ front d after, rest = front ++ d :: after ∧
      ((before ++ front).map Description.name).Nodup ∧ d.name ∈ (before ++ front).map Description.name ∧
      readColumns (before.map Description.column) (rest.map Description.value) =
        .error (.parse (.duplicateHeader (.text d.name) (.text d.code))) := by
  induction rest generalizing before with
  | nil =>
    rw [List.append_nil] at h
    exact absurd hbefore h
  | cons d rest ih =>
    rw [readColumns_cons]
    by_cases hmem : d.name ∈ before.map Description.name
    · exact ⟨[], d, rest, rfl, by rwa [List.append_nil], by rwa [List.append_nil], if_pos hmem⟩
    · have hsnoc : ((before ++ [d]).map Description.name).Nodup := by
        rw [List.map_append, List.map_singleton, ← List.concat_eq_append]
        exact hbefore.concat hmem
      rw [List.append_cons] at h
      obtain ⟨front, e, after, rfl, hfront, he, hread⟩ := ih hsnoc h
      rw [List.append_assoc, List.singleton_append] at hfront he
      exact ⟨d :: front, e, after, rfl, hfront, he, by rw [if_neg hmem, hread]⟩

/-! ## The mappings -/

section
variable {α β : Type} {entries : List β} {name : β → Text} {value : β → α}

/-- Names that are different texts are not equal. -/
theorem pairwise_of_nodup (h : (entries.map name).Nodup) :
    (entries.map fun b => (Value.text (name b), value b)).Pairwise fun x y => x.1.equals y.1 = false := by
  rw [List.pairwise_map]
  refine (List.pairwise_map.mp h).imp fun hne => ?_
  rw [Bool.eq_false_iff, ne_eq, Value.equals_text_iff]
  exact fun htext => hne (Value.text.inj htext)

/-- Where names are different texts, a look-up finds exactly what stands under a name. -/
theorem find?_map_iff (h : (entries.map name).Nodup) {k : Value} {a : α} :
    Entries.find? (entries.map fun b => (.text (name b), value b)) k = some a ↔
      ∃ b ∈ entries, k = .text (name b) ∧ a = value b := by
  constructor
  · intro hfind
    obtain ⟨k', hmem, heq⟩ := Entries.exists_of_find? hfind
    obtain ⟨b, hb, hpair⟩ := List.mem_map.mp hmem
    cases hpair
    exact ⟨b, hb, Value.text_equals_iff.mp heq, rfl⟩
  · rintro ⟨b, hb, rfl, rfl⟩
    have hkeys : ∀ e ∈ entries.map fun b => (Value.text (name b), value b), e.1.isKey = true :=
      List.forall_mem_map.mpr fun _ _ => rfl
    exact Entries.find?_of_mem hkeys (pairwise_of_nodup h)
      (List.mem_map_of_mem (f := fun b => (Value.text (name b), value b)) hb)

end

theorem names_positions (c : Columns) : c.positions.names = c.headers := by
  rw [positions, Entries.names, List.map_map, headers]
  conv_rhs => rw [← List.zipIdx_map_fst 0 c.list, List.map_map]
  rfl

theorem values_positions (c : Columns) : c.positions.map (·.2) = List.range c.list.length := by
  rw [positions, List.map_map, List.range_eq_range', ← List.zipIdx_map_snd]
  rfl

/-- How the mappings of the columns of some descriptors fit together. -/
structure IsSnapshot (c : Columns) (ds : List Description) (identifier : Value) : Prop where
  /-- The headers are the names in order. -/
  headers : c.headers = ds.map fun d => .text d.name
  /-- The positions are those of the headers in order, -/
  places : c.positions.names = c.headers
  /-- and they are the numbers below the number of columns. -/
  numbers : c.positions.map (·.2) = List.range ds.length
  /-- A header leads to its own place, and only to that. -/
  place_iff : ∀ header p, c.positions.find? header = some p ↔ c.headers[p]? = some header
  /-- Each header has the code of its own column. -/
  code_iff : ∀ header code, c.codes.find? header = some code ↔
    ∃ d ∈ ds, header = .text d.name ∧ code = .text d.code
  /-- The headers and the codes lead to each other. -/
  inverse : ∀ header code, c.codes.find? header = some code ↔ c.headersByCode.find? code = some header
  /-- There is a code of the identifier iff the identifier is a header. -/
  identifier_iff : (∃ code, c.identifierCode = some code) ↔ identifier ∈ c.headers
  /-- It is then the code of the column with this header, which leads back to the identifier. -/
  identifier_eq : ∀ d ∈ ds, identifier = .text d.name →
    c.identifierCode = some (.text d.code) ∧ c.identifierHeader = some identifier

section
variable {ds : List Description} (identifier : Value)

/-- The columns of some descriptors. -/
def ofDescriptions (ds : List Description) (identifier : Value) : Columns :=
  ⟨ds.map Description.column, identifier⟩

theorem headers_ofDescriptions : (ofDescriptions ds identifier).headers = ds.map fun d => .text d.name :=
  List.map_map

theorem find?_codes_iff (hnames : (ds.map Description.name).Nodup) {header code : Value} :
    (ofDescriptions ds identifier).codes.find? header = some code ↔
      ∃ d ∈ ds, header = .text d.name ∧ code = .text d.code := by
  rw [codes, ofDescriptions, List.map_map]
  exact find?_map_iff hnames

theorem find?_headersByCode_iff (hcodes : (ds.map Description.code).Nodup) {header code : Value} :
    (ofDescriptions ds identifier).headersByCode.find? code = some header ↔
      ∃ d ∈ ds, code = .text d.code ∧ header = .text d.name := by
  have hpairs : (ofDescriptions ds identifier).headersByCode =
      ds.map fun d => (.text d.code, .text d.name) := by
    rw [headersByCode, ofDescriptions, List.map_map]
    exact Entries.ofList_of_pairwise (pairwise_of_nodup hcodes)
  rw [hpairs]
  exact find?_map_iff hcodes

theorem isSnapshot_ofDescriptions (hnames : (ds.map Description.name).Nodup)
    (hcodes : (ds.map Description.code).Nodup) (hdistinct : Distinct (ds.map Description.column)) :
    (ofDescriptions ds identifier).IsSnapshot ds identifier := by
  have hidentifier : ∀ d ∈ ds, identifier = .text d.name →
      (ofDescriptions ds identifier).identifierCode = some (.text d.code) := fun d hd heq =>
    (find?_codes_iff identifier hnames).mpr ⟨d, hd, heq, rfl⟩
  refine {
    headers := headers_ofDescriptions identifier
    places := names_positions _
    numbers := by rw [values_positions, ofDescriptions, List.length_map]
    place_iff := fun header p => ?_
    code_iff := fun _ _ => find?_codes_iff identifier hnames
    inverse := fun header code => ?_
    identifier_iff := ?_
    identifier_eq := fun d hd heq => ⟨hidentifier d hd heq, ?_⟩ }
  · rw [find?_positions_iff hdistinct]
    constructor
    · rintro ⟨h, hp, heq⟩
      obtain ⟨d, -, rfl⟩ := List.mem_map.mp (headers_ofDescriptions identifier ▸ List.mem_of_getElem? hp)
      rwa [Value.text_equals_iff.mp heq]
    · exact fun hp => ⟨header, hp, Value.equals_self (isKey_of_headers hdistinct hp)⟩
  · rw [find?_codes_iff identifier hnames, find?_headersByCode_iff identifier hcodes]
    exact exists_congr fun d => and_congr_right fun _ => and_comm
  · rw [headers_ofDescriptions, List.mem_map]
    constructor
    · rintro ⟨code, hcode⟩
      obtain ⟨d, hd, heq, -⟩ := (find?_codes_iff identifier hnames).mp hcode
      exact ⟨d, hd, heq.symm⟩
    · rintro ⟨d, hd, heq⟩
      exact ⟨_, hidentifier d hd heq.symm⟩
  · rw [identifierHeader, hidentifier d hd heq]
    exact (find?_headersByCode_iff identifier hcodes).mpr ⟨d, hd, rfl, heq⟩

theorem ofDescriptors_of_nodup (h : (ds.map Description.name).Nodup) :
    ofDescriptors (ds.map Description.value) identifier = .ok (ofDescriptions ds identifier) := by
  have hread : readColumns [] (ds.map Description.value) = .ok (ds.map Description.column) :=
    @readColumns_values [] ds h
  rw [ofDescriptors, hread]
  rfl

theorem exists_ofDescriptors_of_repeated (h : ¬ (ds.map Description.name).Nodup) :
    ∃ before d, FirstRepeat ds before d ∧ ofDescriptors (ds.map Description.value) identifier =
      .error (.parse (.duplicateHeader (.text d.name) (.text d.code))) := by
  obtain ⟨before, d, after, hds, hbefore, hd, hread⟩ :=
    @exists_readColumns_of_repeated [] ds List.nodup_nil h
  refine ⟨before, d, ⟨⟨after, hds⟩, hbefore, hd⟩, ?_⟩
  rw [ofDescriptors, show readColumns [] (ds.map Description.value) = _ from hread]
  rfl

end

/-- Descriptors whose codes differ are read iff their names differ, too. Their mappings then fit together;
otherwise the first descriptor whose name is there already is refused. -/
theorem ofDescriptors_snapshot (ds : List Description) (hcodes : (ds.map Description.code).Nodup)
    (identifier : Value) :
    ((∃ c, ofDescriptors (ds.map Description.value) identifier = .ok c) ↔ (ds.map Description.name).Nodup) ∧
    (∀ c, ofDescriptors (ds.map Description.value) identifier = .ok c → c.IsSnapshot ds identifier) ∧
    (¬ (ds.map Description.name).Nodup → ∃ before d, FirstRepeat ds before d ∧
      ofDescriptors (ds.map Description.value) identifier =
        .error (.parse (.duplicateHeader (.text d.name) (.text d.code)))) := by
  have hnames_of_ok : ∀ c, ofDescriptors (ds.map Description.value) identifier = .ok c →
      (ds.map Description.name).Nodup := by
    intro c hok
    by_contra hnames
    obtain ⟨before, d, -, herror⟩ := exists_ofDescriptors_of_repeated identifier hnames
    rw [herror] at hok
    cases hok
  refine ⟨⟨?_, ?_⟩, fun c hok => ?_, exists_ofDescriptors_of_repeated identifier⟩
  · exact fun ⟨c, hok⟩ => hnames_of_ok c hok
  · exact fun hnames => ⟨_, ofDescriptors_of_nodup identifier hnames⟩
  · have hnames := hnames_of_ok c hok
    have hread := ofDescriptors_of_nodup identifier hnames
    rw [hread] at hok
    cases hok
    exact isSnapshot_ofDescriptions identifier hnames hcodes (distinct_ofDescriptors hread)

/-- A description with a code, a label and a type. -/
def Description.of (code label type : String) (hcode : Text.ofString code ≠ []) : Description :=
  ⟨[(.text "id", .text code), (.text "label", .text label), (.text "type", .text type)], code, label,
    rfl, rfl, hcode⟩

/-- Three descriptions, one of which has no label. -/
def Description.three : List Description :=
  [.of "A" " id " "string" (by decide), .of "B" "" "number" (by decide), .of "C" "Age" "date" (by decide)]

/-- Two descriptions, the first of which has taken the name of the second. -/
def Description.colliding : List Description :=
  [.of "A" "B" "string" (by decide), .of "B" " " "number" (by decide)]

theorem ofDescriptors_snapshot_unlabelled :
    (∃ c, ofDescriptors (Description.three.map Description.value) (.text "id") = .ok c ∧
      c.headers = [.text "id", .text "B", .text "Age"] ∧ c.identifierCode = some (.text "A")) ∧
    ∃ before d, FirstRepeat Description.colliding before d ∧
      ofDescriptors (Description.colliding.map Description.value) (.text "id") =
        .error (.parse (.duplicateHeader (.text d.name) (.text d.code))) := by
  obtain ⟨hread, hfit, -⟩ := ofDescriptors_snapshot Description.three (by decide) (.text "id")
  obtain ⟨-, -, hrefused⟩ := ofDescriptors_snapshot Description.colliding (by decide) (.text "id")
  obtain ⟨c, hc⟩ := hread.mpr (by decide)
  have hidentifier := (hfit c hc).identifier_eq _ List.mem_cons_self rfl
  exact ⟨⟨c, hc, (hfit c hc).headers, hidentifier.1⟩, hrefused (by decide)⟩

end RowStore.Columns
