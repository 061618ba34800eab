import Mathlib.Data.List.Perm.Subperm
import RowStore.Proofs.Columns.Descriptors
import RowStore.Proofs.Response.Legible
import RowStore.Proofs.Response.RoundTrip

/-!
# Answers over known columns

The columns of an answer are named by the answer's own labels, or by the known columns where a label is
blank. Both come to the headers of the known columns, whichever of them the answer has and in whatever
order.

* `keyOf_descriptor_eq` : the descriptor of a known column is named by the column's header;
* `recordIn cols row` : the values of a row's cells under the headers of the columns;
* `parse_projected` : an answer over some of the known columns is decoded to these records, and one over
  none of them to no records.
-/

namespace RowStore

/-! ## Names -/

/-- The label that a column's header comes from, and what is taken when it is blank. -/
theorem Columns.labelText_of_headerOf {label code header : Value}
    (h : headerOf label code = .ok header) :
    ∃ text, labelText label = .ok text ∧ header = if text.isEmpty then code else .text text := by
  obtain ⟨text, htext, h⟩ := bind_eq_ok h
  exact ⟨text, htext, (Except.ok.inj h).symm⟩

/-- The header of each code is that of its column. -/
theorem Columns.find?_headersByCode {c : Columns} (hc : Coded c.list) {col : Column}
    (hcol : col ∈ c.list) : c.headersByCode.find? col.code = some col.header := by
  have hnames : (c.list.map fun col => (col.code, col.header)).Pairwise
      fun a b => a.1.equals b.1 = false := List.pairwise_map.mpr hc.codes
  rw [headersByCode, Entries.ofList_of_pairwise hnames]
  exact Entries.find?_of_mem (List.forall_mem_map.mpr hc.codeKeys) hnames
    (List.mem_map_of_mem (f := fun col => (col.code, col.header)) hcol)

namespace Response

variable {c : Columns}

/-- The descriptor of a known column is named by the column's header. -/
theorem keyOf_descriptor_eq (hc : Coded c.list) {descriptor : Value} {col : Column}
    (hcol : col ∈ c.list) (h : col.IsOf descriptor) :
    keyOf (some c) descriptor = .ok (some col.header) := by
  obtain ⟨fields, rfl, hfields⟩ := h
  obtain ⟨text, htext, hheader⟩ := Columns.labelText_of_headerOf hfields.header
  rw [keyOf, htext]
  change (if !text.isEmpty then _ else _) = _
  cases hempty : text.isEmpty with
  | false =>
    rw [hheader, hempty]
    rfl
  | true =>
    have hkey := hc.codeKeys col hcol
    have hfind := Columns.find?_headersByCode hc hcol
    rw [hfields.code] at hkey hfind
    change (if (Value.get fields "id").isKey then
      Except.ok (c.headersByCode.find? (Value.get fields "id")) else _) = _
    rw [hkey, hfind]
    rfl

theorem typeOf_eq_of_isOf {descriptor : Value} {col : Column} (h : col.IsOf descriptor) :
    typeOf descriptor = col.type := by
  obtain ⟨fields, rfl, hfields⟩ := h
  exact hfields.type.symm

/-- The columns in order, each with its position. -/
def columnSlots (cols : List Column) : List Slot :=
  cols.zipIdx.map fun p => ⟨p.2, p.1.header, p.1.type⟩

theorem slotsOf_known (hc : Coded c.list) {picked : List (Value × Column)}
    (hpicked : ∀ p ∈ picked, p.2 ∈ c.list ∧ p.2.IsOf p.1) :
    slotsOf (some c) (picked.map (·.1)) = .ok (columnSlots (picked.map (·.2))) := by
  have hkeys : (picked.map (·.1)).mapM (keyOf (some c)) =
      .ok (picked.map fun p => some p.2.header) := by
    rw [List.mapM_map]
    exact mapM_eq_pure fun p hp => keyOf_descriptor_eq hc (hpicked p hp).1 (hpicked p hp).2
  rw [slotsOf, hkeys]
  refine congrArg Except.ok ?_
  rw [columnSlots, List.zip_map', List.zipIdx_map, List.zipIdx_map, List.filterMap_map, List.map_map,
    ← List.filterMap_eq_map]
  refine List.filterMap_congr fun p hp => ?_
  have hmem := List.fst_mem_of_mem_zipIdx hp
  exact congrArg (fun type => some (Slot.mk p.2 p.1.2.header type))
    (typeOf_eq_of_isOf (hpicked p.1 hmem).2)

/-! ## Records -/

/-- The cell of a row at a position; a row that is too short has none there. -/
def cellIn (row : Value) (position : Nat) : Value :=
  match cellsOf row with
  | .list cells => cells.getD position .null
  | _ => .null

/-- A row whose cells are a list, or that has none. -/
def IsCellRow (row : Value) : Prop :=
  (cellsOf row).isBlank = true ∨ ∃ cells, cellsOf row = .list cells

/-- The value of a cell that can be decoded. -/
def decoded (cell : Value) (type : TypeTag) : Value := ((decodeCell cell type).outcome.toOption).getD .null

/-- The values of a row's cells under the headers of the columns, in order. -/
def recordIn (cols : List Column) (row : Value) : Record :=
  cols.zipIdx.map fun p => (p.1.header, decoded (cellIn row p.2) p.1.type)

theorem cellAt_eq {row : Value} (h : IsCellRow row) (position : Nat) :
    cellAt (cellsOf row) position = .ok (cellIn row position) := by
  unfold IsCellRow at h
  unfold cellAt cellIn
  generalize cellsOf row = cells at h ⊢
  cases cells with
  | list items =>
    cases items with
    | nil => rfl
    | cons item rest => rfl
  | _ => rw [if_pos (h.resolve_right nofun)]

/-- What a cell is decoded to does not depend on the notes before. -/
theorem gives_decoded {cell : Value} {type : TypeTag}
    (h : ∃ v, (decodeCell cell type).outcome = .ok v) :
    (decodeCell cell type).Gives (.ok (decoded cell type)) := by
  obtain ⟨v, hv⟩ := h
  have hvalue : decoded cell type = v := by
    rw [decoded, hv]
    rfl
  have hgives : ∃ e, (decodeCell cell type).Gives e := by
    cases cell with
    | mapping fields =>
      have hfails : (decodeCell (.mapping fields) type).FailsIff _ := failsIff_decodeCell fields
      rcases hfails with ⟨⟨a, ha⟩, -⟩ | ⟨⟨fault, hfault⟩, -⟩
      · exact ⟨_, ha⟩
      · exact ⟨_, hfault⟩
    | _ => exact ⟨_, Noted.gives_pure _⟩
  obtain ⟨e, he⟩ := hgives
  rw [hvalue, ← hv, he.outcome]
  exact he

/-- Headers that differ keep the order of the columns. -/
theorem ofList_recordIn {cols : List Column}
    (h : cols.Pairwise fun a b => a.header.equals b.header = false) (row : Value) :
    Entries.ofList (recordIn cols row) = recordIn cols row := by
  apply Entries.ofList_of_pairwise
  have hnames : (recordIn cols row).map (·.1) = cols.map (·.header) := by
    rw [recordIn, List.map_map]
    change cols.zipIdx.map ((·.header) ∘ Prod.fst) = _
    rw [← List.map_map, List.zipIdx_map_fst]
  rw [← List.pairwise_map (f := fun p : Value × Value => p.1) (R := fun a b => a.equals b = false),
    hnames]
  exact List.pairwise_map.mpr h

/-- A row whose cells can be decoded has the record of its values. -/
theorem gives_recordOf {cols : List Column} {row : Value}
    (hheaders : cols.Pairwise fun a b => a.header.equals b.header = false) (hrow : IsCellRow row)
    (hdecoded : ∀ p ∈ cols.zipIdx, ∃ v, (decodeCell (cellIn row p.2) p.1.type).outcome = .ok v) :
    (recordOf (columnSlots cols) row).Gives (.ok (recordIn cols row)) := by
  have hfold : (columnSlots cols).foldl (fun record slot =>
      Entries.insert record slot.key (decoded (cellIn row slot.position) slot.type)) [] =
      Entries.ofList (recordIn cols row) := by
    rw [columnSlots, recordIn, Entries.ofList, List.foldl_map, List.foldl_map]
  rw [← ofList_recordIn hheaders row, ← hfold]
  refine Noted.gives_foldlM (fun slot hslot record => ?_) []
  obtain ⟨p, hp, rfl⟩ := List.mem_map.mp hslot
  rw [cellAt_eq hrow]
  refine (Noted.gives_liftExcept _).bind_ok ?_
  exact (gives_decoded (hdecoded p hp)).bind_ok (Noted.gives_pure _)

/-! ## Answers -/

/-- An answer with these warnings that is no error, and whose table has these columns and rows. -/
def HasTable (answer : Value) (cols rows warnings : List Value) : Prop :=
  ∃ payload table, Envelope.unwrap answer = .ok payload ∧
    (Value.get payload "warnings").eachGiven = .ok warnings ∧
    Value.get payload "table" = .mapping table ∧ Value.get table "cols" = .list cols ∧
    Value.get table "rows" = .list rows

theorem gives_parse {columns : Option Columns} {answer : Value} {payload : Entries Value}
    {warnings : List Value} {records : List Record} (hunwrap : Envelope.unwrap answer = .ok payload)
    (hwarnings : (Value.get payload "warnings").eachGiven = .ok warnings)
    (hrecords : (tableRecords columns (Value.get payload "table")).Gives (.ok records)) :
    (parse columns answer).Gives (.ok ⟨records, warnings⟩) := by
  have hanswer : (tableRecords columns (Value.get payload "table") >>= fun records =>
      (pure ⟨records, warnings⟩ : Noted Answer)).Gives (.ok ⟨records, warnings⟩) :=
    hrecords.bind_ok (Noted.gives_pure _)
  rw [parse, hunwrap]
  refine (Noted.gives_liftExcept _).bind_ok ?_
  rw [hwarnings]
  refine (Noted.gives_liftExcept _).bind_ok ?_
  split
  · exact (Noted.gives_note _ _).bind_ok hanswer
  · exact hanswer

namespace HasTable

variable {answer : Value} {cols rows warnings : List Value} {columns : Option Columns}

/-- The columns that are known from an answer are those of its table. -/
theorem ofAnswer_eq (h : HasTable answer cols rows warnings) (identifier : Value) :
    Columns.ofAnswer answer identifier = Columns.ofDescriptors cols identifier := by
  obtain ⟨payload, table, hunwrap, -, htable, hget, -⟩ := h
  have hdescriptors : Columns.descriptorsOf payload = .ok cols := by
    rw [Columns.descriptorsOf, htable]
    cases table with
    | nil => cases hget
    | cons e rest =>
      dsimp only [Value.isBlank, List.isEmpty_cons]
      rw [hget]
      cases cols <;> rfl
  rw [Columns.ofAnswer, hunwrap]
  change Columns.descriptorsOf payload >>= (Columns.ofDescriptors · identifier) = _
  rw [hdescriptors]
  rfl

/-- An answer with columns gives the records of its rows. -/
theorem gives_parse (h : HasTable answer cols rows warnings) {slots : List Slot}
    {records : List Record} (hcols : cols ≠ []) (hslots : slotsOf columns cols = .ok slots)
    (hrecords : (rows.mapM (recordOf slots)).Gives (.ok records)) :
    (parse columns answer).Gives (.ok ⟨records, warnings⟩) := by
  obtain ⟨payload, table, hunwrap, hwarnings, htable, hget, hrows⟩ := h
  refine Response.gives_parse hunwrap hwarnings ?_
  have hblank : (Value.mapping table).isBlank = false := by
    cases table with
    | nil => cases hget
    | cons e rest => rfl
  have hgiven : (Value.list cols).isBlank = false := by simpa [Value.isBlank] using hcols
  rw [htable, tableRecords, hblank, if_neg Bool.false_ne_true]
  dsimp only
  rw [hget, hrows, hgiven, Bool.false_or]
  cases rows with
  | nil =>
    cases hrecords []
    exact Noted.gives_pure []
  | cons row rest =>
    rw [recordsOf, eachGiven_list, eachGiven_list]
    refine (Noted.gives_liftExcept _).bind_ok ?_
    rw [hslots]
    exact (Noted.gives_liftExcept _).bind_ok ((Noted.gives_liftExcept _).bind_ok hrecords)

/-- An answer without columns has no records, whatever rows it has. -/
theorem gives_parse_nil (h : HasTable answer [] rows warnings) :
    (parse columns answer).Gives (.ok ⟨[], warnings⟩) := by
  obtain ⟨payload, table, hunwrap, hwarnings, htable, hget, -⟩ := h
  refine Response.gives_parse hunwrap hwarnings ?_
  rw [htable, tableRecords]
  dsimp only
  rw [hget]
  split <;> exact Noted.gives_pure []

end HasTable

/-- Some of the columns in any order have headers that differ. -/
theorem pairwise_of_subperm {columns cols : List Column} (hc : Distinct columns)
    (h : cols.Subperm columns) : cols.Pairwise fun a b => a.header.equals b.header = false := by
  have hsymm : columns.Pairwise fun a b =>
      a.header.equals b.header = false ∧ b.header.equals a.header = false := by
    refine hc.headers.imp_of_mem fun {a b} _ hb hne => ⟨hne, Bool.eq_false_iff.mpr fun heq => ?_⟩
    rw [Value.equals_symm (hc.keys b hb) heq] at hne
    cases hne
  obtain ⟨sub, hperm, hsub⟩ := h
  exact ((hperm.pairwise_iff And.symm).mp (hsymm.sublist hsub)).imp And.left

/-- An answer over some of the known columns, in any order, is decoded to one record for each row: under
the headers that the known columns give to them, and in the order of the answer, stand the values of
the row's cells. An answer over none of them has no records, whatever its rows are. -/
theorem parse_projected {descriptors : List Value} {identifier : Value} {c : Columns}
    (hread : Columns.ofDescriptors descriptors identifier = .ok c)
    (hcodes : c.list.Pairwise fun a b => a.code.equals b.code = false)
    {picked : List (Value × Column)} (hpicked : picked.Subperm (descriptors.zip c.list))
    {answer : Value} {rows warnings : List Value}
    (hanswer : HasTable answer (picked.map (·.1)) rows warnings) :
    (picked ≠ [] → (∀ row ∈ rows, IsCellRow row) →
      (∀ row ∈ rows, ∀ p ∈ (picked.map (·.2)).zipIdx,
        ∃ v, (decodeCell (cellIn row p.2) p.1.type).outcome = .ok v) →
      (parse (some c) answer).Gives (.ok ⟨rows.map (recordIn (picked.map (·.2))), warnings⟩)) ∧
    (picked = [] → (parse (some c) answer).Gives (.ok ⟨[], warnings⟩)) := by
  constructor
  · intro hne hrows hdecoded
    have hc := coded_ofDescriptors hread hcodes
    have hforall := Columns.forall₂_ofDescriptors hread
    have hknown : ∀ p ∈ picked, p.2 ∈ c.list ∧ p.2.IsOf p.1 := by
      intro p hp
      have hzip := hpicked.subset hp
      exact ⟨(List.of_mem_zip hzip).2, (List.forall₂_iff_zip.mp hforall).2 hzip⟩
    have hcolumns : (picked.map (·.2)).Subperm c.list := by
      obtain ⟨sub, hperm, hsub⟩ := hpicked
      have hsnd := hsub.map Prod.snd
      rw [List.map_snd_zip hforall.length_eq.ge] at hsnd
      exact ⟨sub.map Prod.snd, hperm.map _, hsnd⟩
    have hheaders := pairwise_of_subperm hc.toDistinct hcolumns
    refine hanswer.gives_parse (by simpa using hne) (slotsOf_known hc hknown) ?_
    exact Noted.gives_mapM fun row hrow => gives_recordOf hheaders (hrows row hrow) (hdecoded row hrow)
  · rintro rfl
    exact hanswer.gives_parse_nil

/-- Three columns, of which the second one has no label. -/
def booked : Columns :=
  ⟨[⟨.text "Name", .text "A", .string⟩, ⟨.text "B", .text "B", .date⟩, ⟨.text "Age", .text "C", .number⟩],
    .text "id"⟩

/-- The second and the first column. -/
def bookedColumns : List Json.Document := [
  .object [("id", .text "B"), ("label", .text ""), ("type", .text "date")],
  .object [("id", .text "A"), ("label", .text " Name "), ("type", .text "string")]]

/-- A row that is too long, one that is too short, and one with a null cell. -/
def bookedRows : List Json.Document := [
  .object [("c", .list
    [.object [("v", .text "Date(2024,1,29,23,59,59,250)")], .object [("v", .text "Ann")], .null])],
  .object [("c", .list [.object [("v", .text "2024-01"), ("f", .text "soon")]])],
  .object [("c", .list [.null, .object [("v", .text "Bob")]])]]

/-- The answer with a table of columns and rows. -/
def tableAnswer (cols rows : List Json.Document) : Value :=
  .text (opening ++ .char '(' :: ((Json.Document.object [("status", .text "ok"),
    ("table", .object [("cols", .list cols), ("rows", .list rows)])]).write ++ .char ')' :: ";"))

theorem hasTable_tableAnswer (cols rows : List Json.Document) :
    HasTable (tableAnswer cols rows) (Json.Document.values cols) (Json.Document.values rows) [] := by
  have hopening : .char '(' ∉ opening := by decide
  have hclosing : .char ')' ∉ (";" : Text) := by decide
  let table : Entries Value := [(.text "cols", .list (Json.Document.values cols)),
    (.text "rows", .list (Json.Document.values rows))]
  refine ⟨[(.text "status", .text "ok"), (.text "table", .mapping table)], table, ?_, rfl, rfl, rfl, rfl⟩
  rw [tableAnswer, Envelope.unwrap, Envelope.framed?_append hopening hclosing]
  dsimp only
  rw [Json.Document.read?_write]
  rfl

/-- One answer has two of the three columns, in the other order, and one has none of them. -/
theorem parse_projected_booked :
    let picked := [(Columns.described "B" "" "date", (⟨.text "B", .text "B", .date⟩ : Column)),
      (Columns.described "A" " Name " "string", ⟨.text "Name", .text "A", .string⟩)]
    let descriptors := [Columns.described "A" " Name " "string", Columns.described "B" "" "date",
      Columns.described "C" "Age" "number"]
    Columns.ofDescriptors descriptors (.text "id") = .ok booked ∧
    booked.list.Pairwise (fun a b => a.code.equals b.code = false) ∧
    picked.Subperm (descriptors.zip booked.list) ∧ picked ≠ [] ∧
    HasTable (tableAnswer bookedColumns bookedRows) (picked.map (·.1))
      (Json.Document.values bookedRows) [] ∧
    (∀ row ∈ Json.Document.values bookedRows, IsCellRow row) ∧
    (∀ row ∈ Json.Document.values bookedRows, ∀ p ∈ (picked.map (·.2)).zipIdx,
      ∃ v, (decodeCell (cellIn row p.2) p.1.type).outcome = .ok v) ∧
    (parse (some booked) (tableAnswer bookedColumns bookedRows)).Gives (.ok ⟨[
      [(.text "B", .moment leapDay), (.text "Name", .text "Ann")],
      [(.text "B", .text "soon"), (.text "Name", .null)],
      [(.text "B", .null), (.text "Name", .text "Bob")]], []⟩) ∧
    (parse (some booked) (tableAnswer [] bookedRows)).Gives (.ok ⟨[], []⟩) := by
  intro picked descriptors
  have hread : Columns.ofDescriptors descriptors (.text "id") = .ok booked := rfl
  have hcodes : booked.list.Pairwise fun a b => a.code.equals b.code = false := by decide
  have hpicked : picked.Subperm (descriptors.zip booked.list) :=
    ⟨_, List.Perm.swap _ _ _, ((List.nil_sublist _).cons_cons _).cons_cons _⟩
  have hanswer : HasTable (tableAnswer bookedColumns bookedRows) (picked.map (·.1))
      (Json.Document.values bookedRows) [] := hasTable_tableAnswer bookedColumns bookedRows
  have hrows : ∀ row ∈ Json.Document.values bookedRows, IsCellRow row := by
    refine List.forall_mem_cons.mpr ⟨Or.inr ⟨_, rfl⟩, List.forall_mem_cons.mpr ⟨Or.inr ⟨_, rfl⟩, ?_⟩⟩
    exact List.forall_mem_singleton.mpr (Or.inr ⟨_, rfl⟩)
  have hdecoded : ∀ row ∈ Json.Document.values bookedRows, ∀ p ∈ (picked.map (·.2)).zipIdx,
      ∃ v, (decodeCell (cellIn row p.2) p.1.type).outcome = .ok v := by
    have hok : ∀ row ∈ Json.Document.values bookedRows, ∀ p ∈ (picked.map (·.2)).zipIdx,
        (decodeCell (cellIn row p.2) p.1.type).outcome.isOk = true := by decide +kernel
    intro row hrow p hp
    have h := hok row hrow p hp
    cases hout : (decodeCell (cellIn row p.2) p.1.type).outcome with
    | ok v => exact ⟨v, rfl⟩
    | error fault =>
      rw [hout] at h
      cases h
  refine ⟨hread, hcodes, hpicked, nofun, hanswer, hrows, hdecoded, ?_, ?_⟩
  · exact (parse_projected hread hcodes hpicked hanswer).1 nofun hrows hdecoded
  · exact (parse_projected hread hcodes List.nil_subperm (hasTable_tableAnswer [] bookedRows)).2 rfl

/-- A row whose cells no column names gives no record, not even an empty one. -/
theorem parse_drops_rows_without_columns :
    let descriptors := [Columns.described "A" " Name " "string", Columns.described "B" "" "date",
      Columns.described "C" "Age" "number"]
    Columns.ofDescriptors descriptors (.text "id") = .ok booked ∧
    booked.list.Pairwise (fun a b => a.code.equals b.code = false) ∧
    ([] : List (Value × Column)).Subperm (descriptors.zip booked.list) ∧
    HasTable (tableAnswer [] bookedRows) [] (Json.Document.values bookedRows) [] ∧
    (parse (some booked) (tableAnswer [] bookedRows)).outcome = .ok ⟨[], []⟩ ∧
    (parse (some booked) (tableAnswer [] bookedRows)).outcome ≠
      .ok ⟨(Json.Document.values bookedRows).map (recordIn []), []⟩ := by
  intro descriptors
  have hanswer := hasTable_tableAnswer [] bookedRows
  have hparse : (parse (some booked) (tableAnswer [] bookedRows)).outcome = .ok ⟨[], []⟩ :=
    hanswer.gives_parse_nil.outcome
  refine ⟨rfl, by decide, List.nil_subperm, hanswer, hparse, fun h => ?_⟩
  rw [hparse] at h
  cases h

end Response

end RowStore
