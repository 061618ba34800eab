import RowStore.Proofs.Response.Cells
import RowStore.Proofs.Value.Entries
import RowStore.Response.Records

/-!
# Answers written and decoded

* `Labelled`, `Encoded` : columns and rows as the query service describes them; `Encoded.payload` is
  the document that it sends;
* `framed?_append` : a text between parentheses is found, whatever is in it;
* `recordOf_row` : a row is decoded to the labels of the columns with its values;
* `parse_framed` : a framed payload is decoded to one record for each row.
-/

namespace RowStore

namespace Envelope

/-- Neither an opening parenthesis before nor a closing one after it: the text in between is found. -/
theorem framed?_append {before after : Text} (hbefore : .char '(' ∉ before)
    (hafter : .char ')' ∉ after) (t : Text) :
    framed? (before ++ .char '(' :: (t ++ .char ')' :: after)) = some t := by
  have hopen : ∀ q ∈ before, decide (q ≠ .char '(') = true := by
    intro q hq
    exact decide_eq_true (ne_of_mem_of_not_mem hq hbefore)
  have hclose : ∀ q ∈ after.reverse, decide (q ≠ .char ')') = true := by
    intro q hq
    exact decide_eq_true (ne_of_mem_of_not_mem (List.mem_reverse.mp hq) hafter)
  have hstart : (before ++ .char '(' :: (t ++ .char ')' :: after)).dropWhile (· ≠ .char '(') =
      .char '(' :: (t ++ .char ')' :: after) := (span_append hopen (by simp)).2
  have hend : (t ++ CodePoint.char ')' :: after).reverse.dropWhile (· ≠ .char ')') =
      .char ')' :: t.reverse := by
    rw [List.reverse_append, List.reverse_cons, List.append_assoc, List.singleton_append]
    exact (span_append hclose (by simp)).2
  rw [framed?, hstart]
  dsimp only
  rw [hend]
  dsimp only
  rw [List.reverse_reverse]

end Envelope

namespace Response

open Json

/-! ## Columns and rows -/

/-- A column with a label. -/
structure Labelled where
  code : Str
  label : Str
  type : Str
  label_ne : label.text ≠ []
  trimmed : Text.trim label.text = label.text

namespace Labelled

def tag (c : Labelled) : TypeTag := TypeTag.ofName c.type.text

/-- The name of the column's values in a record. -/
def key (c : Labelled) : Value := .text c.label.text

def descriptor (c : Labelled) : Document :=
  .object [("id", .text c.code), ("label", .text c.label), ("type", .text c.type)]

end Labelled

/-- Columns with different labels, and rows that have a value for each of them. -/
structure Encoded where
  columns : List Labelled
  rows : List (List Datum)
  columns_ne : columns ≠ []
  labels_nodup : (columns.map fun c => c.label.text).Nodup
  suits : ∀ row ∈ rows, List.Forall₂ (fun c (d : Datum) => d.Suits c.tag) columns row

/-- A row in a document. -/
def rowDocument (row : List Datum) : Document := .object [("c", .list (row.map Datum.cell))]

namespace Encoded

def table (e : Encoded) : Document :=
  .object [("cols", .list (e.columns.map Labelled.descriptor)),
    ("rows", .list (e.rows.map rowDocument))]

/-- The document that the query service sends. -/
def payload (e : Encoded) : Document := .object [("status", .text "ok"), ("table", e.table)]

/-- The labels of the columns with the values of each row. -/
def records (e : Encoded) : List Record :=
  e.rows.map fun row => (e.columns.map Labelled.key).zip (row.map Datum.value)

end Encoded

/-! ## Descriptors -/

theorem value_descriptor (c : Labelled) : c.descriptor.value = .mapping [(.text "id", .text c.code.text),
    (.text "label", .text c.label.text), (.text "type", .text c.type.text)] := rfl

theorem keyOf_descriptor (columns : Option Columns) (c : Labelled) :
    keyOf columns c.descriptor.value = .ok (some c.key) := by
  have hempty : c.label.text.isEmpty = false := by simpa using c.label_ne
  have hlabel : Columns.labelText (.text c.label.text) = .ok c.label.text := by
    rw [Columns.labelText, Value.isBlank, hempty, if_neg Bool.false_ne_true]
    exact congrArg Except.ok c.trimmed
  have hget : Value.get [(.text "id", .text c.code.text), (.text "label", .text c.label.text),
      (.text "type", .text c.type.text)] "label" = .text c.label.text := rfl
  rw [value_descriptor, keyOf.eq_def]
  dsimp only
  rw [hget, hlabel]
  change (if !c.label.text.isEmpty then _ else _) = _
  rw [hempty]
  rfl

/-- The columns in order, each with its position. -/
def slots (first : Nat) (cs : List Labelled) : List Slot :=
  (cs.zipIdx first).map fun p => ⟨p.2, p.1.key, p.1.tag⟩

theorem slotsOf_descriptors (columns : Option Columns) (cs : List Labelled) :
    slotsOf columns (cs.map fun c => c.descriptor.value) = .ok (slots 0 cs) := by
  have hkeys : (cs.map fun c => c.descriptor.value).mapM (keyOf columns) =
      .ok (cs.map fun c => some c.key) := by
    rw [List.mapM_map]
    exact mapM_eq_pure fun c _ => keyOf_descriptor columns c
  rw [slotsOf, hkeys]
  refine congrArg Except.ok ?_
  rw [List.zip_map', List.zipIdx_map, List.filterMap_map]
  exact congrFun List.filterMap_eq_map' _

/-! ## Records -/

/-- The value of a cell's place in a list of cells. -/
theorem cellAt_list {cells : List Value} {k : Nat} {v : Value} {rest : List Value}
    (h : cells.drop k = v :: rest) : cellAt (.list cells) k = .ok v := by
  have hk : cells[k]? = some v := by
    rw [← List.head?_drop, h]
    rfl
  have hempty : cells.isEmpty = false := by
    cases cells with
    | nil => cases hk
    | cons _ _ => rfl
  rw [cellAt, Value.isBlank, hempty, if_neg Bool.false_ne_true]
  rw [List.getD_eq_getElem?_getD, hk]
  rfl

/-- The cells of a row are inserted one after another under the labels of their columns. -/
theorem insert_cells {cells : List Value} {cs : List Labelled} {ds : List Datum}
    (h : List.Forall₂ (fun c (d : Datum) => d.Suits c.tag) cs ds) (k : Nat)
    (hcells : cells.drop k = ds.map fun d => d.cell.value) (record : Record) :
    ((slots k cs).foldlM (fun (record : Record) slot => do
      let cell ← cellAt (.list cells) slot.position
      let v ← decodeCell cell slot.type
      return record.insert slot.key v) record : Noted Record).Gives
      (.ok (((cs.map Labelled.key).zip (ds.map Datum.value)).foldl
        (fun entries p => entries.insert p.1 p.2) record)) := by
  induction h generalizing k record with
  | nil => exact Noted.gives_pure record
  | @cons c d cs ds hd _ ih =>
    have hcell : (liftM (cellAt (.list cells) k) : Noted Value).Gives (.ok d.cell.value) :=
      cellAt_list hcells ▸ Noted.gives_liftExcept _
    have hrest : cells.drop (k + 1) = ds.map fun d => d.cell.value := by
      rw [← List.drop_drop, hcells]
      rfl
    have hslots : slots k (c :: cs) = ⟨k, c.key, c.tag⟩ :: slots (k + 1) cs := rfl
    rw [hslots, List.foldlM_cons]
    refine Noted.Gives.bind_ok ?_ (ih (k + 1) hrest _)
    exact hcell.bind_ok ((decodeCell_cell d hd).bind_ok (Noted.gives_pure _))

/-- Different labels stay where they are. -/
theorem ofList_keys {cs : List Labelled} {values : List Value}
    (hlabels : (cs.map fun c => c.label.text).Nodup) (hlength : cs.length = values.length) :
    Entries.ofList ((cs.map Labelled.key).zip values) = (cs.map Labelled.key).zip values := by
  apply Entries.ofList_of_pairwise
  have hnames : (((cs.map Labelled.key).zip values).map fun p => p.1) = cs.map Labelled.key :=
    List.map_fst_zip (by rw [List.length_map, hlength])
  rw [← List.pairwise_map (f := fun p : Value × Value => p.1)
    (R := fun a b => a.equals b = false), hnames, List.pairwise_map]
  refine (List.pairwise_map.mp hlabels).imp fun hne => ?_
  exact beq_false_of_ne hne

/-- A row is decoded to the labels of the columns with its values. -/
theorem recordOf_row {cs : List Labelled} {row : List Datum}
    (hlabels : (cs.map fun c => c.label.text).Nodup)
    (h : List.Forall₂ (fun c (d : Datum) => d.Suits c.tag) cs row) :
    (recordOf (slots 0 cs) (rowDocument row).value).Gives
      (.ok ((cs.map Labelled.key).zip (row.map Datum.value))) := by
  have hcells : cellsOf (rowDocument row).value = .list (row.map fun d => d.cell.value) := by
    change Value.list (Document.values _) = _
    rw [Document.values_eq_map, List.map_map]
    rfl
  have hlength : cs.length = (row.map Datum.value).length := by
    rw [List.length_map, h.length_eq]
  rw [recordOf, hcells, ← ofList_keys hlabels hlength]
  exact insert_cells h 0 rfl []

/-! ## Answers -/

theorem eachGiven_list (items : List Value) : (Value.list items).eachGiven = .ok items := by
  cases items with
  | nil => rfl
  | cons v rest => rfl

namespace Encoded

variable (e : Encoded)

theorem value_table : e.table.value = .mapping
    [(.text "cols", .list (e.columns.map fun c => c.descriptor.value)),
      (.text "rows", .list (e.rows.map fun row => (rowDocument row).value))] := by
  change Value.mapping [(.text "cols", .list (Document.values _)),
    (.text "rows", .list (Document.values _))] = _
  rw [Document.values_eq_map, Document.values_eq_map, List.map_map, List.map_map]
  rfl

theorem value_payload : e.payload.value =
    .mapping [(.text "status", .text "ok"), (.text "table", e.table.value)] := rfl

theorem recordsOf_table (columns : Option Columns) :
    (recordsOf columns (.list (e.columns.map fun c => c.descriptor.value))
      (.list (e.rows.map fun row => (rowDocument row).value))).Gives (.ok e.records) := by
  have hslots := slotsOf_descriptors columns e.columns
  have hrows : ((e.rows.map fun row => (rowDocument row).value).mapM
      (recordOf (slots 0 e.columns))).Gives (.ok e.records) := by
    rw [List.mapM_map]
    exact Noted.gives_mapM fun row hrow => recordOf_row e.labels_nodup (e.suits row hrow)
  have hcols := eachGiven_list (e.columns.map fun c => c.descriptor.value)
  have hitems := eachGiven_list (e.rows.map fun row => (rowDocument row).value)
  rw [recordsOf, hcols, hitems]
  refine (Noted.gives_liftExcept _).bind_ok ?_
  rw [hslots]
  refine (Noted.gives_liftExcept _).bind_ok ?_
  exact (Noted.gives_liftExcept _).bind_ok hrows

/-- The records of a table that may have no rows. -/
theorem tableRecords_table (columns : Option Columns) :
    (tableRecords columns e.table.value).Gives (.ok e.records) := by
  have hcols : (e.columns.map fun c => c.descriptor.value).isEmpty = false := by
    simpa using e.columns_ne
  rw [e.value_table]
  change Noted.Gives (if (List.isEmpty _ || List.isEmpty _) then pure [] else _) _
  rw [hcols, Bool.false_or]
  split
  · rename_i hrows
    have hnil : e.rows = [] := by simpa using hrows
    rw [records, hnil]
    exact Noted.gives_pure []
  · exact e.recordsOf_table columns

theorem unwrap_framed {before after : Text} (hbefore : .char '(' ∉ before)
    (hafter : .char ')' ∉ after) :
    Envelope.unwrap (.text (before ++ .char '(' :: (e.payload.write ++ .char ')' :: after))) =
      .ok [(.text "status", .text "ok"), (.text "table", e.table.value)] := by
  rw [Envelope.unwrap, Envelope.framed?_append hbefore hafter]
  dsimp only
  rw [Document.read?_write, e.value_payload]
  rfl

/-- What was encoded is decoded, whatever stands around the payload and whatever columns are known. -/
theorem parse_framed (columns : Option Columns) {before after : Text}
    (hbefore : .char '(' ∉ before) (hafter : .char ')' ∉ after) :
    (parse columns (.text (before ++ .char '(' :: (e.payload.write ++ .char ')' :: after)))).Gives
      (.ok ⟨e.records, []⟩) := by
  rw [parse, e.unwrap_framed hbefore hafter]
  refine (Noted.gives_liftExcept _).bind_ok ?_
  refine (Noted.gives_liftExcept _).bind_ok ?_
  change Noted.Gives
    (tableRecords columns e.table.value >>= fun records => (pure ⟨records, []⟩ : Noted Answer)) _
  exact (e.tableRecords_table columns).bind_ok (Noted.gives_pure _)

end Encoded

/-- A column whose code is its label. -/
def guestColumn (label type : Str) (hlabel : label.text ≠ [])
    (htrim : Text.trim label.text = label.text) : Labelled := ⟨label, label, type, hlabel, htrim⟩

/-- The last second of a leap day. -/
def leapDay : Moment :=
  ⟨⟨2024, 2, 29, by decide, by decide, by decide, by decide, by decide, by decide⟩,
    ⟨23, 59, 59, 250000, by decide, by decide, by decide, by decide⟩⟩

/-- Guests with their arrival and their breakfast; a name looks like the end of an answer. -/
def guests : Encoded where
  columns := [guestColumn "Name" "string" (by decide) (by decide),
    guestColumn "Arrival" "datetime" (by decide) (by decide),
    guestColumn "Breakfast" "timeofday" (by decide) (by decide)]
  rows := [[.text "O'Neil \"Ö\")", .moment leapDay rfl,
      .clock ⟨7, 5, 0, 0, by decide, by decide, by decide, by decide⟩],
    [.int (3 : Nat) (hasNumeral_of_lt (by decide)), .null, .null]]
  columns_ne := by decide
  labels_nodup := by decide
  suits := by
    have hstring : TypeTag.ofName "string" = .string := TypeTag.ofName_name .string
    have hdatetime : TypeTag.ofName "datetime" = .datetime := TypeTag.ofName_name .datetime
    have htime : TypeTag.ofName "timeofday" = .timeofday := TypeTag.ofName_name .timeofday
    have hplain : ∀ tag, tag = TypeTag.string → tag ≠ .date ∧ tag ≠ .datetime ∧ tag ≠ .timeofday := by
      rintro _ rfl
      decide
    simp only [List.forall_mem_cons]
    refine ⟨?_, ?_, fun _ h => absurd h List.not_mem_nil⟩
    · exact .cons (hplain _ hstring) (.cons (Or.inr hdatetime) (.cons htime .nil))
    · exact .cons (hplain _ hstring) (.cons trivial (.cons trivial .nil))

/-- What stands before the payload. -/
def opening : Text := "/*O_o*/setResponse"

theorem parse_framed_guests :
    .char '(' ∉ opening ∧ .char ')' ∉ (";" : Text) ∧
      (parse none (.text (opening ++ .char '(' :: (guests.payload.write ++ .char ')' :: ";")))).Gives
        (.ok ⟨[[(.text "Name", .text "O'Neil \"Ö\")"), (.text "Arrival", .moment leapDay),
            (.text "Breakfast", .text "07:05:00")],
          [(.text "Name", .int 3), (.text "Arrival", .null), (.text "Breakfast", .null)]], []⟩) := by
  have hopening : .char '(' ∉ opening := by decide
  have hclosing : .char ')' ∉ (";" : Text) := by decide
  exact ⟨hopening, hclosing, guests.parse_framed none hopening hclosing⟩

end Response

end RowStore
