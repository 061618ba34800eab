import RowStore.Frame
import RowStore.Proofs.Fault.Outcome
import RowStore.Proofs.Number.Rational
import RowStore.Proofs.Value.Entries

/-!
# What a frame shows

A frame has one row for each record and one column for each name, and neither loses nor repeats any of them.

* `Value.AreNames` : values that may name entries and of which no two are equal, `Value.AreTexts` : texts among them;
* `Frame.firsts` : the names of a list that no name before them equals, `firstSeen_eq_firsts`;
* `Frame.Lawful` : what a package of data frames is known for, `Frame.Keeps` : what it keeps of a value;
* `Frame.Shows` : how the labels and the cells of a data frame follow from the records and the headers;
* `Frame.ofValue_shows` : the data frame of records shows them.
-/

namespace RowStore

/-- Values that may name entries, no two of them equal: the names of a mapping, or headers. -/
structure Value.AreNames (names : List Value) : Prop where
  isKey : ∀ name ∈ names, name.isKey = true
  distinct : names.Pairwise fun a b => a.equals b = false

/-- Texts, no two of them equal. -/
structure Value.AreTexts (names : List Value) : Prop where
  isText : ∀ name ∈ names, ∃ t, name = .text t
  nodup : names.Nodup

theorem Value.equals_iff_of_texts {a b : Value} (ha : ∃ t, a = .text t) (hb : ∃ t, b = .text t) :
    a.equals b = true ↔ a = b := by
  obtain ⟨t, rfl⟩ := ha
  obtain ⟨u, rfl⟩ := hb
  rw [Value.equals, beq_iff_eq, Value.text.injEq]

theorem Value.AreTexts.of_map {ts : List Text} (h : ts.Nodup) : AreTexts (ts.map .text) where
  isText name hname := by
    obtain ⟨t, -, rfl⟩ := List.mem_map.mp hname
    exact ⟨t, rfl⟩
  nodup := List.Pairwise.map Value.text (fun _ _ hne heq => hne (Value.text.inj heq)) h

theorem Value.isKey_of_isText {names : List Value} (h : ∀ name ∈ names, ∃ t, name = .text t) :
    ∀ name ∈ names, name.isKey = true := by
  intro name hname
  obtain ⟨t, rfl⟩ := h name hname
  rfl

theorem Value.AreTexts.areNames {names : List Value} (h : AreTexts names) : AreNames names where
  isKey := isKey_of_isText h.isText
  distinct := h.nodup.imp_of_mem fun ha hb hne => by
    rw [← Bool.not_eq_true, equals_iff_of_texts (h.isText _ ha) (h.isText _ hb)]
    exact hne

namespace Entries

variable {α : Type} {entries : Entries α} {k name : Value} {a : α}

/-- Equal names have the same value. -/
theorem find?_of_equals (hkeys : Value.AreNames entries.names) (hk : k.isKey = true)
    (h : k.equals name = true) : entries.find? name = entries.find? k := by
  have hsame : ∀ e ∈ entries, e.1.equals name = e.1.equals k := fun e he => by
    have hkey := hkeys.isKey e.1 (List.mem_map_of_mem he)
    exact Bool.eq_iff_iff.mpr ⟨fun h' => Value.equals_trans hkey h' (Value.equals_symm hk h),
      fun h' => Value.equals_trans hkey h' h⟩
  clear hkeys
  induction entries with
  | nil => rfl
  | cons e rest ih =>
    obtain ⟨he, hrest⟩ := List.forall_mem_cons.mp hsame
    rw [find?, find?, he, ih hrest]

theorem find?_eq_some_iff (hkeys : Value.AreNames entries.names) :
    entries.find? name = some a ↔ ∃ k, (k, a) ∈ entries ∧ k.equals name = true := by
  refine ⟨exists_of_find?, ?_⟩
  rintro ⟨k, hk, hname⟩
  have hkey := hkeys.isKey k (List.mem_map_of_mem hk)
  rw [find?_of_equals hkeys hkey hname]
  exact find?_of_mem (fun e he => hkeys.isKey e.1 (List.mem_map_of_mem he))
    (List.pairwise_map.mp hkeys.distinct) hk

end Entries

namespace Frame

variable {names headers : List Value} {name : Value} {records : List (Entries Value)}

/-! ## First occurrences -/

/-- The names at the places before which no equal name stands. -/
def firsts (names : List Value) : List Value :=
  (names.zipIdx.filter fun p => !isIn (names.take p.2) p.1).map (·.1)

theorem isIn_eq_true_iff : isIn names name = true ↔ ∃ n ∈ names, n.equals name = true := by
  rw [isIn, List.any_eq_true]

theorem isIn_eq_false_iff : isIn names name = false ↔ ∀ n ∈ names, n.equals name = false := by
  rw [isIn, List.any_eq_false]
  simp only [Bool.not_eq_true]

theorem mem_addName (names : List Value) (name : Value) {n : Value} (h : n ∈ addName names name) :
    n ∈ names ∨ n = name := by
  rw [addName] at h
  split at h
  · exact Or.inl h
  · exact (List.mem_append.mp h).imp_right List.mem_singleton.mp

theorem firstSeen_append (names : List Value) (name : Value) :
    firstSeen (names ++ [name]) = addName (firstSeen names) name := by
  rw [firstSeen, List.foldl_append]
  rfl

theorem mem_of_mem_firstSeen {n : Value} (h : n ∈ firstSeen names) : n ∈ names := by
  induction names using List.reverseRecOn with
  | nil => exact h
  | append_singleton names name ih =>
    rw [firstSeen_append] at h
    exact List.mem_append.mpr ((mem_addName _ _ h).imp ih List.mem_singleton.mpr)

theorem isIn_append (names more : List Value) (name : Value) :
    isIn (names ++ more) name = (isIn names name || isIn more name) := List.any_append

/-- A name that is left out equals an earlier one, and so equals what that one equals. -/
theorem isIn_addName (h : ∀ n ∈ names, n.isKey = true) (last name : Value) :
    isIn (addName names last) name = isIn (names ++ [last]) name := by
  rw [addName]
  split
  case isFalse => rfl
  case isTrue hin =>
    obtain ⟨n, hn, heq⟩ := isIn_eq_true_iff.mp hin
    rw [isIn_append]
    cases hlast : isIn [last] name with
    | false => rw [Bool.or_false]
    | true =>
      obtain ⟨_, hmem, hname⟩ := isIn_eq_true_iff.mp hlast
      rw [List.mem_singleton.mp hmem] at hname
      rw [isIn_eq_true_iff.mpr ⟨n, hn, Value.equals_trans (h n hn) heq hname⟩, Bool.true_or]

/-- A name that equals one of a list equals one of those seen first. -/
theorem isIn_firstSeen (h : ∀ n ∈ names, n.isKey = true) (name : Value) :
    isIn (firstSeen names) name = isIn names name := by
  induction names using List.reverseRecOn with
  | nil => rfl
  | append_singleton names last ih =>
    obtain ⟨hnames, -⟩ := List.forall_mem_append.mp h
    rw [firstSeen_append, isIn_addName fun n hn => hnames n (mem_of_mem_firstSeen hn), isIn_append,
      isIn_append, ih hnames]

theorem distinct_firstSeen (names : List Value) :
    (firstSeen names).Pairwise fun a b => a.equals b = false := by
  induction names using List.reverseRecOn with
  | nil => exact List.Pairwise.nil
  | append_singleton names name ih =>
    rw [firstSeen_append, addName]
    split
    case isTrue => exact ih
    case isFalse hnew =>
      rw [Bool.not_eq_true, isIn_eq_false_iff] at hnew
      exact List.pairwise_append.mpr ⟨ih, List.pairwise_singleton _ _, fun n hn _ hm =>
        List.mem_singleton.mp hm ▸ hnew n hn⟩

theorem firsts_append (names : List Value) (name : Value) :
    firsts (names ++ [name]) = firsts names ++ if isIn names name then [] else [name] := by
  have hfront : names.zipIdx.filter (fun p => !isIn ((names ++ [name]).take p.2) p.1) =
      names.zipIdx.filter fun p => !isIn (names.take p.2) p.1 := by
    refine List.filter_congr fun p hp => ?_
    have hlt := List.snd_lt_of_mem_zipIdx hp
    rw [List.take_append_of_le_length (by omega)]
  rw [firsts, List.zipIdx_append, List.filter_append, hfront, List.map_append, ← firsts]
  cases h : isIn names name <;> simp [h]

/-- What is seen first is what no equal name stands before. -/
theorem firstSeen_eq_firsts (h : ∀ n ∈ names, n.isKey = true) : firstSeen names = firsts names := by
  induction names using List.reverseRecOn with
  | nil => rfl
  | append_singleton names name ih =>
    obtain ⟨hnames, -⟩ := List.forall_mem_append.mp h
    rw [firstSeen_append, addName, isIn_firstSeen hnames, firsts_append, ih hnames]
    split
    · exact (List.append_nil _).symm
    · rfl

/-! ## Columns -/

/-- The columns for names that occur: the headers among them, and then the first ones of the others. -/
def columnsOf (names headers : List Value) : List Value :=
  headers.filter (isIn names) ++ (firsts names).filter fun name => !isIn headers name

/-- Columns are named by headers, or by names that occur. -/
theorem mem_of_mem_columnsOf (h : name ∈ columnsOf names headers) : name ∈ headers ∨ name ∈ names := by
  rcases List.mem_append.mp h with h | h
  · exact Or.inl (List.mem_filter.mp h).1
  · obtain ⟨p, hp, rfl⟩ := List.mem_map.mp (List.mem_filter.mp h).1
    exact Or.inr (List.fst_mem_of_mem_zipIdx (List.mem_filter.mp hp).1)

section
variable (hnames : ∀ n ∈ names, n.isKey = true) (hheaders : Value.AreNames headers)
include hheaders

/-- A header that equals a name that occurs is among the known ones. -/
theorem isIn_known (hname : name ∈ names) : isIn (headers.filter (isIn names)) name = isIn headers name := by
  rw [Bool.eq_iff_iff, isIn_eq_true_iff, isIn_eq_true_iff]
  constructor
  · rintro ⟨h, hmem, heq⟩
    exact ⟨h, (List.mem_filter.mp hmem).1, heq⟩
  · rintro ⟨h, hmem, heq⟩
    have hoccurs := isIn_eq_true_iff.mpr ⟨name, hname, Value.equals_symm (hheaders.isKey h hmem) heq⟩
    exact ⟨h, List.mem_filter.mpr ⟨hmem, hoccurs⟩, heq⟩

include hnames

theorem known_append_others : headers.filter (isIn (firstSeen names)) ++
    (firstSeen names).filter (fun name => !isIn (headers.filter (isIn (firstSeen names))) name) =
      columnsOf names headers := by
  have hknown : headers.filter (isIn (firstSeen names)) = headers.filter (isIn names) :=
    List.filter_congr fun h _ => isIn_firstSeen hnames h
  have hothers : (firstSeen names).filter (fun name => !isIn (headers.filter (isIn names)) name) =
      (firstSeen names).filter fun name => !isIn headers name :=
    List.filter_congr fun n hn => by rw [isIn_known hheaders (mem_of_mem_firstSeen hn)]
  rw [hknown, hothers, firstSeen_eq_firsts hnames, columnsOf]

/-- Every name that occurs has a column. -/
theorem isIn_columnsOf (hname : name ∈ names) : isIn (columnsOf names headers) name = true := by
  have hkey := hnames name hname
  have hseen : isIn (firstSeen names) name = true := by
    rw [isIn_firstSeen hnames]
    exact isIn_eq_true_iff.mpr ⟨name, hname, Value.equals_self hkey⟩
  obtain ⟨n, hn, heq⟩ := isIn_eq_true_iff.mp hseen
  rw [columnsOf, isIn_append, ← firstSeen_eq_firsts hnames, isIn_known hheaders hname, Bool.or_eq_true]
  cases hknown : isIn headers n with
  | true =>
    obtain ⟨h, hmem, hequals⟩ := isIn_eq_true_iff.mp hknown
    exact Or.inl (isIn_eq_true_iff.mpr ⟨h, hmem, Value.equals_trans (hheaders.isKey h hmem) hequals heq⟩)
  | false => exact Or.inr (isIn_eq_true_iff.mpr ⟨n, List.mem_filter.mpr ⟨hn, by rw [hknown]; rfl⟩, heq⟩)

/-- No two columns have equal names. -/
theorem distinct_columnsOf : (columnsOf names headers).Pairwise fun a b => a.equals b = false := by
  rw [columnsOf, ← firstSeen_eq_firsts hnames]
  refine List.pairwise_append.mpr ⟨hheaders.distinct.filter _, (distinct_firstSeen names).filter _, ?_⟩
  intro h hmem n hn
  have hother := (List.mem_filter.mp hn).2
  rw [Bool.not_eq_true'] at hother
  exact isIn_eq_false_iff.mp hother h ((List.mem_filter.mp hmem).1)

theorem nodup_columnsOf : (columnsOf names headers).Nodup := by
  refine (distinct_columnsOf hnames hheaders).imp_of_mem fun {a b} ha _ hne heq => ?_
  have hkey := (mem_of_mem_columnsOf ha).elim (hheaders.isKey a) (hnames a)
  rw [← heq, Value.equals_self hkey] at hne
  cases hne

theorem order_of_ne_nil (hne : names ≠ []) : order (firstSeen names) headers = columnsOf names headers := by
  obtain ⟨name, hname⟩ := List.exists_mem_of_ne_nil names hne
  have hin := isIn_columnsOf hnames hheaders hname
  rw [order, known_append_others hnames hheaders, if_neg]
  intro hempty
  rw [List.isEmpty_iff.mp hempty] at hin
  cases hin

end

theorem order_nil (headers : List Value) : order (firstSeen []) headers = headers := by
  have hnone : headers.filter (isIn (firstSeen [])) = [] := List.filter_eq_nil_iff.mpr fun _ _ => nofun
  rw [order, hnone]
  rfl

/-! ## Data frames -/

section
variable {D : Type} {lib : Library D} {d : D}

/-- What marks a missing cell where it is given: null, or what is not a number. -/
def IsMissing : Value → Prop
  | .null => True
  | .real (.nan _) => True
  | _ => False

/-- What a column may keep of a value that it is given. Where values of different types stand in one column, an integer
may be kept as a double, which is the nearest one if none equals it. -/
inductive Keeps : Value → Option Value → Prop
  | missing {v : Value} (h : IsMissing v) : Keeps v none
  | same {v : Value} (h : ¬ IsMissing v) : Keeps v (some v)
  | equal {v w : Value} (h : ¬ IsMissing v) (heq : w.equals v = true) : Keeps v (some w)
  | nearest {n : Int} {x : Binary64} (h : ¬ Binary64.Holds n) (hx : Binary64.ofInt? n = some x) :
      Keeps (.int n) (some (.real x))

/-- What a package of data frames is known for: rows that have as many values as there are columns make a data frame,
at least if every integer among them is in the range of the doubles; texts label their columns; and cells keep what is
given for their place. -/
structure Lawful (lib : Library D) : Prop where
  makes : ∀ rows columns, (∀ row ∈ rows, row.length = columns.length) →
    (∀ row ∈ rows, ∀ n, .int n ∈ row → (Binary64.ofInt? n).isSome = true) → ∃ d, lib.make rows columns = .ok d
  labels : ∀ rows columns d, lib.make rows columns = .ok d → (∀ name ∈ columns, ∃ t, name = .text t) →
    lib.labels d = columns
  size : ∀ rows columns d, lib.make rows columns = .ok d → columns ≠ [] → lib.size d = rows.length
  cell : ∀ rows columns d, lib.make rows columns = .ok d → ∀ i row, rows[i]? = some row → ∀ j v, row[j]? = some v →
    Keeps v (lib.cell d i j)

/-- The names of the records, in order. -/
def namesOf (records : List (Entries Value)) : List Value := records.flatMap Entries.names

/-- A data frame as its records and the headers have it. -/
structure Shows (lib : Library D) (records : List (Entries Value)) (headers : List Value) (d : D) : Prop where
  distinct : (lib.labels d).Nodup
  complete : ∀ name ∈ namesOf records, name ∈ lib.labels d
  labels : namesOf records ≠ [] → lib.labels d = columnsOf (namesOf records) headers
  fallback : namesOf records = [] → lib.labels d = headers
  size : lib.labels d ≠ [] → lib.size d = records.length
  cell : ∀ i record, records[i]? = some record → ∀ j label, (lib.labels d)[j]? = some label →
    (∀ v, (label, v) ∈ record → Keeps v (lib.cell d i j)) ∧ (label ∉ record.names → lib.cell d i j = none)

theorem Keeps.eq_none {cell : Option Value} (h : Keeps .null cell) : cell = none := by
  cases h with
  | missing => rfl
  | same h => exact absurd trivial h
  | equal h => exact absurd trivial h

theorem columns_ofRecords (hnames : ∀ n ∈ namesOf records, n.isKey = true) (hheaders : Value.AreNames headers) :
    (ofRecords records headers).columns =
      if namesOf records = [] then headers else columnsOf (namesOf records) headers := by
  change order (firstSeen (namesOf records)) headers = _
  split
  case isTrue hnone => rw [hnone, order_nil]
  case isFalse hne => exact order_of_ne_nil hnames hheaders hne

theorem isText_columns (hnames : ∀ n ∈ namesOf records, ∃ t, n = .text t) (hheaders : Value.AreTexts headers) :
    ∀ name ∈ (ofRecords records headers).columns, ∃ t, name = .text t := by
  intro name hname
  rw [columns_ofRecords (Value.isKey_of_isText hnames) hheaders.areNames] at hname
  split at hname
  case isTrue => exact hheaders.isText name hname
  case isFalse => exact (mem_of_mem_columnsOf hname).elim (hheaders.isText name) (hnames name)

/-! ## The values that are given -/

theorem getD_valueAt_of_mem {record : Entries Value} {label v : Value} (hrecord : Value.AreTexts record.names)
    (h : (label, v) ∈ record) : (valueAt record label).getD .null = v := by
  have hkey := hrecord.areNames.isKey label (List.mem_map_of_mem h)
  rw [valueAt, (Entries.find?_eq_some_iff hrecord.areNames).mpr ⟨label, h, Value.equals_self hkey⟩]
  cases v <;> rfl

theorem valueAt_of_notMem {record : Entries Value} {label : Value} (hrecord : Value.AreTexts record.names)
    (hlabel : ∃ t, label = .text t) (h : label ∉ record.names) : valueAt record label = none := by
  cases hfind : record.find? label with
  | none => rw [valueAt, hfind, Option.filter_none]
  | some v =>
    obtain ⟨k, hk, hequals⟩ := Entries.exists_of_find? hfind
    have hname := List.mem_map_of_mem (f := Prod.fst) hk
    rw [(Value.equals_iff_of_texts (hrecord.isText k hname) hlabel).mp hequals] at hname
    exact absurd hname h

theorem exists_of_getD_valueAt {record : Entries Value} {label : Value} {n : Int}
    (h : (valueAt record label).getD .null = .int n) : ∃ e ∈ record, e.2 = .int n := by
  cases hvalue : valueAt record label with
  | none =>
    rw [hvalue] at h
    cases h
  | some v =>
    rw [hvalue] at h
    obtain ⟨hfind, -⟩ := Option.filter_eq_some_iff.mp hvalue
    obtain ⟨k, hk, -⟩ := Entries.exists_of_find? hfind
    exact ⟨(k, v), hk, h⟩

theorem given_ofRecords (records : List (Entries Value)) (headers : List Value) :
    (ofRecords records headers).given = records.map fun record =>
      (ofRecords records headers).columns.map fun column => (valueAt record column).getD .null := by
  rw [given, ofRecords, List.map_map]
  exact List.map_congr_left fun record _ => List.map_map

theorem shows_of_make (hlib : Lawful lib) (hrecords : ∀ record ∈ records, Value.AreTexts record.names)
    (hheaders : Value.AreTexts headers) {f : Frame} (hf : f = ofRecords records headers)
    (hmake : lib.make f.given f.columns = .ok d) : Shows lib records headers d := by
  subst hf
  have hnames : ∀ n ∈ namesOf records, ∃ t, n = .text t := fun n hn => by
    obtain ⟨record, hrecord, hn⟩ := List.mem_flatMap.mp hn
    exact (hrecords record hrecord).isText n hn
  have hkeys := Value.isKey_of_isText hnames
  have hcolumns := columns_ofRecords hkeys hheaders.areNames
  have hlabels := hlib.labels _ _ d hmake (isText_columns hnames hheaders)
  rw [given_ofRecords] at hmake
  refine ⟨?_, fun name hname => ?_, fun hne => ?_, fun hnone => ?_, fun hne => ?_, fun i record hi j label hj => ?_⟩
  · rw [hlabels, hcolumns]
    split
    case isTrue => exact hheaders.nodup
    case isFalse => exact nodup_columnsOf hkeys hheaders.areNames
  · have hin := isIn_columnsOf hkeys hheaders.areNames hname
    obtain ⟨n, hn, hequals⟩ := isIn_eq_true_iff.mp hin
    rw [hlabels, hcolumns, if_neg (List.ne_nil_of_mem hname)]
    have htext := (mem_of_mem_columnsOf hn).elim (hheaders.isText n) (hnames n)
    exact (Value.equals_iff_of_texts htext (hnames name hname)).mp hequals ▸ hn
  · rw [hlabels, hcolumns, if_neg hne]
  · rw [hlabels, hcolumns, if_pos hnone]
  · rw [hlib.size _ _ d hmake (hlabels ▸ hne), List.length_map]
  · rw [hlabels] at hj
    have htext := isText_columns hnames hheaders label (List.mem_of_getElem? hj)
    have hrecord := hrecords record (List.mem_of_getElem? hi)
    have hcell := hlib.cell _ _ d hmake i _ (by rw [List.getElem?_map, hi]; rfl) j _
      (by rw [List.getElem?_map, hj]; rfl)
    dsimp only at hcell
    refine ⟨fun v hv => ?_, fun hmissing => ?_⟩
    · rwa [getD_valueAt_of_mem hrecord hv] at hcell
    · rw [valueAt_of_notMem hrecord htext hmissing] at hcell
      exact hcell.eq_none

theorem mapM_mappings {β : Type} {f : Value → Except Fault β} {g : Entries Value → β}
    (h : ∀ record, f (.mapping record) = .ok (g record)) (records : List (Entries Value)) :
    (records.map Value.mapping).mapM f = pure (records.map g) := by
  rw [List.mapM_map]
  exact mapM_eq_pure fun record _ => h record

theorem ofValue_mappings (records : List (Entries Value)) (headers : List Value) :
    ofValue (.list (records.map .mapping)) headers = .ok (ofRecords records headers) := by
  have hitems : (Value.list (records.map Value.mapping)).each = pure (records.map .mapping) := rfl
  have hentries := mapM_mappings (f := Value.expectEntries) (g := id) (fun _ => rfl) records
  rw [ofValue, hitems, pure_bind, mapM_mappings (g := Entries.names) (fun _ => rfl), pure_bind,
    hentries, List.map_id, pure_bind, ← List.flatMap_def]
  split
  case isFalse => rfl
  case isTrue hempty =>
    rw [ofRecords, List.isEmpty_iff.mp hempty, List.map_map]
    rfl

end

/-! ## A package that keeps columns of one type -/

/-- Whether a value may stand in a column of doubles. -/
def isNumeric : Value → Bool
  | .null => true
  | .int _ => true
  | .real _ => true
  | _ => false

/-- Whether a column is kept as doubles: it has numbers and missing values only, not integers alone. -/
def isFloating (column : List Value) : Bool :=
  column.all isNumeric && !column.all fun v => v.integer?.isSome

/-- What is kept of a value in a column of doubles, or in another one. -/
def kept (floating : Bool) : Value → Option Value
  | .null => none
  | .real (.nan _) => none
  | .int n => some (if floating then (Binary64.ofInt? n).elim (.int n) .real else .int n)
  | v => some v

theorem keeps_kept (floating : Bool) (v : Value) : Keeps v (kept floating v) := by
  cases v with
  | null => exact .missing trivial
  | real x =>
    cases x with
    | nan => exact .missing trivial
    | infinite => exact .same not_false
    | finite => exact .same not_false
  | int n =>
    cases floating with
    | false => exact .same not_false
    | true =>
      cases hx : Binary64.ofInt? n with
      | none =>
        rw [kept, if_pos rfl, hx]
        exact .same not_false
      | some x =>
        rw [kept, if_pos rfl, hx]
        by_cases hn : Binary64.Holds n
        · exact .equal not_false (Binary64.equalsInt_of_ofInt? hn hx)
        · exact .nearest hn hx
  | _ => exact .same not_false

/-- A package that keeps each column on its own, as doubles where that is a column of doubles. -/
def columnwise : Library (List Value × List (List (Option Value))) where
  make rows columns :=
    .ok (columns, rows.map fun row => row.mapIdx fun j v => kept (isFloating (rows.filterMap (·[j]?))) v)
  labels := Prod.fst
  size d := d.2.length
  cell d i j := (d.2[i]?.bind (·[j]?)).join

theorem columnwise_lawful : Lawful columnwise where
  makes _ _ _ _ := ⟨_, rfl⟩
  labels := by
    rintro rows columns _ ⟨⟩ -
    rfl
  size := by
    rintro rows columns _ ⟨⟩ -
    exact List.length_map _
  cell := by
    rintro rows columns _ ⟨⟩ i row hi j v hj
    simp only [columnwise, List.getElem?_map, hi, Option.map_some, Option.bind_some, List.getElem?_mapIdx, hj,
      Option.join_some]
    exact keeps_kept _ v

/-- Two records of different shapes. -/
def unlikeRecords : List (Entries Value) :=
  [[(.text "b", .int 1), (.text "a", .int 2)], [(.text "c", .null), (.text "a", .int 3)]]

example : ofRecords unlikeRecords [.text "z", .text "a"] = {
    columns := [.text "a", .text "b", .text "c"]
    rows := [[some (.int 2), some (.int 1), none], [some (.int 3), none, none]] } := by rfl

end Frame

end RowStore
