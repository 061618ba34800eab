import Mathlib.Data.List.Forall2
import RowStore.Proofs.Sheet.Scripted
import RowStore.Proofs.Table.Matched

/-!
# What a search finds

* `Match.search` : the numbers of the rows that fulfil conditions; `Table.matchingRows_eq` : a write takes
  the rows that it changes from such a search;
* `Match.numbers` : the rows that fulfil conditions, by their numbers; `mem_numbers_iff`,
  `pairwise_numbers` : exactly these rows, in ascending order;
* `Row.AlikeUpToBlanks` : rows that differ in cells without a text at their ends;
* `Match.search_finds` : a search finds the numbers of the rows, or the first of them; where there is nothing
  to compare it finds none and asks for nothing, and where a condition has no text it fails and asks for nothing;
  neither the order of the conditions nor cells without a text at the ends of rows make a difference to it.
-/

namespace RowStore

open Act

variable {σ : Type} {party : Party σ}

namespace Match

/-- Searches the rows that an act reads, and gives the numbers of those that fulfil the conditions. -/
def search (g : Grid) (columns : Option Columns) (read : Act Rows) (conditions : Value)
    (firstOnly : Bool) : Act (List Int) := do
  let read : Act (List Value) := do return (← read).map .list
  return (← positions columns read conditions firstOnly).map g.rowNumber

end Match

/-- A write changes the rows that a search in the data finds, and there has to be one. -/
theorem Table.matchingRows_eq (t : Table) (c : Columns) (conditions : Value) (firstOnly : Bool) :
    t.matchingRows c conditions firstOnly = do
      let numbers ← Match.search t.grid (some c) t.grid.readData conditions firstOnly
      if numbers.isEmpty then throw (Fault.worded (.noRowMatches conditions))
      return numbers := by
  unfold matchingRows Match.search
  simp only [bind_assoc, pure_bind]
  refine congrArg _ (funext fun positions => ?_)
  cases positions <;> rfl

/-- Rows that differ in nothing but cells without a text at their ends: null, the empty text, or no cell. -/
def Row.AlikeUpToBlanks (row row' : Row) : Prop :=
  ∃ common ends ends', row = common ++ ends ∧ row' = common ++ ends' ∧ ∀ v ∈ ends ++ ends', v.asText = []

namespace Row

/-- Cells without a text at the end of a row are as good as none. -/
theorem textAt_append {row ends : Row} (h : ∀ v ∈ ends, v.asText = []) (p : Nat) :
    textAt p (row ++ ends) = textAt p row := by
  rw [textAt, textAt, cell?, cell?, List.getElem?_append]
  split
  · rfl
  · rename_i hout
    rw [List.getElem?_eq_none (Nat.le_of_not_lt hout)]
    cases hend : ends[p - row.length]? with
    | none => rfl
    | some v => exact h v (List.mem_of_getElem? hend)

theorem AlikeUpToBlanks.textAt_eq {row row' : Row} (h : row.AlikeUpToBlanks row') (p : Nat) :
    row.textAt p = row'.textAt p := by
  obtain ⟨common, ends, ends', rfl, rfl, hblank⟩ := h
  obtain ⟨hends, hends'⟩ := List.forall_mem_append.mp hblank
  rw [textAt_append hends, textAt_append hends']

end Row

namespace Match

variable {g : Grid} {c : Columns} {columns : Option Columns} {conditions conditions' : Entries Value}
  {data data' : Rows} {firstOnly : Bool}

/-! ## Positions -/

/-- The positions depend on which of the rows pass, and on nothing else. -/
theorem positionsOf_eq (ts : List Test) (data : Rows) : positionsOf ts false data =
    (((data.map (passes ts)).zipIdx 0).filter (·.1)).map (·.2) := by
  rw [List.zipIdx_map, List.filter_map, List.map_map]
  rfl

theorem mem_positionsOf_iff {ts : List Test} {position : Nat} :
    position ∈ positionsOf ts false data ↔ ∃ row, data[position]? = some row ∧ passes ts row = true := by
  simp only [positionsOf, Bool.false_eq_true, if_false, List.mem_map, List.mem_filter]
  constructor
  · rintro ⟨⟨row, n⟩, ⟨hrow, hpasses⟩, rfl⟩
    exact ⟨row, List.mem_zipIdx_iff_getElem?.mp hrow, hpasses⟩
  · rintro ⟨row, hrow, hpasses⟩
    exact ⟨(row, position), ⟨List.mem_zipIdx_iff_getElem?.mpr hrow, hpasses⟩, rfl⟩

theorem pairwise_positionsOf (ts : List Test) (data : Rows) :
    (positionsOf ts false data).Pairwise (· < ·) := by
  have hall : ((data.zipIdx 0).map (·.2)).Pairwise (· < ·) := by
    rw [List.zipIdx_map_snd]
    exact List.pairwise_lt_range'
  exact hall.sublist (List.Sublist.map _ List.filter_sublist)

/-! ## The numbers of rows -/

/-- The numbers of the rows that conditions select, below the row with the headers; without columns they
select none. -/
def numbers (g : Grid) (columns : Option Columns) (conditions : Entries Value) (data : Rows) : List Int :=
  match columns with
  | some c =>
    if c.Names conditions then (positionsOf (testsOf c conditions) false data).map g.rowNumber else []
  | none => []

theorem numbers_of_names (hnames : c.Names conditions) (data : Rows) :
    numbers g (some c) conditions data =
      (positionsOf (testsOf c conditions) false data).map g.rowNumber := if_pos hnames

theorem numbers_of_nothing (hnothing : ∀ c, columns = some c → ¬ c.Names conditions) :
    numbers g columns conditions data = [] := by
  cases columns with
  | none => rfl
  | some c => exact if_neg (hnothing c rfl)

/-- Conditions can be compared if there are no columns, or each of them on a known header has a text. -/
def Comparable (columns : Option Columns) (conditions : Entries Value) : Prop :=
  ∀ c, columns = some c → Compares c conditions

theorem mem_numbers_iff (hcomparable : Comparable columns conditions) {n : Int} :
    n ∈ numbers g columns conditions data ↔ ∃ c, columns = some c ∧ ∃ (offset : Nat) (row : Row),
      data[offset]? = some row ∧ c.Selects conditions row ∧ n = g.headerRowNumber + 1 + offset := by
  cases columns with
  | none => simp [numbers]
  | some c =>
    by_cases hnames : c.Names conditions
    · simp only [numbers_of_names hnames, List.mem_map, mem_positionsOf_iff,
        passes_testsOf (hcomparable c rfl), Grid.rowNumber]
      constructor
      · rintro ⟨offset, ⟨row, hrow, hfulfils⟩, rfl⟩
        exact ⟨c, rfl, offset, row, hrow, ⟨hnames, hfulfils⟩, rfl⟩
      · rintro ⟨_, ⟨⟩, offset, row, hrow, ⟨-, hfulfils⟩, rfl⟩
        exact ⟨offset, ⟨row, hrow, hfulfils⟩, rfl⟩
    · simp only [numbers, if_neg hnames, List.not_mem_nil, false_iff]
      rintro ⟨_, ⟨⟩, offset, row, -, hselects, -⟩
      exact hnames hselects.1

/-- The numbers ascend, so none of them comes twice. -/
theorem pairwise_numbers (g : Grid) (columns : Option Columns) (conditions : Entries Value) (data : Rows) :
    (numbers g columns conditions data).Pairwise (· < ·) := by
  cases columns with
  | none => exact .nil
  | some c =>
    by_cases hnames : c.Names conditions
    · rw [numbers_of_names hnames, List.pairwise_map]
      refine (pairwise_positionsOf _ data).imp fun {a b} hlt => ?_
      rw [Grid.rowNumber, Grid.rowNumber]
      omega
    · rw [numbers, if_neg hnames]
      exact .nil

theorem Comparable.of_perm (hconditions : conditions'.Perm conditions) (h : Comparable columns conditions) :
    Comparable columns conditions' :=
  fun c hc e he => h c hc e (hconditions.mem_iff.mp he)

/-- Neither the order of the conditions nor blank cells at the ends of rows count. -/
theorem numbers_congr (hcomparable : Comparable columns conditions) (hconditions : conditions'.Perm conditions)
    (hdata : List.Forall₂ Row.AlikeUpToBlanks data data') :
    numbers g columns conditions' data' = numbers g columns conditions data := by
  cases columns with
  | none => rfl
  | some c =>
    have hnames : c.Names conditions' ↔ c.Names conditions := by
      simp only [Columns.Names, hconditions.mem_iff]
    have hpasses : data'.map (passes (testsOf c conditions')) = data.map (passes (testsOf c conditions)) := by
      rw [← List.forall₂_eq_eq_eq, List.forall₂_map_left_iff, List.forall₂_map_right_iff]
      refine hdata.flip.imp fun row' row halike => ?_
      rw [Bool.eq_iff_iff, passes_testsOf (hcomparable c rfl),
        passes_testsOf (hcomparable.of_perm hconditions c rfl)]
      simp only [Columns.Fulfils, hconditions.mem_iff, Row.AlikeUpToBlanks.textAt_eq halike]
    simp only [numbers, hnames, positionsOf_eq, hpasses]

/-! ## What a search does -/

/-- Reading gives these rows, whatever is in the log. -/
def Reads (party : Party σ) (read : Act Rows) (s : Session) (st : σ) (data : Rows) : Prop :=
  ∀ notes, (run party read ⟨s.columns, s.pending, notes⟩ st).1 = .ok data

theorem not_names_of_isEmpty (hc : c.isEmpty = true) : ¬ c.Names conditions := by
  rintro ⟨e, -, he⟩
  rw [Columns.positions, List.isEmpty_iff.mp hc] at he
  cases he

/-- The tests of conditions leave notes and ask for nothing. -/
theorem tests_apply (c : Columns) (conditions : Entries Value) (s : Session) :
    (liftM (tests c conditions) : Act (List Test)) s = .done (testsFor c conditions,
      ⟨s.columns, s.pending, ((tests c conditions).runWith s.notes).2⟩) := by
  have hgives := gives_tests c conditions s.notes
  change Program.done (((tests c conditions).runWith s.notes).1, _) = _
  rw [hgives]
  rfl

theorem expectEntries_mapping (conditions : Entries Value) :
    (liftM (Value.mapping conditions).expectEntries : Act (Entries Value)) = pure conditions := rfl

theorem not_isBlank_of_names (hnames : c.Names conditions) : ¬ (Value.mapping conditions).isBlank = true := by
  obtain ⟨e, he, -⟩ := hnames
  exact mt List.isEmpty_iff.mp (List.ne_nil_of_mem he)

theorem kept_of_names (hnames : c.Names conditions) : (some c).filter (!·.isEmpty) = some c := by
  refine Option.filter_eq_some_iff.mpr ⟨rfl, ?_⟩
  rw [Bool.not_eq_true']
  exact Bool.eq_false_iff.mpr fun hc => not_names_of_isEmpty hc hnames

/-- Where a condition is on a known header, a search reads the rows and gives their numbers. -/
theorem search_of_names (g : Grid) (hcompares : Compares c conditions) (hnames : c.Names conditions)
    (read : Act Rows) (firstOnly : Bool) (s : Session) :
    ∃ notes, search g (some c) read (.mapping conditions) firstOnly s =
      ((fun data => (positionsOf (testsOf c conditions) firstOnly data).map g.rowNumber) <$> read)
        ⟨s.columns, s.pending, notes⟩ := by
  have htests : ¬ (testsOf c conditions).isEmpty = true :=
    fun hempty => testsOf_eq_nil_iff.mp (List.isEmpty_iff.mp hempty) hnames
  have hresult := tests_apply c conditions s
  rw [testsFor, if_pos hcompares] at hresult
  refine ⟨((tests c conditions).runWith s.notes).2, ?_⟩
  rw [search, positions, if_neg (not_isBlank_of_names hnames), kept_of_names hnames]
  simp only [expectEntries_mapping, pure_bind, bind_assoc]
  rw [bind_of_done hresult, if_neg htests]
  simp only [bind_assoc, positionsFrom_map_list]
  rw [← bind_pure_comp]
  rfl

/-- Where a condition on a known header has no text, a search fails at once. -/
theorem search_of_not_comparable (g : Grid) (hcomparable : ¬ Comparable columns conditions) (read : Act Rows)
    (firstOnly : Bool) (s : Session) : ∃ notes, search g columns read (.mapping conditions) firstOnly s =
      .done (.error .malformed, ⟨s.columns, s.pending, notes⟩) := by
  obtain ⟨c, hc⟩ := not_forall.mp hcomparable
  obtain ⟨rfl, hcompares⟩ := Classical.not_imp.mp hc
  have hnames : c.Names conditions := not_not.mp (mt compares_of_not_names hcompares)
  have hresult := tests_apply c conditions s
  rw [testsFor, if_neg hcompares] at hresult
  refine ⟨((tests c conditions).runWith s.notes).2, ?_⟩
  rw [search, positions, if_neg (not_isBlank_of_names hnames), kept_of_names hnames]
  simp only [expectEntries_mapping, pure_bind, bind_assoc]
  exact bind_of_done_error hresult _

/-- Where there is nothing to compare, a search is over at once. -/
theorem search_of_nothing (g : Grid) (hnothing : ∀ c, columns = some c → ¬ c.Names conditions)
    (read : Act Rows) (firstOnly : Bool) (s : Session) :
    ∃ notes, search g columns read (.mapping conditions) firstOnly s =
      .done (.ok [], ⟨s.columns, s.pending, notes⟩) := by
  rw [search, positions]
  by_cases hblank : (Value.mapping conditions).isBlank = true
  · rw [if_pos hblank]
    exact ⟨_, rfl⟩
  · rw [if_neg hblank]
    cases hkept : columns.filter (!·.isEmpty) with
    | none => exact ⟨_, rfl⟩
    | some c =>
      have hcolumns := (Option.filter_eq_some_iff.mp hkept).1
      have htests : (testsOf c conditions).isEmpty = true :=
        List.isEmpty_iff.mpr (testsOf_eq_nil_iff.mpr (hnothing c hcolumns))
      have hresult := tests_apply c conditions s
      rw [testsFor, if_pos (compares_of_not_names (hnothing c hcolumns))] at hresult
      simp only [expectEntries_mapping, pure_bind, bind_assoc]
      rw [bind_of_done hresult, if_pos htests]
      exact ⟨_, rfl⟩

/-- A search in rows that can be read gives the numbers of those that the conditions select, or the first
of them. -/
theorem run_search (hcomparable : Comparable columns conditions) {read : Act Rows} {s : Session} {st : σ}
    (hread : Reads party read s st data) :
    (run party (search g columns read (.mapping conditions) firstOnly) s st).1 =
      .ok (if firstOnly then (numbers g columns conditions data).take 1
        else numbers g columns conditions data) := by
  by_cases hnames : ∃ c, columns = some c ∧ c.Names conditions
  · obtain ⟨c, rfl, hnames⟩ := hnames
    obtain ⟨notes, hsearch⟩ := search_of_names g (hcomparable c rfl) hnames read firstOnly s
    have hrun := congrArg (fun program : Program _ => (program.run party st).1.1) hsearch
    refine hrun.trans ?_
    change (run party (_ <$> read) ⟨s.columns, s.pending, notes⟩ st).1 = _
    rw [run_map, hread notes, numbers_of_names hnames]
    cases firstOnly with
    | false => rfl
    | true => exact congrArg Except.ok List.map_take
  · have hnothing : ∀ c, columns = some c → ¬ c.Names conditions :=
      fun c hcolumns hc => hnames ⟨c, hcolumns, hc⟩
    obtain ⟨notes, hsearch⟩ := search_of_nothing g hnothing read firstOnly s
    rw [run, hsearch, numbers_of_nothing hnothing]
    cases firstOnly <;> rfl

/-- A search in rows that can be read finds the numbers of exactly those rows that the conditions select, in
ascending order; a search for one row finds the first of them. Without conditions, without columns, or without
a condition on a known header it finds none and is over before it asks for anything; and it fails before it asks
for anything if a condition on a known header has no text. Neither the order of the conditions nor blank cells at
the ends of rows make a difference. -/
theorem search_finds (party : Party σ) (g : Grid) (columns : Option Columns) (conditions : Entries Value) :
    (Comparable columns conditions → ∀ (read : Act Rows) s st data, Reads party read s st data →
      ∃ found, (run party (search g columns read (.mapping conditions) false) s st).1 = .ok found ∧
        (run party (search g columns read (.mapping conditions) true) s st).1 = .ok (found.take 1) ∧
        found.Pairwise (· < ·) ∧
        ∀ n, n ∈ found ↔ ∃ c, columns = some c ∧ ∃ (offset : Nat) (row : Row), data[offset]? = some row ∧
          c.Selects conditions row ∧ n = g.headerRowNumber + 1 + offset) ∧
    (conditions = [] ∨ columns = none ∨
        (∃ c, columns = some c ∧ (c.isEmpty = true ∨ ¬ c.Names conditions)) →
      ∀ (read : Act Rows) firstOnly s, ∃ notes,
        search g columns read (.mapping conditions) firstOnly s =
          .done (.ok [], ⟨s.columns, s.pending, notes⟩)) ∧
    (¬ Comparable columns conditions → ∀ (read : Act Rows) firstOnly s, ∃ notes,
      search g columns read (.mapping conditions) firstOnly s =
        .done (.error .malformed, ⟨s.columns, s.pending, notes⟩)) ∧
    ∀ (read read' : Act Rows) s st data data' conditions' firstOnly, Reads party read s st data →
      Reads party read' s st data' → conditions'.Perm conditions →
      List.Forall₂ Row.AlikeUpToBlanks data data' →
      (run party (search g columns read' (.mapping conditions') firstOnly) s st).1 =
        (run party (search g columns read (.mapping conditions) firstOnly) s st).1 := by
  refine ⟨?_, ?_, search_of_not_comparable g, ?_⟩
  · intro hcomparable read s st data hread
    exact ⟨numbers g columns conditions data, run_search hcomparable hread, run_search hcomparable hread,
      pairwise_numbers g columns conditions data, fun n => mem_numbers_iff hcomparable⟩
  · intro hnothing
    refine search_of_nothing g ?_
    rintro c rfl hnames
    rcases hnothing with rfl | hnone | ⟨_, ⟨⟩, hempty | hunknown⟩
    · obtain ⟨e, he, -⟩ := hnames
      cases he
    · cases hnone
    · exact not_names_of_isEmpty hempty hnames
    · exact hunknown hnames
  · intro read read' s st data data' conditions' firstOnly hread hread' hconditions hdata
    by_cases hcomparable : Comparable columns conditions
    · rw [run_search hcomparable hread, run_search (hcomparable.of_perm hconditions) hread',
        numbers_congr hcomparable hconditions hdata]
    · have hcomparable' : ¬ Comparable columns conditions' := mt (Comparable.of_perm hconditions.symm) hcomparable
      obtain ⟨_, hsearch⟩ := search_of_not_comparable g hcomparable read firstOnly s
      obtain ⟨_, hsearch'⟩ := search_of_not_comparable g hcomparable' read' firstOnly s
      rw [run, run, hsearch, hsearch']
      rfl

open Sample in
/-- Bob comes twice among five users, in a row with blank cells at its end and below a row that is too short;
the sheet does not tell the town that is asked for, too. -/
theorem search_finds_bobs :
    let party := Scripted.party fun _ => false
    let g := (table (.int 30000)).grid
    let data := [row "e1" "Alice", row "e2" "Bob" ++ [.null, .text ""], [.text "e3"], row "e4" "Bob", []]
    let stripped := [row "e1" "Alice", row "e2" "Bob", [.text "e3"], row "e4" "Bob", [.null]]
    let st := Scripted.ofRows (row "id" "Name" :: data)
    let conditions : Entries Value := [(.text "Town", .text "Bonn"), (.text "Name", .text "Bob")]
    let found := fun read conditions firstOnly =>
      (run party (search g (some Sample.columns) read (.mapping conditions) firstOnly) session st).1
    Reads party g.readData session st data ∧
    (∃ numbers, found g.readData conditions false = .ok numbers ∧
      found g.readData conditions true = .ok (numbers.take 1) ∧
      3 ∈ numbers ∧ 4 ∉ numbers ∧ 5 ∈ numbers) ∧
    found (pure stripped) conditions.reverse false = found g.readData conditions false ∧
    (∃ notes, search g none g.readData (.mapping conditions) false session =
      .done (.ok [], ⟨session.columns, session.pending, notes⟩)) := by
  intro party g data stripped st conditions found
  have hread : Reads party g.readData session st data := fun _ => rfl
  have hstripped : Reads party (pure stripped) session st stripped := fun _ => rfl
  have halike : List.Forall₂ Row.AlikeUpToBlanks data stripped :=
    .cons ⟨row "e1" "Alice", [], [], rfl, rfl, by decide⟩ <|
    .cons ⟨row "e2" "Bob", [.null, .text ""], [], rfl, rfl, by decide⟩ <|
    .cons ⟨[.text "e3"], [], [], rfl, rfl, by decide⟩ <|
    .cons ⟨row "e4" "Bob", [], [], rfl, rfl, by decide⟩ <|
    .cons ⟨[], [], [.null], rfl, rfl, by decide⟩ .nil
  have hcomparable : Comparable (some Sample.columns) conditions := by
    rintro _ ⟨⟩
    decide
  obtain ⟨hfinds, -, -, hsame⟩ := search_finds party g (some Sample.columns) conditions
  obtain ⟨numbers, hall, hfirst, -, hmem⟩ := hfinds hcomparable g.readData session st data hread
  have hnone := (search_finds party g none conditions).2.1 (Or.inr (Or.inl rfl))
  refine ⟨hread, ⟨numbers, hall, hfirst, ?_, ?_, ?_⟩, ?_, hnone g.readData false session⟩
  · exact (hmem 3).mpr ⟨Sample.columns, rfl, 1, _, rfl, by decide, rfl⟩
  · intro hfour
    obtain ⟨_, ⟨⟩, offset, row, hrow, hselects, hnumber⟩ := (hmem 4).mp hfour
    have hheader : g.headerRowNumber = 1 := rfl
    obtain rfl : offset = 2 := by omega
    cases hrow
    revert hselects
    decide
  · exact (hmem 5).mpr ⟨Sample.columns, rfl, 3, _, rfl, by decide, rfl⟩
  · exact hsame g.readData (pure stripped) session st data stripped conditions.reverse false hread hstripped
      (List.reverse_perm _) halike

end Match

end RowStore
