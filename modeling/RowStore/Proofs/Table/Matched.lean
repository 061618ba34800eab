import RowStore.Proofs.Sheet.Identifiers
import RowStore.Proofs.Sheet.Numbered
import RowStore.Proofs.Table.Effect

/-!
# The rows that conditions select

* `Columns.Names c conditions` : at least one condition is on a known header;
* `Columns.Fulfils c conditions row` : under every known header the row has the expected text;
  `Match.fulfils_iff` : just where each expected value has a text and the row passes all tests;
* `Table.matched_of_names`, `Table.matched_of_not_names` : a write finds the rows that fulfil its
  conditions by their numbers, in ascending order; without a condition on a known header, or where no
  row fulfils them, it finds none;
* `Columns.Selects c conditions row`, `Table.matched_eq` : the same in one, also for a write that looks
  for one row only and finds the first.
-/

namespace RowStore

variable {σ : Type} {party : Party σ} {c : Columns} {conditions : Entries Value} {row : Row}

namespace Columns

/-- At least one of the conditions is on a known header. -/
def Names (c : Columns) (conditions : Entries Value) : Prop :=
  ∃ e ∈ conditions, c.positions.has e.1 = true

instance (c : Columns) (conditions : Entries Value) : Decidable (c.Names conditions) :=
  inferInstanceAs (Decidable (∃ e ∈ conditions, c.positions.has e.1 = true))

/-- A row fulfils conditions: under every known header the expected value has a text, and the row has this text,
where a missing cell has the empty text. -/
def Fulfils (c : Columns) (conditions : Entries Value) (row : Row) : Prop :=
  ∀ e ∈ conditions, ∀ p, c.positions.find? e.1 = some p → e.2.hasText = true ∧ row.textAt p = e.2.asText

end Columns

namespace Match

theorem fulfils_iff :
    c.Fulfils conditions row ↔ Compares c conditions ∧ passes (testsOf c conditions) row = true := by
  rw [passes, List.all_eq_true]
  constructor
  · refine fun h => ⟨fun e he hknown => ?_, fun test htest => ?_⟩
    · obtain ⟨p, hp⟩ := Option.isSome_iff_exists.mp hknown
      exact (h e he p hp).1
    · obtain ⟨e, he, htest⟩ := List.mem_filterMap.mp htest
      obtain ⟨p, hp, rfl⟩ := Option.map_eq_some_iff.mp htest
      exact beq_iff_eq.mpr (h e he p hp).2
  · rintro ⟨hcompares, hpasses⟩ e he p hp
    have htest : (⟨p, e.2.asText⟩ : Test) ∈ testsOf c conditions :=
      List.mem_filterMap.mpr ⟨e, he, by rw [hp]; rfl⟩
    exact ⟨hcompares e he (Option.isSome_iff_exists.mpr ⟨p, hp⟩), eq_of_beq (hpasses _ htest)⟩

/-- Conditions that can be compared are fulfilled by the rows that pass their tests. -/
theorem passes_testsOf (hcompares : Compares c conditions) :
    passes (testsOf c conditions) row = true ↔ c.Fulfils conditions row :=
  (fulfils_iff.trans (and_iff_right hcompares)).symm

theorem testsOf_eq_nil_iff : testsOf c conditions = [] ↔ ¬ c.Names conditions := by
  rw [testsOf, List.filterMap_eq_nil_iff, Columns.Names]
  simp [Entries.has]

theorem compares_of_not_names (hnames : ¬ c.Names conditions) : Compares c conditions :=
  fun e he hknown => absurd ⟨e, he, hknown⟩ hnames

end Match

instance (c : Columns) (conditions : Entries Value) (row : Row) :
    Decidable (c.Fulfils conditions row) :=
  decidable_of_iff _ Match.fulfils_iff.symm

namespace Columns

/-- Conditions select a row: it fulfils them, and at least one of them is on a known header. -/
def Selects (c : Columns) (conditions : Entries Value) (row : Row) : Prop :=
  c.Names conditions ∧ c.Fulfils conditions row

instance (c : Columns) (conditions : Entries Value) (row : Row) : Decidable (c.Selects conditions row) :=
  inferInstanceAs (Decidable (_ ∧ _))

/-- Where a condition is on a known header, the selected rows are those that fulfil the conditions. -/
theorem selects_iff (hnames : c.Names conditions) :
    c.Selects conditions row ↔ c.Fulfils conditions row := and_iff_right hnames

theorem selects_eq (hnames : c.Names conditions) : c.Selects conditions = c.Fulfils conditions :=
  funext fun _ => propext (selects_iff hnames)

theorem countP_selects_of_not_names (hnames : ¬ c.Names conditions) (data : Rows) :
    data.countP (c.Selects conditions) = 0 :=
  List.countP_eq_zero.mpr fun _ _ hrow => hnames (of_decide_eq_true hrow).1

end Columns

namespace Table

variable {t : Table} {K : Keeper party} {h : Nat} {top data : Rows}

/-- The numbers of the rows that fulfil conditions, below `h` header rows. -/
def numbersOf (c : Columns) (conditions : Entries Value) (h : Nat) (data : Rows) : List Int :=
  Rows.numbersFrom (fun row => decide (c.Fulfils conditions row)) h data

theorem length_numbersOf (c : Columns) (conditions : Entries Value) (h : Nat) (data : Rows) :
    (numbersOf c conditions h data).length = data.countP (c.Fulfils conditions) :=
  Rows.length_numbersFrom _ h data

/-- The positions that a search gives make the numbers of the rows that fulfil the conditions. -/
theorem map_positionsOf (hw : Writable K t h) (hcompares : Match.Compares c conditions) (data : Rows) :
    (Match.positionsOf (Match.testsOf c conditions) false data).map t.grid.rowNumber =
      numbersOf c conditions h data := by
  have hnumber : t.grid.rowNumber = fun position : Nat => (h : Int) + 1 + position := by
    funext position
    rw [Grid.rowNumber, Grid.headerRowNumber, hw.headerRow, Option.getD_some]
  have hpasses : Match.passes (Match.testsOf c conditions) =
      fun row => decide (c.Fulfils conditions row) := by
    funext row
    exact Bool.eq_iff_iff.mpr ((Match.passes_testsOf hcompares).trans decide_eq_true_iff.symm)
  rw [numbersOf, ← hpasses, hnumber]
  exact Rows.map_positions _ 0 h data

/-- The fault of a write whose conditions select no row. -/
def noMatch (c : Columns) (conditions : Entries Value) : Fault :=
  if Match.Compares c conditions then Fault.worded (.noRowMatches (.mapping conditions)) else .malformed

/-- A write whose positions are none has no match. -/
theorem matched_of_found (t : Table) {sheet : Rows} {positions : List Nat} (hcompares : Match.Compares c conditions)
    (hfound : Match.found c (t.grid.seen sheet) (.mapping conditions) false = .ok positions) :
    t.matched c sheet (.mapping conditions) false =
      if positions.length = 0 then .error (noMatch c conditions) else .ok (positions.map t.grid.rowNumber) := by
  rw [matched, hfound, noMatch, if_pos hcompares]
  cases positions <;> rfl

/-- Conditions on known headers select the rows that fulfil them, if there are any. -/
theorem matched_of_names (hw : Writable K t h) (htop : top.length = h) (hnames : c.Names conditions) :
    t.matched c (top ++ data) (.mapping conditions) false =
      if data.countP (c.Fulfils conditions) = 0 then .error (noMatch c conditions)
      else .ok (numbersOf c conditions h data) := by
  have hblank : ¬ (Value.mapping conditions).isBlank = true := by
    obtain ⟨e, he, -⟩ := hnames
    exact fun hempty => List.ne_nil_of_mem he (List.isEmpty_iff.mp hempty)
  by_cases hcompares : Match.Compares c conditions
  · have htests : ¬ (Match.testsOf c conditions).isEmpty = true := fun hempty =>
      Match.testsOf_eq_nil_iff.mp (List.isEmpty_iff.mp hempty) hnames
    have hfound : Match.found c (t.grid.seen (top ++ data)) (.mapping conditions) false =
        .ok (Match.positionsOf (Match.testsOf c conditions) false data) := by
      rw [Match.found, if_neg hblank, hw.seen_append htop]
      change (Match.testsFor c conditions >>= fun ts => if ts.isEmpty = true then _ else _) = _
      rw [Match.testsFor, if_pos hcompares]
      exact if_neg htests
    have hnumbers := map_positionsOf hw hcompares data
    have hlength := length_numbersOf c conditions h data
    rw [← hnumbers, List.length_map] at hlength
    rw [matched_of_found t hcompares hfound, hlength, hnumbers]
  · have hnone : data.countP (c.Fulfils conditions) = 0 := List.countP_eq_zero.mpr fun row _ hrow =>
      hcompares (Match.fulfils_iff.mp (of_decide_eq_true hrow)).1
    rw [if_pos hnone, matched, Match.found, if_neg hblank, noMatch, if_neg hcompares]
    change (Match.testsFor c conditions >>= _) >>= _ = _
    rw [Match.testsFor, if_neg hcompares]
    rfl

/-- Conditions of which none is on a known header select nothing. -/
theorem matched_of_not_names (t : Table) (hnames : ¬ c.Names conditions) (sheet : Rows) :
    t.matched c sheet (.mapping conditions) false = .error (noMatch c conditions) := by
  have hcompares := Match.compares_of_not_names hnames
  have hfound : Match.found c (t.grid.seen sheet) (.mapping conditions) false = .ok [] := by
    rw [Match.found]
    split
    · rfl
    · change (Match.testsFor c conditions >>= fun ts => if ts.isEmpty = true then _ else _) = _
      rw [Match.testsFor, if_pos hcompares, Match.testsOf_eq_nil_iff.mpr hnames]
      rfl
  exact matched_of_found t hcompares hfound

/-! ## The first of them -/

/-- A search for one row gives the first of those that a search for all gives. -/
theorem matched_first (t : Table) (c : Columns) (sheet : Rows) (conditions : Value) :
    t.matched c sheet conditions true = (t.matched c sheet conditions false).map (List.take 1) := by
  have hfound : Match.found c (t.grid.seen sheet) conditions true =
      (Match.found c (t.grid.seen sheet) conditions false).map (List.take 1) := by
    rw [Match.found, Match.found]
    split
    · rfl
    · cases conditions.expectEntries with
      | error fault => rfl
      | ok entries =>
        change (Match.testsFor c entries >>= _) = Except.map _ (Match.testsFor c entries >>= _)
        cases Match.testsFor c entries with
        | error fault => rfl
        | ok ts =>
          change (if ts.isEmpty = true then _ else _) = Except.map _ (if ts.isEmpty = true then _ else _)
          split
          · rfl
          · cases t.grid.seen sheet <;> rfl
  rw [matched, matched, hfound]
  rcases Match.found c (t.grid.seen sheet) conditions false with fault | (_ | ⟨position, rest⟩) <;> rfl

/-- The numbers of the rows below `h` header rows that conditions select, or of the first of them. -/
def selected (c : Columns) (conditions : Entries Value) (h : Nat) (firstOnly : Bool) (data : Rows) :
    List Int :=
  let numbers := Rows.numbersFrom (fun row => decide (c.Selects conditions row)) h data
  if firstOnly then numbers.take 1 else numbers

theorem length_selected (hsome : 0 < data.countP (c.Selects conditions)) (firstOnly : Bool) :
    (selected c conditions h firstOnly data).length =
      if firstOnly then 1 else data.countP (c.Selects conditions) := by
  have hlength := Rows.length_numbersFrom (fun row => decide (c.Selects conditions row)) h data
  cases firstOnly with
  | false => exact hlength
  | true =>
    change (List.take 1 _).length = 1
    rw [List.length_take, hlength]
    exact Nat.min_eq_left hsome

/-- A write finds the rows that its conditions select, or the first of them, if there are any. -/
theorem matched_eq (hw : Writable K t h) (htop : top.length = h) (conditions : Entries Value)
    (firstOnly : Bool) : t.matched c (top ++ data) (.mapping conditions) firstOnly =
      if data.countP (c.Selects conditions) = 0 then .error (noMatch c conditions)
      else .ok (selected c conditions h firstOnly data) := by
  have hall : t.matched c (top ++ data) (.mapping conditions) false =
      if data.countP (c.Selects conditions) = 0 then .error (noMatch c conditions)
      else .ok (selected c conditions h false data) := by
    by_cases hnames : c.Names conditions
    · rw [matched_of_names hw htop hnames, selected]
      simp only [Columns.selects_eq hnames, numbersOf]
      rfl
    · rw [matched_of_not_names t hnames, if_pos (Columns.countP_selects_of_not_names hnames data)]
  cases firstOnly with
  | false => exact hall
  | true =>
    rw [matched_first, hall]
    split <;> rfl

end Table

end RowStore
