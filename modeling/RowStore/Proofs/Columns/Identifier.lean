import RowStore.Columns
import RowStore.Proofs.Fault.Outcome
import RowStore.Proofs.Value.Entries
import RowStore.Proofs.Value.Equality

/-!
# The identifier column

* `Distinct` : headers are names, and no two of them are equal; `distinct_ofDescriptors` : columns that
  have been read are distinct;
* `Columns.find?_positions_iff` : a name leads to the position whose header it equals;
* `Columns.IdentifierAt c header p` : the identifier has a header, and its column is the one at the
  position `p`; `IdentifierAt.equals_of_find?` : no name of another column leads to that position.
-/

namespace RowStore

/-- Headers are names, and no two of them are equal. -/
structure Distinct (columns : List Column) : Prop where
  keys : ∀ col ∈ columns, col.header.isKey = true
  headers : columns.Pairwise fun a b => a.header.equals b.header = false

theorem Distinct.snoc {before : List Column} {descriptor : Value} {col : Column}
    (h : Distinct before) (hcol : Columns.readColumn before descriptor = .ok col) :
    Distinct (before ++ [col]) := by
  cases descriptor with
  | mapping fields =>
    obtain ⟨-, hcol⟩ := of_guard_eq_ok hcol
    obtain ⟨header, -, hcol⟩ := bind_eq_ok hcol
    obtain ⟨hkey, hcol⟩ := of_guard_eq_ok hcol
    obtain ⟨hnew, hcol⟩ := of_guard_eq_ok hcol
    obtain ⟨-, hcol⟩ := of_guard_eq_ok hcol
    cases hcol
    have hkey : header.isKey = true := by simpa using hkey
    have hnew : ∀ a ∈ before, a.header.equals header = false := by simpa using hnew
    refine ⟨fun a ha => ?_, List.pairwise_append.mpr ⟨h.headers, List.pairwise_singleton _ _, ?_⟩⟩
    · rcases List.mem_append.mp ha with ha | ha
      · exact h.keys a ha
      · rw [List.mem_singleton.mp ha]
        exact hkey
    · intro a ha b hb
      rw [List.mem_singleton.mp hb]
      exact hnew a ha
  | _ => cases hcol

theorem Distinct.readColumns {before columns : List Column} {descriptors : List Value}
    (h : Distinct before) (hread : Columns.readColumns before descriptors = .ok columns) :
    Distinct columns := by
  induction descriptors generalizing before with
  | nil =>
    cases hread
    exact h
  | cons descriptor rest ih =>
    obtain ⟨col, hcol, hread⟩ := bind_eq_ok hread
    exact ih (h.snoc hcol) hread

/-- Columns that have been read are distinct. -/
theorem distinct_ofDescriptors {descriptors : List Value} {identifier : Value} {c : Columns}
    (h : Columns.ofDescriptors descriptors identifier = .ok c) : Distinct c.list := by
  obtain ⟨columns, hread, h⟩ := bind_eq_ok h
  cases h
  have hnil : Distinct [] := ⟨fun _ h => (nomatch h), List.Pairwise.nil⟩
  exact hnil.readColumns hread

theorem distinct_ofAnswer {answer identifier : Value} {c : Columns}
    (h : Columns.ofAnswer answer identifier = .ok c) : Distinct c.list := by
  obtain ⟨payload, -, h⟩ := bind_eq_ok h
  obtain ⟨descriptors, -, h⟩ := bind_eq_ok h
  exact distinct_ofDescriptors h

namespace Columns

variable {c : Columns} {header k : Value} {p : Nat}

theorem mem_positions : (k, p) ∈ c.positions ↔ c.headers[p]? = some k := by
  simp only [positions, headers, List.mem_map, List.getElem?_map, Option.map_eq_some_iff]
  constructor
  · rintro ⟨⟨col, n⟩, hmem, heq⟩
    cases heq
    exact ⟨col, List.mem_zipIdx_iff_getElem?.mp hmem, rfl⟩
  · rintro ⟨col, hcol, rfl⟩
    exact ⟨(col, p), List.mem_zipIdx_iff_getElem?.mpr hcol, rfl⟩

/-- No two columns have equal headers. -/
theorem eq_of_headers (hc : Distinct c.list) {q : Nat} {h h' : Value} (hp : c.headers[p]? = some h)
    (hq : c.headers[q]? = some h') (heq : h.equals h' = true) : p = q := by
  obtain ⟨a, ha, rfl⟩ := Option.map_eq_some_iff.mp (List.getElem?_map ▸ hp)
  obtain ⟨b, hb, rfl⟩ := Option.map_eq_some_iff.mp (List.getElem?_map ▸ hq)
  obtain ⟨hp, ha⟩ := List.getElem?_eq_some_iff.mp ha
  obtain ⟨hq, hb⟩ := List.getElem?_eq_some_iff.mp hb
  have hpairs := List.pairwise_iff_getElem.mp hc.headers
  rcases Nat.lt_trichotomy p q with hlt | heq' | hlt
  · have hne := hpairs p q hp hq hlt
    rw [ha, hb, heq] at hne
    cases hne
  · exact heq'
  · have hne := hpairs q p hq hp hlt
    have hkey : a.header.isKey = true := hc.keys a (ha ▸ List.getElem_mem hp)
    rw [ha, hb, Value.equals_symm hkey heq] at hne
    cases hne

theorem isKey_of_headers (hc : Distinct c.list) {h : Value} (hp : c.headers[p]? = some h) :
    h.isKey = true := by
  obtain ⟨a, ha, rfl⟩ := Option.map_eq_some_iff.mp (List.getElem?_map ▸ hp)
  exact hc.keys a (List.mem_of_getElem? ha)

/-- A name leads to the column whose header it equals. -/
theorem find?_positions_iff (hc : Distinct c.list) :
    c.positions.find? k = some p ↔ ∃ h, c.headers[p]? = some h ∧ h.equals k = true := by
  constructor
  · intro hk
    obtain ⟨h, hmem, heq⟩ := Entries.exists_of_find? hk
    exact ⟨h, mem_positions.mp hmem, heq⟩
  · rintro ⟨h, hp, heq⟩
    cases hk : c.positions.find? k with
    | none =>
      have hne := Entries.find?_eq_none_iff.mp hk _ (mem_positions.mpr hp)
      rw [heq] at hne
      cases hne
    | some q =>
      obtain ⟨h', hmem, heq'⟩ := Entries.exists_of_find? hk
      have hq := mem_positions.mp hmem
      have hkey := isKey_of_headers hc hq
      have hkey' := isKey_of_headers hc hp
      rw [eq_of_headers hc hq hp (Value.equals_trans hkey heq' (Value.equals_symm hkey' heq))]

/-- The identifier's header is one of the headers. -/
theorem exists_of_identifierHeader (h : c.identifierHeader = some header) :
    ∃ col ∈ c.list, col.header = header := by
  obtain ⟨code, _, h⟩ := Option.bind_eq_some_iff.mp h
  obtain ⟨k, hk, _⟩ := Entries.exists_of_find? h
  obtain ⟨k', hmem⟩ := Entries.exists_of_mem_ofList hk
  obtain ⟨col, hcol, heq⟩ := List.mem_map.mp hmem
  exact ⟨col, hcol, congrArg Prod.snd heq⟩

/-- The identifier has a header, and its column is the one at a position. -/
structure IdentifierAt (c : Columns) (header : Value) (p : Nat) : Prop where
  distinct : Distinct c.list
  isHeader : c.identifierHeader = some header
  position : c.positions.find? header = some p

theorem exists_identifierAt (hc : Distinct c.list) (h : c.identifierHeader = some header) :
    ∃ p, c.IdentifierAt header p := by
  obtain ⟨col, hcol, rfl⟩ := exists_of_identifierHeader h
  obtain ⟨p, hp⟩ := List.mem_iff_getElem?.mp (List.mem_map_of_mem hcol)
  exact ⟨p, hc, h, (find?_positions_iff hc).mpr ⟨_, hp, Value.equals_self (hc.keys col hcol)⟩⟩

namespace IdentifierAt

/-- The header at the position is the identifier's. -/
theorem getElem?_headers (h : c.IdentifierAt header p) : c.headers[p]? = some header := by
  obtain ⟨k, hk, heq⟩ := (find?_positions_iff h.distinct).mp h.position
  obtain ⟨col, hcol, rfl⟩ := exists_of_identifierHeader h.isHeader
  obtain ⟨q, hq⟩ := List.mem_iff_getElem?.mp (List.mem_map_of_mem hcol)
  have hpq : p = q := eq_of_headers h.distinct hk hq heq
  rw [hpq]
  exact hq

theorem isEmpty_eq_false (h : c.IdentifierAt header p) : c.isEmpty = false := by
  obtain ⟨col, hcol, _⟩ := exists_of_identifierHeader h.isHeader
  exact Bool.eq_false_iff.mpr fun hempty => by
    rw [List.isEmpty_iff.mp hempty] at hcol
    cases hcol

/-- Only the identifier's names lead to its column. -/
theorem equals_of_find? (h : c.IdentifierAt header p) (hk : c.positions.find? k = some p) :
    k.equals header = true := by
  obtain ⟨k', hk', heq⟩ := (find?_positions_iff h.distinct).mp hk
  have hkey := isKey_of_headers h.distinct hk'
  rw [h.getElem?_headers] at hk'
  cases hk'
  exact Value.equals_symm hkey heq

end IdentifierAt

end Columns

end RowStore
