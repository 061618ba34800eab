import Mathlib.Data.List.Induction
import RowStore.Proofs.Value.Equality
import RowStore.Value.Entries
import RowStore.Value.Text

/-!
# Looking names up

* `find?_eq_none_iff`, `has_eq_false_iff` : a name has no value iff no entry bears an equal name;
* `exists_of_find?` : a value that is found stands in an entry with an equal name; `hasText_getD_find?` : so it
  has a text if all values have one;
* `exists_of_mem_ofList` : entries hold no values but those that were inserted;
* `ofList_of_pairwise` : pairs whose names all differ are inserted as they stand;
* `find?_eq` : a look-up as a search for the first entry that bears the name;
  `find?_of_mem` : where names differ, every entry is found;
* `find?_insert`, `find?_ofList` : of values inserted under equal names the last one counts.
-/

namespace RowStore.Entries

variable {α : Type} {entries : Entries α} {name : Value}

theorem find?_eq_none_iff :
    entries.find? name = none ↔ ∀ e ∈ entries, e.1.equals name = false := by
  induction entries with
  | nil => simp
  | cons e rest ih =>
    rw [find?, List.forall_mem_cons]
    cases h : e.1.equals name
    · simpa using ih
    · simp

theorem has_eq_false_iff : entries.has name = false ↔ ∀ e ∈ entries, e.1.equals name = false := by
  rw [has, Option.isSome_eq_false_iff, Option.isNone_iff_eq_none, find?_eq_none_iff]

theorem exists_of_find? {a : α} (h : entries.find? name = some a) :
    ∃ k, (k, a) ∈ entries ∧ k.equals name = true := by
  induction entries with
  | nil => cases h
  | cons e rest ih =>
    rw [find?] at h
    cases he : e.1.equals name <;> simp only [he] at h
    · obtain ⟨k, hk, hname⟩ := ih (by simpa using h)
      exact ⟨k, List.mem_cons_of_mem _ hk, hname⟩
    · cases h
      exact ⟨e.1, List.mem_cons_self, he⟩

/-- What is found among values that have texts has one, and so does null. -/
theorem hasText_getD_find? {entries : Entries Value} (h : ∀ e ∈ entries, e.2.hasText = true) (name : Value) :
    ((entries.find? name).getD .null).hasText = true := by
  cases hfind : entries.find? name with
  | none => rfl
  | some v =>
    obtain ⟨k, hk, -⟩ := exists_of_find? hfind
    exact h _ hk

theorem mem_insert {value : α} {e : Value × α} (h : e ∈ entries.insert name value) :
    e ∈ entries ∨ e.2 = value := by
  induction entries with
  | nil =>
    rw [List.mem_singleton.mp h]
    exact Or.inr rfl
  | cons first rest ih =>
    rw [insert] at h
    split at h
    · rcases List.mem_cons.mp h with rfl | h
      · exact Or.inr rfl
      · exact Or.inl (List.mem_cons_of_mem _ h)
    · rcases List.mem_cons.mp h with rfl | h
      · exact Or.inl List.mem_cons_self
      · exact (ih h).imp_left (List.mem_cons_of_mem _)

theorem exists_of_mem_ofList {pairs : List (Value × α)} {e : Value × α} (h : e ∈ ofList pairs) :
    ∃ k, (k, e.2) ∈ pairs := by
  have hfold : ∀ (pairs : List (Value × α)) (entries : Entries α),
      e ∈ pairs.foldl (fun entries p => entries.insert p.1 p.2) entries →
      e ∈ entries ∨ ∃ k, (k, e.2) ∈ pairs := by
    intro pairs
    induction pairs with
    | nil => exact fun entries h => Or.inl h
    | cons pair rest ih =>
      intro entries h
      rcases ih _ h with h | ⟨k, hk⟩
      · refine (mem_insert h).imp_right fun he => ⟨pair.1, ?_⟩
        rw [he]
        exact List.mem_cons_self
      · exact Or.inr ⟨k, List.mem_cons_of_mem _ hk⟩
  exact (hfold pairs [] h).resolve_left List.not_mem_nil

theorem insert_of_has_eq_false (h : entries.has name = false) (value : α) :
    entries.insert name value = entries ++ [(name, value)] := by
  rw [has_eq_false_iff] at h
  induction entries with
  | nil => rfl
  | cons e rest ih =>
    obtain ⟨he, hrest⟩ := List.forall_mem_cons.mp h
    rw [insert, he, ih hrest]
    rfl

/-- Names that all differ keep their order and their values. -/
theorem ofList_of_pairwise {pairs : List (Value × α)}
    (h : pairs.Pairwise fun a b => a.1.equals b.1 = false) : ofList pairs = pairs := by
  have hfold : ∀ (pairs : List (Value × α)) (entries : Entries α),
      (entries ++ pairs).Pairwise (fun a b => a.1.equals b.1 = false) →
      pairs.foldl (fun entries p => entries.insert p.1 p.2) entries = entries ++ pairs := by
    intro pairs
    induction pairs with
    | nil => exact fun entries _ => (List.append_nil entries).symm
    | cons pair rest ih =>
      intro entries h
      have hnew : entries.has pair.1 = false := has_eq_false_iff.mpr fun e he =>
        (List.pairwise_append.mp h).2.2 e he pair List.mem_cons_self
      rw [List.foldl_cons, insert_of_has_eq_false hnew, ih]
      · rw [List.append_assoc, List.singleton_append]
      · rwa [List.append_assoc, List.singleton_append]
  exact hfold pairs [] h

/-! ## The value that counts -/

/-- The value of a name is that of the first entry that bears it. -/
theorem find?_eq (entries : Entries α) (name : Value) :
    entries.find? name = (List.find? (fun e => e.1.equals name) entries).map (·.2) := by
  induction entries with
  | nil => rfl
  | cons e rest ih =>
    rw [find?, List.find?_cons]
    cases e.1.equals name
    · exact ih
    · rfl

/-- Where names differ, every entry has the value of its name. -/
theorem find?_of_mem (hkeys : ∀ e ∈ entries, e.1.isKey = true)
    (hnames : entries.Pairwise fun a b => a.1.equals b.1 = false) {e : Value × α} (he : e ∈ entries) :
    entries.find? e.1 = some e.2 := by
  induction entries with
  | nil => exact absurd he List.not_mem_nil
  | cons first rest ih =>
    obtain ⟨hfirst, hrest⟩ := List.forall_mem_cons.mp hkeys
    obtain ⟨hne, hnames⟩ := List.pairwise_cons.mp hnames
    rw [find?]
    rcases List.mem_cons.mp he with rfl | he
    · rw [if_pos (Value.equals_self hfirst)]
    · rw [hne e he]
      exact ih hrest hnames he

theorem isKey_of_mem_insert {value : α} (h : ∀ e ∈ entries, e.1.isKey = true)
    (hname : name.isKey = true) : ∀ e ∈ entries.insert name value, e.1.isKey = true := by
  induction entries with
  | nil => exact List.forall_mem_singleton.mpr hname
  | cons first rest ih =>
    obtain ⟨hfirst, hrest⟩ := List.forall_mem_cons.mp h
    rw [insert]
    split
    · exact List.forall_mem_cons.mpr ⟨hfirst, hrest⟩
    · exact List.forall_mem_cons.mpr ⟨hfirst, ih hrest⟩

/-- A name that has been given a value has this one, and so have the names equal to it. -/
theorem find?_insert (h : ∀ e ∈ entries, e.1.isKey = true) (hname : name.isKey = true) (value : α)
    (sought : Value) :
    (entries.insert name value).find? sought =
      if name.equals sought then some value else entries.find? sought := by
  induction entries with
  | nil => rfl
  | cons first rest ih =>
    obtain ⟨hfirst, hrest⟩ := List.forall_mem_cons.mp h
    rw [insert]
    cases heq : first.1.equals name with
    | true =>
      have hsame : first.1.equals sought = name.equals sought := Bool.eq_iff_iff.mpr
        ⟨Value.equals_trans hname (Value.equals_symm hfirst heq), Value.equals_trans hfirst heq⟩
      rw [if_pos rfl, find?, find?, hsame]
      cases name.equals sought <;> rfl
    | false =>
      rw [if_neg Bool.false_ne_true, find?, find?, ih hrest]
      cases hsought : first.1.equals sought with
      | false => rfl
      | true =>
        have hother : name.equals sought = false := Bool.eq_false_iff.mpr fun hname' => by
          rw [Value.equals_trans hfirst hsought (Value.equals_symm hname hname')] at heq
          cases heq
        rw [hother]
        rfl

/-- Of the values inserted under equal names the last one counts. -/
theorem find?_ofList {pairs : List (Value × α)} (h : ∀ p ∈ pairs, p.1.isKey = true) (sought : Value) :
    (ofList pairs).find? sought = find? pairs.reverse sought := by
  -- the names that are there have to be names for an insertion to find its equals among them
  suffices hkeys : (∀ e ∈ ofList pairs, e.1.isKey = true) ∧
      (ofList pairs).find? sought = find? pairs.reverse sought from hkeys.2
  induction pairs using List.reverseRecOn with
  | nil => exact ⟨fun _ he => absurd he List.not_mem_nil, rfl⟩
  | append_singleton pairs pair ih =>
    obtain ⟨hpairs, hpair⟩ := List.forall_mem_append.mp h
    have hpair := List.forall_mem_singleton.mp hpair
    obtain ⟨hkeys, hfind⟩ := ih hpairs
    have hsnoc : ofList (pairs ++ [pair]) = (ofList pairs).insert pair.1 pair.2 := by
      rw [ofList, List.foldl_append]
      rfl
    rw [hsnoc, find?_insert hkeys hpair, hfind, List.reverse_append]
    exact ⟨isKey_of_mem_insert hkeys hpair, rfl⟩

end RowStore.Entries
