import RowStore.Proofs.Columns.Descriptors

/-!
# The type under a name

Headers and codes share one table of types, in which a column is entered under both of its names.

* `typeOf_eq` : the type under a name is that of the last column that bears it, as header or as code;
* `typeOf_code_iff` : a column's own type stands under its code iff no later column of another type has
  the code for its header; `typeOf_header_iff` : the same with header and code exchanged.
-/

namespace RowStore

/-- Whether a column has this name for its header or for its code. -/
def Column.bears (col : Column) (name : Value) : Bool :=
  col.header.equals name || col.code.equals name

/-- No later column of another type has this column's code for its header. -/
def Column.KeepsCode (col : Column) (later : List Column) : Prop :=
  ∀ other ∈ later, other.header.equals col.code = true → other.type = col.type

/-- No later column of another type has this column's header for its code. -/
def Column.KeepsHeader (col : Column) (later : List Column) : Prop :=
  ∀ other ∈ later, other.code.equals col.header = true → other.type = col.type

instance (col : Column) (later : List Column) : Decidable (col.KeepsCode later) :=
  inferInstanceAs (Decidable (∀ other ∈ later, _ → _))

instance (col : Column) (later : List Column) : Decidable (col.KeepsHeader later) :=
  inferInstanceAs (Decidable (∀ other ∈ later, _ → _))

namespace Columns

variable {c : Columns} {name : Value}

theorem find?_flatMap (columns : List Column) (name : Value) :
    Entries.find? (columns.flatMap fun col => [(col.code, col.type), (col.header, col.type)]) name =
      (columns.find? (·.bears name)).map (·.type) := by
  induction columns with
  | nil => rfl
  | cons col rest ih =>
    rw [List.flatMap_cons, List.find?_cons, Column.bears]
    simp only [List.cons_append, List.nil_append, Entries.find?, ih]
    cases col.code.equals name <;> cases col.header.equals name <;> rfl

/-- The type under a name is that of the last column that bears it. -/
theorem typeOf_eq (hc : Coded c.list) (name : Value) :
    c.typeOf name = ((c.list.reverse.find? (·.bears name)).map (·.type)).getD .unknown := by
  have hkeys : ∀ p ∈ c.list.flatMap fun col => [(col.header, col.type), (col.code, col.type)],
      p.1.isKey = true := by
    intro p hp
    obtain ⟨col, hcol, hp⟩ := List.mem_flatMap.mp hp
    rcases List.mem_pair.mp hp with rfl | rfl
    · exact hc.keys col hcol
    · exact hc.codeKeys col hcol
  rw [typeOf, types, Entries.find?_ofList hkeys, List.reverse_flatMap]
  exact congrArg (·.getD TypeTag.unknown) (find?_flatMap c.list.reverse name)

/-- The last column that bears a name gives its type. -/
theorem typeOf_of_last (hc : Coded c.list) {before after : List Column} {col : Column}
    (hsplit : c.list = before ++ col :: after) (hcol : col.bears name = true)
    (hafter : ∀ other ∈ after, other.bears name = false) : c.typeOf name = col.type := by
  have hnone : after.reverse.find? (·.bears name) = none := List.find?_eq_none.mpr fun other hother =>
    Bool.eq_false_iff.mp (hafter other (List.mem_reverse.mp hother))
  rw [typeOf_eq hc, hsplit, List.reverse_append, List.reverse_cons, List.append_assoc,
    List.find?_append, hnone, List.singleton_append, List.find?_cons, hcol]
  rfl

/-- Where at most one later column bears a column's name, the column's type stands under it iff that
one has the same type. -/
theorem typeOf_iff (hc : Coded c.list) {before after : List Column} {col : Column}
    (hsplit : c.list = before ++ col :: after) (hcol : col.bears name = true)
    (hone : after.Pairwise fun a b => a.bears name = true → b.bears name = false) :
    c.typeOf name = col.type ↔ ∀ other ∈ after, other.bears name = true → other.type = col.type := by
  have hlater : ∀ other ∈ after, other.bears name = true → c.typeOf name = other.type := by
    intro other hother hbears
    obtain ⟨front, back, rfl⟩ := List.append_of_mem hother
    have hsplit' : c.list = (before ++ col :: front) ++ other :: back := by simp [hsplit]
    refine typeOf_of_last hc hsplit' hbears ?_
    exact fun last hlast => List.rel_of_pairwise_cons (List.pairwise_append.mp hone).2.1 hlast hbears
  constructor
  · exact fun htype other hother hbears => (hlater other hother hbears).symm.trans htype
  · intro hsame
    by_cases hexists : ∃ other ∈ after, other.bears name = true
    · obtain ⟨other, hother, hbears⟩ := hexists
      exact (hlater other hother hbears).trans (hsame other hother hbears)
    · refine typeOf_of_last hc hsplit hcol fun other hother => Bool.eq_false_iff.mpr fun hbears => ?_
      exact hexists ⟨other, hother, hbears⟩

/-- Of names that differ from each other at most one equals a given name. -/
theorem equals_false_of_equals {v w : Value} (hv : v.isKey = true) (hw : w.isKey = true)
    (hne : v.equals w = false) (h : v.equals name = true) : w.equals name = false :=
  Bool.eq_false_iff.mpr fun h' => by
    rw [Value.equals_trans hv h (Value.equals_symm hw h')] at hne
    cases hne

/-- A way to name columns that gives no two of them equal names. -/
structure Naming (columns : List Column) (naming : Column → Value) : Prop where
  keys : ∀ col ∈ columns, (naming col).isKey = true
  differ : columns.Pairwise fun a b => (naming a).equals (naming b) = false

section
variable {i : Nat} {hi : i < c.list.length}

/-- Where columns bear the names of two such ways, a column's own type stands under its one name iff no
later column of another type bears it as its other name. -/
theorem typeOf_naming_iff (hc : Coded c.list) (own far : Column → Value) (hown : Naming c.list own)
    (hfar : Naming c.list far)
    (hbears : ∀ col name, Column.bears col name = ((far col).equals name || (own col).equals name)) :
    c.typeOf (own c.list[i]) = c.list[i].type ↔
      ∀ other ∈ c.list.drop (i + 1), (far other).equals (own c.list[i]) = true →
        other.type = c.list[i].type := by
  have hsplit : c.list = c.list.take i ++ c.list[i] :: c.list.drop (i + 1) := by
    rw [List.getElem_cons_drop, List.take_append_drop]
  have hmem : ∀ other ∈ c.list.drop (i + 1), other ∈ c.list := fun _ => List.mem_of_mem_drop
  have hkey := hown.keys c.list[i] (List.getElem_mem hi)
  have hafter : (c.list[i] :: c.list.drop (i + 1)).Pairwise fun a b => (own a).equals (own b) = false :=
    (List.pairwise_append.mp (hsplit ▸ hown.differ)).2.1
  have hlater : ∀ other ∈ c.list.drop (i + 1),
      other.bears (own c.list[i]) = (far other).equals (own c.list[i]) := by
    intro other hother
    have hne := equals_false_of_equals hkey (hown.keys other (hmem other hother))
      (List.rel_of_pairwise_cons hafter hother) (Value.equals_self hkey)
    rw [hbears, hne, Bool.or_false]
  rw [typeOf_iff hc hsplit]
  · exact forall₂_congr fun other hother => by rw [hlater other hother]
  · rw [hbears, Value.equals_self hkey, Bool.or_true]
  · refine (hfar.differ.sublist (List.drop_sublist _ _)).imp_of_mem fun {a b} ha hb hne => ?_
    rw [hlater a ha, hlater b hb]
    exact equals_false_of_equals (hfar.keys a (hmem a ha)) (hfar.keys b (hmem b hb)) hne

/-- A column's own type stands under its code unless a later column has the code for its header. -/
theorem typeOf_code_iff (hc : Coded c.list) :
    c.typeOf c.list[i].code = c.list[i].type ↔ c.list[i].KeepsCode (c.list.drop (i + 1)) :=
  typeOf_naming_iff hc Column.code Column.header ⟨hc.codeKeys, hc.codes⟩
    ⟨hc.keys, hc.headers⟩ fun _ _ => rfl

/-- A column's own type stands under its header unless a later column has the header for its code. -/
theorem typeOf_header_iff (hc : Coded c.list) :
    c.typeOf c.list[i].header = c.list[i].type ↔ c.list[i].KeepsHeader (c.list.drop (i + 1)) :=
  typeOf_naming_iff hc Column.header Column.code ⟨hc.keys, hc.headers⟩
    ⟨hc.codeKeys, hc.codes⟩ fun _ _ => Bool.or_comm _ _

end

end Columns

end RowStore
