import RowStore.Proofs.Number.Rational
import RowStore.Proofs.Query.Numerals
import RowStore.Proofs.Query.Pieces

/-!
# What a descriptor asks for

The parts of a descriptor and what they say, without a word of how they are written.

* `IsConstant type v k` : in a column of a type a value is compared as the constant `k`: a number by its
  value, a boolean, or a text;
* `Keeps R as bs` : `bs` are what those of `as` that are related to something are related to, in order;
* `Descriptor.Asks c d m` : a meaning says what a descriptor asks of the known columns;
* `isConstant_iff`, `asks_iff` : the chosen literal is the one constant of a value, and the clauses of a
  descriptor say what it asks, and nothing else does.
-/

namespace RowStore.Query

/-! ## Constants -/

/-- The double as which a value is read that is neither a boolean nor an integer: its own, or the one that
its text spells. -/
inductive Spells : Value → Binary64 → Prop
  | own (x : Binary64) : Spells (.real x) x
  | text {v : Value} {cs : List Char} {x : Binary64} (boolean : ∀ b, v ≠ .bool b) (integer : ∀ n, v ≠ .int n)
    (real : ∀ y, v ≠ .real y) (chars : (Text.trim v.plain).chars? = some cs)
    (reads : readReal? cs = some x) : Spells v x

/-- The constant of a number; one without a fraction is an integer. -/
inductive IsNumber : Value → Constant → Prop
  | integer (n : Int) : IsNumber (.int n) (.integer n)
  | whole {v : Value} {x : Binary64} {n : Int} (spells : Spells v x) (value : x.value? = some (n : ℚ)) :
    IsNumber v (.integer n)
  | fraction {v : Value} {x : Binary64} {r : ℚ} (spells : Spells v x) (value : x.value? = some r)
    (fraction : ∀ n : Int, r ≠ n) : IsNumber v (.decimal x.text.toList)

/-- A value that is a boolean, or of which the text names one in any case. -/
def IsTruth (v : Value) (b : Bool) : Prop := Text.lower (Text.trim v.plain) = (toString b : String)

/-- The constant as which a value is compared in a column of a type. -/
inductive IsConstant (type : TypeTag) (v : Value) : Constant → Prop
  | number {k : Constant} (column : type = .number) (number : IsNumber v k) : IsConstant type v k
  | truth {b : Bool} (column : type = .boolean) (truth : IsTruth v b) : IsConstant type v (.truth b)
  | quoted (number : type = .number → ∀ k, ¬ IsNumber v k) (truth : type = .boolean → ∀ b, ¬ IsTruth v b) :
    IsConstant type v (.quoted v.plain)

section
variable {v : Value} {x : Binary64} {k : Constant} {n : Int}

theorem realOf?_of_ne (h : ∀ y, v ≠ .real y) :
    Literal.realOf? v = (Text.trim v.plain).chars?.bind readReal? := by
  cases v with
  | real y => exact absurd rfl (h y)
  | _ => rfl

theorem spells_iff (hbool : ∀ b, v ≠ .bool b) (hint : ∀ n, v ≠ .int n) :
    Spells v x ↔ Literal.realOf? v = some x := by
  by_cases hreal : ∃ y, v = .real y
  · obtain ⟨y, rfl⟩ := hreal
    constructor
    · intro h
      cases h with
      | own => rfl
      | text _ _ hreal => exact absurd rfl (hreal y)
    · intro h
      obtain rfl : y = x := Option.some.inj h
      exact .own y
  · have hreal : ∀ y, v ≠ .real y := fun y h => hreal ⟨y, h⟩
    rw [realOf?_of_ne hreal, Option.bind_eq_some_iff]
    constructor
    · intro h
      cases h with
      | own => exact absurd rfl (hreal x)
      | text _ _ _ chars reads => exact ⟨_, chars, reads⟩
    · rintro ⟨cs, hchars, hreads⟩
      exact .text hbool hint hreal hchars hreads

theorem Spells.isNumberless (h : Spells v x) : (∀ b, v ≠ .bool b) ∧ ∀ n, v ≠ .int n := by
  cases h with
  | own x => exact ⟨nofun, nofun⟩
  | text hbool hint => exact ⟨hbool, hint⟩

/-- The literal of a double is the constant of its value. -/
theorem constant_ofReal_iff (hx : x.isFinite = true) :
    (Literal.ofReal x).constant = k ↔
      (∃ n : Int, k = .integer n ∧ x.value? = some (n : ℚ)) ∨
        ∃ r, k = .decimal x.text.toList ∧ x.value? = some r ∧ ∀ n : Int, r ≠ n := by
  obtain ⟨r, hr⟩ : ∃ r, x.value? = some r := by
    cases x with
    | finite negative m q h => exact ⟨_, Binary64.value?_finite negative h⟩
    | _ => cases hx
  by_cases hwhole : ∃ n : Int, r = n
  · obtain ⟨n, rfl⟩ := hwhole
    have hliteral : Literal.ofReal x = .integer n :=
      Literal.ofReal_eq_integer_iff.mpr (Binary64.value?_eq_intCast_iff.mp hr)
    rw [hliteral, hr]
    constructor
    · rintro rfl
      exact Or.inl ⟨n, rfl, rfl⟩
    · rintro (⟨m, rfl, hm⟩ | ⟨_, -, ⟨⟩, hnone⟩)
      · rw [Literal.constant, Rat.intCast_inj.mp (Option.some.inj hm)]
      · exact absurd rfl (hnone n)
  · have hnone : ∀ n : Int, r ≠ n := fun n h => hwhole ⟨n, h⟩
    have hliteral : Literal.ofReal x = .decimal x := by
      rcases Literal.ofReal_cases x with ⟨n, h⟩ | h
      · have hn := Binary64.value?_eq_intCast_iff.mpr (Literal.ofReal_eq_integer_iff.mp h)
        exact absurd (Option.some.inj (hr.symm.trans hn)) (hnone n)
      · exact h
    rw [hliteral, hr]
    constructor
    · rintro rfl
      exact Or.inr ⟨r, rfl, rfl, hnone⟩
    · rintro (⟨m, -, hm⟩ | ⟨_, rfl, -⟩)
      · exact absurd (Option.some.inj hm) (hnone m)
      · rfl

theorem numberIn?_of_ne (hbool : ∀ b, v ≠ .bool b) (hint : ∀ n, v ≠ .int n) :
    Literal.numberIn? v = ((Literal.realOf? v).filter Binary64.isFinite).map Literal.ofReal := by
  cases v with
  | bool b => exact absurd rfl (hbool b)
  | int n => exact absurd rfl (hint n)
  | _ => rfl

/-- Of other values than booleans and integers the number is the finite double that they spell. -/
theorem exists_numberIn?_iff (hbool : ∀ b, v ≠ .bool b) (hint : ∀ n, v ≠ .int n) :
    (∃ l, Literal.numberIn? v = some l ∧ l.constant = k) ↔
      ∃ x, Spells v x ∧ x.isFinite = true ∧ (Literal.ofReal x).constant = k := by
  simp only [numberIn?_of_ne hbool hint, Option.map_eq_some_iff, Option.filter_eq_some_iff, spells_iff hbool hint]
  constructor
  · rintro ⟨_, ⟨x, ⟨hx, hfinite⟩, rfl⟩, hk⟩
    exact ⟨x, hx, hfinite, hk⟩
  · rintro ⟨x, hx, hfinite, hk⟩
    exact ⟨_, ⟨x, ⟨hx, hfinite⟩, rfl⟩, hk⟩

/-- The number that is chosen for a value is its constant. -/
theorem isNumber_iff : IsNumber v k ↔ ∃ l, Literal.numberIn? v = some l ∧ l.constant = k := by
  constructor
  · intro h
    cases h with
    | integer n => exact ⟨_, rfl, rfl⟩
    | whole spells value =>
      have hfinite := Binary64.isFinite_of_value? value
      exact (exists_numberIn?_iff spells.isNumberless.1 spells.isNumberless.2).mpr
        ⟨_, spells, hfinite, (constant_ofReal_iff hfinite).mpr (Or.inl ⟨_, rfl, value⟩)⟩
    | fraction spells value fraction =>
      have hfinite := Binary64.isFinite_of_value? value
      exact (exists_numberIn?_iff spells.isNumberless.1 spells.isNumberless.2).mpr
        ⟨_, spells, hfinite, (constant_ofReal_iff hfinite).mpr (Or.inr ⟨_, rfl, value, fraction⟩)⟩
  · intro h
    by_cases hbool : ∃ b, v = .bool b
    · obtain ⟨b, rfl⟩ := hbool
      obtain ⟨_, ⟨⟩, -⟩ := h
    by_cases hint : ∃ n, v = .int n
    · obtain ⟨n, rfl⟩ := hint
      obtain ⟨_, ⟨⟩, rfl⟩ := h
      exact .integer n
    obtain ⟨x, hspells, hfinite, hk⟩ := (exists_numberIn?_iff (not_exists.mp hbool) (not_exists.mp hint)).mp h
    rcases (constant_ofReal_iff hfinite).mp hk with ⟨n, rfl, hvalue⟩ | ⟨r, rfl, hvalue, hnone⟩
    · exact .whole hspells hvalue
    · exact .fraction hspells hvalue hnone

theorem IsNumber.unique {k' : Constant} (h : IsNumber v k) (h' : IsNumber v k') : k = k' := by
  obtain ⟨l, hl, rfl⟩ := isNumber_iff.mp h
  obtain ⟨l', hl', rfl⟩ := isNumber_iff.mp h'
  rw [Option.some.inj (hl.symm.trans hl')]

theorem isTruth_iff {b : Bool} : IsTruth v b ↔ Literal.truthOf? v = some b := by
  have hword : ∀ word : Text, word = (toString b : String) ↔
      (if word = "true" then some true else if word = "false" then some false else none) = some b := by
    intro word
    by_cases htrue : word = "true"
    · subst htrue
      cases b <;> decide
    · by_cases hfalse : word = "false"
      · subst hfalse
        cases b <;> decide
      · rw [if_neg htrue, if_neg hfalse]
        cases b with
        | true => exact iff_of_false htrue nofun
        | false => exact iff_of_false hfalse nofun
  by_cases hbool : ∃ b', v = .bool b'
  · obtain ⟨b', rfl⟩ := hbool
    have hplain : ∀ b' : Bool, Text.lower (Text.trim (Value.bool b').plain) = (toString b' : String) := by
      decide +kernel
    have htext : ∀ b' b : Bool, Text.ofString (toString b') = Text.ofString (toString b) ↔ b' = b := by
      decide
    rw [IsTruth, hplain, htext, Literal.truthOf?, Option.some.injEq]
  · have htruth : Literal.truthOf? v = (if Text.lower (Text.trim v.plain) = "true" then some true
        else if Text.lower (Text.trim v.plain) = "false" then some false else none) := by
      cases v with
      | bool b' => exact absurd ⟨b', rfl⟩ hbool
      | _ => rfl
    rw [IsTruth, htruth]
    exact hword _

theorem IsTruth.unique {b b' : Bool} (h : IsTruth v b) (h' : IsTruth v b') : b = b' :=
  Option.some.inj ((isTruth_iff.mp h).symm.trans (isTruth_iff.mp h'))

theorem IsConstant.unique {type : TypeTag} {k' : Constant} (h : IsConstant type v k) (h' : IsConstant type v k') :
    k = k' := by
  cases h with
  | number column number =>
    cases h' with
    | number _ number' => exact number.unique number'
    | truth column' => cases column.symm.trans column'
    | quoted hnumber => exact absurd number (hnumber column _)
  | truth column truth =>
    cases h' with
    | number column' => cases column.symm.trans column'
    | truth _ truth' => rw [truth.unique truth']
    | quoted _ htruth => exact absurd truth (htruth column _)
  | quoted hnumber htruth =>
    cases h' with
    | number column' number' => exact absurd number' (hnumber column' _)
    | truth column' truth' => exact absurd truth' (htruth column' _)
    | quoted => rfl

theorem isConstant_chosen (v : Value) (type : TypeTag) : IsConstant type v (Literal.chosen v type).constant := by
  cases type with
  | number =>
    rw [Literal.chosen]
    cases hl : Literal.numberIn? v with
    | some l => exact .number rfl (isNumber_iff.mpr ⟨l, hl, rfl⟩)
    | none =>
      refine .quoted (fun _ k hk => ?_) nofun
      obtain ⟨l, hsome, -⟩ := isNumber_iff.mp hk
      cases hl.symm.trans hsome
  | boolean =>
    rw [Literal.chosen]
    cases hb : Literal.truthOf? v with
    | some b => exact .truth rfl (isTruth_iff.mpr hb)
    | none => exact .quoted nofun fun _ b hb' => by cases hb.symm.trans (isTruth_iff.mp hb')
  | _ => exact .quoted nofun nofun

/-- The literal that is chosen for a value is its one constant. -/
theorem isConstant_iff {type : TypeTag} : IsConstant type v k ↔ (Literal.chosen v type).constant = k := by
  constructor
  · intro h
    exact (isConstant_chosen v type).unique h
  · rintro rfl
    exact isConstant_chosen v type

end

/-! ## Parts that are kept -/

/-- The parts of a list that are related to something, and what they are related to, in order. -/
inductive Keeps {α β : Type} (R : α → β → Prop) : List α → List β → Prop
  | nil : Keeps R [] []
  | keep {a : α} {b : β} {as : List α} {bs : List β} (related : R a b) (rest : Keeps R as bs) :
    Keeps R (a :: as) (b :: bs)
  | drop {a : α} {as : List α} {bs : List β} (unrelated : ∀ b, ¬ R a b) (rest : Keeps R as bs) :
    Keeps R (a :: as) bs

/-- Where a function says what a part is related to, the function says what is kept. -/
theorem keeps_iff {α β : Type} {R : α → β → Prop} {f : α → Option β} {as : List α} {bs : List β}
    (h : ∀ a ∈ as, ∀ b, R a b ↔ f a = some b) : Keeps R as bs ↔ bs = as.filterMap f := by
  induction as generalizing bs with
  | nil =>
    constructor
    · rintro ⟨⟩
      rfl
    · rintro rfl
      exact .nil
  | cons a rest ih =>
    obtain ⟨ha, hrest⟩ := List.forall_mem_cons.mp h
    cases hf : f a with
    | none =>
      have hnone : ∀ b, ¬ R a b := fun b hb => nomatch hf.symm.trans ((ha b).mp hb)
      rw [List.filterMap_cons_none hf, ← ih hrest]
      constructor
      · intro hkeeps
        cases hkeeps with
        | keep related => exact absurd related (hnone _)
        | drop _ rest => exact rest
      · exact .drop hnone
    | some b =>
      have hsome : R a b := (ha b).mpr hf
      rw [List.filterMap_cons_some hf]
      constructor
      · intro hkeeps
        cases hkeeps with
        | keep related rest =>
          obtain rfl : b = _ := Option.some.inj (hf.symm.trans ((ha _).mp related))
          rw [(ih hrest).mp rest]
        | drop unrelated => exact absurd hsome (unrelated b)
      · rintro rfl
        exact .keep hsome ((ih hrest).mpr rfl)

/-! ## Descriptors -/

/-- A predicate says what a condition on a known header asks: that the column is empty if the value is
null, and that it equals the constant of the value otherwise. -/
structure Predicate.Asked (c : Columns) (e : Value × Value) (p : Predicate) : Prop where
  code : wordOf? c e.1 = some p.code
  null : p.constant = none ↔ e.2 = .null
  constant : ∀ k ∈ p.constant, IsConstant (c.typeOf (.text p.code)) e.2 k

/-- The name and the direction of an order entry: a name alone, or a sequence that begins with a name and
goes on with a direction. -/
inductive Orders : Value → Value → Option Value → Prop
  | bare (t : Text) : Orders (.text t) (.text t) none
  | single {e name : Value} (sequence : ∀ t, e ≠ .text t) (items : e.items? = some [name]) : Orders e name none
  | directed {e name direction : Value} {rest : List Value} (sequence : ∀ t, e ≠ .text t)
    (items : e.items? = some (name :: direction :: rest)) : Orders e name (some direction)

/-- An order term says what an entry with a known header asks; only the two words for directions say one,
in any case. -/
structure OrderTerm.Asked (c : Columns) (e : Value) (o : OrderTerm) : Prop where
  entry : ∃ name direction, Orders e name direction ∧ wordOf? c name = some o.code ∧
    ∀ d : Direction, o.direction = some d ↔ ∃ t, direction = some (.text t) ∧ Text.upper t = d.word

/-- What a descriptor asks of the known columns, part by part. -/
structure Descriptor.Asks (c : Columns) (d : Descriptor) (m : Meaning) : Prop where
  select : Keeps (fun name code => wordOf? c name = some code) (partsOf d.select) m.select
  predicates : Keeps (Predicate.Asked c) (entriesOf d.conditions) m.predicates
  order : Keeps (OrderTerm.Asked c) (partsOf d.order) m.order
  limit : ∀ n, m.limit = some n ↔ d.limit = .int n ∧ 0 < n
  offset : ∀ n, m.offset = some n ↔ d.offset = .int n ∧ 0 ≤ n

namespace Clauses

/-- What clauses say. -/
def meaning (c : Clauses) : Meaning :=
  ⟨c.select, c.comparisons.map Comparison.predicate, c.order, c.limit, c.offset⟩

end Clauses

section
variable {c : Columns}

theorem asked_comparisonOf?_iff {e : Value × Value} {p : Predicate} :
    Predicate.Asked c e p ↔ (comparisonOf? c e).map Comparison.predicate = some p := by
  obtain ⟨code, constant⟩ := p
  unfold comparisonOf?
  cases hword : wordOf? c e.1 with
  | none => exact iff_of_false (fun h => absurd (hword.symm.trans h.code) nofun) nofun
  | some w =>
    have hnull : e.2.isNull = true ↔ e.2 = .null := by
      cases e.2 <;> simp [Value.isNull]
    rw [Option.map_some, Option.map_some, Option.some.injEq, Comparison.predicate, Predicate.mk.injEq]
    cases h : e.2.isNull with
    | true =>
      have hvalue := hnull.mp h
      rw [if_pos rfl, Option.map_none]
      constructor
      · intro hp
        exact ⟨Option.some.inj (hword.symm.trans hp.code), (hp.null.mpr hvalue).symm⟩
      · rintro ⟨rfl, rfl⟩
        exact ⟨hword, iff_of_true rfl hvalue, nofun⟩
    | false =>
      have hvalue : e.2 ≠ .null := fun heq => by
        rw [hnull.mpr heq] at h
        cases h
      rw [if_neg Bool.false_ne_true, Option.map_some]
      constructor
      · intro hp
        obtain rfl : w = code := Option.some.inj (hword.symm.trans hp.code)
        refine ⟨rfl, ?_⟩
        cases hk : constant with
        | none => exact absurd (hp.null.mp hk) hvalue
        | some k => rw [isConstant_iff.mp (hp.constant k hk)]
      · rintro ⟨rfl, rfl⟩
        refine ⟨hword, iff_of_false nofun hvalue, ?_⟩
        rintro _ ⟨⟩
        exact isConstant_iff.mpr rfl

/-- What a sequence of items orders by. -/
theorem orders_items_iff {e name : Value} {d : Option Value} {items : List Value} (hsequence : ∀ t, e ≠ .text t)
    (hitems : e.items? = some items) :
    Orders e name d ↔ (d = none ∧ items = [name]) ∨ ∃ v rest, d = some v ∧ items = name :: v :: rest := by
  constructor
  · intro h
    cases h with
    | bare t => exact absurd rfl (hsequence t)
    | single _ h => exact Or.inl ⟨rfl, Option.some.inj (hitems.symm.trans h)⟩
    | directed _ h => exact Or.inr ⟨_, _, rfl, Option.some.inj (hitems.symm.trans h)⟩
  · rintro (⟨rfl, rfl⟩ | ⟨v, rest, rfl, rfl⟩)
    · exact .single hsequence hitems
    · exact .directed hsequence hitems

theorem orderParts_of_items {e : Value} {items : List Value} (hsequence : ∀ t, e ≠ .text t)
    (hitems : e.items? = some items) : orderParts e = orderParts (.list items) := by
  cases e with
  | text t => exact absurd rfl (hsequence t)
  | _ => cases hitems <;> rfl

theorem orderParts_of_items_eq_none {e : Value} (hitems : e.items? = none) :
    orderParts e = .error .unsuitable := by
  cases e with
  | text | list | tuple | mapping => cases hitems
  | _ => rfl

/-- The parts of an order entry; a missing direction is a null one. -/
theorem orders_iff {e name : Value} {direction : Value} :
    orderParts e = .ok (name, direction) ↔
      ∃ d : Option Value, Orders e name d ∧ direction = d.getD .null := by
  by_cases htext : ∃ t, e = .text t
  · obtain ⟨t, rfl⟩ := htext
    constructor
    · rintro ⟨⟩
      exact ⟨none, .bare t, rfl⟩
    · rintro ⟨d, hd, rfl⟩
      cases hd with
      | bare => rfl
      | single sequence => exact absurd rfl (sequence t)
      | directed sequence => exact absurd rfl (sequence t)
  have hsequence := not_exists.mp htext
  cases hitems : e.items? with
  | none =>
    rw [orderParts_of_items_eq_none hitems]
    refine iff_of_false (fun h => by cases h) ?_
    rintro ⟨d, hd, -⟩
    cases hd with
    | bare t => exact hsequence t rfl
    | single _ items => cases hitems.symm.trans items
    | directed _ items => cases hitems.symm.trans items
  | some items =>
    simp only [orderParts_of_items hsequence hitems, orders_items_iff hsequence hitems]
    rcases items with _ | ⟨first, _ | ⟨second, rest⟩⟩
    · refine iff_of_false (fun h => by cases h) ?_
      rintro ⟨d, ⟨-, ⟨⟩⟩ | ⟨_, _, -, ⟨⟩⟩, -⟩
    · constructor
      · rintro ⟨⟩
        exact ⟨none, Or.inl ⟨rfl, rfl⟩, rfl⟩
      · rintro ⟨_, ⟨rfl, ⟨⟩⟩ | ⟨_, _, -, ⟨⟩⟩, rfl⟩
        rfl
    · constructor
      · rintro ⟨⟩
        exact ⟨some _, Or.inr ⟨_, _, rfl, rfl⟩, rfl⟩
      · rintro ⟨_, ⟨-, ⟨⟩⟩ | ⟨_, _, rfl, ⟨⟩⟩, rfl⟩
        rfl

theorem directionOf?_text_iff {t : Text} {d : Direction} :
    directionOf? (.text t) = some d ↔ Text.upper t = d.word := by
  rw [directionOf?]
  by_cases hup : Text.upper t = Direction.ascending.word
  · rw [if_pos hup, hup]
    cases d <;> decide
  rw [if_neg hup]
  by_cases hdown : Text.upper t = Direction.descending.word
  · rw [if_pos hdown, hdown]
    cases d <;> decide
  rw [if_neg hdown]
  cases d with
  | ascending => exact iff_of_false (Option.some_ne_none _).symm hup
  | descending => exact iff_of_false (Option.some_ne_none _).symm hdown

theorem directionOf?_iff {direction : Option Value} {d : Direction} :
    directionOf? (direction.getD .null) = some d ↔
      ∃ t, direction = some (.text t) ∧ Text.upper t = d.word := by
  rcases direction with _ | v
  · refine iff_of_false (Option.some_ne_none _).symm ?_
    rintro ⟨_, ⟨⟩, -⟩
  rw [Option.getD_some]
  cases v with
  | text t =>
    rw [directionOf?_text_iff]
    constructor
    · intro h
      exact ⟨t, rfl, h⟩
    · rintro ⟨_, ⟨⟩, h⟩
      exact h
  | _ =>
    refine iff_of_false (Option.some_ne_none _).symm ?_
    rintro ⟨_, ⟨⟩, -⟩

theorem asked_termOf?_iff {e : Value} (he : ∃ p, orderParts e = .ok p) {o : OrderTerm} :
    OrderTerm.Asked c e o ↔ termOf? c e = some o := by
  obtain ⟨⟨name, direction⟩, hp⟩ := he
  have hterm : termOf? c e = (wordOf? c name).bind fun code => some ⟨code, directionOf? direction⟩ := by
    rw [termOf?, hp]
    rfl
  obtain ⟨d, hd, rfl⟩ := orders_iff.mp hp
  rw [hterm, Option.bind_eq_some_iff]
  constructor
  · rintro ⟨name', d', hd', hword, hdirection⟩
    have hsame := hp.symm.trans (orders_iff.mpr ⟨d', hd', rfl⟩)
    obtain ⟨rfl, hnull⟩ := Prod.mk.inj (Except.ok.inj hsame)
    refine ⟨_, hword, ?_⟩
    obtain ⟨code, direction⟩ := o
    rw [hnull]
    refine congrArg some (congrArg (OrderTerm.mk code) (Option.ext fun d => ?_))
    exact directionOf?_iff.trans (hdirection d).symm
  · rintro ⟨code, hword, ⟨⟩⟩
    exact ⟨name, d, hd, hword, fun _ => directionOf?_iff⟩

/-- The clauses of a descriptor of the right form say what it asks, and nothing else does. -/
theorem asks_iff (c : Columns) {d : Descriptor} (hd : d.IsFormed) {m : Meaning} :
    d.Asks c m ↔ m = (askedClauses c d).meaning := by
  have hselect {codes : List Text} : Keeps (fun name code => wordOf? c name = some code) (partsOf d.select) codes ↔
      codes = (partsOf d.select).filterMap (wordOf? c) := keeps_iff fun _ _ _ => Iff.rfl
  have hpredicates {predicates : List Predicate} : Keeps (Predicate.Asked c) (entriesOf d.conditions) predicates ↔
      predicates = ((entriesOf d.conditions).filterMap (comparisonOf? c)).map Comparison.predicate := by
    rw [List.map_filterMap]
    exact keeps_iff fun _ _ _ => asked_comparisonOf?_iff
  have horder {order : List OrderTerm} : Keeps (OrderTerm.Asked c) (partsOf d.order) order ↔
      order = (partsOf d.order).filterMap (termOf? c) :=
    keeps_iff fun e he _ => asked_termOf?_iff (hd.entry e he)
  constructor
  · intro h
    have hlimit : m.limit = limitOf? d.limit :=
      Option.ext fun n => (h.limit n).trans limitOf?_eq_some_iff.symm
    have hoffset : m.offset = offsetOf? d.offset :=
      Option.ext fun n => (h.offset n).trans offsetOf?_eq_some_iff.symm
    obtain ⟨select, predicates, order, limit, offset⟩ := m
    rw [Clauses.meaning, askedClauses, Meaning.mk.injEq]
    exact ⟨hselect.mp h.select, hpredicates.mp h.predicates, horder.mp h.order, hlimit, hoffset⟩
  · rintro rfl
    exact ⟨hselect.mpr rfl, hpredicates.mpr rfl, horder.mpr rfl, fun _ => limitOf?_eq_some_iff,
      fun _ => offsetOf?_eq_some_iff⟩

end

end RowStore.Query
