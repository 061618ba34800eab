import RowStore.Proofs.Number.Exact
import RowStore.Proofs.Query.Typed

/-!
# Integers and their numerals in conditions

A column of numbers is compared with an integer as it is, and with a text by the double that is read in it.

* `Literal.render_eq_toString_iff` : only the literal of an integer is written as the integer;
* `Literal.chosen_numeral_iff` : the numeral of an integer gives that literal just if a double holds the integer;
* `gives_numerals` : the literals of an integer and of its numeral, and the comparisons made of them.
-/

namespace RowStore.Query

namespace Literal

variable {n : Int}

/-- Only the literal of an integer is written as the integer. -/
theorem render_eq_toString_iff {l : Literal} (hl : l.IsFinite) :
    l.render = (toString n : String) ↔ l = integer n := by
  constructor
  · intro h
    cases l with
    | integer m =>
      have htext : toString m = toString n := Text.ofString_inj.mp h
      rw [toString_int_inj.mp htext]
    | decimal x => exact absurd (Text.ofString_inj.mp h) (ne_toString_of_integerOf? (x.isDecimal_text (hl x rfl)).2 n)
    | truth b =>
      have hword : integerOf? (if b then "true" else "false").toList = none := by cases b <;> rfl
      refine absurd (Text.ofString_inj.mp ?_) (ne_toString_of_integerOf? hword n)
      rw [← h]
      cases b <;> rfl
    | quoted t =>
      have hmem : CodePoint.char '\'' ∈ Text.ofString (toString n) := h ▸ List.mem_cons_self
      obtain ⟨c, hc, hquote⟩ := List.mem_map.mp hmem
      cases hquote
      exact absurd (isNumeralChar_toString n _ hc) (by decide)
  · rintro rfl
    rfl

/-- A double gives the literal of an integer just if it is that integer. -/
theorem ofReal_eq_integer_iff {x : Binary64} : ofReal x = integer n ↔ x.equalsInt n = true := by
  unfold ofReal Binary64.equalsInt
  cases hintegral : x.isIntegral with
  | false => exact iff_of_false nofun nofun
  | true =>
    rw [if_pos rfl, Bool.true_and, beq_iff_eq]
    cases x.truncate? with
    | none => exact iff_of_false nofun nofun
    | some m =>
      constructor
      · rintro ⟨⟩
        rfl
      · rintro ⟨⟩
        rfl

theorem ofReal_cases (x : Binary64) : (∃ n, ofReal x = integer n) ∨ ofReal x = decimal x := by
  unfold ofReal
  split
  · split
    · exact Or.inl ⟨_, rfl⟩
    · exact Or.inr rfl
  · exact Or.inr rfl

theorem realOf?_numeral (n : Int) : realOf? (.text (toString n : String)) = some (.ofNumeral n) := by
  have hblank : ∀ p ∈ Text.ofString (toString n), p.isOf Text.isBlank = false := by
    intro p hp
    obtain ⟨c, hc, rfl⟩ := List.mem_map.mp hp
    exact Text.isBlank_of_visible (visible_of_isNumeralChar (isNumeralChar_toString n c hc)).1
  have htrim : Text.trim (Value.plain (.text (toString n : String))) = Text.ofString (toString n) :=
    Text.trimBy_of_none hblank
  unfold realOf?
  dsimp only
  rw [htrim, Text.ofString, Text.chars?_ofChars, Option.bind_some, readReal?_toString]

/-- The numeral of an integer gives the literal of the integer just if a double holds it. -/
theorem chosen_numeral_iff :
    chosen (.text (toString n : String)) .number = integer n ↔ Binary64.Holds n := by
  rw [← Binary64.equalsInt_ofNumeral_iff]
  have hnumber : numberIn? (.text (toString n : String)) =
      ((some (Binary64.ofNumeral n)).filter Binary64.isFinite).map ofReal := by
    rw [← realOf?_numeral]
    rfl
  unfold chosen
  dsimp only
  rw [hnumber]
  by_cases hfinite : (Binary64.ofNumeral n).isFinite = true
  · rw [Option.filter_some, if_pos hfinite]
    exact ofReal_eq_integer_iff
  · rw [Option.filter_some, if_neg hfinite]
    refine iff_of_false nofun fun h => hfinite ?_
    rw [Binary64.equalsInt, Binary64.isIntegral, Bool.and_eq_true, Bool.and_eq_true] at h
    exact h.1.1

end Literal

/-- The comparison with the numeral of an integer is the one with the integer just if a double holds it. -/
theorem comparison_numeral_iff (code : Value) (n : Int) :
    Comparison.of code .number (.int n) = Comparison.of code .number (.text (toString n : String)) ↔
      Binary64.Holds n := by
  rw [← Literal.chosen_numeral_iff]
  constructor
  · intro h
    have hliteral := congrArg Comparison.literal h
    exact (Option.some.inj hliteral).symm
  · intro h
    rw [Comparison.of, Comparison.of, h]
    rfl

/-- A column of numbers is compared with the digits of an integer, unless the integer is too long to be written, and
with the same digits when their text is given just if a double holds the integer; doubles hold all integers up to
`2 ^ 53`. Just then a condition on such a column makes one comparison of the integer and of its text. -/
theorem gives_numerals (n : Int) :
    (hasNumeral n = true →
      ∃ l, (Literal.ofValue (.int n) .number).Gives (.ok l) ∧ l.render = (toString n : String)) ∧
    (hasNumeral n = false → (Literal.ofValue (.int n) .number).Gives (.error .malformed)) ∧
    (∃ l, (Literal.ofValue (.text (toString n : String)) .number).Gives (.ok l) ∧
      (l.render = (toString n : String) ↔ Binary64.Holds n)) ∧
    (Binary64.Holds n → hasNumeral n = true) ∧
    (n.natAbs ≤ 2 ^ (53 : Nat) → Binary64.Holds n) ∧
    ∀ c name col, columnOf? c name = some col → c.typeOf col.code = .number →
      (hasNumeral n = true → ∃ p, (comparison? c name (.int n)).Gives (.ok (some p))) ∧
      (hasNumeral n = false → (comparison? c name (.int n)).Gives (.error .malformed)) ∧
      ∃ p, (comparison? c name (.text (toString n : String))).Gives (.ok (some p)) ∧
        ((comparison? c name (.int n)).Gives (.ok (some p)) ↔ Binary64.Holds n) := by
  refine ⟨fun h => ⟨_, Literal.gives_ofValue (v := .int n) h _, rfl⟩,
    fun h => Literal.gives_ofValue_of_not (v := .int n) h _,
    ⟨_, Literal.gives_ofValue rfl _, ?_⟩, hasNumeral_of_holds, Binary64.holds_of_le, ?_⟩
  · exact (Literal.render_eq_toString_iff (Literal.isFinite_chosen _ _)).trans Literal.chosen_numeral_iff
  · intro c name col hcol htype
    have hgives : ∀ v : Value, v.hasText = true →
        (comparison? c name v).Gives (.ok (some (Comparison.of col.code .number v))) := by
      intro v hv
      have hcomparison := gives_comparison c (e := (name, v)) fun _ => hv
      rwa [hcol, Option.map_some, htype] at hcomparison
    have hrefused : hasNumeral n = false → (comparison? c name (.int n)).Gives (.error .malformed) :=
      gives_comparison?_of_not (e := (name, .int n)) (Option.isSome_of_eq_some hcol)
    refine ⟨fun h => ⟨_, hgives (.int n) h⟩, hrefused, _, hgives (.text _) rfl, ?_⟩
    rw [← comparison_numeral_iff col.code n]
    cases h : hasNumeral n with
    | true =>
      constructor
      · intro hsame
        exact Option.some.inj (Except.ok.inj ((hgives (.int n) h []).symm.trans (hsame [])))
      · intro hsame
        exact hsame ▸ hgives (.int n) h
    | false =>
      refine iff_of_false (fun hsame => nomatch ((hrefused h []).symm.trans (hsame []))) fun hsame => ?_
      have hnumeral := hasNumeral_of_holds ((comparison_numeral_iff col.code n).mp hsame)
      rw [h] at hnumeral
      cases hnumeral

/-- A column of numbers is compared alike with an integer at the end of the exact ones and with its text. -/
theorem gives_numerals_exact :
    (∃ l, (Literal.ofValue (.text "-9007199254740992") .number).Gives (.ok l) ∧
      l.render = ("-9007199254740992" : String)) ∧
    ∃ p, (comparison? ⟨[⟨.text "Age", .text "A", .number⟩], .text "id"⟩ (.text "Age")
        (.int (-9007199254740992))).Gives (.ok (some p)) ∧
      (comparison? ⟨[⟨.text "Age", .text "A", .number⟩], .text "id"⟩ (.text "Age")
        (.text "-9007199254740992")).Gives (.ok (some p)) := by
  obtain ⟨-, -, ⟨l, hl, hrender⟩, -, hholds, hcomparison⟩ := gives_numerals (-9007199254740992)
  have hholds := hholds (by decide)
  obtain ⟨-, -, p, hp, hsame⟩ := hcomparison ⟨[⟨.text "Age", .text "A", .number⟩], .text "id"⟩ (.text "Age")
    ⟨.text "Age", .text "A", .number⟩ rfl rfl
  exact ⟨⟨l, hl, hrender.mpr hholds⟩, p, hsame.mpr hholds, hp⟩

/-- The text of the first integer that doubles do not hold is taken for its neighbour. -/
theorem gives_numerals_rounds :
    (Literal.ofValue (.int 9007199254740993) .number).Gives (.ok (.integer 9007199254740993)) ∧
    (Literal.ofValue (.text "9007199254740993") .number).Gives (.ok (.integer 9007199254740992)) := by
  have hrounded : Literal.chosen (.text "9007199254740993") .number = .integer 9007199254740992 := by
    decide +kernel
  have hnumeral : hasNumeral 9007199254740993 = true := by decide +kernel
  exact ⟨Literal.gives_ofValue (v := .int _) hnumeral _, hrounded ▸ Literal.gives_ofValue rfl _⟩

end RowStore.Query
