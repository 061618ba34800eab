import RowStore.Match
import RowStore.Proofs.Number.Numeral
import RowStore.Proofs.Number.Rational

/-!
# Values as they are compared

* `Value.asText_real_eq_int_iff` : a double has the text of an integer just if it equals it;
* `Match.Alike v w` : the two values find the same cells, which is that they are compared by one text;
* `Value.comparedText_numbers` : numbers are compared by their values, as far as integers have numerals.
-/

namespace RowStore

namespace Value

variable {m n : Int} {x : Binary64}

theorem asText_int_inj : (int m).asText = (int n).asText ↔ m = n := Text.ofString_inj.trans toString_int_inj

/-- A double is compared as an integer is just if it equals it. -/
theorem asText_real_eq_int_iff : (real x).asText = (int n).asText ↔ x.equalsInt n = true := by
  rw [asText, asText_int, Binary64.equalsInt]
  cases hintegral : x.isIntegral with
  | false =>
    -- a double that is no integer keeps its own text, with a point or an exponent
    refine iff_of_false (fun h => ?_) Bool.false_ne_true
    exact ne_toString_of_integerOf? x.integerOf?_text n (Text.ofString_inj.mp h)
  | true =>
    obtain ⟨m, hm⟩ := Binary64.exists_truncate? hintegral
    rw [if_pos rfl, hm, Bool.true_and, beq_iff_eq, Option.some.injEq]
    exact asText_int_inj

theorem comparedText_real : (real x).comparedText = .ok (real x).asText := comparedText_of_hasText rfl

theorem comparedText_int_of_not_hasNumeral (h : hasNumeral n = false) : (int n).comparedText = .error .malformed :=
  comparedText_of_not_hasText (hasText_int n ▸ h)

theorem comparedText_int_eq_ok_iff {t : Text} :
    (int n).comparedText = .ok t ↔ hasNumeral n = true ∧ t = Text.ofString (toString n) := by
  cases h : hasNumeral n with
  | false =>
    rw [comparedText_int_of_not_hasNumeral h]
    exact iff_of_false nofun fun hn => Bool.false_ne_true hn.1
  | true =>
    rw [comparedText_of_hasText (hasText_int n ▸ h), Except.ok.injEq, and_iff_right rfl]
    exact eq_comm

/-- An integer is compared as a double is just if the double stands for it: such integers have numerals. -/
theorem comparedText_int_eq_real_iff : (int n).comparedText = (real x).comparedText ↔ x.value? = some (n : ℚ) := by
  rw [comparedText_real, Binary64.value?_eq_intCast_iff]
  cases h : hasNumeral n with
  | false =>
    rw [comparedText_int_of_not_hasNumeral h]
    refine iff_of_false nofun fun hequals => ?_
    rw [hasNumeral_of_holds (Binary64.holds_of_equalsInt hequals)] at h
    cases h
  | true =>
    rw [comparedText_of_hasText (hasText_int n ▸ h), Except.ok.injEq]
    exact eq_comm.trans asText_real_eq_int_iff

end Value

namespace Match

/-- Two values that find the same cells: both can be compared, and a row passes the test for the one, in whatever
column, just if it passes the test for the other. -/
def Alike (v w : Value) : Prop :=
  ∃ t u, v.comparedText = .ok t ∧ w.comparedText = .ok u ∧
    ∀ (position : Nat) (row : Value), (Test.mk position t).holds row = (Test.mk position u).holds row

/-- Tests for two texts are passed by the same rows just if the texts are one. -/
theorem holds_alike_iff {t u : Text} :
    (∀ (position : Nat) (row : Value), (Test.mk position t).holds row = (Test.mk position u).holds row) ↔ t = u := by
  constructor
  · intro h
    -- the text itself is in a cell that passes its test
    have hcell : Except.ok (t == t) = Except.ok (t == u) := h 0 (.list [.text t])
    rw [Except.ok.injEq, beq_self_eq_true] at hcell
    exact eq_of_beq hcell.symm
  · intro h position row
    rw [h]

theorem alike_iff {v w : Value} : Alike v w ↔ ∃ t, v.comparedText = .ok t ∧ w.comparedText = .ok t := by
  constructor
  · rintro ⟨t, u, hv, hw, h⟩
    rw [← holds_alike_iff.mp h] at hw
    exact ⟨t, hv, hw⟩
  · rintro ⟨t, hv, hw⟩
    exact ⟨t, t, hv, hw, fun _ _ => rfl⟩

end Match

namespace Value

/-- Numbers are compared by their values. An integer that has a numeral is compared by it, and others cannot be
compared. An integer is compared by the text of just the doubles that stand for it, and by that of no other integer.
So it finds the cells that such a double finds, and those that its numeral finds. -/
theorem comparedText_numbers (n : Int) :
    (∀ t, (int n).comparedText = .ok t ↔ hasNumeral n = true ∧ t = Text.ofString (toString n)) ∧
    (hasNumeral n = false → (int n).comparedText = .error .malformed) ∧
    (∀ x : Binary64, (int n).comparedText = (real x).comparedText ↔ x.value? = some (n : ℚ)) ∧
    (∀ (m : Int) t, (int n).comparedText = .ok t → ((int m).comparedText = .ok t ↔ m = n)) ∧
    (∀ x : Binary64, Match.Alike (int n) (real x) ↔ x.value? = some (n : ℚ)) ∧
    (∀ t : Text, Match.Alike (int n) (text t) ↔ hasNumeral n = true ∧ t = Text.ofString (toString n)) := by
  have hreal : ∀ x : Binary64, Match.Alike (int n) (real x) ↔ x.value? = some (n : ℚ) := by
    intro x
    rw [Match.alike_iff, ← comparedText_int_eq_real_iff, comparedText_real]
    exact ⟨fun ⟨_, hn, hx⟩ => hn.trans hx.symm, fun h => ⟨_, h, rfl⟩⟩
  have htext : ∀ t : Text, Match.Alike (int n) (text t) ↔ hasNumeral n = true ∧ t = Text.ofString (toString n) := by
    intro t
    rw [Match.alike_iff, ← comparedText_int_eq_ok_iff]
    constructor
    · rintro ⟨_, hn, ⟨⟩⟩
      exact hn
    · intro hn
      exact ⟨t, hn, rfl⟩
  refine ⟨fun t => comparedText_int_eq_ok_iff, comparedText_int_of_not_hasNumeral,
    fun x => comparedText_int_eq_real_iff, fun m t hn => ⟨fun hm => ?_, fun h => h ▸ hn⟩, hreal, htext⟩
  obtain ⟨-, rfl⟩ := comparedText_int_eq_ok_iff.mp hn
  obtain ⟨-, heq⟩ := comparedText_int_eq_ok_iff.mp hm
  exact (toString_int_inj.mp (Text.ofString_inj.mp heq)).symm

/-- Ten is compared as the double 10.0 and as the text 10. -/
theorem comparedText_numbers_ten : ∃ x, Binary64.ofInt? 10 = some x ∧
    (int 10).comparedText = .ok "10" ∧ (int 10).comparedText = (real x).comparedText ∧
    Match.Alike (int 10) (real x) ∧ Match.Alike (int 10) (text "10") := by
  have hten : hasNumeral 10 = true := by decide +kernel
  obtain ⟨x, hx⟩ := Option.isSome_iff_exists.mp (show (Binary64.ofInt? 10).isSome = true by decide +kernel)
  have hvalue : x.value? = some ((10 : Int) : ℚ) := Binary64.value?_eq_intCast_iff.mpr
    (Binary64.equalsInt_of_ofInt? (Binary64.holds_of_le (by decide)) hx)
  obtain ⟨hok, -, hreal, -, hfinds, htext⟩ := comparedText_numbers 10
  exact ⟨x, hx, (hok _).mpr ⟨hten, rfl⟩, (hreal x).mpr hvalue, (hfinds x).mpr hvalue, (htext _).mpr ⟨hten, rfl⟩⟩

/-- The first integer that is too long to be written has no text to be compared by, not even with itself. -/
theorem comparedText_refuses_power : ¬ ∃ t, (int (10 ^ longestNumeral : Nat)).comparedText = .ok t := by
  rintro ⟨t, ht⟩
  rw [comparedText_int_of_not_hasNumeral hasNumeral_power] at ht
  cases ht

/-- The negative zero finds the cells that zero finds. -/
example : (real (.finite true 0 0 (by decide))).asText = (int 0).asText := by decide +kernel

end Value

end RowStore
