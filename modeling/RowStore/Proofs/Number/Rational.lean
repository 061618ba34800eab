import Mathlib.Algebra.Order.Field.Basic
import Mathlib.Algebra.Order.Field.Rat
import Mathlib.Algebra.Order.Ring.Abs
import RowStore.Proofs.Number.Exact

/-!
# The numbers that doubles stand for

* `Binary64.value?` : the rational number that a finite double stands for;
* `value?_eq_intCast_iff` : it is an integer just if the double equals that integer;
* `value?_times_two_pow`, `times_two_pow_eq_infinite` : a double times a power of two is exactly the product, and
  infinite where the product is beyond the finite doubles;
* `isSome_ofInt?_two_pow_iff` : the powers of two that doubles reach;
* `Value.number?` : the number that a value stands for.
-/

namespace RowStore

namespace Binary64

variable {m q : Nat} {n : Int} {x : Binary64} {v : ℚ}

/-- The number that a finite double stands for. -/
def value? (x : Binary64) : Option ℚ := x.signedUnits?.map fun (units : Int) => (units : ℚ) / unitsPerOne

theorem cast_unitsPerOne_pos : (0 : ℚ) < unitsPerOne := Nat.cast_pos.mpr unitsPerOne_pos

theorem value?_finite (negative : Bool) (h : Canonical m q) : (finite negative m q h).value? =
    some ((if negative then -1 else 1) * ((m * 2 ^ q : Nat) : ℚ) / unitsPerOne) := by
  rw [value?, signedUnits?]
  cases negative with
  | false => simp only [Option.map_some, Bool.false_eq_true, if_false, one_mul, Int.cast_natCast]
  | true => simp only [Option.map_some, if_true, neg_one_mul, Int.cast_neg, Int.cast_natCast]

theorem isFinite_of_value? (h : x.value? = some v) : x.isFinite = true := by
  cases x with
  | finite => rfl
  | _ => cases h

/-- A double stands for an integer just if it equals it. -/
theorem value?_eq_intCast_iff : x.value? = some (n : ℚ) ↔ x.equalsInt n = true := by
  have hunits : x.equalsInt n = true ↔ x.signedUnits? = some (n * unitsPerOne) := by
    rw [equalsInt_iff]
    cases x with
    | nan payload => exact iff_of_false nofun nofun
    | infinite negative => cases negative <;> exact iff_of_false nofun nofun
    | finite negative m q h =>
      rw [place?_finite, signedUnits?, Option.some.injEq, Option.some.injEq, Prod.mk.injEq, and_iff_right rfl]
  rw [hunits, value?, Option.map_eq_some_iff]
  simp only [div_eq_iff cast_unitsPerOne_pos.ne']
  constructor
  · rintro ⟨units, hsome, hvalue⟩
    rw [hsome]
    exact congrArg some (by exact_mod_cast hvalue)
  · intro hsome
    exact ⟨_, hsome, by rw [Int.cast_mul, Int.cast_natCast]⟩

/-! ## Times a power of two -/

theorem times_finite (negative : Bool) (h : Canonical m q) (n : Nat) :
    (finite negative m q h).times n = ofRatio negative (m * 2 ^ q * n) unitsPerOne := rfl

theorem exists_times_two_pow (negative : Bool) (h : Canonical m q) {j : Nat}
    (hlt : m * 2 ^ q * 2 ^ j < 2 ^ topExponent) :
    ∃ m' q' h', (finite negative m q h).times (2 ^ j) = finite negative m' q' h' ∧
      m' * 2 ^ q' = m * 2 ^ q * 2 ^ j := by
  rw [Nat.mul_assoc, ← Nat.pow_add] at hlt ⊢
  obtain ⟨m', q', hcanonical, heq⟩ := exists_canonical_of_lt h.1 hlt
  have hratio : m * 2 ^ q * 2 ^ j * unitsPerOne = m' * 2 ^ q' * unitsPerOne := by
    rw [heq, Nat.pow_add, Nat.mul_assoc m]
  refine ⟨m', q', hcanonical, ?_, heq⟩
  rw [times_finite, ofRatio_of_canonical negative unitsPerOne_pos hcanonical hratio]

/-- Whether a product with a power of two is below those that overflow shows in its units. -/
theorem abs_mul_two_pow_lt_iff (negative : Bool) (h : Canonical m q) (hv : (finite negative m q h).value? = some v)
    (j : Nat) : |v| * 2 ^ j < 2 ^ (1024 : Nat) ↔ m * 2 ^ q * 2 ^ j < 2 ^ topExponent := by
  obtain ⟨u, hu, hunits⟩ := exists_exponent
  rw [value?_finite, Option.some.injEq] at hv
  generalize 1024 = b at hu ⊢
  have habs : |v| = (m * 2 ^ q : Nat) / unitsPerOne := by
    have hsign : |if negative then (-1 : ℚ) else 1| = 1 := by
      cases negative with
      | false => exact abs_one
      | true => exact (abs_neg 1).trans abs_one
    rw [← hv, abs_div, abs_mul, hsign, one_mul, abs_of_pos cast_unitsPerOne_pos, Nat.abs_cast]
  rw [habs, div_mul_eq_mul_div, div_lt_iff₀ cast_unitsPerOne_pos, ← hu, hunits, Nat.pow_add]
  exact_mod_cast Iff.rfl

/-- A double times a power of two is exactly the product, unless that is beyond the finite doubles. -/
theorem value?_times_two_pow (hv : x.value? = some v) {j : Nat} (hlt : |v| * 2 ^ j < 2 ^ (1024 : Nat)) :
    (x.times (2 ^ j)).value? = some (v * 2 ^ j) := by
  cases x with
  | nan payload => cases hv
  | infinite negative => cases hv
  | finite negative m q h =>
    rw [abs_mul_two_pow_lt_iff negative h hv] at hlt
    obtain ⟨m', q', h', htimes, heq⟩ := exists_times_two_pow negative h hlt
    rw [value?_finite, Option.some.injEq] at hv
    rw [htimes, value?_finite, heq, ← hv, Nat.cast_mul (m * 2 ^ q), Nat.cast_pow, Nat.cast_ofNat, ← mul_assoc,
      mul_div_right_comm]

/-- A product beyond the finite doubles is infinite. -/
theorem times_two_pow_eq_infinite (hv : x.value? = some v) {j : Nat} (hle : 2 ^ (1024 : Nat) ≤ |v| * 2 ^ j) :
    ∃ negative, x.times (2 ^ j) = infinite negative := by
  cases x with
  | nan payload => cases hv
  | infinite negative => cases hv
  | finite negative m q h =>
    rw [← not_lt, abs_mul_two_pow_lt_iff negative h hv, not_lt] at hle
    have hquotient : m * 2 ^ q * 2 ^ j * unitsPerOne / unitsPerOne = m * 2 ^ q * 2 ^ j :=
      Nat.mul_div_cancel _ unitsPerOne_pos
    rw [times_finite]
    exact ⟨negative, ofRatio_of_le negative (by rw [hquotient]; exact hle)⟩

/-- An integer has a double near it unless it rounds to infinity. -/
theorem isSome_ofInt?_iff :
    (ofInt? n).isSome = true ↔ ∀ negative, ofRatio (decide (n < 0)) n.natAbs 1 ≠ infinite negative := by
  unfold ofInt?
  generalize ofRatio (decide (n < 0)) n.natAbs 1 = x
  cases x with
  | nan payload => exact iff_of_true rfl nofun
  | infinite negative => exact iff_of_false nofun fun h => h negative rfl
  | finite negative m q h => exact iff_of_true rfl nofun

/-- The powers of two that doubles reach. -/
theorem isSome_ofInt?_two_pow_iff {j : Nat} : (ofInt? (2 ^ j)).isSome = true ↔ j < 1024 := by
  obtain ⟨u, hu, hunits⟩ := exists_exponent
  have habs : ((2 : Int) ^ j).natAbs = 2 ^ j := Int.natAbs_pow 2 j
  have hamount : 2 ^ j * unitsPerOne = 1 * 2 ^ (j + u) := by rw [hunits, Nat.one_mul, Nat.pow_add]
  rw [isSome_ofInt?_iff]
  constructor
  · intro hfinite
    refine Nat.lt_of_not_le fun hle => hfinite _ (ofRatio_of_le _ ?_)
    rw [habs, Nat.div_one, hunits, ← Nat.pow_add]
    exact Nat.pow_le_pow_right (by decide) (by omega)
  · intro hj
    have hlt : 1 * 2 ^ (j + u) < 2 ^ topExponent := by
      rw [Nat.one_mul]
      exact Nat.pow_lt_pow_right (by decide) (by omega)
    obtain ⟨m, q, hcanonical, heq⟩ := exists_canonical_of_lt (by decide) hlt
    have hratio : ((2 : Int) ^ j).natAbs * unitsPerOne = m * 2 ^ q * 1 := by
      rw [habs, heq, hamount, Nat.mul_one]
    rw [ofRatio_of_canonical _ Nat.one_pos hcanonical hratio]
    nofun

end Binary64

/-- The number that a value stands for, if it is one. -/
def Value.number? : Value → Option ℚ
  | .real x => x.value?
  | v => v.integer?.map fun (n : Int) => (n : ℚ)

end RowStore
