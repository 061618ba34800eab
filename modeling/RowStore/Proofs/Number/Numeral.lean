import RowStore.Number.Reading

/-!
# Numerals in base ten

* `digitsValue_toDigits` : the digits of a number have its value;
* `isDigit_toDigits`, `plainDigit_of_isDigit` : they are ASCII digits, which reading leaves as they
  are;
* `length_toDigits_le_iff` : the integers that have a numeral are those with few enough digits.
-/

namespace RowStore

theorem digitsValue_toDigits (n : Nat) : digitsValue (Nat.toDigits 10 n) = n := by
  have h : digitsValue (Nat.toDigits 10 n) = Nat.ofDigitChars 10 (Nat.toDigits 10 n) 0 := by
    rw [digitsValue, Nat.ofDigitChars_eq_foldl]
    rfl
  rw [h, Nat.ofDigitChars_ten_toDigits]

theorem isDigit_toDigits {n : Nat} {c : Char} (h : c ∈ Nat.toDigits 10 n) : c.isDigit = true :=
  Nat.isDigit_of_mem_toDigits (by decide) (by decide) h

/-- The code of an ASCII digit. -/
theorem toNat_of_isDigit {c : Char} (h : c.isDigit = true) : 0x30 ≤ c.toNat ∧ c.toNat ≤ 0x39 := by
  simp only [Char.isDigit, Bool.and_eq_true, decide_eq_true_eq, UInt32.le_iff_toNat_le] at h
  exact h

theorem plainDigit_of_isDigit {c : Char} (h : c.isDigit = true) : plainDigit c = c := by
  have hc := toNat_of_isDigit h
  rw [plainDigit, Text.digitValue?_ascii c (by omega), if_pos h]
  dsimp only
  rw [Nat.add_sub_cancel' hc.1, Char.ofNat_toNat]

theorem map_plainDigit {cs : List Char} (h : ∀ c ∈ cs, c.isDigit = true) :
    cs.map plainDigit = cs := by
  rw [List.map_congr_left fun c hc => plainDigit_of_isDigit (h c hc), List.map_id']

theorem hasNumeral_natCast {n : Nat} : hasNumeral n = true ↔ n < 10 ^ longestNumeral := by
  rw [hasNumeral_iff, Int.natAbs_natCast]

/-- The integers that have a numeral are those that are written with as many digits as are read. -/
theorem length_toDigits_le_iff {n : Nat} :
    (Nat.toDigits 10 n).length ≤ longestNumeral ↔ hasNumeral n = true := by
  rw [hasNumeral_natCast]
  exact Nat.length_toDigits_le_iff (by decide) (by decide)

/-- The first power of ten that is too long to be written. -/
theorem hasNumeral_power : hasNumeral (10 ^ longestNumeral : Nat) = false := by
  rw [Bool.eq_false_iff, ne_eq, hasNumeral_natCast]
  exact Nat.lt_irrefl _

end RowStore
