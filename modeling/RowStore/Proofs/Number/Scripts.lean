import Mathlib.Data.List.Induction
import Mathlib.Data.Nat.Digits.Defs
import RowStore.Proofs.Number.Written
import RowStore.Proofs.Text.Trimmed

/-!
# Numerals in the digits of any script

* `numberOf` : the number that digits stand for, whatever scripts they are of;
* `Numeral` : such digits, perhaps after a minus sign, with `Numeral.chars` and `Numeral.value`;
* `readInt?_pad` : a numeral with white space around it is read as its value, unless it has too many digits;
  `readInt?_of_separator` : but white space that numerals do not have around them is not read at all.
-/

namespace RowStore

namespace Text

variable {c : Char} {d : Nat}

/-- A digit stands in one of the rows of ten. -/
theorem exists_zero_of_digitValue? (h : digitValue? c = some d) :
    ∃ first ∈ digitZeros, first ≤ c.toNat ∧ c.toNat < first + 10 ∧ d = c.toNat - first := by
  rw [digitValue?] at h
  split at h
  · split at h
    · rename_i hdigit
      have hcode := toNat_of_isDigit hdigit
      cases h
      exact ⟨0x30, by decide, hcode.1, by omega, rfl⟩
    · cases h
  · obtain ⟨first, hfirst, rfl⟩ := Option.map_eq_some_iff.mp h
    have hrow := List.find?_some hfirst
    simp only [Bool.and_eq_true, decide_eq_true_eq] at hrow
    exact ⟨first, List.mem_of_find?_eq_some hfirst, hrow.1, hrow.2, rfl⟩

theorem digitValue?_lt (h : digitValue? c = some d) : d < 10 := by
  obtain ⟨first, -, hle, hlt, rfl⟩ := exists_zero_of_digitValue? h
  omega

/-- No row of digits holds white space. -/
theorem isBlank_of_isDigit (h : isDigit c = true) : isBlank c = false := by
  obtain ⟨d, hd⟩ := Option.isSome_iff_exists.mp h
  obtain ⟨first, hfirst, hle, hlt, -⟩ := exists_zero_of_digitValue? hd
  have hrows : ∀ first ∈ digitZeros, first = 0x30 ∨ (0xA0 < first ∧ (first + 10 ≤ 0x1680 ∨ 0x1680 < first) ∧
      (first + 10 ≤ 0x2000 ∨ 0x205F < first) ∧ (first + 10 ≤ 0x3000 ∨ 0x3000 < first)) := by decide
  have hrow := hrows first hfirst
  simp only [isBlank, isWideBlank, Bool.or_eq_false_iff, Bool.and_eq_false_iff, decide_eq_false_iff_not,
    beq_eq_false_iff_ne]
  omega

theorem isBlank_of_isNumeralBlank (h : isNumeralBlank c = true) : isBlank c = true := by
  simp only [isNumeralBlank, isBlank, Bool.or_eq_true, Bool.and_eq_true, decide_eq_true_eq, beq_iff_eq] at h ⊢
  rcases h with (h | h) | h
  · exact Or.inl (Or.inl h)
  · exact Or.inl (Or.inr (by omega))
  · exact Or.inr h

end Text

/-! ## Digits -/

section
variable {c : Char} {digits : List Char}

/-- A digit becomes an ASCII digit of the same value. -/
theorem plainDigit_of_digitValue? {d : Nat} (h : Text.digitValue? c = some d) :
    (plainDigit c).isDigit = true ∧ (plainDigit c).toNat - 0x30 = d := by
  have hten : ∀ d < 10, (Char.ofNat (0x30 + d)).isDigit = true ∧ (Char.ofNat (0x30 + d)).toNat - 0x30 = d := by
    decide
  rw [plainDigit, h]
  exact hten d (Text.digitValue?_lt h)

theorem isDigit_plainDigit (h : Text.isDigit c = true) : (plainDigit c).isDigit = true := by
  obtain ⟨d, hd⟩ := Option.isSome_iff_exists.mp h
  exact (plainDigit_of_digitValue? hd).1

theorem plainDigit_of_isDigit_eq_false (h : Text.isDigit c = false) : plainDigit c = c := by
  rw [plainDigit, Option.isNone_iff_eq_none.mp (Option.isSome_eq_false_iff.mp h)]

/-- The number that digits stand for, the last one for the ones. -/
def numberOf (digits : List Char) : Nat := Nat.ofDigits 10 (digits.filterMap Text.digitValue?).reverse

theorem digitsValue_map_plainDigit (h : ∀ c ∈ digits, Text.isDigit c = true) :
    digitsValue (digits.map plainDigit) = numberOf digits := by
  induction digits using List.reverseRecOn with
  | nil => rfl
  | append_singleton digits c ih =>
    obtain ⟨hdigits, hc⟩ := List.forall_mem_append.mp h
    obtain ⟨d, hd⟩ := Option.isSome_iff_exists.mp (hc c List.mem_cons_self)
    have hsnoc : (digits ++ [c]).filterMap Text.digitValue? = digits.filterMap Text.digitValue? ++ [d] := by
      rw [List.filterMap_append, List.filterMap_cons_some hd]
      rfl
    rw [numberOf, hsnoc, List.reverse_append, List.reverse_singleton, List.singleton_append, Nat.ofDigits_cons,
      ← numberOf, ← ih hdigits, digitsValue, List.map_append, List.foldl_append, ← digitsValue,
      List.map_singleton, List.foldl_cons, List.foldl_nil, (plainDigit_of_digitValue? hd).2,
      Nat.add_comm]

end

/-! ## Numerals -/

/-- One or more digits, perhaps after a minus sign. -/
structure Numeral where
  negative : Bool
  digits : List Char
  digits_ne : digits ≠ []
  isDigit : ∀ c ∈ digits, Text.isDigit c = true

namespace Numeral

variable (n : Numeral)

/-- The characters of a numeral. -/
def chars : List Char := if n.negative then '-' :: n.digits else n.digits

/-- The integer that a numeral stands for. -/
def value : Int := if n.negative then -(numberOf n.digits : Int) else numberOf n.digits

/-- A numeral with no more digits than can be read. -/
def IsShort : Prop := n.digits.length ≤ longestNumeral

theorem chars_ne : n.chars ≠ [] := by
  rw [chars]
  split
  · exact List.cons_ne_nil _ _
  · exact n.digits_ne

theorem mem_chars {c : Char} (h : c ∈ n.chars) : c = '-' ∨ Text.isDigit c = true := by
  rw [chars] at h
  split at h
  · exact (List.mem_cons.mp h).imp_right (n.isDigit c)
  · exact Or.inr (n.isDigit c h)

/-- There is no white space in a numeral. -/
theorem isBlank_of_mem {c : Char} (h : c ∈ n.chars) : Text.isBlank c = false := by
  rcases n.mem_chars h with rfl | h
  · decide
  · exact Text.isBlank_of_isDigit h

theorem notMem_chars {c : Char} (hminus : c ≠ '-') (h : Text.isDigit c = false) : c ∉ n.chars := fun hc =>
  (n.mem_chars hc).elim hminus (Bool.eq_false_iff.mp h)

theorem map_plainDigit_chars : n.chars.map plainDigit =
    if n.negative then '-' :: n.digits.map plainDigit else n.digits.map plainDigit := by
  rw [chars]
  split
  · rfl
  · rfl

theorem isDigits_map_plainDigit : isDigits (n.digits.map plainDigit) = true := by
  refine isDigits_iff.mpr ⟨fun h => n.digits_ne (List.map_eq_nil_iff.mp h), fun c hc => ?_⟩
  obtain ⟨d, hd, rfl⟩ := List.mem_map.mp hc
  exact isDigit_plainDigit (n.isDigit d hd)

theorem splitSign_chars : splitSign (n.chars.map plainDigit) = (n.negative, n.digits.map plainDigit) := by
  rw [map_plainDigit_chars]
  cases hnegative : n.negative with
  | true => rfl
  | false => exact splitSign_of_isDigits n.isDigits_map_plainDigit

end Numeral

/-! ## Reading numerals -/

section
variable {l r : List Char}

/-- A numeral with white space around it is read as its value, unless it has too many digits. -/
theorem readInt?_pad (n : Numeral) (hl : ∀ c ∈ l, Text.isNumeralBlank c = true)
    (hr : ∀ c ∈ r, Text.isNumeralBlank c = true) :
    readInt? (l ++ n.chars ++ r) = if longestNumeral < n.digits.length then none else some n.value := by
  have hkept : ∀ c ∈ n.chars, Text.isNumeralBlank c = false := fun c hc =>
    Bool.eq_false_iff.mpr fun h =>
      Bool.eq_false_iff.mp (n.isBlank_of_mem hc) (Text.isBlank_of_isNumeralBlank h)
  have hchars : numeralChars (l ++ n.chars ++ r) = n.chars.map plainDigit := by
    rw [numeralChars, Text.trimBy_append hl hr, Text.trimBy_of_none hkept]
  have hplain : '_' ∉ n.chars.map plainDigit := by
    intro h
    obtain ⟨c, hc, heq⟩ := List.mem_map.mp h
    rcases n.mem_chars hc with rfl | hdigit
    · exact absurd heq (by decide)
    · exact absurd (heq ▸ isDigit_plainDigit hdigit) (by decide)
  have hdigits : (n.digits.map plainDigit).isEmpty = false ∧
      (n.digits.map plainDigit).all Char.isDigit = true := by
    rw [List.isEmpty_eq_false_iff, List.all_eq_true]
    exact isDigits_iff.mp n.isDigits_map_plainDigit
  rw [readInt?, hchars, dropUnderscores?_of_notMem hplain]
  simp only [Option.bind_eq_bind, Option.bind_some, n.splitSign_chars, hdigits, Bool.not_true, Bool.or_self,
    Bool.false_eq_true, if_false]
  rw [readDigits?, List.length_map, digitsValue_map_plainDigit n.isDigit]
  rfl

theorem plainDigit_of_isBlank {c : Char} (h : Text.isBlank c = true) : plainDigit c = c :=
  plainDigit_of_isDigit_eq_false (Bool.eq_false_iff.mpr fun hdigit =>
    Bool.eq_false_iff.mp (Text.isBlank_of_isDigit hdigit) h)

theorem underscore_of_plainDigit {c : Char} (h : plainDigit c = '_') : c = '_' := by
  cases hdigit : Text.isDigit c with
  | true => exact absurd (h ▸ isDigit_plainDigit hdigit) (by decide)
  | false => rwa [plainDigit_of_isDigit_eq_false hdigit] at h

theorem mem_splitSign {cs : List Char} {c : Char} (h : c ∈ cs) (hminus : c ≠ '-') (hplus : c ≠ '+') :
    c ∈ (splitSign cs).2 := by
  unfold splitSign
  split
  · exact (List.mem_cons.mp h).resolve_left hminus
  · exact (List.mem_cons.mp h).resolve_left hplus
  · exact h

/-- Other white space makes a numeral unreadable. -/
theorem readInt?_of_separator {cs : List Char} {c : Char} (hc : c ∈ cs) (hblank : Text.isBlank c = true)
    (hseparator : Text.isNumeralBlank c = false) (hplain : '_' ∉ cs) : readInt? cs = none := by
  have hkept : c ∈ numeralChars cs := by
    rw [numeralChars, List.mem_map]
    exact ⟨c, Text.mem_trimBy hc hseparator, plainDigit_of_isBlank hblank⟩
  have hunderscore : '_' ∉ numeralChars cs := by
    intro h
    obtain ⟨x, hx, heq⟩ := List.mem_map.mp h
    obtain ⟨l, r, hcs, -, -⟩ := Text.exists_append_trimBy Text.isNumeralBlank cs
    refine hplain (underscore_of_plainDigit heq ▸ ?_)
    rw [hcs]
    exact List.mem_append_left _ (List.mem_append_right _ hx)
  have hsigned : c ∈ (splitSign (numeralChars cs)).2 := by
    refine mem_splitSign hkept ?_ ?_ <;> rintro rfl <;> exact absurd hblank (by decide)
  have hdigit : c.isDigit = false := Bool.eq_false_iff.mpr fun h =>
    Bool.eq_false_iff.mp (Text.isBlank_of_isDigit (Text.isDigit_of_ascii c h)) hblank
  rw [readInt?, dropUnderscores?_of_notMem hunderscore]
  simp only [Option.bind_eq_bind, Option.bind_some]
  rw [if_pos]
  rw [Bool.or_eq_true, Bool.not_eq_true', List.all_eq_false]
  exact Or.inr ⟨c, hsigned, Bool.eq_false_iff.mp hdigit⟩

end

end RowStore
