import RowStore.Number.Shortest
import RowStore.Proofs.Number.Numeral
import RowStore.Proofs.Text.Split

/-!
# Numbers as they are written

* `integerOf?`, `isDecimal` : the numerals of integers and of decimal numbers;
* `integerOf?_toString` : the text of an integer is a numeral of it, and `toString_int_inj` of no other;
* `readInt?_toDigits` : the digits of a number are read as that number;
* `Binary64.isDecimal_text` : the text of a finite double is a decimal numeral, and not one of an
  integer; `Binary64.integerOf?_text`.
-/

namespace RowStore

/-! ## Numerals -/

/-- One or more ASCII digits. -/
def isDigits (cs : List Char) : Bool := !cs.isEmpty && cs.all Char.isDigit

/-- The integer that digits with or without a minus sign stand for. -/
def integerOf? (cs : List Char) : Option Int :=
  match cs with
  | '-' :: digits => if isDigits digits then some (-(digitsValue digits : Int)) else none
  | digits => if isDigits digits then some (digitsValue digits) else none

/-- A point and digits, or nothing. -/
def isFraction : List Char → Bool
  | [] => true
  | '.' :: digits => isDigits digits
  | _ => false

/-- An exponent with its sign, or nothing. -/
def isExponent : List Char → Bool
  | [] => true
  | 'e' :: sign :: digits => (sign == '+' || sign == '-') && isDigits digits
  | _ => false

/-- A numeral after its sign: digits, a fraction and an exponent. -/
def isUnsigned (cs : List Char) : Bool :=
  let tail := cs.dropWhile Char.isDigit
  isDigits (cs.takeWhile Char.isDigit) && isFraction (tail.takeWhile (· ≠ 'e')) &&
    isExponent (tail.dropWhile (· ≠ 'e'))

/-- A digit, a sign, the point or the mark of an exponent. -/
def isNumeralChar (c : Char) : Bool := c.isDigit || ['-', '+', '.', 'e'].contains c

/-- A decimal numeral. -/
def isDecimal (cs : List Char) : Bool :=
  match cs with
  | '-' :: rest => isUnsigned rest
  | cs => isUnsigned cs

/-! ## Digits -/

section
variable {cs ds : List Char}

theorem isDigits_iff : isDigits cs = true ↔ cs ≠ [] ∧ ∀ c ∈ cs, c.isDigit = true := by
  simp [isDigits]

theorem isDigits_toDigits (n : Nat) : isDigits (Nat.toDigits 10 n) = true :=
  isDigits_iff.mpr ⟨Nat.toDigits_ne_nil, fun _ hc => isDigit_toDigits hc⟩

theorem isDigits_append (h : ∀ c ∈ cs, c.isDigit = true) (hd : isDigits ds = true) :
    isDigits (cs ++ ds) = true := by
  obtain ⟨hne, hall⟩ := isDigits_iff.mp hd
  refine isDigits_iff.mpr ⟨by simp [hne], fun c hc => ?_⟩
  exact (List.mem_append.mp hc).elim (h c) (hall c)

theorem isDigit_replicate (n : Nat) : ∀ c ∈ List.replicate n '0', c.isDigit = true := by
  intro c hc
  rw [List.eq_of_mem_replicate hc]
  rfl

/-- A digit is none of the other characters of a numeral. -/
theorem ne_of_isDigit {c : Char} (h : c.isDigit = true) : c ≠ '-' ∧ c ≠ '.' ∧ c ≠ 'e' := by
  refine ⟨?_, ?_, ?_⟩ <;> rintro rfl <;> revert h <;> decide

theorem isNumeralChar_of_isDigits (h : isDigits cs = true) : ∀ c ∈ cs, isNumeralChar c = true := by
  intro c hc
  rw [isNumeralChar, (isDigits_iff.mp h).2 c hc]
  rfl

/-- A run of digits does not begin with a sign. -/
theorem exists_cons_of_isDigits (h : isDigits cs = true) : ∃ c rest, cs = c :: rest ∧ c ≠ '-' := by
  obtain ⟨hne, hall⟩ := isDigits_iff.mp h
  obtain ⟨c, rest, rfl⟩ := List.exists_cons_of_ne_nil hne
  exact ⟨c, rest, rfl, (ne_of_isDigit (hall c List.mem_cons_self)).1⟩

theorem splitSign_of_isDigits (h : isDigits cs = true) : splitSign cs = (false, cs) := by
  have hall := (isDigits_iff.mp h).2
  unfold splitSign
  split
  case h_1 rest => exact absurd (hall '-' List.mem_cons_self) (by decide)
  case h_2 rest => exact absurd (hall '+' List.mem_cons_self) (by decide)
  case h_3 => rfl

/-- What stands in a numeral is visible, and is read as it stands. -/
theorem visible_of_isNumeralChar {c : Char} (h : isNumeralChar c = true) :
    (0x21 ≤ c.toNat ∧ c.toNat ≤ 0x7E) ∧ plainDigit c = c ∧ c ≠ '_' := by
  rw [isNumeralChar, Bool.or_eq_true] at h
  rcases h with hdigit | hmark
  · have hcode := toNat_of_isDigit hdigit
    refine ⟨by omega, plainDigit_of_isDigit hdigit, ?_⟩
    rintro rfl
    cases hdigit
  · simp only [List.contains_cons, List.contains_nil, Bool.or_eq_true, beq_iff_eq, or_false,
      Bool.false_eq_true] at hmark
    rcases hmark with rfl | rfl | rfl | rfl <;> exact ⟨by decide, rfl, by decide⟩

theorem numeralChars_of_isNumeralChar (h : ∀ c ∈ cs, isNumeralChar c = true) : numeralChars cs = cs := by
  rw [numeralChars, Text.trimBy_of_none]
  · rw [List.map_congr_left fun c hc => (visible_of_isNumeralChar (h c hc)).2.1, List.map_id']
  · exact fun c hc => Text.isNumeralBlank_of_visible (visible_of_isNumeralChar (h c hc)).1

theorem notMem_underscore (h : ∀ c ∈ cs, isNumeralChar c = true) : '_' ∉ cs := fun hmem =>
  (visible_of_isNumeralChar (h _ hmem)).2.2 rfl

end

/-! ## Integers -/

theorem integerOf?_of_isDigits {cs : List Char} (h : isDigits cs = true) :
    integerOf? cs = some (digitsValue cs : Int) := by
  obtain ⟨c, rest, rfl, hc⟩ := exists_cons_of_isDigits h
  simp [integerOf?, hc, h]

/-- The characters of an integer's text. -/
theorem toList_toString_int (n : Int) : (toString n).toList =
    if 0 ≤ n then Nat.toDigits 10 n.natAbs else '-' :: Nat.toDigits 10 n.natAbs := by
  cases n with
  | ofNat n => simp [toString, Int.repr]
  | negSucc n => simp [toString, Int.repr, Int.negSucc_not_nonneg]

theorem integerOf?_toString (n : Int) : integerOf? (toString n).toList = some n := by
  rw [toList_toString_int]
  split
  · rename_i h
    rw [integerOf?_of_isDigits (isDigits_toDigits _), digitsValue_toDigits, Int.natAbs_of_nonneg h]
  · rename_i h
    simp only [integerOf?, isDigits_toDigits, if_pos, digitsValue_toDigits]
    rw [Int.ofNat_natAbs_of_nonpos (by omega), Int.neg_neg]

theorem splitSign_toString (n : Int) :
    splitSign (toString n).toList = (decide (n < 0), Nat.toDigits 10 n.natAbs) := by
  rw [toList_toString_int]
  split
  case isTrue h => rw [decide_eq_false (by omega), splitSign_of_isDigits (isDigits_toDigits _)]
  case isFalse h =>
    rw [decide_eq_true (by omega)]
    rfl

theorem toString_int_inj {m n : Int} : toString m = toString n ↔ m = n := by
  refine ⟨fun h => ?_, fun h => congrArg toString h⟩
  have hsome := integerOf?_toString m
  rw [h, integerOf?_toString] at hsome
  exact (Option.some.inj hsome).symm

/-- What is no numeral of an integer is not written as one. -/
theorem ne_toString_of_integerOf? {s : String} (h : integerOf? s.toList = none) (n : Int) : s ≠ toString n := by
  rintro rfl
  rw [integerOf?_toString] at h
  cases h

theorem isNumeralChar_toString (n : Int) : ∀ c ∈ (toString n).toList, isNumeralChar c = true := by
  have hdigits := isNumeralChar_of_isDigits (isDigits_toDigits n.natAbs)
  rw [toList_toString_int]
  split
  · exact hdigits
  · exact List.forall_mem_cons.mpr ⟨rfl, hdigits⟩

theorem readDigits?_toDigits (negative : Bool) {n : Nat} (h : n < 10 ^ longestNumeral) :
    readDigits? negative (Nat.toDigits 10 n) = some (if negative then -(n : Int) else n) := by
  have hlength : (Nat.toDigits 10 n).length ≤ longestNumeral :=
    (Nat.length_toDigits_le_iff (by decide) (by decide)).mpr h
  rw [readDigits?, if_neg (Nat.not_lt.mpr hlength), digitsValue_toDigits]

theorem dropUnderscores?_of_notMem {cs : List Char} (h : '_' ∉ cs) :
    dropUnderscores? cs = some cs := by
  induction cs with
  | nil => rfl
  | cons c rest ih =>
    have hc : c ≠ '_' := fun hc => h (hc ▸ List.mem_cons_self)
    have hrest : '_' ∉ rest := fun hrest => h (List.mem_cons_of_mem _ hrest)
    rw [dropUnderscores?, if_neg hc, ih hrest]
    · rfl
    · rintro more rfl
      exact hrest List.mem_cons_self

/-- The digits of a number that is not too long are read as that number. -/
theorem readInt?_toDigits {n : Nat} (h : n < 10 ^ longestNumeral) :
    readInt? (Nat.toDigits 10 n) = some (n : Int) := by
  have hdigits := isDigits_toDigits n
  have hchars := isNumeralChar_of_isDigits hdigits
  rw [readInt?, numeralChars_of_isNumeralChar hchars, dropUnderscores?_of_notMem (notMem_underscore hchars)]
  simp only [Option.bind_eq_bind, Option.bind_some, splitSign_of_isDigits hdigits]
  rw [if_neg, readDigits?_toDigits false h]
  · rfl
  · simpa [isDigits] using hdigits

/-! ## Decimal numbers -/

/-- A numeral without a sign, and with a fraction or an exponent. -/
def DecimalParts (cs : List Char) : Prop :=
  ∃ whole fraction exponent, cs = whole ++ (fraction ++ exponent) ∧
    isDigits whole = true ∧ isFraction fraction = true ∧ isExponent exponent = true ∧
    fraction ++ exponent ≠ []

section
variable {cs ds : List Char}

theorem isFraction_cases (h : isFraction cs = true) :
    cs = [] ∨ ∃ digits, cs = '.' :: digits ∧ isDigits digits = true := by
  unfold isFraction at h
  split at h
  · exact Or.inl rfl
  · exact Or.inr ⟨_, rfl, h⟩
  · cases h

theorem isExponent_cases (h : isExponent cs = true) :
    cs = [] ∨ ∃ sign digits, cs = 'e' :: sign :: digits ∧ (sign = '+' ∨ sign = '-') ∧
      isDigits digits = true := by
  unfold isExponent at h
  split at h
  · exact Or.inl rfl
  · simp only [Bool.and_eq_true, Bool.or_eq_true, beq_iff_eq] at h
    exact Or.inr ⟨_, _, rfl, h⟩
  · cases h

/-- Splitting a list at its first element outside a class. -/
theorem span_append {α : Type} {p : α → Bool} {xs ys : List α} (hxs : ∀ x ∈ xs, p x = true)
    (hys : ∀ y ∈ ys.head?, p y = false) :
    (xs ++ ys).takeWhile p = xs ∧ (xs ++ ys).dropWhile p = ys := by
  rw [List.takeWhile_append_of_pos hxs, List.dropWhile_append_of_pos hxs]
  cases ys with
  | nil => simp
  | cons y rest => simp [hys y rfl]

theorem DecimalParts.isUnsigned (h : DecimalParts cs) : isUnsigned cs = true := by
  obtain ⟨whole, fraction, exponent, rfl, hw, hf, he, -⟩ := h
  have hexponent : ∀ c ∈ exponent.head?, c = 'e' := by
    rcases isExponent_cases he with rfl | ⟨sign, digits, rfl, -⟩ <;> simp
  have htail : ∀ c ∈ (fraction ++ exponent).head?, c.isDigit = false := by
    rcases isFraction_cases hf with rfl | ⟨digits, rfl, -⟩
    · intro c hc
      rw [hexponent c hc]
      rfl
    · simp
  have hfraction : ∀ c ∈ fraction, decide (c ≠ 'e') = true := by
    rcases isFraction_cases hf with rfl | ⟨digits, rfl, hdigits⟩
    · simp
    · intro c hc
      rcases List.mem_cons.mp hc with rfl | hc
      · rfl
      · exact decide_eq_true (ne_of_isDigit ((isDigits_iff.mp hdigits).2 c hc)).2.2
  obtain ⟨h1, h2⟩ := span_append (isDigits_iff.mp hw).2 htail
  have hmark : ∀ c ∈ exponent.head?, decide (c ≠ 'e') = false := by
    intro c hc
    rw [hexponent c hc]
    rfl
  obtain ⟨h3, h4⟩ := span_append hfraction hmark
  rw [RowStore.isUnsigned, h1, h2, h3, h4, hw, hf, he]
  rfl

/-- A numeral with a fraction or an exponent is none of an integer. -/
theorem DecimalParts.not_isDigits (h : DecimalParts cs) : isDigits cs = false := by
  obtain ⟨whole, fraction, exponent, rfl, -, hf, he, hne⟩ := h
  rw [Bool.eq_false_iff, ne_eq, isDigits_iff]
  rintro ⟨-, hall⟩
  rcases isFraction_cases hf with rfl | ⟨digits, rfl, -⟩
  · rcases isExponent_cases he with rfl | ⟨sign, digits, rfl, -⟩
    · exact hne rfl
    · exact absurd (hall 'e' (by simp)) (by decide)
  · exact absurd (hall '.' (by simp)) (by decide)

theorem DecimalParts.isNumeralChar (h : DecimalParts cs) : ∀ c ∈ cs, isNumeralChar c = true := by
  obtain ⟨whole, fraction, exponent, rfl, hw, hf, he, -⟩ := h
  rw [List.forall_mem_append, List.forall_mem_append]
  refine ⟨isNumeralChar_of_isDigits hw, ?_, ?_⟩
  · rcases isFraction_cases hf with rfl | ⟨digits, rfl, hdigits⟩
    · simp
    · exact List.forall_mem_cons.mpr ⟨rfl, isNumeralChar_of_isDigits hdigits⟩
  · rcases isExponent_cases he with rfl | ⟨sign, digits, rfl, hsign, hdigits⟩
    · simp
    · refine List.forall_mem_cons.mpr ⟨rfl, List.forall_mem_cons.mpr ⟨?_, ?_⟩⟩
      · rcases hsign with rfl | rfl <;> rfl
      · exact isNumeralChar_of_isDigits hdigits

/-- A numeral that begins with a digit has no sign. -/
theorem DecimalParts.exists_cons (h : DecimalParts cs) : ∃ c rest, cs = c :: rest ∧ c ≠ '-' := by
  obtain ⟨whole, fraction, exponent, rfl, hw, -⟩ := h
  obtain ⟨c, rest, rfl, hc⟩ := exists_cons_of_isDigits hw
  exact ⟨c, rest ++ (fraction ++ exponent), rfl, hc⟩

end

/-! ## The text of a double -/

theorem isExponent_exponentText (l : Layout) (e : Int) :
    isExponent ('e' :: l.exponentText e) = true := by
  have hdigits : isDigits (List.replicate (l.exponentWidth - (Decimal.digitChars e.natAbs).length)
      '0' ++ Decimal.digitChars e.natAbs) = true :=
    isDigits_append (isDigit_replicate _) (isDigits_toDigits e.natAbs)
  rw [Layout.exponentText, isExponent, hdigits]
  split <;> rfl

/-- A decimal number is written with a fraction or an exponent. -/
theorem decimalParts_render (d : Decimal) : DecimalParts (Layout.standard.render d) := by
  have hdigits : isDigits (Decimal.digitChars d.digits) = true := isDigits_toDigits d.digits
  obtain ⟨hne, hall⟩ := isDigits_iff.mp hdigits
  rw [Layout.render]
  dsimp only
  generalize Decimal.digitChars d.digits = digits at hdigits hne hall ⊢
  split
  · split
    · refine ⟨digits ++ List.replicate d.exponent.toNat '0', ['.', '0'], [], by simp, ?_, rfl, rfl,
        by simp⟩
      refine isDigits_iff.mpr ⟨by simp [hne], fun c hc => ?_⟩
      exact (List.mem_append.mp hc).elim (hall c) (isDigit_replicate _ c)
    · split
      · -- the point stands between two digits
        rename_i hexp hlead
        have hlen : (d.exponent + (digits.length : Int) - 1 + 1).toNat < digits.length := by omega
        have hpos : 0 < (d.exponent + (digits.length : Int) - 1 + 1).toNat := by omega
        generalize (d.exponent + (digits.length : Int) - 1 + 1).toNat = whole at hlen hpos ⊢
        refine ⟨digits.take whole, '.' :: digits.drop whole, [], by simp, ?_, ?_, rfl, by simp⟩
        · exact isDigits_iff.mpr ⟨by simp [hne]; omega, fun c hc => hall c (List.mem_of_mem_take hc)⟩
        · exact isDigits_iff.mpr ⟨by simp [hlen], fun c hc => hall c (List.mem_of_mem_drop hc)⟩
      · refine ⟨['0'], '.' :: (List.replicate _ '0' ++ digits), [], by simp; rfl, rfl, ?_, rfl,
          by simp⟩
        exact isDigits_append (isDigit_replicate _) hdigits
  · rcases digits with _ | ⟨c, _ | ⟨c', rest⟩⟩
    · exact absurd rfl hne
    · exact ⟨[c], [], _, rfl, hdigits, rfl, isExponent_exponentText _ _, by simp⟩
    · refine ⟨[c], '.' :: c' :: rest, _, rfl, ?_, ?_, isExponent_exponentText _ _, by simp⟩
      · exact isDigits_iff.mpr ⟨by simp, fun a ha => hall a (by simp_all)⟩
      · exact isDigits_iff.mpr ⟨by simp, fun a ha => hall a (List.mem_cons_of_mem _ ha)⟩

namespace Binary64

/-- The text of a finite double: a numeral in its parts, which may follow a minus sign. -/
theorem exists_parts_text {x : Binary64} (hx : x.isFinite = true) :
    ∃ cs, DecimalParts cs ∧ (x.text.toList = cs ∨ x.text.toList = '-' :: cs) := by
  cases x with
  | nan payload => cases hx
  | infinite negative => cases hx
  | finite negative m q h =>
    refine ⟨if m = 0 then ['0', '.', '0'] else Layout.standard.render (shortest m q), ?_, ?_⟩
    · split
      · exact ⟨['0'], ['.', '0'], [], rfl, rfl, rfl, rfl, by simp⟩
      · exact decimalParts_render _
    · cases negative
      · exact Or.inl (String.toList_ofList)
      · exact Or.inr (String.toList_ofList)

theorem isDecimal_text {x : Binary64} (hx : x.isFinite = true) :
    isDecimal x.text.toList = true ∧ integerOf? x.text.toList = none := by
  obtain ⟨cs, hcs, htext⟩ := exists_parts_text hx
  obtain ⟨c, rest, rfl, hc⟩ := hcs.exists_cons
  rcases htext with h | h <;> rw [h]
  · simp [isDecimal, integerOf?, hc, hcs.isUnsigned, hcs.not_isDigits]
  · simp [isDecimal, integerOf?, hcs.isUnsigned, hcs.not_isDigits]

/-- A double is not written as an integer is. -/
theorem integerOf?_text (x : Binary64) : integerOf? x.text.toList = none := by
  cases x with
  | nan payload => exact (by decide : integerOf? "nan".toList = none)
  | infinite negative => cases negative <;> rfl
  | finite negative m q h => exact (isDecimal_text rfl).2

theorem isNumeralChar_text {x : Binary64} (hx : x.isFinite = true) :
    ∀ c ∈ x.text.toList, isNumeralChar c = true := by
  obtain ⟨cs, hcs, h | h⟩ := exists_parts_text hx <;> rw [h]
  · exact hcs.isNumeralChar
  · exact List.forall_mem_cons.mpr ⟨rfl, hcs.isNumeralChar⟩

end Binary64

end RowStore
