import RowStore.Proofs.Number.Written
import RowStore.Proofs.Value.Equality

/-!
# Integers that doubles hold

* `Holds n` : an integer of at most 53 digits in base two with zeros behind them, below the powers that overflow;
* `ofRatio_of_canonical` : a quotient that has a canonical form is not rounded; `ofRatio_of_le` : one beyond the finite
  doubles is infinite;
* `exists_canonical_of_lt` : amounts of at most 53 digits have canonical forms;
* `exists_canonical_of_holds`, `holds_of_canonical` : an integer has one just if a double holds it;
* `ofNumeral n` : what the numeral of an integer is read as, by `readReal?_toString`;
* `equalsInt_ofNumeral_iff` : that is the integer just if a double holds it.
-/

namespace RowStore

namespace Binary64

variable {m q k : Nat} {n : Int} {x : Binary64}

/-- An integer that a double holds: at most 53 digits in base two and zeros behind them, below the powers that
overflow. -/
def Holds (n : Int) : Prop :=
  n.natAbs < 2 ^ (1024 : Nat) ∧ ∃ m e : Nat, m < 2 ^ (53 : Nat) ∧ n.natAbs = m * 2 ^ e

/-- The exponent of the least power of two beyond the finite doubles, in units. It is not unfolded, so that no step
computes such a power. -/
@[irreducible] def topExponent : Nat := 2098

theorem topExponent_eq : topExponent = 2098 := by rw [topExponent]

/-- One is a power of two, in units. -/
theorem exists_exponent : ∃ u, 1024 + u = topExponent ∧ unitsPerOne = 2 ^ u := by
  obtain ⟨u, hu⟩ : ∃ u, u = 1074 := ⟨_, rfl⟩
  exact ⟨u, by rw [topExponent_eq, hu], by rw [unitsPerOne, ← hu]⟩

/-! ## Rounding what need not be rounded -/

/-- The length of a canonical form in base two gives its exponent back. -/
theorem Canonical.log2_eq (h : Canonical m q) : Nat.log2 (m * 2 ^ q) + 1 - 53 = q := by
  obtain ⟨hm, -, hq⟩ := h
  rcases hq with rfl | hlarge
  · rw [Nat.pow_zero, Nat.mul_one]
    by_cases hzero : m = 0
    · rw [hzero]
      rfl
    · have hlog : Nat.log2 m < 53 := (Nat.log2_lt hzero).mpr hm
      omega
  · have hne : m * 2 ^ q ≠ 0 := Nat.ne_of_gt (Nat.mul_pos (by omega) (Nat.two_pow_pos q))
    have hlog : Nat.log2 (m * 2 ^ q) = 52 + q := by
      rw [Nat.log2_eq_iff hne]
      constructor
      · rw [Nat.pow_add]
        exact Nat.mul_le_mul_right _ hlarge
      · rw [show 52 + q + 1 = 53 + q by omega, Nat.pow_add]
        exact Nat.mul_lt_mul_of_pos_right hm (Nat.two_pow_pos q)
    omega

/-- A quotient that has a canonical form is that double. -/
theorem ofRatio_of_canonical (negative : Bool) {num den : Nat} (hden : 0 < den) (h : Canonical m q)
    (heq : num * unitsPerOne = m * 2 ^ q * den) : ofRatio negative num den = .finite negative m q h := by
  have hquotient : num * unitsPerOne / den = m * 2 ^ q := by rw [heq, Nat.mul_div_cancel _ hden]
  have hround : divHalfEven (num * unitsPerOne) (den * 2 ^ q) = m := by
    rw [heq, Nat.mul_assoc, Nat.mul_comm (2 ^ q) den]
    exact divHalfEven_mul _ _ (Nat.mul_pos hden (Nat.two_pow_pos q))
  have hne : m ≠ 2 ^ (53 : Nat) := Nat.ne_of_lt h.1
  simp only [ofRatio, hquotient, h.log2_eq, hround, if_neg hne]
  rw [pack, dif_pos h]

/-- A quotient beyond the finite doubles is infinite. -/
theorem ofRatio_of_le (negative : Bool) {num den : Nat} (h : 2 ^ topExponent ≤ num * unitsPerOne / den) :
    ofRatio negative num den = .infinite negative := by
  have hne : num * unitsPerOne / den ≠ 0 := Nat.ne_of_gt (Nat.lt_of_lt_of_le (Nat.two_pow_pos _) h)
  have hlog : topExponent ≤ Nat.log2 (num * unitsPerOne / den) := (Nat.le_log2 hne).mpr h
  have hpack : ∀ m q, 2045 < q → pack negative m q = .infinite negative := fun m q hq =>
    dif_neg fun hcanonical => Nat.not_le.mpr hq hcanonical.2.1
  rw [topExponent_eq] at hlog
  simp only [ofRatio]
  split
  · exact hpack _ _ (by omega)
  · exact hpack _ _ (by omega)

/-- An amount of at most 53 digits in base two with zeros behind them has a canonical form, unless it is beyond the
finite doubles. -/
theorem exists_canonical_of_lt {e : Nat} (hm : m < 2 ^ (53 : Nat)) (hlt : m * 2 ^ e < 2 ^ topExponent) :
    ∃ m' q, Canonical m' q ∧ m' * 2 ^ q = m * 2 ^ e := by
  induction e generalizing m with
  | zero => exact ⟨m, 0, ⟨hm, Nat.zero_le _, Or.inl rfl⟩, rfl⟩
  | succ e ih =>
    by_cases hlarge : 2 ^ (52 : Nat) ≤ m
    · have hpow : 2 ^ (52 + (e + 1)) < 2 ^ topExponent := by
        rw [Nat.pow_add]
        exact Nat.lt_of_le_of_lt (Nat.mul_le_mul_right _ hlarge) hlt
      have hsum := (Nat.pow_lt_pow_iff_right (by decide)).mp hpow
      rw [topExponent_eq] at hsum
      exact ⟨m, e + 1, ⟨hm, by omega, Or.inr hlarge⟩, rfl⟩
    · -- the digits are moved up by one
      have hmove : 2 * m * 2 ^ e = m * 2 ^ (e + 1) := by
        rw [Nat.pow_succ, Nat.mul_comm 2 m, Nat.mul_assoc, Nat.mul_comm 2]
      obtain ⟨m', q, hcanonical, heq⟩ := ih (m := 2 * m) (by omega) (hmove ▸ hlt)
      exact ⟨m', q, hcanonical, heq.trans hmove⟩

/-! ## Canonical forms of integers -/

theorem holds_of_canonical (h : Canonical m q) (heq : m * 2 ^ q = n.natAbs * unitsPerOne) : Holds n := by
  obtain ⟨hm, hq, -⟩ := h
  have hpos := unitsPerOne_pos
  rw [unitsPerOne] at heq hpos
  unfold Holds
  -- as numerals the exponents would have their powers evaluated
  generalize hunits : 1074 = u at heq hpos
  generalize hbound : 1024 = b
  constructor
  · have hlt : n.natAbs * 2 ^ u < 2 ^ b * 2 ^ u := by
      rw [← heq, ← Nat.pow_add]
      calc m * 2 ^ q < 2 ^ (53 : Nat) * 2 ^ q := Nat.mul_lt_mul_of_pos_right hm (Nat.two_pow_pos q)
        _ = 2 ^ (53 + q) := (Nat.pow_add 2 53 q).symm
        _ ≤ 2 ^ (b + u) := Nat.pow_le_pow_right (by decide) (by omega)
    exact Nat.lt_of_mul_lt_mul_right hlt
  · rcases Nat.le_total u q with hle | hle
    · obtain ⟨e, rfl⟩ := Nat.exists_eq_add_of_le hle
      refine ⟨m, e, hm, Nat.eq_of_mul_eq_mul_right hpos ?_⟩
      rw [← heq, Nat.mul_assoc, Nat.pow_add, Nat.mul_comm (2 ^ e)]
    · obtain ⟨e, he⟩ := Nat.exists_eq_add_of_le hle
      have hmul : m = n.natAbs * 2 ^ e := by
        refine Nat.eq_of_mul_eq_mul_right (Nat.two_pow_pos q) ?_
        rw [heq, he, Nat.mul_assoc, Nat.pow_add, Nat.mul_comm (2 ^ q)]
      refine ⟨n.natAbs, 0, ?_, (Nat.mul_one _).symm⟩
      exact Nat.lt_of_le_of_lt (hmul ▸ Nat.le_mul_of_pos_right _ (Nat.two_pow_pos e)) hm

theorem exists_canonical_of_holds (h : Holds n) :
    ∃ m q, Canonical m q ∧ m * 2 ^ q = n.natAbs * unitsPerOne := by
  obtain ⟨hlt, m, e, hm, heq⟩ := h
  obtain ⟨u, hu, hunits⟩ := exists_exponent
  have hamount : n.natAbs * unitsPerOne = m * 2 ^ (e + u) := by
    rw [heq, hunits, Nat.mul_assoc, Nat.pow_add]
  have hbelow : n.natAbs * unitsPerOne < 2 ^ topExponent := by
    generalize 1024 = b at hlt hu
    rw [hunits, ← hu, Nat.pow_add]
    exact Nat.mul_lt_mul_of_pos_right hlt (Nat.two_pow_pos u)
  rw [hamount] at hbelow ⊢
  exact exists_canonical_of_lt hm hbelow

/-- A double is an integer if it has the integer's sign and its units. -/
theorem equalsInt_finite (h : Canonical m q) (heq : m * 2 ^ q = n.natAbs * unitsPerOne) :
    (finite (decide (n < 0)) m q h).equalsInt n = true := by
  rw [equalsInt_iff, place?_finite, heq, Int.natCast_mul]
  by_cases hn : n < 0
  · rw [decide_eq_true hn, if_pos rfl, Int.ofNat_natAbs_of_nonpos (by omega), Int.neg_mul, Int.neg_neg]
  · rw [decide_eq_false hn, if_neg Bool.false_ne_true, Int.natAbs_of_nonneg (by omega)]

/-- The double that is nearest to an integer equals it if any does. -/
theorem equalsInt_of_ofInt? (h : Holds n) (hx : ofInt? n = some x) : x.equalsInt n = true := by
  obtain ⟨m, q, hcanonical, heq⟩ := exists_canonical_of_holds h
  rw [ofInt?, ofRatio_of_canonical _ Nat.one_pos hcanonical (by rw [heq, Nat.mul_one])] at hx
  obtain rfl := Option.some.inj hx
  exact equalsInt_finite hcanonical heq

theorem holds_of_equalsInt (h : x.equalsInt n = true) : Holds n := by
  rw [equalsInt_iff] at h
  cases x with
  | nan payload => cases h
  | infinite s => cases s <;> cases h
  | finite s m q hc =>
    rw [place?_finite, Option.some.injEq, Prod.mk.injEq] at h
    have habs := congrArg Int.natAbs h.2
    rw [Int.natAbs_mul, Int.natAbs_natCast] at habs
    refine holds_of_canonical hc (Eq.trans ?_ habs)
    cases s
    · exact (Int.natAbs_natCast _).symm
    · rw [if_pos rfl, Int.natAbs_neg, Int.natAbs_natCast]

/-! ## Digits -/

/-- The digits of a number that has a canonical form are read as that double. -/
theorem ofDecimal_of_canonical (negative : Bool) (h : Canonical m q) (heq : m * 2 ^ q = k * unitsPerOne)
    (hlt : k < 2 ^ (1024 : Nat)) : ofDecimal negative k 0 = .finite negative m q h := by
  have hpower : 2 ^ (1024 : Nat) ≤ 10 ^ (310 : Nat) := by decide +kernel
  have hwidth : (Nat.toDigits 10 k).length ≤ 310 :=
    (Nat.length_toDigits_le_iff (by decide) (by decide)).mpr (Nat.lt_of_lt_of_le hlt hpower)
  by_cases hzero : k = 0
  · have hm : m = 0 := by
      rw [hzero, Nat.zero_mul] at heq
      exact (Nat.mul_eq_zero.mp heq).resolve_right (Nat.ne_of_gt (Nat.two_pow_pos q))
    have hq : q = 0 := h.2.2.resolve_right (by omega)
    subst hzero hm hq
    rfl
  · have hratio : k * 10 ^ (0 : Int).toNat * unitsPerOne = m * 2 ^ q * 1 := by
      rw [heq, Int.toNat_zero, Nat.pow_zero, Nat.mul_one, Nat.mul_one]
    unfold ofDecimal
    dsimp only
    rw [if_neg hzero, if_neg (by omega), if_neg (by omega), if_pos (by omega),
      ofRatio_of_canonical negative Nat.one_pos h hratio]

/-- The double that the numeral of an integer is read as. -/
def ofNumeral (n : Int) : Binary64 := ofDecimal (decide (n < 0)) n.natAbs 0

/-- The numeral of an integer is read as that integer just if a double holds it. -/
theorem equalsInt_ofNumeral_iff : (ofNumeral n).equalsInt n = true ↔ Holds n := by
  constructor
  · exact holds_of_equalsInt
  · intro h
    obtain ⟨m, q, hcanonical, heq⟩ := exists_canonical_of_holds h
    rw [ofNumeral, ofDecimal_of_canonical _ hcanonical heq h.1]
    exact equalsInt_finite hcanonical heq

/-- Doubles hold all integers up to `2 ^ 53`. -/
theorem holds_of_le (h : n.natAbs ≤ 2 ^ (53 : Nat)) : Holds n := by
  have hbound : 2 ^ (53 : Nat) < 2 ^ (1024 : Nat) := by decide +kernel
  refine ⟨Nat.lt_of_le_of_lt h hbound, ?_⟩
  rcases Nat.lt_or_eq_of_le h with hlt | heq
  · exact ⟨n.natAbs, 0, hlt, (Nat.mul_one _).symm⟩
  · exact ⟨1, 53, by decide, by rw [heq, Nat.one_mul]⟩

end Binary64

/-- The doubles hold no integer that is too long to be written. -/
theorem hasNumeral_of_holds {n : Int} (h : Binary64.Holds n) : hasNumeral n = true := by
  have hpow : ∀ a b : Nat, a ≤ b → 2 ^ a ≤ 10 ^ b := fun a b hab =>
    Nat.le_trans (Nat.pow_le_pow_left (by decide) a) (Nat.pow_le_pow_right (by decide) hab)
  exact hasNumeral_iff.mpr (Nat.lt_of_lt_of_le h.1 (hpow 1024 longestNumeral (by decide)))

/-! ## Numerals -/

section
variable {cs : List Char}

/-- Digits with a sign or without one are read by their value. -/
theorem readDecimal?_of_isDigits (negative : Bool) (h : isDigits cs = true) :
    readDecimal? negative cs = some (.ofDecimal negative (digitsValue cs) 0) := by
  obtain ⟨hne, hall⟩ := isDigits_iff.mp h
  obtain ⟨htake, hdrop⟩ := @span_append _ Char.isDigit cs [] hall nofun
  rw [List.append_nil] at htake hdrop
  unfold readDecimal?
  simp only [htake, hdrop]
  rw [List.isEmpty_eq_false_iff.mpr hne]
  simp [readExponent?]

theorem toLower_of_isDigit {c : Char} (h : c.isDigit = true) : c.toLower = c := by
  have hcode := toNat_of_isDigit h
  unfold Char.toLower
  split
  case isTrue hcapital =>
    simp only [ge_iff_le, UInt32.le_iff_toNat_le] at hcapital
    have hlow : 0x41 ≤ c.toNat := hcapital.1
    omega
  case isFalse => rfl

/-- Digits are no name. -/
theorem ofList_toLower_ne (h : isDigits cs = true) {name : String}
    (hname : ∃ c, name.toList.head? = some c ∧ c.isDigit = false) :
    String.ofList (cs.map Char.toLower) ≠ name := by
  obtain ⟨d, rest, rfl⟩ := List.exists_cons_of_ne_nil (isDigits_iff.mp h).1
  have hd := (isDigits_iff.mp h).2 d List.mem_cons_self
  rintro rfl
  rw [String.toList_ofList, List.map_cons, toLower_of_isDigit hd] at hname
  obtain ⟨c, hc, hother⟩ := hname
  cases hc
  rw [hd] at hother
  cases hother

end

theorem readReal?_toString (n : Int) : readReal? (toString n).toList = some (.ofNumeral n) := by
  have hchars := isNumeralChar_toString n
  have hdigits := isDigits_toDigits n.natAbs
  rw [Binary64.ofNumeral, readReal?, numeralChars_of_isNumeralChar hchars,
    dropUnderscores?_of_notMem (notMem_underscore hchars)]
  simp only [Option.bind_eq_bind, Option.bind_some, splitSign_toString]
  rw [if_neg, if_neg, readDecimal?_of_isDigits _ hdigits, digitsValue_toDigits]
  · exact ofList_toLower_ne hdigits ⟨'n', rfl, rfl⟩
  · rintro (h | h)
    · exact ofList_toLower_ne hdigits ⟨'i', rfl, rfl⟩ h
    · exact ofList_toLower_ne hdigits ⟨'i', rfl, rfl⟩ h

end RowStore
