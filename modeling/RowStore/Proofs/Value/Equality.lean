import RowStore.Value.Order

/-!
# Equality of names

* `Canonical.unique` : an amount has one canonical form as a double;
* `numbersEqual_of_place?` : numbers are equal iff they stand at one place, where they stand at all;
* `equals_self`, `equals_symm`, `equals_trans` : equality is an equivalence of the values that may
  name an entry; `isKey_of_equals` : nothing else equals one of them; `equals_text_iff` : a text is equal
  to itself alone.
-/

namespace RowStore

theorem Binary64.equals_self (x : Binary64) : x.equals x = true := by simp [equals]

theorem Binary64.equals_comm (x y : Binary64) : x.equals y = y.equals x := by
  rw [equals, equals]
  have hunits : (x.isFinite && y.isFinite && x.units == 0 && y.units == 0) =
      (y.isFinite && x.isFinite && y.units == 0 && x.units == 0) := by
    cases x.isFinite <;> cases y.isFinite <;> simp [Bool.and_comm]
  rw [hunits, BEq.comm]

namespace Binary64

/-- Of two forms of one amount neither has the smaller exponent. -/
theorem Canonical.exponent_le {m q m' q' : Nat} (h : Canonical m q) (h' : Canonical m' q')
    (heq : m * 2 ^ q = m' * 2 ^ q') : q' ≤ q := by
  refine Nat.le_of_not_lt fun hlt => ?_
  obtain ⟨d, rfl⟩ : ∃ d, q' = q + (d + 1) := ⟨q' - q - 1, by omega⟩
  have hm : m = m' * 2 ^ d * 2 := by
    refine Nat.eq_of_mul_eq_mul_right (Nat.two_pow_pos q) ?_
    rw [heq, Nat.pow_add, Nat.mul_assoc, Nat.mul_assoc, Nat.mul_comm (2 ^ q), Nat.pow_succ]
    simp only [Nat.mul_assoc]
  have hlarge : 2 ^ (52 : Nat) ≤ m' := h'.2.2.resolve_left (by omega)
  have hsmall : m < 2 ^ (53 : Nat) := h.1
  have hproduct := Nat.mul_le_mul hlarge (Nat.two_pow_pos d)
  omega

/-- An amount has one canonical form. -/
theorem Canonical.unique {m q m' q' : Nat} (h : Canonical m q) (h' : Canonical m' q')
    (heq : m * 2 ^ q = m' * 2 ^ q') : m = m' ∧ q = q' := by
  have hq : q = q' := Nat.le_antisymm (h'.exponent_le h heq.symm) (h.exponent_le h' heq)
  subst hq
  exact ⟨Nat.eq_of_mul_eq_mul_right (Nat.two_pow_pos q) heq, rfl⟩

theorem place?_finite (s m q h) : (finite s m q h).place? =
    some (0, if s then -((m * 2 ^ q : Nat) : Int) else ((m * 2 ^ q : Nat) : Int)) := rfl

/-- A finite number without units stands at zero. -/
theorem place?_of_units {x : Binary64} (hx : x.isFinite = true) (h : x.units = 0) :
    x.place? = some (0, 0) := by
  cases x with
  | finite s m q hc =>
    have hunits : m * 2 ^ q = 0 := h
    rw [place?_finite, hunits]
    cases s <;> rfl
  | _ => cases hx

/-- Equal doubles stand at one place. -/
theorem place?_eq_of_equals {x y : Binary64} (h : x.equals y = true) : x.place? = y.place? := by
  rw [equals, Bool.or_eq_true, beq_iff_eq] at h
  rcases h with rfl | h
  · rfl
  · simp only [Bool.and_eq_true, beq_iff_eq] at h
    rw [place?_of_units h.1.1.1 h.1.2, place?_of_units h.1.1.2 h.2]

/-- Doubles that stand at one place are equal. -/
theorem equals_of_place? {x y : Binary64} {p : Int × Int} (hx : x.place? = some p)
    (hy : y.place? = some p) : x.equals y = true := by
  cases x with
  | nan payload => cases hx
  | infinite s =>
    cases y with
    | nan payload => cases hy
    | infinite s' =>
      have hs : s = s' := by
        cases s <;> cases s' <;> cases hx <;> first | rfl | cases hy
      rw [hs, equals_self]
    | finite s' m' q' h' => cases s <;> cases hx <;> cases hy
  | finite s m q h =>
    cases y with
    | nan payload => cases hy
    | infinite s' => cases s' <;> cases hy <;> cases hx
    | finite s' m' q' h' =>
      have hsame := hx.trans hy.symm
      simp only [place?_finite, Option.some.injEq, Prod.mk.injEq, true_and] at hsame
      by_cases hzero : m * 2 ^ q = 0
      · have hzero' : m' * 2 ^ q' = 0 := by
          cases s <;> cases s' <;> simp only [hzero] at hsame <;> omega
        simp [equals, isFinite, units, hzero, hzero']
      · have hunits : m * 2 ^ q = m' * 2 ^ q' ∧ s = s' := by
          cases s <;> cases s' <;> simp only [Bool.false_eq_true, if_true, if_false] at hsame <;>
            constructor <;> first | rfl | omega
        obtain ⟨hunits, rfl⟩ := hunits
        obtain ⟨rfl, rfl⟩ := h.unique h' hunits
        exact equals_self _

theorem unitsPerOne_pos : 0 < unitsPerOne := by
  rw [unitsPerOne]
  generalize 1074 = k
  exact Nat.two_pow_pos k

/-- A NaN equals itself alone. -/
theorem eq_of_equals {x y : Binary64} (h : x.equals y = true) (hx : x.place? = none) : x = y := by
  cases x with
  | nan payload => simpa [equals, isFinite] using h
  | infinite s => cases hx
  | finite s m q hc => cases hx

/-- A double equals an integer iff it stands at its place. -/
theorem equalsInt_iff {x : Binary64} {n : Int} :
    x.equalsInt n = true ↔ x.place? = some (0, n * unitsPerOne) := by
  cases x with
  | nan payload => exact iff_of_false (fun h => Bool.false_ne_true h) fun h => nomatch h
  | infinite s =>
    refine iff_of_false (fun h => Bool.false_ne_true h) fun h => ?_
    have hside : (if s then (-1 : Int) else 1) = 0 := (Prod.ext_iff.mp (Option.some.inj h)).1
    cases s <;> exact absurd hside (by decide)
  | finite s m q h =>
    simp only [equalsInt, isIntegral, isFinite, truncate?, units, Bool.true_and, Bool.and_eq_true,
      beq_iff_eq, Option.some.injEq, place?_finite, Prod.mk.injEq, true_and]
    have hpos : 0 < unitsPerOne := unitsPerOne_pos
    generalize m * 2 ^ q = a
    generalize unitsPerOne = u at hpos ⊢
    constructor
    · rintro ⟨hmod, rfl⟩
      have hdiv : ((a / u : Nat) : Int) * u = a := by
        exact_mod_cast Nat.div_mul_cancel (Nat.dvd_of_mod_eq_zero hmod)
      cases s
      · exact hdiv.symm
      · simp only [if_true, Int.neg_mul, hdiv]
    · intro ha
      have habs : (a : Int) = (if s then -n else n) * u := by
        cases s
        · exact ha
        · simp only [if_true, Int.neg_mul, ← ha, Int.neg_neg]
      have hdvd : (u : Int) ∣ a := habs ▸ Int.dvd_mul_left _ _
      have hquot : ((a / u : Nat) : Int) = if s then -n else n := by
        rw [Int.natCast_ediv, habs, Int.mul_ediv_cancel _ (by omega)]
      refine ⟨Nat.mod_eq_zero_of_dvd (Int.natCast_dvd_natCast.mp hdvd), ?_⟩
      rw [hquot]
      cases s <;> simp

end Binary64

namespace Value

theorem numbersEqual_comm (v w : Value) : numbersEqual v w = numbersEqual w v := by
  cases v <;> cases w <;> simp [numbersEqual, integer?, BEq.comm, Binary64.equals_comm]

theorem equals_of_isNumber {v : Value} (hv : v.isNumber = true) (w : Value) :
    v.equals w = v.numbersEqual w := by
  cases v <;> first | rfl | simp [isNumber] at hv

theorem isNumber_of_numbersEqual {v w : Value} (h : v.numbersEqual w = true) :
    w.isNumber = true := by
  cases v <;> cases w <;> simp_all [numbersEqual, integer?, isNumber]

/-- Equal numbers stand at one place. -/
theorem place?_eq_of_numbersEqual {v w : Value} (h : v.numbersEqual w = true) :
    v.place? = w.place? := by
  have hint : ∀ {m n : Int}, (m == n) = true →
      some ((0 : Int), m * (Binary64.unitsPerOne : Int)) = some (0, n * Binary64.unitsPerOne) :=
    fun h => by rw [eq_of_beq h]
  cases v <;> cases w <;>
    first
    | exact hint h
    | exact Binary64.equalsInt_iff.mp h
    | exact (Binary64.equalsInt_iff.mp h).symm
    | exact Binary64.place?_eq_of_equals h
    | exact absurd h Bool.false_ne_true

/-- Numbers that stand at one place are equal. -/
theorem numbersEqual_of_place? {v w : Value} {p : Int × Int} (hv : v.place? = some p)
    (hw : w.place? = some p) : v.numbersEqual w = true := by
  have hint : ∀ {m n : Int}, some ((0 : Int), m * (Binary64.unitsPerOne : Int)) = some p →
      some ((0 : Int), n * (Binary64.unitsPerOne : Int)) = some p → (m == n) = true := by
    intro m n hm hn
    have hunits : m * (Binary64.unitsPerOne : Int) = n * Binary64.unitsPerOne :=
      (Prod.ext_iff.mp (Option.some.inj (hm.trans hn.symm))).2
    have hne := Nat.pos_iff_ne_zero.mp Binary64.unitsPerOne_pos
    exact beq_iff_eq.mpr (Int.eq_of_mul_eq_mul_right (Int.natCast_ne_zero.mpr hne) hunits)
  cases v <;> cases w <;>
    first
    | exact hint hv hw
    | exact Binary64.equalsInt_iff.mpr (hw.trans hv.symm)
    | exact Binary64.equalsInt_iff.mpr (hv.trans hw.symm)
    | exact Binary64.equals_of_place? hv hw
    | exact absurd hv.symm (Option.some_ne_none p)
    | exact absurd hw.symm (Option.some_ne_none p)

/-- A number that stands nowhere equals itself alone. -/
theorem eq_of_numbersEqual {v w : Value} (h : v.numbersEqual w = true) (hv : v.place? = none) :
    v = w := by
  have hw : w.place? = none := (place?_eq_of_numbersEqual h).symm.trans hv
  cases v <;> cases w <;>
    first
    | exact congrArg real (Binary64.eq_of_equals h hv)
    | exact absurd h Bool.false_ne_true
    | exact absurd hv (Option.some_ne_none _)
    | exact absurd hw (Option.some_ne_none _)

theorem numbersEqual_trans {u v w : Value} (huv : u.numbersEqual v = true)
    (hvw : v.numbersEqual w = true) : u.numbersEqual w = true := by
  cases hu : u.place? with
  | none => rwa [eq_of_numbersEqual huv hu]
  | some p =>
    have hw : w.place? = some p := by
      rw [← place?_eq_of_numbersEqual hvw, ← place?_eq_of_numbersEqual huv, hu]
    exact numbersEqual_of_place? hu hw

/-- A number equals nothing but numbers. -/
theorem equals_symm_of_isNumber {v w : Value} (hv : v.isNumber = true) (h : v.equals w = true) :
    w.equals v = true := by
  rw [equals_of_isNumber hv] at h
  rw [equals_of_isNumber (isNumber_of_numbersEqual h), numbersEqual_comm]
  exact h

mutual

/-- A value that may name an entry equals itself. -/
theorem equals_self : ∀ {v : Value}, v.isKey = true → v.equals v = true
  | .null, _ => rfl
  | .bool b, _ => by simp [equals, numbersEqual, integer?]
  | .int n, _ => by simp [equals, numbersEqual, integer?]
  | .real x, _ => by simp [equals, numbersEqual, integer?, Binary64.equals_self]
  | .text t, _ => by simp [equals]
  | .tuple items, h => by
    rw [isKey] at h
    rw [equals]
    exact equalItems_self h
  | .moment t, _ => by simp [equals]
  | .date d, _ => by simp [equals]
  | .clock c, _ => by simp [equals]

theorem equalItems_self : ∀ {vs : List Value}, areKeys vs = true → equalItems vs vs = true
  | [], _ => rfl
  | v :: rest, h => by
    rw [areKeys, Bool.and_eq_true] at h
    rw [equalItems, equals_self h.1, equalItems_self h.2]
    rfl

end

mutual

/-- What a name equals, equals the name. -/
theorem equals_symm : ∀ {v w : Value}, v.isKey = true → v.equals w = true → w.equals v = true
  | .null, w, _, h => by cases w <;> simp_all [equals]
  | .bool _, _, _, h => equals_symm_of_isNumber rfl h
  | .int _, _, _, h => equals_symm_of_isNumber rfl h
  | .real _, _, _, h => equals_symm_of_isNumber rfl h
  | .text t, w, _, h => by cases w <;> simp_all [equals]
  | .tuple items, w, hv, h => by
    rw [isKey] at hv
    cases w with
    | tuple others =>
      rw [equals] at h ⊢
      exact equalItems_symm hv h
    | _ => simp [equals] at h
  | .moment t, w, _, h => by cases w <;> simp_all [equals]
  | .date d, w, _, h => by cases w <;> simp_all [equals]
  | .clock c, w, _, h => by cases w <;> simp_all [equals]

theorem equalItems_symm : ∀ {vs ws : List Value}, areKeys vs = true → equalItems vs ws = true →
    equalItems ws vs = true
  | [], ws, _, h => by
    cases ws with
    | nil => rfl
    | cons w rest => simp [equalItems] at h
  | v :: vs, ws, hv, h => by
    rw [areKeys, Bool.and_eq_true] at hv
    cases ws with
    | nil => simp [equalItems] at h
    | cons w ws =>
      rw [equalItems, Bool.and_eq_true] at h
      rw [equalItems, equals_symm hv.1 h.1, equalItems_symm hv.2 h.2]
      rfl

end

theorem equals_trans_of_isNumber {u v w : Value} (hu : u.isNumber = true) (huv : u.equals v = true)
    (hvw : v.equals w = true) : u.equals w = true := by
  rw [equals_of_isNumber hu] at huv ⊢
  rw [equals_of_isNumber (isNumber_of_numbersEqual huv)] at hvw
  exact numbersEqual_trans huv hvw

mutual

/-- What a name equals, equals all that this one equals. -/
theorem equals_trans : ∀ {u v w : Value}, u.isKey = true → u.equals v = true → v.equals w = true →
    u.equals w = true
  | .null, v, w, _, huv, hvw => by cases v <;> simp_all [equals]
  | .bool _, _, _, _, huv, hvw => equals_trans_of_isNumber rfl huv hvw
  | .int _, _, _, _, huv, hvw => equals_trans_of_isNumber rfl huv hvw
  | .real _, _, _, _, huv, hvw => equals_trans_of_isNumber rfl huv hvw
  | .text t, v, w, _, huv, hvw => by cases v <;> simp_all [equals]
  | .tuple items, v, w, hu, huv, hvw => by
    rw [isKey] at hu
    cases v with
    | tuple others =>
      cases w with
      | tuple more =>
        rw [equals] at huv hvw ⊢
        exact equalItems_trans hu huv hvw
      | _ => simp [equals] at hvw
    | _ => simp [equals] at huv
  | .moment t, v, w, _, huv, hvw => by cases v <;> simp_all [equals]
  | .date d, v, w, _, huv, hvw => by cases v <;> simp_all [equals]
  | .clock c, v, w, _, huv, hvw => by cases v <;> simp_all [equals]

theorem equalItems_trans : ∀ {us vs ws : List Value}, areKeys us = true →
    equalItems us vs = true → equalItems vs ws = true → equalItems us ws = true
  | [], vs, ws, _, huv, hvw => by
    cases vs with
    | nil => exact hvw
    | cons v rest => simp [equalItems] at huv
  | u :: us, vs, ws, hu, huv, hvw => by
    rw [areKeys, Bool.and_eq_true] at hu
    cases vs with
    | nil => simp [equalItems] at huv
    | cons v vs =>
      cases ws with
      | nil => simp [equalItems] at hvw
      | cons w ws =>
        rw [equalItems, Bool.and_eq_true] at huv hvw ⊢
        exact ⟨equals_trans hu.1 huv.1 hvw.1, equalItems_trans hu.2 huv.2 hvw.2⟩

end

mutual

/-- Nothing but a name equals a name. -/
theorem isKey_of_equals : ∀ {v w : Value}, w.isKey = true → v.equals w = true → v.isKey = true
  | .null, _, _, _ | .bool _, _, _, _ | .int _, _, _, _ | .real _, _, _, _ | .text _, _, _, _
  | .moment _, _, _, _ | .date _, _, _, _ | .clock _, _, _, _ => rfl
  | .tuple items, w, hw, h => by
    cases w with
    | tuple others =>
      rw [equals] at h
      rw [isKey] at hw ⊢
      exact areKeys_of_equalItems hw h
    | _ => simp [equals] at h
  | .list _, w, hw, h | .mapping _, w, hw, h | .range _, w, hw, h | .request .., w, hw, h => by
    cases w <;> simp_all [equals, isKey]

theorem areKeys_of_equalItems : ∀ {vs ws : List Value}, areKeys ws = true →
    equalItems vs ws = true → areKeys vs = true
  | [], _, _, _ => rfl
  | v :: vs, ws, hw, h => by
    cases ws with
    | nil => simp [equalItems] at h
    | cons w ws =>
      rw [areKeys, Bool.and_eq_true] at hw
      rw [equalItems, Bool.and_eq_true] at h
      rw [areKeys, isKey_of_equals hw.1 h.1, areKeys_of_equalItems hw.2 h.2]
      rfl

end

/-- Nothing but a text equals it. -/
theorem equals_text_iff {v : Value} {t : Text} : v.equals (.text t) = true ↔ v = .text t := by
  cases v with
  | text s => simp [equals]
  | _ => simp [equals, numbersEqual, integer?]

theorem text_equals_iff {v : Value} {t : Text} : (text t).equals v = true ↔ v = .text t := by
  constructor
  · exact fun h => equals_text_iff.mp (equals_symm rfl h)
  · rintro rfl
    exact equals_self rfl

end Value

end RowStore
