import RowStore.Proofs.Number.Scripts
import RowStore.Text.Case

/-!
# Upper case

White space, digits and the colon stay as they are in upper case, and nothing else becomes one of them. So
a text falls apart at them in the same places before and after it is put into upper case.

* `upperChar_cases` : a character stays as it is, or it becomes what the tables have for it (`Becomes`);
* `isUpper_upperChar_iff` : capital ASCII letters come from the letters of ASCII and from ten others;
* `Fixes f p` : the mapping `f` of characters keeps a class and maps nothing else into it; one lemma for each
  way of taking a list apart at characters of the class;
* `fixes_upperChar` : upper case fixes white space, digits and the colon.
-/

namespace RowStore.Text

variable {c u : Char}

/-! ## What the tables hold -/

/-- White space, the colon, and the digits of all scripts, by the first and the last of each row. -/
def caselessRows : List (Nat × Nat) := [
  (0x09, 0x0D), (0x1C, 0x20), (0x3A, 0x3A), (0x85, 0x85), (0xA0, 0xA0), (0x1680, 0x1680), (0x2000, 0x200A),
  (0x2028, 0x2029), (0x202F, 0x202F), (0x205F, 0x205F), (0x3000, 0x3000)] ++
    digitZeros.map fun first => (first, first + 9)

/-- A character that case does not concern. -/
def IsCaseless (c : Char) : Prop := ∃ row ∈ caselessRows, row.1 ≤ c.toNat ∧ c.toNat ≤ row.2

/-- Whether a row of code points has none of the caseless ones among them. -/
def isCased (first last : Nat) : Bool :=
  caselessRows.all fun row => Nat.blt last row.1 || Nat.blt row.2 first

/-- The letters beyond ASCII whose upper case is made of ASCII letters: sharp s, dotless i, long s, and the
seven ligatures of Latin letters. -/
def foldedCodes : List Nat :=
  [0xDF, 0x131, 0x17F, 0xFB00, 0xFB01, 0xFB02, 0xFB03, 0xFB04, 0xFB05, 0xFB06]

/-- A letter of ASCII, or one whose upper case is made of such letters. -/
def IsLatin (c : Char) : Prop := c.isAlpha = true ∨ c.toNat ∈ foldedCodes

theorem isCased_shifts : (shifts.all fun s => isCased s.first s.last &&
    isCased ((s.first : Int) + s.distance).toNat ((s.last : Int) + s.distance).toNat) = true := by
  decide +kernel

theorem isCased_expansions :
    (expansions.all fun e => isCased e.1 e.1 && e.2.all fun code => isCased code code) = true := by
  decide +kernel

theorem isCased_ascii : ∀ code < 0x80, (Char.ofNat code).toUpper = Char.ofNat code ∨
    (isCased code code = true ∧
      isCased (Char.ofNat code).toUpper.toNat (Char.ofNat code).toUpper.toNat = true) := by
  decide +kernel

theorem shifts_reach_capitals : ∀ s ∈ shifts, ((s.last : Int) + s.distance).toNat < 0x41 ∨
    0x5A < ((s.first : Int) + s.distance).toNat ∨ s.last < 0x80 ∨
    (s.first = s.last ∧ s.first ∈ foldedCodes) := by
  decide +kernel

theorem expansions_reach_capitals : ∀ e ∈ expansions, e.2 ≠ [] ∧
    ((∀ code ∈ e.2, 0x41 ≤ code ∧ code ≤ 0x5A) → e.1 ∈ foldedCodes) := by
  decide +kernel

theorem isUpper_upperChar_folded :
    (foldedCodes.all fun code => (upperChar (Char.ofNat code)).all Char.isUpper) = true := by
  decide +kernel

/-! ## The upper case of one character -/

theorem isUpper_iff : c.isUpper = true ↔ 0x41 ≤ c.toNat ∧ c.toNat ≤ 0x5A := by
  change decide _ = true ↔ _
  rw [decide_eq_true_iff]
  exact Iff.rfl

theorem isLower_iff : c.isLower = true ↔ 0x61 ≤ c.toNat ∧ c.toNat ≤ 0x7A := by
  change (decide ('a'.val ≤ c.val) && decide (c.val ≤ 'z'.val)) = true ↔ _
  rw [Bool.and_eq_true, decide_eq_true_iff, decide_eq_true_iff]
  exact Iff.rfl

theorem isAlpha_iff : c.isAlpha = true ↔ c.isUpper = true ∨ c.isLower = true := Bool.or_eq_true_iff

theorem not_isCaseless {first last : Nat} (h : isCased first last = true) (hfirst : first ≤ c.toNat)
    (hlast : c.toNat ≤ last) : ¬ IsCaseless c := by
  rintro ⟨row, hrow, hle, hge⟩
  have hoff := List.all_eq_true.mp h row hrow
  simp only [Bool.or_eq_true, Nat.blt_eq] at hoff
  omega

/-- A number that no character has gives the character of number zero. -/
theorem toNat_ofNat_cases (n : Nat) : (Char.ofNat n).toNat = n ∨ (Char.ofNat n).toNat = 0 := by
  by_cases h : n.isValidChar
  · have hof : Char.ofNat n = Char.ofNatAux n h := dif_pos h
    rw [hof]
    exact Or.inl rfl
  · have hof : Char.ofNat n = '\x00' := dif_neg h
    rw [hof]
    exact Or.inr rfl

theorem not_isCaseless_ofNat {first last code : Nat} (h : isCased first last = true) (hfirst : first ≤ code)
    (hlast : code ≤ last) : ¬ IsCaseless (Char.ofNat code) := by
  rcases toNat_ofNat_cases code with hcode | hcode
  · exact not_isCaseless h (by omega) (by omega)
  · exact not_isCaseless (show isCased 0 0 = true by decide) (by omega) (by omega)

theorem capital_of_isUpper_ofNat {code : Nat} (h : (Char.ofNat code).isUpper = true) :
    0x41 ≤ code ∧ code ≤ 0x5A := by
  have hcode := isUpper_iff.mp h
  rcases toNat_ofNat_cases code with heq | heq <;> omega

theorem lt_of_isAlpha (h : c.isAlpha = true) : c.toNat < 0x80 := by
  rw [isAlpha_iff, isUpper_iff, isLower_iff] at h
  omega

theorem isUpper_toUpper (hascii : c.toNat < 0x80) : c.toUpper.isUpper = c.isAlpha := by
  have hall : ∀ code < 0x80, (Char.ofNat code).toUpper.isUpper = (Char.ofNat code).isAlpha := by
    decide +kernel
  simpa only [Char.ofNat_toNat] using hall c.toNat hascii

/-- A character of case becomes other characters of case, which are capital ASCII letters for some only. -/
structure Becomes (c : Char) (image : List Char) : Prop where
  ne_nil : image ≠ []
  source : ¬ IsCaseless c
  target : ∀ u ∈ image, ¬ IsCaseless u
  letter : (∀ u ∈ image, u.isUpper = true) → IsLatin c

theorem becomes_ascii (hascii : c.toNat < 0x80) : c.toUpper = c ∨ Becomes c [c.toUpper] := by
  rcases isCased_ascii c.toNat hascii with hsame | ⟨hsource, htarget⟩
  · rw [Char.ofNat_toNat] at hsame
    exact Or.inl hsame
  · rw [Char.ofNat_toNat] at htarget
    refine Or.inr ⟨List.cons_ne_nil _ _, not_isCaseless hsource (by omega) (by omega), ?_, ?_⟩
    · exact List.forall_mem_singleton.mpr (not_isCaseless htarget (by omega) (by omega))
    · refine fun h => Or.inl ?_
      rw [← isUpper_toUpper hascii]
      exact h _ List.mem_cons_self

theorem becomes_expansion {e : Nat × List Nat} (he : e ∈ expansions) (hc : e.1 = c.toNat) :
    Becomes c (e.2.map Char.ofNat) := by
  have hcased := List.all_eq_true.mp isCased_expansions e he
  rw [Bool.and_eq_true, List.all_eq_true] at hcased
  obtain ⟨hne, hletter⟩ := expansions_reach_capitals e he
  refine ⟨by simpa using hne, not_isCaseless hcased.1 (by omega) (by omega), ?_, fun h => Or.inr ?_⟩
  · intro u hu
    obtain ⟨code, hcode, rfl⟩ := List.mem_map.mp hu
    exact not_isCaseless_ofNat (hcased.2 code hcode) (by omega) (by omega)
  · rw [← hc]
    exact hletter fun code hcode => capital_of_isUpper_ofNat (h _ (List.mem_map_of_mem hcode))

theorem becomes_shift {s : Shift} (hs : s ∈ shifts) (hc : s.applies c.toNat = true) (hwide : 0x80 ≤ c.toNat) :
    Becomes c [Char.ofNat ((c.toNat : Int) + s.distance).toNat] := by
  have hcased := List.all_eq_true.mp isCased_shifts s hs
  have hletter := shifts_reach_capitals s hs
  simp only [Shift.applies, Bool.and_eq_true, decide_eq_true_eq] at hcased hc
  refine ⟨List.cons_ne_nil _ _, not_isCaseless hcased.1 hc.1.1 hc.1.2, ?_, fun h => Or.inr ?_⟩
  · exact List.forall_mem_singleton.mpr (not_isCaseless_ofNat hcased.2 (by omega) (by omega))
  · have hcapital := capital_of_isUpper_ofNat (h _ List.mem_cons_self)
    rcases hletter with hbelow | habove | hascii | ⟨hone, hfolded⟩
    · omega
    · omega
    · omega
    · rwa [show c.toNat = s.first by omega]

/-- The upper case of a character is the character, or what the tables have for it. -/
theorem upperChar_cases (c : Char) : upperChar c = [c] ∨ Becomes c (upperChar c) := by
  rw [upperChar]
  split
  case isTrue hascii =>
    rcases becomes_ascii hascii with hsame | hother
    · exact Or.inl (by rw [hsame])
    · exact Or.inr hother
  case isFalse hwide =>
    split
    case h_1 code codes hfind =>
      have hcode := List.find?_some hfind
      exact Or.inr (becomes_expansion (List.mem_of_find?_eq_some hfind) (by simpa using hcode))
    case h_2 =>
      split
      case h_1 s hfind =>
        have happlies := List.find?_some hfind
        exact Or.inr (becomes_shift (List.mem_of_find?_eq_some hfind) happlies (by omega))
      case h_2 => exact Or.inl rfl

/-- The letters whose upper case is made of capital ASCII letters. -/
theorem isUpper_upperChar_iff : (∀ u ∈ upperChar c, u.isUpper = true) ↔ IsLatin c := by
  constructor
  · intro h
    rcases upperChar_cases c with hsame | hother
    · rw [hsame] at h
      exact Or.inl (isAlpha_iff.mpr (Or.inl (h c List.mem_cons_self)))
    · exact hother.letter h
  · rintro (halpha | hfolded)
    · have hascii := lt_of_isAlpha halpha
      rw [upperChar_ascii c hascii, List.forall_mem_singleton, isUpper_toUpper hascii]
      exact halpha
    · have hall := List.all_eq_true.mp isUpper_upperChar_folded c.toNat hfolded
      rw [Char.ofNat_toNat] at hall
      exact List.all_eq_true.mp hall

/-! ## Caseless characters -/

theorem upperChar_of_isCaseless (h : IsCaseless c) : upperChar c = [c] :=
  (upperChar_cases c).resolve_right fun hother => hother.source h

theorem eq_of_mem_upperChar (hu : u ∈ upperChar c) (h : IsCaseless u) : u = c := by
  rcases upperChar_cases c with hsame | hother
  · rw [hsame] at hu
    exact List.mem_singleton.mp hu
  · exact absurd h (hother.target u hu)

theorem upperChar_ne_nil (c : Char) : upperChar c ≠ [] := by
  rcases upperChar_cases c with hsame | hother
  · rw [hsame]
    exact List.cons_ne_nil _ _
  · exact hother.ne_nil

theorem isCaseless_of_isDigit (h : isDigit c = true) : IsCaseless c := by
  obtain ⟨d, hd⟩ := Option.isSome_iff_exists.mp h
  obtain ⟨first, hfirst, hle, hlt, -⟩ := exists_zero_of_digitValue? hd
  exact ⟨(first, first + 9), List.mem_append_right _ (List.mem_map_of_mem hfirst), hle, by dsimp only; omega⟩

theorem isCaseless_of_isBlank (h : isBlank c = true) : IsCaseless c := by
  simp only [isBlank, isWideBlank, Bool.or_eq_true, Bool.and_eq_true, decide_eq_true_eq, beq_iff_eq] at h
  simp only [IsCaseless, caselessRows, List.cons_append, List.exists_mem_cons_iff]
  omega

theorem isCaseless_colon : IsCaseless ':' := ⟨(0x3A, 0x3A), by decide, by decide, by decide⟩

/-! ## Taking texts in upper case apart -/

/-- A mapping of characters keeps a class and maps nothing else into it. -/
structure Fixes (f : Char → List Char) (p : Char → Bool) : Prop where
  keeps : ∀ c, p c = true → f c = [c]
  only : ∀ c, ∀ u ∈ f c, p u = true → u = c
  ne_nil : ∀ c, f c ≠ []

theorem fixes_upperChar {p : Char → Bool} (h : ∀ c, p c = true → IsCaseless c) : Fixes upperChar p where
  keeps c hc := upperChar_of_isCaseless (h c hc)
  only _ u hu hp := eq_of_mem_upperChar hu (h u hp)
  ne_nil := upperChar_ne_nil

namespace Fixes

variable {f : Char → List Char} {p : Char → Bool} (h : Fixes f p) (cs : List Char)
include h

/-- A character of another class becomes characters of another class. -/
theorem not_mem_class (hc : p c = false) (hu : u ∈ f c) : ¬ p u = true := by
  intro hp
  rw [← h.only c u hu hp, hp] at hc
  cases hc

theorem dropWhile_flatMap : (cs.flatMap f).dropWhile p = (cs.dropWhile p).flatMap f := by
  induction cs with
  | nil => rfl
  | cons c rest ih =>
    rw [List.flatMap_cons]
    cases hc : p c with
    | true =>
      rw [h.keeps c hc, List.singleton_append, List.dropWhile_cons_of_pos hc,
        List.dropWhile_cons_of_pos hc, ih]
    | false =>
      obtain ⟨u, more, hf⟩ := List.exists_cons_of_ne_nil (h.ne_nil c)
      have hu : ¬ p u = true := h.not_mem_class hc (hf ▸ List.mem_cons_self)
      rw [List.dropWhile_cons_of_neg (Bool.eq_false_iff.mp hc), List.flatMap_cons, hf, List.cons_append,
        List.dropWhile_cons_of_neg hu]

theorem reversed : Fixes (fun c => (f c).reverse) p where
  keeps c hc := by rw [h.keeps c hc]; rfl
  only c u hu := h.only c u (List.mem_reverse.mp hu)
  ne_nil c := fun heq => h.ne_nil c (List.reverse_eq_nil_iff.mp heq)

theorem trimBy_flatMap : trimBy p (cs.flatMap f) = (trimBy p cs).flatMap f := by
  have hreverse : ∀ xs : List Char, (xs.flatMap f).reverse = xs.reverse.flatMap fun c => (f c).reverse :=
    fun xs => List.reverse_flatMap
  rw [trimBy, h.dropWhile_flatMap, hreverse, h.reversed.dropWhile_flatMap, trimBy, List.reverse_flatMap]
  simp only [List.reverse_reverse, Function.comp_def]

/-- The first character of a class stands where it has stood before the mapping. -/
theorem exists_split {s : Char} {xs ys : List Char} (hs : p s = true) (hxs : ∀ u ∈ xs, p u = false)
    (heq : cs.flatMap f = xs ++ s :: ys) :
    ∃ front back, cs = front ++ s :: back ∧ front.flatMap f = xs ∧ back.flatMap f = ys := by
  induction cs generalizing xs with
  | nil => simp at heq
  | cons c rest ih =>
    rw [List.flatMap_cons] at heq
    cases hc : p c with
    | true =>
      rw [h.keeps c hc, List.singleton_append] at heq
      cases xs with
      | nil =>
        obtain ⟨rfl, rfl⟩ := List.cons.inj heq
        exact ⟨[], rest, rfl, rfl, rfl⟩
      | cons x xs =>
        have hx := hxs c ((List.cons.inj heq).1 ▸ List.mem_cons_self)
        rw [hc] at hx
        cases hx
    | false =>
      have hf := fun u hu => h.not_mem_class hc (u := u) hu
      rcases List.append_eq_append_iff.mp heq with ⟨mid, rfl, hrest⟩ | ⟨mid, hmid, hrest⟩
      · obtain ⟨front, back, rfl, rfl, rfl⟩ := ih (List.forall_mem_append.mp hxs).2 hrest
        exact ⟨c :: front, back, rfl, rfl, rfl⟩
      · cases mid with
        | nil =>
          obtain ⟨front, back, rfl, hfront, rfl⟩ := ih (fun _ hu => absurd hu List.not_mem_nil) hrest.symm
          refine ⟨c :: front, back, rfl, ?_, rfl⟩
          rw [List.flatMap_cons, hfront, hmid, List.append_nil, List.append_nil]
        | cons x mid =>
          -- the character of the class cannot come from one of another class
          refine absurd hs (hf s ?_)
          rw [hmid, (List.cons.inj hrest).1]
          exact List.mem_append_right _ List.mem_cons_self

/-- What is mapped into the class was of the class before. -/
theorem flatMap_of_class (hcs : ∀ u ∈ cs.flatMap f, p u = true) : cs.flatMap f = cs := by
  induction cs with
  | nil => rfl
  | cons c rest ih =>
    rw [List.flatMap_cons, List.forall_mem_append] at hcs
    obtain ⟨u, hu⟩ := List.exists_mem_of_ne_nil _ (h.ne_nil c)
    have hc : p c = true := h.only c u hu (hcs.1 u hu) ▸ hcs.1 u hu
    rw [List.flatMap_cons, h.keeps c hc, ih hcs.2]
    rfl

end Fixes

/-! ## Texts in upper case -/

theorem trim_ofChars (cs : List Char) : trim (ofChars cs) = ofChars (trimBy isBlank cs) := by
  rw [trim, trimBy, ofChars, List.dropWhile_map, ← List.map_reverse, List.dropWhile_map, ← List.map_reverse]
  rfl

theorem upper_ofChars_flatMap (cs : List Char) : upper (ofChars cs) = ofChars (cs.flatMap upperChar) := by
  rw [upper, ofChars, List.flatMap_map, ofChars, List.map_flatMap]
  rfl

end RowStore.Text
