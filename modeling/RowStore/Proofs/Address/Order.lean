import Mathlib.Data.List.Induction
import Mathlib.Data.List.Shortlex
import Mathlib.Order.Basic
import RowStore.Address.Corners
import RowStore.Proofs.Address.RoundTrip
import RowStore.Proofs.Fault.Outcome

/-!
# Columns in the order of their letters

The letters of the columns are the non-empty words of capital letters, the shorter ones first and those of
one length in the order of the alphabet. There is no digit zero, so the induction follows `letterChars`: a
column with more than one letter is the column before its last letter and that letter.

* `shortlex_letterChars` : the letters of a later column are later in that order;
* `letterChars_wordValue` : every word is the letters of a column;
* `letters_enumerate` : columns and words correspond one to one, and in order.
-/

namespace RowStore.Column

/-! ## Words of one length -/

section
variable {α : Type} {r : α → α → Prop} {xs ys : List α}

/-- Of two words of one length, the alphabet decides before their last letters are looked at. -/
theorem lex_append (hlength : xs.length = ys.length) (h : List.Lex r xs ys) (us vs : List α) :
    List.Lex r (xs ++ us) (ys ++ vs) := by
  induction h with
  | nil => simp at hlength
  | cons _ ih => exact .cons (ih (by simpa using hlength))
  | rel hr => exact .rel hr

/-- One more letter at the end of two words does not change their order. -/
theorem shortlex_append_singleton (h : List.Shortlex r xs ys) (x y : α) :
    List.Shortlex r (xs ++ [x]) (ys ++ [y]) := by
  rcases List.shortlex_def.mp h with hlength | ⟨hlength, hlex⟩
  · apply List.Shortlex.of_length_lt
    simp only [List.length_append, List.length_singleton]
    omega
  · apply List.Shortlex.of_lex
    · simp only [List.length_append, hlength, List.length_singleton]
    · exact lex_append hlength hlex [x] [y]

end

/-! ## Letters of columns -/

theorem letter_lt_letter {d e : Nat} (hlt : d < e) (he : e < 26) : letter d < letter e := by
  rw [Char.lt_def, UInt32.lt_iff_toNat_lt]
  change (letter d).toNat < (letter e).toNat
  rw [toNat_letter (by omega), toNat_letter he]
  omega

theorem letter_sub {c : Char} (h : isCapital c = true) : letter (c.toNat - 0x41) = c := by
  have hc := isCapital_iff.mp h
  rw [letter, show 0x41 + (c.toNat - 0x41) = c.toNat by omega, Char.ofNat_toNat]

/-- The letters of a later column are longer, or as long and later in the alphabet. -/
theorem shortlex_letterChars {m n : Nat} (h : m < n) :
    List.Shortlex (· < ·) (letterChars m) (letterChars n) := by
  induction n using Nat.strong_induction_on generalizing m with
  | _ n ih =>
    rw [letterChars.eq_def n]
    split
    case isTrue hn =>
      -- one letter each
      rw [letterChars, if_pos (by omega), List.shortlex_singleton_iff]
      exact letter_lt_letter h hn
    case isFalse hn =>
      by_cases hm : m < 26
      · rw [letterChars, if_pos hm]
        apply List.Shortlex.of_length_lt
        have hlength := List.length_pos_iff.mpr (letterChars_ne_nil (n / 26 - 1))
        simp only [List.length_append, List.length_singleton]
        omega
      · rw [letterChars, if_neg hm]
        by_cases hcarry : m / 26 = n / 26
        · -- only the last letter differs
          rw [hcarry]
          apply List.Shortlex.append_left
          rw [List.shortlex_singleton_iff]
          exact letter_lt_letter (by omega) (by omega)
        · exact shortlex_append_singleton (ih (n / 26 - 1) (by omega) (by omega)) _ _

/-- Columns are ordered as their letters are. -/
theorem shortlex_letterChars_iff {m n : Nat} :
    List.Shortlex (· < ·) (letterChars m) (letterChars n) ↔ m < n := by
  constructor
  · intro h
    rcases Nat.lt_trichotomy m n with hlt | rfl | hlt
    · exact hlt
    · exact absurd h (Std.Irrefl.irrefl _)
    · exact absurd h (Std.Asymm.asymm _ _ (shortlex_letterChars hlt))
  · exact shortlex_letterChars

theorem wordValue_pos {cs : List Char} (hne : cs ≠ []) (h : ∀ c ∈ cs, isCapital c = true) :
    0 < wordValue cs := by
  obtain ⟨front, c, rfl⟩ := (List.eq_nil_or_concat cs).resolve_left hne
  rw [List.concat_eq_append] at h ⊢
  have hc := isCapital_iff.mp (h c (by simp))
  rw [wordValue_append]
  omega

/-- Every word of capital letters is the letters of a column. -/
theorem letterChars_wordValue {cs : List Char} (hne : cs ≠ []) (h : ∀ c ∈ cs, isCapital c = true) :
    letterChars (wordValue cs - 1) = cs := by
  induction cs using List.reverseRecOn with
  | nil => exact absurd rfl hne
  | append_singleton front c ih =>
    obtain ⟨hfront, hlast⟩ := List.forall_mem_append.mp h
    have hc := isCapital_iff.mp (hlast c List.mem_cons_self)
    have hletter := letter_sub (hlast c List.mem_cons_self)
    rw [wordValue_append]
    by_cases hnil : front = []
    · subst hnil
      change letterChars (0 * 26 + (c.toNat - 0x40) - 1) = [c]
      rw [show 0 * 26 + (c.toNat - 0x40) - 1 = c.toNat - 0x41 by omega, letterChars,
        if_pos (by omega), hletter]
    · -- the last letter is the remainder, and the word before it has the quotient for its value
      have hpos := wordValue_pos hnil hfront
      have hquot : (wordValue front * 26 + (c.toNat - 0x40) - 1) / 26 = wordValue front := by omega
      have hrem : (wordValue front * 26 + (c.toNat - 0x40) - 1) % 26 = c.toNat - 0x41 := by omega
      rw [letterChars, if_neg (by omega), hquot, hrem, ih hnil hfront, hletter]

/-! ## Letters as texts -/

/-- A word of capital letters names the column that its value counts. -/
theorem index_ofString {s : String} (hne : s ≠ "") (h : ∀ c ∈ s.toList, isCapital c = true) :
    index s = .ok (wordValue s.toList - 1) := by
  have hchars : s.toList ≠ [] := by simpa using hne
  have haddress : ∀ c ∈ s.toList, Range.isAddressChar c = true := by
    intro c hc
    simp [Range.isAddressChar, h c hc]
  have hcapitals : ofCapitals? s.toList = some (wordValue s.toList - 1) := by
    rw [ofCapitals?, if_pos]
    simp only [Bool.and_eq_true, Bool.not_eq_true', List.isEmpty_eq_false_iff, List.all_eq_true]
    exact ⟨hchars, h⟩
  rw [index, Text.ofString, Range.normalized_ofChars haddress, Text.chars?_ofChars, Option.bind_some,
    hcapitals]

theorem index_letters (n : Nat) : index (letters n) = .ok n := by
  have hchars : (letters n).toList = letterChars n := String.toList_ofList
  have hne : letters n ≠ "" := by
    intro h
    apply letterChars_ne_nil n
    rw [← hchars, h]
    rfl
  rw [index_ofString hne (hchars ▸ isCapital_letterChars n), hchars, wordValue_letterChars,
    Nat.add_sub_cancel]

/-- A whole number from 0 on has its column's letters. -/
theorem lettersOf_natCast (n : Nat) : lettersOf (.int n) = .ok (letters n) := by
  have hbefore : (Value.int n).before (.int 0) = .ok false := by
    rw [Value.before_int, decide_eq_false (by omega)]
  rw [lettersOf, hbefore]
  · rfl
  · exact nofun

/-- Columns and non-empty words of capital letters correspond one to one: every column is read back from its
letters, and every word is the letters of the column that it names. A column comes before another one just if
its letters are fewer, or as many and earlier in the alphabet. -/
theorem letters_enumerate :
    (∀ n : Nat, lettersOf (.int n) = .ok (letters n) ∧ index (letters n) = .ok n) ∧
    (∀ s : String, s ≠ "" → (∀ c ∈ s.toList, isCapital c = true) →
      ∃ n, index s = .ok n ∧ lettersOf (.int n) = .ok s) ∧
    (∀ m n : Nat, m < n ↔ (letters m).length < (letters n).length ∨
      ((letters m).length = (letters n).length ∧ letters m < letters n)) := by
  refine ⟨fun n => ⟨lettersOf_natCast n, index_letters n⟩, fun s hne h => ?_, fun m n => ?_⟩
  · refine ⟨_, index_ofString hne h, ?_⟩
    rw [lettersOf_natCast, letters, letterChars_wordValue (by simpa using hne) h, String.ofList_toList]
  · rw [← shortlex_letterChars_iff, List.shortlex_def, String.lt_iff]
    simp only [letters, String.length_ofList, String.toList_ofList]
    rfl

/-- The words `ZZ` and `AAA` are the letters of neighbours, and the later one is longer. -/
theorem letters_enumerate_carry :
    ("ZZ" ≠ "" ∧ ∀ c ∈ "ZZ".toList, isCapital c = true) ∧
    (∃ n, index "ZZ" = .ok n ∧ lettersOf (.int n) = .ok "ZZ" ∧ n = 701) ∧
    (∃ n, index "AAA" = .ok n ∧ lettersOf (.int n) = .ok "AAA" ∧ n = 702) ∧
    ((letters 701).length < (letters 702).length ∨
      ((letters 701).length = (letters 702).length ∧ letters 701 < letters 702)) := by
  obtain ⟨-, hwords, horder⟩ := letters_enumerate
  have hcapitals : ∀ c ∈ "ZZ".toList, isCapital c = true := List.all_eq_true.mp (by decide)
  obtain ⟨n, hn, hletters⟩ := hwords "ZZ" (by decide) hcapitals
  obtain ⟨m, hm, hletters'⟩ := hwords "AAA" (by decide) (List.all_eq_true.mp (by decide))
  have hvalue : n = 701 := Except.ok.inj (hn.symm.trans rfl)
  have hvalue' : m = 702 := Except.ok.inj (hm.symm.trans rfl)
  exact ⟨⟨by decide, hcapitals⟩, ⟨n, hn, hletters, hvalue⟩, ⟨m, hm, hletters', hvalue'⟩,
    (horder 701 702).mp (by decide)⟩

end RowStore.Column
