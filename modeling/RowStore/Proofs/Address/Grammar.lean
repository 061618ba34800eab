import RowStore.Proofs.Address.Corners
import RowStore.Proofs.Text.Upper

/-!
# What is accepted as an address

A cell is one or more letters followed by one or more digits, a column is letters alone, and a range is a cell
or two cells with a colon between them; white space may stand around each. `Script` says what the letters and
the digits are, and how many digits a row may have.

* `Script.NamesCell S cs row col`, `Script.Spells S cs r` : the characters name a cell, or spell a range;
* `Column.index_eq_ok_iff`, `Range.ofA1_eq_ok_iff` : what is read is what is spelled in the script `wide`, which
  has the letters that only upper case makes ASCII letters, and the digits of all scripts, in numerals that are
  not too long;
* `addresses_accepted` : the texts in ASCII with such numerals are those that are read and have nothing but ASCII
  and white space.
-/

namespace RowStore

open Text

/-! ## The grammar -/

/-- What counts as a letter and as a digit of an address, and how many digits a row may have. -/
structure Script where
  letter : Char → Prop
  digit : Char → Prop
  length : Nat → Prop

namespace Script

/-- The letters and the digits of ASCII. -/
def ascii : Script := ⟨fun c => c.isAlpha = true, fun c => c.isDigit = true, fun _ => True⟩

/-- All letters whose upper case is made of capital ASCII letters, and the digits of all scripts. -/
def all (length : Nat → Prop) : Script := ⟨IsLatin, fun c => Text.isDigit c = true, length⟩

/-- These letters and digits, in numerals that are not too long. -/
abbrev wide : Script := all (· ≤ longestNumeral)

/-- A script without the numerals that are too long. -/
def brief (S : Script) : Script := { S with length := fun n => S.length n ∧ n ≤ longestNumeral }

variable (S : Script)

/-- One or more letters that have, in upper case, the value of a column. -/
structure NamesColumn (word : List Char) (n : Nat) : Prop where
  ne_nil : word ≠ []
  isLetter : ∀ c ∈ word, S.letter c
  value : Column.wordValue (word.flatMap upperChar) = n + 1

/-- One or more digits that stand for the number of a row. -/
structure NamesRow (digits : List Char) (n : Nat) : Prop where
  ne_nil : digits ≠ []
  isDigit : ∀ c ∈ digits, S.digit c
  fits : S.length digits.length
  number : numberOf digits = n

/-- The letters of a column and the digits of a row. -/
def NamesCell (cs : List Char) (row col : Nat) : Prop :=
  ∃ word digits, cs = word ++ digits ∧ S.NamesColumn word col ∧ S.NamesRow digits row

/-- A cell, or two cells with a colon between them; white space may stand around each of them. -/
inductive Spells : List Char → Range → Prop
  | cell {cs : List Char} {r : Range} (one : r.IsCell)
      (cell : S.NamesCell (trimBy isBlank cs) r.row r.col) : Spells cs r
  | cells {xs ys : List Char} {r : Range} (start : S.NamesCell (trimBy isBlank xs) r.row r.col)
      (last : S.NamesCell (trimBy isBlank ys) r.rowEnd r.colEnd) : Spells (xs ++ ':' :: ys) r

end Script

/-! ## Cells -/

theorem Column.isUpper_eq (c : Char) : c.isUpper = isCapital c := by
  rw [Bool.eq_iff_iff, isUpper_iff, isCapital_iff]

/-- No row of digits holds a capital letter. -/
theorem Column.isCapital_of_isDigit {c : Char} (h : Text.isDigit c = true) : isCapital c = false := by
  obtain ⟨d, hd⟩ := Option.isSome_iff_exists.mp h
  obtain ⟨first, hfirst, hle, hlt, -⟩ := exists_zero_of_digitValue? hd
  have hrows : ∀ first ∈ digitZeros, first + 10 ≤ 0x41 ∨ 0x5A < first := by decide
  have hrow := hrows first hfirst
  rw [Bool.eq_false_iff, ne_eq, isCapital_iff]
  omega

theorem Column.isDigit_letterChars (n : Nat) : ∀ c ∈ letterChars n, Text.isDigit c = false := by
  intro c hc
  refine Bool.eq_false_iff.mpr fun hdigit => ?_
  have hcapital := isCapital_letterChars n c hc
  rw [isCapital_of_isDigit hdigit] at hcapital
  cases hcapital

namespace Script

variable {L : Nat → Prop} {word digits : List Char} {n : Nat}

/-- A word of letters is one or more capital letters in upper case. -/
theorem upper_of_isLetter (hne : word ≠ []) (h : ∀ c ∈ word, (all L).letter c) :
    word.flatMap upperChar ≠ [] ∧ ∀ u ∈ word.flatMap upperChar, Column.isCapital u = true := by
  constructor
  · obtain ⟨c, hc⟩ := List.exists_mem_of_ne_nil word hne
    obtain ⟨u, hu⟩ := List.exists_mem_of_ne_nil _ (upperChar_ne_nil c)
    exact List.ne_nil_of_mem (List.mem_flatMap.mpr ⟨c, hc, hu⟩)
  · intro u hu
    obtain ⟨c, hc, hu⟩ := List.mem_flatMap.mp hu
    rw [← Column.isUpper_eq]
    exact isUpper_upperChar_iff.mpr (h c hc) u hu

/-- The letters of a word are known by its upper case. -/
theorem namesColumn_all_iff :
    (all L).NamesColumn word n ↔ word.flatMap upperChar = Column.letterChars n := by
  constructor
  · rintro ⟨hne, hletters, hvalue⟩
    obtain ⟨hupper, hcapitals⟩ := upper_of_isLetter hne hletters
    rw [← Column.letterChars_wordValue hupper hcapitals, hvalue, Nat.add_sub_cancel]
  · intro h
    refine ⟨?_, fun c hc => isUpper_upperChar_iff.mp fun u hu => ?_, ?_⟩
    · rintro rfl
      exact Column.letterChars_ne_nil n h.symm
    · rw [Column.isUpper_eq]
      exact Column.isCapital_letterChars n u (h ▸ List.mem_flatMap.mpr ⟨c, hc, hu⟩)
    · rw [h, Column.wordValue_letterChars]

/-- Digits stay as they are in upper case. -/
theorem NamesRow.upper (h : (all L).NamesRow digits n) : digits.flatMap upperChar = digits := by
  have hsame : ∀ c ∈ digits, upperChar c = [c] := fun c hc =>
    upperChar_of_isCaseless (isCaseless_of_isDigit (h.isDigit c hc))
  rw [List.flatMap_congr hsame, List.flatMap_singleton']

end Script

namespace Range

variable {t : Text} {us cs : List Char} {row col : Nat}

/-- A cell's parts are the letters of its column and the digits of its row, of any length. -/
theorem cellParts?_eq_some_iff {ds : List Char} : cellParts? us = some (ds, col) ↔ ∃ digits,
    trimBy isBlank us = Column.letterChars col ++ digits ∧ digits ≠ [] ∧
      (∀ c ∈ digits, Text.isDigit c = true) ∧ digits.map plainDigit = ds := by
  rw [cellParts?]
  generalize trimBy isBlank us = body
  constructor
  · intro h
    split at h
    case isTrue => cases h
    case isFalse hform =>
      simp only [Bool.or_eq_true, List.isEmpty_iff, Bool.not_eq_true', not_or, Bool.not_eq_false,
        List.all_eq_true] at hform
      obtain ⟨⟨hletters, hne⟩, hdigits⟩ := hform
      obtain ⟨hrow, hcol⟩ := Prod.mk.inj (Option.some.inj h)
      have hword := Column.letterChars_wordValue hletters fun c hc => List.mem_takeWhile_imp hc
      refine ⟨body.dropWhile Column.isCapital, ?_, hne, hdigits, hrow⟩
      rw [← hcol, hword, List.takeWhile_append_dropWhile]
  · rintro ⟨digits, rfl, hne, hdigits, rfl⟩
    have hcapitals := Column.isCapital_letterChars col
    obtain ⟨d, rest, rfl⟩ := List.exists_cons_of_ne_nil hne
    have hd : ¬ Column.isCapital d = true :=
      Bool.eq_false_iff.mp (Column.isCapital_of_isDigit (hdigits d List.mem_cons_self))
    rw [List.takeWhile_append_of_pos hcapitals, List.dropWhile_append_of_pos hcapitals,
      List.takeWhile_cons_of_neg hd, List.dropWhile_cons_of_neg hd, List.append_nil, if_neg,
      Column.wordValue_letterChars, Nat.add_sub_cancel]
    simpa [Column.letterChars_ne_nil] using hdigits

/-- A cell is read from the letters of its column and the digits of its row. -/
theorem readCell_eq_ok_iff : readCell (· ≤ longestNumeral) t us = .ok (row, col) ↔ ∃ digits,
    trimBy isBlank us = Column.letterChars col ++ digits ∧ Script.wide.NamesRow digits row := by
  have hparts : readCell (· ≤ longestNumeral) t us = .ok (row, col) ↔ ∃ ds, cellParts? us = some (ds, col) ∧
      ds.length ≤ longestNumeral ∧ digitsValue ds = row := by
    rw [readCell]
    rcases cellParts? us with _ | ⟨ds, col'⟩
    · refine iff_of_false (fun h => by cases h) ?_
      rintro ⟨ds, h, -⟩
      cases h
    · dsimp only
      by_cases hlength : ds.length ≤ longestNumeral
      · rw [if_pos (decide_eq_true hlength)]
        simp only [Except.ok.injEq, Prod.mk.injEq, Option.some.injEq]
        constructor
        · rintro ⟨hrow, hcol⟩
          exact ⟨ds, ⟨rfl, hcol⟩, hlength, hrow⟩
        · rintro ⟨_, ⟨h, hcol⟩, -, hrow⟩
          exact ⟨h ▸ hrow, hcol⟩
      · rw [if_neg fun h => hlength (of_decide_eq_true h)]
        refine iff_of_false (fun h => by cases h) ?_
        rintro ⟨_, h, hle, -⟩
        cases h
        exact hlength hle
  rw [hparts]
  constructor
  · rintro ⟨ds, hds, hlength, hrow⟩
    obtain ⟨digits, htrim, hne, hdigits, rfl⟩ := cellParts?_eq_some_iff.mp hds
    rw [List.length_map] at hlength
    rw [digitsValue_map_plainDigit hdigits] at hrow
    exact ⟨digits, htrim, hne, hdigits, hlength, hrow⟩
  · rintro ⟨digits, htrim, hrow⟩
    refine ⟨_, cellParts?_eq_some_iff.mpr ⟨digits, htrim, hrow.ne_nil, hrow.isDigit, rfl⟩, ?_, ?_⟩
    · rw [List.length_map]
      exact hrow.fits
    · rw [digitsValue_map_plainDigit hrow.isDigit, hrow.number]

/-- The characters from which a cell is read once they are in upper case. -/
theorem readCell_upper_iff : readCell (· ≤ longestNumeral) t (cs.flatMap upperChar) = .ok (row, col) ↔
    Script.wide.NamesCell (trimBy isBlank cs) row col := by
  rw [readCell_eq_ok_iff, (fixes_upperChar fun _ => isCaseless_of_isBlank).trimBy_flatMap]
  generalize trimBy isBlank cs = xs
  have hfixes : Fixes upperChar Text.isDigit := fixes_upperChar fun _ => isCaseless_of_isDigit
  constructor
  · rintro ⟨digits, heq, hrow⟩
    obtain ⟨d, rest, rfl⟩ := List.exists_cons_of_ne_nil hrow.ne_nil
    obtain ⟨hd, hrest⟩ := List.forall_mem_cons.mp hrow.isDigit
    obtain ⟨word, back, rfl, hword, rfl⟩ :=
      hfixes.exists_split xs hd (Column.isDigit_letterChars col) heq
    rw [hfixes.flatMap_of_class back hrest] at hrow
    exact ⟨word, d :: back, rfl, Script.namesColumn_all_iff.mpr hword, hrow⟩
  · rintro ⟨word, digits, rfl, hword, hrow⟩
    exact ⟨digits, by
      rw [List.flatMap_append, Script.namesColumn_all_iff.mp hword, hrow.upper], hrow⟩

/-! ## Ranges -/

variable {fits : Nat → Bool} {l r : List Char}

/-- White space around a cell does not count. -/
theorem readCell_pad (hl : ∀ c ∈ l, isBlank c = true) (hr : ∀ c ∈ r, isBlank c = true) :
    readCell fits t (l ++ us ++ r) = readCell fits t us := by
  rw [readCell, cellParts?, trimBy_append hl hr, readCell, cellParts?]

theorem readCorners_of_notMem (h : ':' ∉ us) :
    readCorners fits t us = (readCell fits t us).map fun c => (c, c) := by
  have hdrop : us.dropWhile (· ≠ ':') = [] := by
    refine List.dropWhile_eq_nil_iff.mpr fun c hc => decide_eq_true ?_
    rintro rfl
    exact h hc
  rw [readCorners, hdrop]
  dsimp only
  cases readCell fits t us <;> rfl

theorem readCorners_append {xs ys : List Char} (h : ':' ∉ xs) :
    readCorners fits t (xs ++ ':' :: ys) =
      if ':' ∈ ys then .error (.notARange t)
      else readCell fits t xs >>= fun start => (readCell fits t ys).map fun last => (start, last) := by
  have hne : ∀ c ∈ xs, decide (c ≠ ':') = true := fun c hc =>
    decide_eq_true fun heq => h (heq ▸ hc)
  have hdrop : (xs ++ ':' :: ys).dropWhile (· ≠ ':') = ':' :: ys := by
    rw [List.dropWhile_append_of_pos hne]
    simp
  have htake : (xs ++ ':' :: ys).takeWhile (· ≠ ':') = xs := by
    rw [List.takeWhile_append_of_pos hne]
    simp
  rw [readCorners, hdrop]
  dsimp only
  rw [htake]
  simp only [List.contains_iff_mem]
  split
  · rfl
  · cases readCell fits t xs with
    | error fault => rfl
    | ok start => cases readCell fits t ys <;> rfl

theorem notMem_colon_of_isBlank (h : ∀ c ∈ l, isBlank c = true) : ':' ∉ l := fun hmem =>
  absurd (h ':' hmem) (by decide)

/-- White space around a range stands around its cells. -/
theorem readCorners_pad (hl : ∀ c ∈ l, isBlank c = true) (hr : ∀ c ∈ r, isBlank c = true) :
    readCorners fits t (l ++ us ++ r) = readCorners fits t us := by
  have hfront := notMem_colon_of_isBlank hl
  have hback := notMem_colon_of_isBlank hr
  by_cases hcolon : ':' ∈ us
  · obtain ⟨xs, ys, rfl, hxs⟩ := List.eq_append_cons_of_mem hcolon
    have hsplit : l ++ (xs ++ ':' :: ys) ++ r = (l ++ xs ++ []) ++ ':' :: ([] ++ ys ++ r) := by simp
    have hpad : ':' ∉ l ++ xs ++ [] := by simp [hfront, hxs]
    have hmem : ':' ∈ [] ++ ys ++ r ↔ ':' ∈ ys := by simp [hback]
    rw [hsplit, readCorners_append hpad, readCorners_append hxs,
      readCell_pad hl (List.forall_mem_nil _), readCell_pad (List.forall_mem_nil _) hr]
    simp only [hmem]
  · have hpad : ':' ∉ l ++ us ++ r := by simp [hfront, hcolon, hback]
    rw [readCorners_of_notMem hpad, readCorners_of_notMem hcolon, readCell_pad hl hr]

end Range

namespace Script

variable {L : Nat → Prop} {cs : List Char} {row col : Nat} {c : Char}

theorem isBlank_of_letter (h : (all L).letter c) : isBlank c = false := by
  refine Bool.eq_false_iff.mpr fun hblank => ?_
  have hsame := upperChar_of_isCaseless (isCaseless_of_isBlank hblank)
  have hupper := isUpper_iff.mp (isUpper_upperChar_iff.mpr h c (hsame ▸ List.mem_singleton_self c))
  rw [isBlank_of_visible (by omega)] at hblank
  cases hblank

/-- A cell has neither white space nor a colon in it. -/
theorem NamesCell.of_mem (h : (all L).NamesCell cs row col) (hc : c ∈ cs) : isBlank c = false ∧ c ≠ ':' := by
  obtain ⟨word, digits, rfl, hword, hrow⟩ := h
  rcases List.mem_append.mp hc with hc | hc
  · refine ⟨isBlank_of_letter (hword.isLetter c hc), ?_⟩
    rintro rfl
    exact absurd (hword.isLetter _ hc) (by simp only [all, IsLatin]; decide)
  · refine ⟨isBlank_of_isDigit (hrow.isDigit c hc), ?_⟩
    rintro rfl
    exact absurd (hrow.isDigit _ hc) (by simp only [all]; decide)

theorem NamesCell.notMem_colon (h : (all L).NamesCell (trimBy isBlank cs) row col) : ':' ∉ cs := fun hmem =>
  (h.of_mem (mem_trimBy hmem (by decide))).2 rfl

end Script

namespace Range

variable {t : Text} {cs us : List Char} {r : Range}

/-- The characters from which the corners of a range are read once they are in upper case. -/
theorem readCorners_upper_iff :
    readCorners (· ≤ longestNumeral) t (cs.flatMap upperChar) = .ok ((r.row, r.col), (r.rowEnd, r.colEnd)) ↔
      Script.wide.Spells cs r := by
  have hmem : ∀ xs : List Char, ':' ∈ xs.flatMap upperChar ↔ ':' ∈ xs := fun xs => by
    constructor
    · intro hmem
      obtain ⟨c, hc, hu⟩ := List.mem_flatMap.mp hmem
      exact eq_of_mem_upperChar hu isCaseless_colon ▸ hc
    · intro hmem
      refine List.mem_flatMap.mpr ⟨_, hmem, ?_⟩
      rw [upperChar_of_isCaseless isCaseless_colon]
      exact List.mem_singleton_self _
  have happend : ∀ xs ys : List Char, (xs ++ ':' :: ys).flatMap upperChar =
      xs.flatMap upperChar ++ ':' :: ys.flatMap upperChar := fun xs ys => by
    rw [List.flatMap_append, List.flatMap_cons, upperChar_of_isCaseless isCaseless_colon]
    rfl
  constructor
  · intro h
    by_cases hcolon : ':' ∈ cs
    · obtain ⟨xs, ys, rfl, hxs⟩ := List.eq_append_cons_of_mem hcolon
      rw [happend, readCorners_append (mt (hmem xs).mp hxs)] at h
      split at h
      case isTrue => cases h
      case isFalse =>
        obtain ⟨start, hstart, h⟩ := bind_eq_ok h
        obtain ⟨last, hlast, h⟩ := map_eq_ok h
        cases h
        exact .cells (readCell_upper_iff.mp hstart) (readCell_upper_iff.mp hlast)
    · rw [readCorners_of_notMem (mt (hmem cs).mp hcolon)] at h
      obtain ⟨corner, hcorner, h⟩ := map_eq_ok h
      obtain ⟨rfl, hend⟩ := Prod.mk.inj h
      exact .cell (Prod.mk.inj hend) (readCell_upper_iff.mp hcorner)
  · intro h
    cases h with
    | cell one cell =>
      rw [readCorners_of_notMem (mt (hmem cs).mp cell.notMem_colon), readCell_upper_iff.mpr cell, ← one.1,
        ← one.2]
      rfl
    | @cells xs ys _ start last =>
      rw [happend, readCorners_append (mt (hmem xs).mp start.notMem_colon),
        if_neg (mt (hmem ys).mp last.notMem_colon), readCell_upper_iff.mpr start,
        readCell_upper_iff.mpr last]
      rfl

end Range

/-! ## Texts -/

theorem Text.exists_ofChars {t : Text} (h : ∀ k, .half k ∉ t) : ∃ cs, t = ofChars cs := by
  induction t with
  | nil => exact ⟨[], rfl⟩
  | cons p rest ih =>
    obtain ⟨cs, rfl⟩ := ih fun k hk => h k (List.mem_cons_of_mem _ hk)
    cases p with
    | char c => exact ⟨c :: cs, rfl⟩
    | half k => exact absurd List.mem_cons_self (h k)

namespace Column

variable {t : Text} {cs us : List Char} {n : Nat}

theorem chars?_normalized : (normalized (ofChars cs)).chars? = some ((trimBy isBlank cs).flatMap upperChar) := by
  rw [normalized, trim_ofChars, upper_ofChars_flatMap, chars?_ofChars]

/-- Half of a surrogate pair is there still when a text is normalized. -/
theorem exists_ofChars_of_normalized (h : (normalized t).chars? = some us) : ∃ cs, t = ofChars cs := by
  refine Text.exists_ofChars fun k hk => ?_
  have hmem : .half k ∈ normalized t :=
    List.mem_flatMap.mpr ⟨_, mem_trimBy hk rfl, List.mem_singleton_self _⟩
  rw [eq_ofChars h] at hmem
  obtain ⟨c, -, hc⟩ := List.mem_map.mp hmem
  cases hc

theorem ofCapitals?_eq_some_iff : ofCapitals? us = some n ↔ us = letterChars n := by
  rw [ofCapitals?]
  constructor
  · intro h
    split at h
    case isFalse => cases h
    case isTrue hform =>
      simp only [Bool.and_eq_true, Bool.not_eq_true', List.isEmpty_eq_false_iff, List.all_eq_true] at hform
      rw [← Option.some.inj h, letterChars_wordValue hform.1 hform.2]
  · rintro rfl
    rw [if_pos, wordValue_letterChars, Nat.add_sub_cancel]
    simpa [letterChars_ne_nil] using isCapital_letterChars n

end Column

namespace Script

variable (S : Script)

/-- A text that names a column; white space may stand around it. -/
def ReadsColumn (t : Text) (n : Nat) : Prop := ∃ cs, t = ofChars cs ∧ S.NamesColumn (trimBy isBlank cs) n

/-- A text that spells a range. -/
def ReadsRange (t : Text) (r : Range) : Prop := ∃ cs, t = ofChars cs ∧ S.Spells cs r

end Script

/-- The column that a text names is read from it. -/
theorem Column.index_eq_ok_iff {t : Text} {n : Nat} : index t = .ok n ↔ Script.wide.ReadsColumn t n := by
  have hchars : index t = .ok n ↔ (normalized t).chars?.bind ofCapitals? = some n := by
    rw [index]
    cases (normalized t).chars?.bind ofCapitals? <;> simp
  rw [hchars, Option.bind_eq_some_iff]
  constructor
  · rintro ⟨us, hus, hn⟩
    obtain ⟨cs, rfl⟩ := exists_ofChars_of_normalized hus
    rw [chars?_normalized] at hus
    cases hus
    exact ⟨cs, rfl, Script.namesColumn_all_iff.mpr (ofCapitals?_eq_some_iff.mp hn)⟩
  · rintro ⟨cs, rfl, hword⟩
    exact ⟨_, chars?_normalized, ofCapitals?_eq_some_iff.mpr (Script.namesColumn_all_iff.mp hword)⟩

/-- The range that a text spells is read from it. -/
theorem Range.ofA1_eq_ok_iff {t : Text} {r : Range} : ofA1 t = .ok r ↔ Script.wide.ReadsRange t r := by
  have hchars : ofA1 t = .ok r ↔ ∃ us, (Column.normalized t).chars? = some us ∧
      readCorners (· ≤ longestNumeral) t us = .ok ((r.row, r.col), (r.rowEnd, r.colEnd)) := by
    rw [ofA1, read]
    rcases (Column.normalized t).chars? with _ | us
    · refine iff_of_false (fun h => by cases h) ?_
      rintro ⟨us, h, -⟩
      cases h
    · constructor
      · intro h
        obtain ⟨⟨⟨row, col⟩, rowEnd, colEnd⟩, hcorners, h⟩ := bind_eq_ok h
        have hbetween := between_eq_ok_iff.mp h
        simp only [Int.natCast_inj] at hbetween
        obtain ⟨rfl, rfl, rfl, rfl⟩ := hbetween
        exact ⟨us, rfl, hcorners⟩
      · rintro ⟨_, ⟨⟩, hcorners⟩
        dsimp only
        rw [hcorners]
        exact between_corners r
  have htrim : ∀ cs : List Char,
      readCorners (· ≤ longestNumeral) t ((trimBy isBlank cs).flatMap upperChar) =
        readCorners (· ≤ longestNumeral) t (cs.flatMap upperChar) := fun cs => by
    obtain ⟨l, back, hcs, hl, hback⟩ := exists_append_trimBy isBlank (cs.flatMap upperChar)
    conv_rhs => rw [hcs, readCorners_pad hl hback]
    rw [(fixes_upperChar fun _ => isCaseless_of_isBlank).trimBy_flatMap]
  rw [hchars]
  constructor
  · rintro ⟨us, hus, hr⟩
    obtain ⟨cs, rfl⟩ := Column.exists_ofChars_of_normalized hus
    rw [Column.chars?_normalized] at hus
    cases hus
    rw [htrim] at hr
    exact ⟨cs, rfl, readCorners_upper_iff.mp hr⟩
  · rintro ⟨cs, rfl, hspells⟩
    exact ⟨_, Column.chars?_normalized, by rw [htrim]; exact readCorners_upper_iff.mpr hspells⟩

/-! ## Addresses in ASCII -/

namespace Script

variable {S : Script} {L : Nat → Prop} {P : Char → Prop} {word digits cs : List Char} {n row col : Nat} {r : Range}
  {t : Text}

/-- The letters and the digits of a script that are of a class. -/
def within (S : Script) (P : Char → Prop) : Script :=
  ⟨fun c => S.letter c ∧ P c, fun c => S.digit c ∧ P c, S.length⟩

theorem ascii_eq : ascii = (all fun _ => True).within fun c => c.toNat < 0x80 := by
  have hfolded : ∀ code ∈ foldedCodes, 0x80 ≤ code := by decide
  refine congrArg₂ (Script.mk · · fun _ => True) (funext fun c => propext ?_) (funext fun c => propext ?_)
  · refine ⟨fun h => ⟨Or.inl h, lt_of_isAlpha h⟩, ?_⟩
    rintro ⟨h | h, hlt⟩
    · exact h
    · exact absurd (hfolded _ h) (by omega)
  · constructor
    · intro h
      have hcode := toNat_of_isDigit h
      exact ⟨isDigit_of_ascii c h, by omega⟩
    · rintro ⟨h, hlt⟩
      change Text.isDigit c = true at h
      rw [Text.isDigit, digitValue?_ascii c hlt] at h
      by_contra hdigit
      rw [if_neg hdigit] at h
      cases h

theorem brief_ascii : ascii.brief = wide.within fun c => c.toNat < 0x80 := by
  rw [ascii_eq]
  exact congrArg (Script.mk _ _) (funext fun n => propext (iff_of_eq (true_and _)))

theorem namesColumn_within_iff :
    (S.within P).NamesColumn word n ↔ S.NamesColumn word n ∧ ∀ c ∈ word, P c := by
  constructor
  · rintro ⟨hne, hletters, hvalue⟩
    exact ⟨⟨hne, fun c hc => (hletters c hc).1, hvalue⟩, fun c hc => (hletters c hc).2⟩
  · rintro ⟨⟨hne, hletters, hvalue⟩, hP⟩
    exact ⟨hne, fun c hc => ⟨hletters c hc, hP c hc⟩, hvalue⟩

/-- Every word of letters names a column. -/
theorem exists_namesColumn_iff : (∃ n, ((all L).within P).NamesColumn word n) ↔
    word ≠ [] ∧ ∀ c ∈ word, ((all L).within P).letter c := by
  constructor
  · rintro ⟨n, h⟩
    exact ⟨h.ne_nil, h.isLetter⟩
  · rintro ⟨hne, hletters⟩
    obtain ⟨hupper, hcapitals⟩ := upper_of_isLetter hne fun c hc => (hletters c hc).1
    have hword := Column.letterChars_wordValue hupper hcapitals
    have hall : (all L).NamesColumn word _ := namesColumn_all_iff.mpr hword.symm
    exact ⟨_, namesColumn_within_iff.mpr ⟨hall, fun c hc => (hletters c hc).2⟩⟩

theorem namesRow_within_iff :
    (S.within P).NamesRow digits n ↔ S.NamesRow digits n ∧ ∀ c ∈ digits, P c := by
  constructor
  · rintro ⟨hne, hdigits, hlength, hnumber⟩
    exact ⟨⟨hne, fun c hc => (hdigits c hc).1, hlength, hnumber⟩, fun c hc => (hdigits c hc).2⟩
  · rintro ⟨⟨hne, hdigits, hlength, hnumber⟩, hP⟩
    exact ⟨hne, fun c hc => ⟨hdigits c hc, hP c hc⟩, hlength, hnumber⟩

theorem namesCell_within_iff :
    (S.within P).NamesCell cs row col ↔ S.NamesCell cs row col ∧ ∀ c ∈ cs, P c := by
  constructor
  · rintro ⟨word, digits, rfl, hword, hrow⟩
    obtain ⟨hword, hletters⟩ := namesColumn_within_iff.mp hword
    obtain ⟨hrow, hdigits⟩ := namesRow_within_iff.mp hrow
    exact ⟨⟨word, digits, rfl, hword, hrow⟩, List.forall_mem_append.mpr ⟨hletters, hdigits⟩⟩
  · rintro ⟨⟨word, digits, rfl, hword, hrow⟩, hP⟩
    obtain ⟨hletters, hdigits⟩ := List.forall_mem_append.mp hP
    exact ⟨word, digits, rfl, namesColumn_within_iff.mpr ⟨hword, hletters⟩,
      namesRow_within_iff.mpr ⟨hrow, hdigits⟩⟩

/-- All but white space is of a class. -/
def Shows (P : Char → Prop) (cs : List Char) : Prop := ∀ c ∈ cs, isBlank c = false → P c

theorem shows_iff (h : ∀ c ∈ trimBy isBlank cs, isBlank c = false) :
    Shows P cs ↔ ∀ c ∈ trimBy isBlank cs, P c :=
  ⟨fun hshows c hc => hshows c (mem_of_mem_trimBy hc) (h c hc),
    fun hP c hc hblank => hP c (mem_trimBy hc hblank)⟩

theorem trimmed_namesCell_within_iff : ((all L).within P).NamesCell (trimBy isBlank cs) row col ↔
    (all L).NamesCell (trimBy isBlank cs) row col ∧ Shows P cs := by
  rw [namesCell_within_iff]
  exact and_congr_right fun h => (shows_iff fun c hc => (h.of_mem hc).1).symm

theorem spells_within_iff (hcolon : P ':') :
    ((all L).within P).Spells cs r ↔ (all L).Spells cs r ∧ Shows P cs := by
  constructor
  · intro h
    cases h with
    | cell one cell =>
      obtain ⟨hcell, hshows⟩ := trimmed_namesCell_within_iff.mp cell
      exact ⟨.cell one hcell, hshows⟩
    | cells start last =>
      obtain ⟨hstart, hxs⟩ := trimmed_namesCell_within_iff.mp start
      obtain ⟨hlast, hys⟩ := trimmed_namesCell_within_iff.mp last
      exact ⟨.cells hstart hlast,
        List.forall_mem_append.mpr ⟨hxs, List.forall_mem_cons.mpr ⟨fun _ => hcolon, hys⟩⟩⟩
  · rintro ⟨h, hshows⟩
    cases h with
    | cell one cell => exact .cell one (trimmed_namesCell_within_iff.mpr ⟨cell, hshows⟩)
    | cells start last =>
      obtain ⟨hxs, hrest⟩ := List.forall_mem_append.mp hshows
      exact .cells (trimmed_namesCell_within_iff.mpr ⟨start, hxs⟩)
        (trimmed_namesCell_within_iff.mpr ⟨last, (List.forall_mem_cons.mp hrest).2⟩)

end Script

/-- Whether a text has nothing but ASCII, apart from white space. -/
def Text.IsPlain (t : Text) : Prop := ∀ p ∈ t, p.isOf isBlank = false → p.number < 0x80

theorem Text.isPlain_ofChars {cs : List Char} :
    IsPlain (ofChars cs) ↔ Script.Shows (fun c => c.toNat < 0x80) cs := List.forall_mem_map

namespace Script

variable {L : Nat → Prop} {t : Text} {n : Nat} {r : Range}

/-- The letters of a column are read in any script with the same letters. -/
theorem namesColumn_all_congr {M : Nat → Prop} {word : List Char} :
    (all L).NamesColumn word n ↔ (all M).NamesColumn word n := by
  rw [namesColumn_all_iff, namesColumn_all_iff]

theorem readsColumn_ascii_iff : ascii.ReadsColumn t n ↔ wide.ReadsColumn t n ∧ t.IsPlain := by
  have hword : ∀ cs : List Char, ascii.NamesColumn (trimBy isBlank cs) n ↔
      wide.NamesColumn (trimBy isBlank cs) n ∧ IsPlain (ofChars cs) := fun cs => by
    rw [ascii_eq, namesColumn_within_iff, Text.isPlain_ofChars, namesColumn_all_congr]
    exact and_congr_right fun h => (shows_iff fun c hc => isBlank_of_letter (h.isLetter c hc)).symm
  constructor
  · rintro ⟨cs, rfl, h⟩
    obtain ⟨hwide, hplain⟩ := (hword cs).mp h
    exact ⟨⟨cs, rfl, hwide⟩, hplain⟩
  · rintro ⟨⟨cs, rfl, hwide⟩, hplain⟩
    exact ⟨cs, rfl, (hword cs).mpr ⟨hwide, hplain⟩⟩

theorem exists_readsColumn_ascii_iff : (∃ n, ascii.ReadsColumn t n) ↔
    ∃ cs, t = ofChars cs ∧ trimBy isBlank cs ≠ [] ∧ ∀ c ∈ trimBy isBlank cs, c.isAlpha = true := by
  have hword : ∀ cs : List Char, (∃ n, ascii.NamesColumn (trimBy isBlank cs) n) ↔
      trimBy isBlank cs ≠ [] ∧ ∀ c ∈ trimBy isBlank cs, ascii.letter c := fun cs => by
    rw [ascii_eq, exists_namesColumn_iff]
  constructor
  · rintro ⟨n, cs, rfl, h⟩
    exact ⟨cs, rfl, (hword cs).mp ⟨n, h⟩⟩
  · rintro ⟨cs, rfl, h⟩
    obtain ⟨n, hn⟩ := (hword cs).mpr h
    exact ⟨n, cs, rfl, hn⟩

theorem readsRange_within_iff : ((all L).within fun c => c.toNat < 0x80).ReadsRange t r ↔
    (all L).ReadsRange t r ∧ t.IsPlain := by
  have hspells : ∀ cs : List Char, ((all L).within fun c => c.toNat < 0x80).Spells cs r ↔
      (all L).Spells cs r ∧ IsPlain (ofChars cs) := by
    intro cs
    rw [spells_within_iff (by decide), Text.isPlain_ofChars]
  constructor
  · rintro ⟨cs, rfl, h⟩
    obtain ⟨hall, hplain⟩ := (hspells cs).mp h
    exact ⟨⟨cs, rfl, hall⟩, hplain⟩
  · rintro ⟨⟨cs, rfl, hall⟩, hplain⟩
    exact ⟨cs, rfl, (hspells cs).mpr ⟨hall, hplain⟩⟩

theorem isPlain_of_readsRange_ascii (h : ascii.ReadsRange t r) : t.IsPlain := by
  rw [ascii_eq] at h
  exact (readsRange_within_iff.mp h).2

end Script

/-- The texts that are read as a column or as a range are those that spell it in the script `wide`. Those that
spell it in ASCII, with numerals that are not too long, are the ones among them that have, apart from white
space, nothing but ASCII. Every word of ASCII letters names a column. -/
theorem addresses_accepted (t : Text) :
    (∀ n, Column.index t = .ok n ↔ Script.wide.ReadsColumn t n) ∧
    (∀ r, Range.ofA1 t = .ok r ↔ Script.wide.ReadsRange t r) ∧
    (∀ n, Script.ascii.ReadsColumn t n ↔ Column.index t = .ok n ∧ t.IsPlain) ∧
    (∀ r, Script.ascii.brief.ReadsRange t r ↔ Range.ofA1 t = .ok r ∧ t.IsPlain) ∧
    ((∃ n, Script.ascii.ReadsColumn t n) ↔ ∃ cs, t = ofChars cs ∧ trimBy isBlank cs ≠ [] ∧
      ∀ c ∈ trimBy isBlank cs, c.isAlpha = true) := by
  refine ⟨fun n => Column.index_eq_ok_iff, fun r => Range.ofA1_eq_ok_iff, fun n => ?_, fun r => ?_,
    Script.exists_readsColumn_ascii_iff⟩
  · rw [Column.index_eq_ok_iff, Script.readsColumn_ascii_iff]
  · rw [Range.ofA1_eq_ok_iff, Script.brief_ascii, Script.readsRange_within_iff]

/-- Sharp s is read as two letters, and an Arabic digit as a digit, though no text in ASCII has them. -/
theorem addresses_beyond_ascii :
    (Column.index "ß" = .ok 512 ∧ ∀ n, ¬ Script.ascii.ReadsColumn "ß" n) ∧
    (Range.ofA1 "ß1" = .ok (.cell 1 512 (by decide)) ∧ ∀ r, ¬ Script.ascii.ReadsRange "ß1" r) ∧
    Range.ofA1 "A٣" = .ok (.cell 3 0 (by decide)) ∧ ∀ r, ¬ Script.ascii.ReadsRange "A٣" r := by
  have hwide : ∀ (t : Text) (c : Char), .char c ∈ t → isBlank c = false → 0x80 ≤ c.toNat →
      ¬ t.IsPlain := fun t c hmem hblank hcode hplain => absurd (hplain _ hmem hblank) (Nat.not_lt.mpr hcode)
  refine ⟨⟨by decide +kernel, fun n h => ?_⟩, ⟨by decide +kernel, fun r h => ?_⟩, by decide +kernel,
    fun r h => ?_⟩
  · exact hwide _ 'ß' (by decide) (by decide) (by decide) (Script.readsColumn_ascii_iff.mp h).2
  · exact hwide _ 'ß' (by decide) (by decide) (by decide) (Script.isPlain_of_readsRange_ascii h)
  · exact hwide _ '٣' (by decide) (by decide) (by decide) (Script.isPlain_of_readsRange_ascii h)

end RowStore
