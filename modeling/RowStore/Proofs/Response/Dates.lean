import RowStore.Proofs.Calendar.Numbers
import RowStore.Proofs.Number.Scripts
import RowStore.Proofs.Response.Cells

/-!
# Which texts are dates

A date is spelled `Date(…)` with three to seven numerals between commas. White space may stand at the ends of
the text, within the parentheses and around the commas.

* `Listed`, `IsDate` : how a list of numerals and a date are spelled;
* `isDate_iff` : the spellings are just the texts in which `dateNumerals?` finds such numerals;
* `Padded.readInt?_iff` : white space around the commas has to be that of numerals, and numerals have to be
  short, for them to be read;
* `momentOf_eq_some_iff` : the moment of some numbers is the one that has them;
* `dateOf_spelled` : which texts are decoded, and to which moments.
-/

namespace RowStore.Response

variable {gap : Char → Bool} {cs inner part : List Char} {parts : List (List Char)} {n : Numeral}
  {numerals : List Numeral} {numbers : List Int} {m : Moment} {t : Text}

/-- Numerals with commas between them, and with white space of a class around the commas. -/
inductive Listed (gap : Char → Bool) : List Char → List Numeral → Prop
  | one (n : Numeral) : Listed gap n.chars [n]
  | cons (n : Numeral) {right left inner : List Char} {rest : List Numeral}
      (hright : ∀ c ∈ right, gap c = true) (hleft : ∀ c ∈ left, gap c = true) (hrest : Listed gap inner rest) :
      Listed gap (n.chars ++ right ++ ',' :: (left ++ inner)) (n :: rest)

/-- `Date(…)`, with white space at its ends. -/
def dateAround (before arguments after : List Char) : List Char :=
  before ++ (['D', 'a', 't', 'e', '('] ++ arguments ++ [')']) ++ after

/-- A text that spells a date, with white space of a class around the commas. -/
structure IsDate (gap : Char → Bool) (t : Text) (numerals : List Numeral) : Prop where
  spelled : ∃ before left inner right after : List Char,
    t = Text.ofChars (dateAround before (left ++ inner ++ right) after) ∧
    (∀ c ∈ before ++ left ++ right ++ after, Text.isBlank c = true) ∧ Listed gap inner numerals
  length : 3 ≤ numerals.length ∧ numerals.length ≤ 7

/-- A part between commas: a numeral with white space of a class around it. -/
def Padded (gap : Char → Bool) (part : List Char) (n : Numeral) : Prop :=
  ∃ l r, part = l ++ n.chars ++ r ∧ (∀ c ∈ l, gap c = true) ∧ ∀ c ∈ r, gap c = true

/-! ## Parts between commas -/

theorem notMem_blank {l : List Char} (hgap : ∀ c, gap c = true → Text.isBlank c = true)
    (hl : ∀ c ∈ l, gap c = true) {c : Char} (hc : Text.isBlank c = false) : c ∉ l := fun h =>
  Bool.eq_false_iff.mp hc (hgap c (hl c h))

/-- The parts of a list of numerals are padded numerals. -/
theorem Listed.forall₂_pieces (hgap : ∀ c, gap c = true → Text.isBlank c = true)
    (h : Listed gap inner numerals) {left : List Char} (hleft : ∀ c ∈ left, gap c = true) :
    List.Forall₂ (Padded gap) (Text.pieces ',' (left ++ inner)) numerals := by
  induction h generalizing left with
  | one n =>
    have hcomma : ',' ∉ left ++ n.chars := by
      rw [List.mem_append, not_or]
      exact ⟨notMem_blank hgap hleft (by decide), n.notMem_chars (by decide) (by decide)⟩
    rw [Text.pieces_of_notMem hcomma]
    exact .cons ⟨left, [], (List.append_nil _).symm, hleft, fun _ h => absurd h List.not_mem_nil⟩ .nil
  | cons n hright hleft' hrest ih =>
    rename_i right left' inner rest
    have hcomma : ',' ∉ left ++ n.chars ++ right := by
      rw [List.mem_append, List.mem_append, not_or, not_or]
      exact ⟨⟨notMem_blank hgap hleft (by decide), n.notMem_chars (by decide) (by decide)⟩,
        notMem_blank hgap hright (by decide)⟩
    have hsplit : left ++ (n.chars ++ right ++ ',' :: (left' ++ inner)) =
        (left ++ n.chars ++ right) ++ ',' :: (left' ++ inner) := by simp only [List.append_assoc]
    rw [hsplit, Text.pieces_append hcomma]
    exact .cons ⟨left, right, rfl, hleft, hright⟩ (ih hleft')

/-- Padded numerals with commas between them are a list of numerals with white space at its ends. -/
theorem exists_listed (h : List.Forall₂ (Padded gap) parts numerals) (hne : numerals ≠ []) :
    ∃ left inner right, [','].intercalate parts = left ++ inner ++ right ∧
      (∀ c ∈ left, gap c = true) ∧ (∀ c ∈ right, gap c = true) ∧ Listed gap inner numerals := by
  induction h with
  | nil => exact absurd rfl hne
  | cons hpart hrest ih =>
    rename_i part n parts rest
    obtain ⟨l, r, rfl, hl, hr⟩ := hpart
    cases hrest with
    | nil => exact ⟨l, n.chars, r, List.intercalate_singleton, hl, hr, .one n⟩
    | cons hnext hmore =>
      obtain ⟨left, inner, right, heq, hleft, hright, hlisted⟩ := ih (List.cons_ne_nil _ _)
      refine ⟨l, _, right, ?_, hl, hright, .cons n hr hleft hlisted⟩
      rw [List.intercalate_cons_cons, heq]
      simp only [List.append_assoc, List.cons_append, List.nil_append]

theorem Listed.exists_cons (h : Listed gap inner numerals) :
    ∃ c rest, inner = c :: rest ∧ Text.isBlank c = false := by
  have hchars : ∀ n : Numeral, ∃ c rest, n.chars = c :: rest ∧ Text.isBlank c = false := by
    intro n
    obtain ⟨c, rest, heq⟩ := List.exists_cons_of_ne_nil n.chars_ne
    exact ⟨c, rest, heq, n.isBlank_of_mem (heq ▸ List.mem_cons_self)⟩
  cases h with
  | one n => exact hchars n
  | cons n hright hleft hrest =>
    obtain ⟨c, rest, heq, hc⟩ := hchars n
    rw [heq]
    exact ⟨c, _, rfl, hc⟩

theorem Listed.exists_concat (h : Listed gap inner numerals) :
    ∃ front c, inner = front ++ [c] ∧ Text.isBlank c = false := by
  induction h with
  | one n =>
    obtain ⟨front, c, heq⟩ := (List.eq_nil_or_concat n.chars).resolve_left n.chars_ne
    rw [List.concat_eq_append] at heq
    exact ⟨front, c, heq, n.isBlank_of_mem (heq ▸ List.mem_append_right _ List.mem_cons_self)⟩
  | cons n hright hleft hrest ih =>
    obtain ⟨front, c, rfl, hc⟩ := ih
    exact ⟨_, c, by simp only [← List.append_assoc, ← List.cons_append]; rfl, hc⟩

/-- A list of numerals does not begin or end with white space. -/
theorem Listed.trimBy_eq (h : Listed gap inner numerals) : Text.trimBy Text.isBlank inner = inner := by
  apply Text.trimBy_of_ends
  · obtain ⟨c, rest, rfl, hc⟩ := h.exists_cons
    exact fun x hx => Option.some.inj hx ▸ hc
  · obtain ⟨front, c, rfl, hc⟩ := h.exists_concat
    rw [List.getLast?_concat]
    exact fun x hx => Option.some.inj hx ▸ hc

theorem Listed.mono {gap' : Char → Bool} (hgap : ∀ c, gap c = true → gap' c = true)
    (h : Listed gap inner numerals) : Listed gap' inner numerals := by
  induction h with
  | one n => exact .one n
  | cons n hright hleft _ ih =>
    exact .cons n (fun c hc => hgap c (hright c hc)) (fun c hc => hgap c (hleft c hc)) ih

theorem IsDate.mono {gap' : Char → Bool} (hgap : ∀ c, gap c = true → gap' c = true)
    (h : IsDate gap t numerals) : IsDate gap' t numerals := by
  obtain ⟨⟨before, left, inner, right, after, heq, hblank, hlisted⟩, hlength⟩ := h
  exact ⟨⟨before, left, inner, right, after, heq, hblank, hlisted.mono hgap⟩, hlength⟩

/-! ## Finding the parts -/

/-- Digits after a minus sign or without one are the characters of a numeral. -/
theorem isSignedDigits_iff : isSignedDigits cs = true ↔ ∃ n : Numeral, n.chars = cs := by
  constructor
  · intro h
    unfold isSignedDigits at h
    split at h
    · rename_i digits
      simp only [Bool.and_eq_true, Bool.not_eq_true', List.isEmpty_eq_false_iff, List.all_eq_true] at h
      exact ⟨⟨true, digits, h.1, h.2⟩, rfl⟩
    · simp only [Bool.and_eq_true, Bool.not_eq_true', List.isEmpty_eq_false_iff, List.all_eq_true] at h
      exact ⟨⟨false, cs, h.1, h.2⟩, rfl⟩
  · rintro ⟨n, rfl⟩
    have hdigits : (!n.digits.isEmpty && n.digits.all Text.isDigit) = true := by
      rw [Bool.and_eq_true, Bool.not_eq_true', List.isEmpty_eq_false_iff, List.all_eq_true]
      exact ⟨n.digits_ne, n.isDigit⟩
    rw [Numeral.chars]
    cases hnegative : n.negative with
    | true => exact hdigits
    | false =>
      unfold isSignedDigits
      split
      · rename_i rest heq
        have hdigits : n.digits = '-' :: rest := heq
        exact absurd (n.isDigit '-' (hdigits ▸ List.mem_cons_self)) (by decide)
      · exact hdigits

theorem dateArguments?_around {before arguments after : List Char}
    (hbefore : ∀ c ∈ before, Text.isBlank c = true) (hafter : ∀ c ∈ after, Text.isBlank c = true) :
    dateArguments? (dateAround before arguments after) = some (Text.trimBy Text.isBlank arguments) := by
  have hends : Text.trimBy Text.isBlank (['D', 'a', 't', 'e', '('] ++ arguments ++ [')']) =
      ['D', 'a', 't', 'e', '('] ++ arguments ++ [')'] := by
    apply Text.trimBy_of_ends
    · rintro x ⟨⟩
      decide
    · rw [List.getLast?_concat]
      rintro x ⟨⟩
      decide
  have hreverse : (arguments ++ [')']).reverse = ')' :: arguments.reverse := by
    rw [List.reverse_append]
    rfl
  rw [dateArguments?, dateAround, Text.trimBy_append hbefore hafter, hends]
  simp only [List.cons_append, List.nil_append, hreverse, List.reverse_reverse]

theorem exists_dateAround (h : dateArguments? cs = some inner) :
    ∃ before left right after, cs = dateAround before (left ++ inner ++ right) after ∧
      ∀ c ∈ before ++ left ++ right ++ after, Text.isBlank c = true := by
  obtain ⟨before, after, hcs, hbefore, hafter⟩ := Text.exists_append_trimBy Text.isBlank cs
  rw [dateArguments?] at h
  split at h
  · rename_i rest hrest
    split at h
    · rename_i arguments harguments
      cases h
      obtain ⟨left, right, heq, hleft, hright⟩ :=
        Text.exists_append_trimBy Text.isBlank arguments.reverse
      have hrest' : rest = arguments.reverse ++ [')'] := by
        rw [← List.reverse_reverse rest, harguments, List.reverse_cons]
      refine ⟨before, left, right, after, ?_, ?_⟩
      · rw [← heq, hcs, hrest, hrest', dateAround]
        rfl
      · simp only [List.mem_append]
        rintro c (((hc | hc) | hc) | hc)
        · exact hbefore c hc
        · exact hleft c hc
        · exact hright c hc
        · exact hafter c hc
    · cases h
  · cases h

theorem isSignedDigits_trimBy_iff :
    isSignedDigits (Text.trimBy Text.isBlank part) = true ↔ ∃ n, Padded Text.isBlank part n := by
  rw [isSignedDigits_iff]
  constructor
  · rintro ⟨n, hn⟩
    obtain ⟨l, r, heq, hl, hr⟩ := Text.exists_append_trimBy Text.isBlank part
    exact ⟨n, l, r, hn ▸ heq, hl, hr⟩
  · rintro ⟨n, l, r, rfl, hl, hr⟩
    exact ⟨n, by rw [Text.trimBy_append hl hr, Text.trimBy_of_none fun c => n.isBlank_of_mem]⟩

/-- Numerals are found between commas if there is one between any two of them, and three to seven in all. -/
theorem dateNumerals?_eq_some_iff : dateNumerals? cs = some parts ↔
    ∃ inner, dateArguments? cs = some inner ∧ parts = Text.pieces ',' inner ∧
      (3 ≤ parts.length ∧ parts.length ≤ 7) ∧ ∃ numerals, List.Forall₂ (Padded Text.isBlank) parts numerals := by
  simp only [dateNumerals?, Option.bind_eq_bind, Option.bind_eq_some_iff, exists_forall₂_iff,
    ← isSignedDigits_trimBy_iff]
  refine exists_congr fun inner => and_congr_right fun _ => ?_
  constructor
  · intro h
    split at h
    · rename_i hparts
      cases h
      exact ⟨rfl, ⟨hparts.1, hparts.2.1⟩, List.all_eq_true.mp hparts.2.2⟩
    · cases h
  · rintro ⟨rfl, hlength, hparts⟩
    rw [if_pos ⟨hlength.1, hlength.2, List.all_eq_true.mpr hparts⟩]

theorem Padded.mono {gap' : Char → Bool} (hgap : ∀ c, gap c = true → gap' c = true)
    (h : Padded gap part n) : Padded gap' part n := by
  obtain ⟨l, r, heq, hl, hr⟩ := h
  exact ⟨l, r, heq, fun c hc => hgap c (hl c hc), fun c hc => hgap c (hr c hc)⟩

/-- The spellings of dates are just the texts in which numerals are found. -/
theorem isDate_iff (hgap : ∀ c, gap c = true → Text.isBlank c = true) : IsDate gap t numerals ↔
    ∃ cs parts, t.chars? = some cs ∧ dateNumerals? cs = some parts ∧
      List.Forall₂ (Padded gap) parts numerals := by
  constructor
  · rintro ⟨⟨before, left, inner, right, after, rfl, hblank, hlisted⟩, hlength⟩
    simp only [List.forall_mem_append] at hblank
    obtain ⟨⟨⟨hbefore, hleft⟩, hright⟩, hafter⟩ := hblank
    have hparts := @Listed.forall₂_pieces _ _ _ hgap hlisted [] fun _ h => absurd h List.not_mem_nil
    rw [List.nil_append] at hparts
    refine ⟨_, _, Text.chars?_ofChars _, dateNumerals?_eq_some_iff.mpr ⟨inner, ?_, rfl, ?_, numerals, ?_⟩, hparts⟩
    · rw [dateArguments?_around hbefore hafter, Text.trimBy_append hleft hright, hlisted.trimBy_eq]
    · rwa [hparts.length_eq]
    · exact hparts.imp fun _ _ hpart => hpart.mono hgap
  · rintro ⟨cs, parts, hcs, hnumerals, hparts⟩
    obtain ⟨inner, hinner, rfl, hlength, -⟩ := dateNumerals?_eq_some_iff.mp hnumerals
    rw [hparts.length_eq] at hlength
    have hne : numerals ≠ [] := by
      rintro rfl
      exact absurd hlength.1 (by decide)
    obtain ⟨before, left, right, after, rfl, hblank⟩ := exists_dateAround hinner
    obtain ⟨l, listed, r, heq, hl, hr, hlisted⟩ := exists_listed hparts hne
    rw [Text.intercalate_pieces] at heq
    refine ⟨⟨before, left ++ l, listed, r ++ right, after, ?_, ?_, hlisted⟩, hlength⟩
    · rw [Text.eq_ofChars hcs, heq]
      simp only [List.append_assoc]
    · simp only [List.forall_mem_append] at hblank ⊢
      exact ⟨⟨⟨hblank.1.1.1, hblank.1.1.2, fun c hc => hgap c (hl c hc)⟩, fun c hc => hgap c (hr c hc),
        hblank.1.2⟩, hblank.2⟩

/-! ## Reading the parts -/

/-- A part is read as its numeral, unless there is other white space or the numeral is too long. -/
theorem Padded.readInt?_iff (h : Padded Text.isBlank part n) {k : Int} : readInt? part = some k ↔
    k = n.value ∧ Padded Text.isNumeralBlank part n ∧ n.IsShort := by
  constructor
  · intro hread
    obtain ⟨l, r, rfl, hl, hr⟩ := h
    have hplain : '_' ∉ l ++ n.chars ++ r := by
      rw [List.mem_append, List.mem_append, not_or, not_or]
      exact ⟨⟨notMem_blank (fun _ => id) hl (by decide), n.notMem_chars (by decide) (by decide)⟩,
        notMem_blank (fun _ => id) hr (by decide)⟩
    have hnarrow : ∀ c ∈ l ++ n.chars ++ r, Text.isBlank c = true → Text.isNumeralBlank c = true := by
      intro c hc hblank
      by_contra hseparator
      rw [readInt?_of_separator hc hblank (Bool.eq_false_iff.mpr hseparator) hplain] at hread
      cases hread
    have hl' : ∀ c ∈ l, Text.isNumeralBlank c = true := fun c hc =>
      hnarrow c (List.mem_append_left _ (List.mem_append_left _ hc)) (hl c hc)
    have hr' : ∀ c ∈ r, Text.isNumeralBlank c = true := fun c hc =>
      hnarrow c (List.mem_append_right _ hc) (hr c hc)
    rw [readInt?_pad n hl' hr'] at hread
    split at hread
    · cases hread
    · rename_i hshort
      cases hread
      exact ⟨rfl, ⟨l, r, rfl, hl', hr'⟩, Nat.not_lt.mp hshort⟩
  · rintro ⟨rfl, ⟨l, r, rfl, hl, hr⟩, hshort⟩
    rw [readInt?_pad n hl hr, if_neg (Nat.not_lt.mpr hshort)]

theorem mapM_readInt?_iff (h : List.Forall₂ (Padded Text.isBlank) parts numerals) :
    parts.mapM readInt? = some numbers ↔ numbers = numerals.map Numeral.value ∧
      List.Forall₂ (Padded Text.isNumeralBlank) parts numerals ∧ ∀ n ∈ numerals, n.IsShort := by
  induction h generalizing numbers with
  | nil =>
    rw [List.mapM_nil]
    constructor
    · rintro ⟨⟩
      exact ⟨rfl, .nil, fun _ h => absurd h List.not_mem_nil⟩
    · rintro ⟨rfl, -, -⟩
      rfl
  | cons hpart hrest ih =>
    rename_i part n parts rest
    rw [List.mapM_cons, List.forall_mem_cons]
    constructor
    · intro hread
      obtain ⟨k, hk, hread⟩ := Option.bind_eq_some_iff.mp hread
      obtain ⟨more, hmore, hread⟩ := Option.bind_eq_some_iff.mp hread
      cases hread
      obtain ⟨rfl, hpadded, hshort⟩ := hpart.readInt?_iff.mp hk
      obtain ⟨rfl, hparts, hshorts⟩ := ih.mp hmore
      exact ⟨rfl, .cons hpadded hparts, hshort, hshorts⟩
    · rintro ⟨rfl, _ | ⟨hpadded, hparts⟩, hshort, hshorts⟩
      rw [hpart.readInt?_iff.mpr ⟨rfl, hpadded, hshort⟩, ih.mpr ⟨rfl, hparts, hshorts⟩]
      rfl

/-! ## The moment of some numbers -/

theorem momentOf_eq (h : 3 ≤ numbers.length ∧ numbers.length ≤ 7) : momentOf numbers =
    if [numbers.getD 0 0, numbers.getD 1 0 + 1, numbers.getD 2 0, numbers.getD 3 0, numbers.getD 4 0,
        numbers.getD 5 0, numbers.getD 6 0 * 1000].all fitsWord then
      .ok (Moment.of? (numbers.getD 0 0) (numbers.getD 1 0 + 1) (numbers.getD 2 0) (numbers.getD 3 0)
        (numbers.getD 4 0) (numbers.getD 5 0) (numbers.getD 6 0 * 1000))
    else .error .overflow := by
  -- one case for each number of missing parts, which count as zero
  rcases numbers with _ | ⟨year, _ | ⟨month, _ | ⟨day, _ | ⟨hour, _ | ⟨minute, _ | ⟨second, _ |
    ⟨millis, _ | ⟨more, rest⟩⟩⟩⟩⟩⟩⟩⟩
  all_goals simp only [List.length_cons, List.length_nil] at h
  iterate 3 exact absurd h.1 (by decide)
  iterate 5 rfl
  omega

/-- What a moment is made of fits a word of 32 bits. -/
theorem fitsWord_fields (m : Moment) : [(m.date.year : Int), m.date.month, m.date.day, m.clock.hour,
    m.clock.minute, m.clock.second, m.clock.micro].all fitsWord = true := by
  have hyear := m.date.year_le
  have hmonth := m.date.month_le
  have hday := Nat.le_trans m.date.day_le (daysInMonth_le _ _)
  have hhour := m.clock.hour_lt
  have hminute := m.clock.minute_lt
  have hsecond := m.clock.second_lt
  have hmicro := m.clock.micro_lt
  rw [List.all_eq_true]
  simp only [List.forall_mem_cons]
  refine ⟨?_, ?_, ?_, ?_, ?_, ?_, ?_, fun _ h => absurd h List.not_mem_nil⟩ <;>
    exact fitsWord_of_lt (by omega)

/-- Numbers that are read give the moment that has them. -/
theorem momentOf_eq_some_iff (h : 3 ≤ numbers.length ∧ numbers.length ≤ 7) :
    momentOf numbers = .ok (some m) ↔ m.HasNumbers numbers := by
  rw [momentOf_eq h]
  constructor
  · intro hm
    split at hm
    · have hfields := Moment.of?_eq_some_iff.mp (Except.ok.inj hm)
      exact ⟨hfields.1.1, hfields.1.2.1, hfields.1.2.2, hfields.2.1, hfields.2.2.1, hfields.2.2.2.1,
        hfields.2.2.2.2⟩
    · cases hm
  · intro hm
    rw [← hm.year, ← hm.month, ← hm.day, ← hm.hour, ← hm.minute, ← hm.second, ← hm.micro, Moment.of?_self,
      if_pos (fitsWord_fields m)]

theorem momentOf_ne_malformed (h : 3 ≤ numbers.length ∧ numbers.length ≤ 7) :
    momentOf numbers ≠ .error .malformed := by
  rw [momentOf_eq h]
  split
  · exact nofun
  · exact nofun

/-! ## Decoding -/

/-- A date of which all numerals can be read. -/
def IsReadable (t : Text) (numerals : List Numeral) : Prop :=
  IsDate Text.isNumeralBlank t numerals ∧ ∀ n ∈ numerals, n.IsShort

/-- A spelled date is decoded by its numbers if it is readable, and fails otherwise. -/
theorem dateOf_isDate (h : IsDate Text.isBlank t numerals) :
    (IsReadable t numerals → dateOf (.text t) = momentOf (numerals.map Numeral.value)) ∧
    (¬ IsReadable t numerals → dateOf (.text t) = .error .malformed) := by
  obtain ⟨cs, parts, hcs, hnumerals, hparts⟩ := (isDate_iff fun _ => id).mp h
  have hreadable : IsReadable t numerals ↔ parts.mapM readInt? = some (numerals.map Numeral.value) := by
    rw [mapM_readInt?_iff hparts, IsReadable, isDate_iff fun _ => Text.isBlank_of_isNumeralBlank]
    constructor
    · rintro ⟨⟨cs', parts', hcs', hnumerals', hparts'⟩, hshort⟩
      cases hcs.symm.trans hcs'
      cases hnumerals.symm.trans hnumerals'
      exact ⟨rfl, hparts', hshort⟩
    · rintro ⟨-, hparts', hshort⟩
      exact ⟨⟨cs, parts, hcs, hnumerals, hparts'⟩, hshort⟩
  rw [dateOf, hcs, Option.bind_some, hnumerals, hreadable]
  dsimp only
  constructor
  · intro hread
    rw [hread]
  · intro hunread
    cases hread : parts.mapM readInt? with
    | none => rfl
    | some numbers =>
      obtain ⟨rfl, -⟩ := (mapM_readInt?_iff hparts).mp hread
      exact absurd hread hunread

/-- Whatever is not passed over as something else spells a date. -/
theorem exists_isDate_of_dateOf (h : dateOf (.text t) ≠ .ok none) :
    ∃ numerals, IsDate Text.isBlank t numerals := by
  cases hparts : t.chars?.bind dateNumerals? with
  | none =>
    rw [dateOf, hparts] at h
    exact absurd rfl h
  | some parts =>
    obtain ⟨cs, hcs, hnumerals⟩ := Option.bind_eq_some_iff.mp hparts
    obtain ⟨-, -, -, -, numerals, hpadded⟩ := dateNumerals?_eq_some_iff.mp hnumerals
    exact ⟨numerals, (isDate_iff fun _ => id).mpr ⟨cs, parts, hcs, hnumerals, hpadded⟩⟩

theorem length_values (h : IsDate gap t numerals) :
    3 ≤ (numerals.map Numeral.value).length ∧ (numerals.map Numeral.value).length ≤ 7 := by
  rw [List.length_map]
  exact h.length

theorem dateOf_eq_some_iff_of_isReadable (h : IsReadable t numerals) :
    dateOf (.text t) = .ok (some m) ↔ m.HasNumbers (numerals.map Numeral.value) := by
  rw [(dateOf_isDate (h.1.mono fun _ => Text.isBlank_of_isNumeralBlank)).1 h,
    momentOf_eq_some_iff (length_values h.1)]

/-- A text is decoded to a moment just if it can be read as a date with the moment's numbers; a date that is spelled
but cannot be read fails. There is a moment with some numbers just if they keep within the calendar, and a moment of
whole milliseconds is read back. -/
theorem dateOf_spelled (t : Text) :
    (∀ m, dateOf (.text t) = .ok (some m) ↔
      ∃ numerals, IsReadable t numerals ∧ m.HasNumbers (numerals.map Numeral.value)) ∧
    (∀ numerals, IsDate Text.isBlank t numerals →
      (IsReadable t numerals → ∀ m, dateOf (.text t) = .ok (some m) ↔
        m.HasNumbers (numerals.map Numeral.value)) ∧
      (dateOf (.text t) = .error .malformed ↔ ¬ IsReadable t numerals)) ∧
    (∀ numbers, (∃ m : Moment, m.HasNumbers numbers) ↔ InCalendar numbers) ∧
    (∀ m : Moment, m.clock.micro % 1000 = 0 →
      dateOf (.text (Text.ofChars (dateText (momentNumbers m)))) = .ok (some m)) := by
  refine ⟨fun m => ⟨fun h => ?_, ?_⟩, fun numerals h => ⟨fun hreadable m => ?_, fun hfail hreadable => ?_, ?_⟩,
    fun _ => exists_hasNumbers_iff, fun _ => dateOf_dateText⟩
  · obtain ⟨numerals, hdate⟩ := exists_isDate_of_dateOf (by rw [h]; exact nofun)
    by_cases hreadable : IsReadable t numerals
    · exact ⟨numerals, hreadable, (dateOf_eq_some_iff_of_isReadable hreadable).mp h⟩
    · rw [(dateOf_isDate hdate).2 hreadable] at h
      cases h
  · rintro ⟨numerals, hreadable, hm⟩
    exact (dateOf_eq_some_iff_of_isReadable hreadable).mpr hm
  · exact dateOf_eq_some_iff_of_isReadable hreadable
  · rw [(dateOf_isDate h).1 hreadable] at hfail
    exact momentOf_ne_malformed (length_values h) hfail
  · exact (dateOf_isDate h).2

/-- A year, a month and a day, with white space before the month. -/
theorem isDate_of_three (year month day : Numeral) {left : List Char} (hleft : ∀ c ∈ left, gap c = true) :
    IsDate gap
      (Text.ofChars (dateAround [] (year.chars ++ ',' :: (left ++ (month.chars ++ ',' :: day.chars))) []))
      [year, month, day] := by
  have hnil : ∀ c ∈ [], gap c = true := fun _ h => absurd h List.not_mem_nil
  have hlisted := Listed.cons year hnil hleft (Listed.cons month hnil hnil (Listed.one day))
  refine ⟨⟨[], [], _, [], [], ?_, fun _ h => absurd h List.not_mem_nil, hlisted⟩, by simp⟩
  simp only [List.append_nil, List.nil_append]

/-- Digits without a sign. -/
def plainNumeral (digits : String) (h : digits.toList ≠ [] ∧ digits.toList.all Text.isDigit = true) : Numeral :=
  ⟨false, digits.toList, h.1, List.all_eq_true.mp h.2⟩

/-- The day after the 28th of February of a year. -/
def lateFebruary (year : Numeral) : List Numeral :=
  [year, plainNumeral "1" (by decide), plainNumeral "29" (by decide)]

theorem isReadable_lateFebruary {year : Numeral} (h : year.IsShort) :
    IsReadable (Text.ofChars (dateAround [] (year.chars ++ [',', ' ', '1', ',', '2', '9']) []))
      (lateFebruary year) := by
  have hblank : ∀ c ∈ [' '], Text.isNumeralBlank c = true := List.forall_mem_singleton.mpr rfl
  refine ⟨isDate_of_three year (plainNumeral "1" _) (plainNumeral "29" _) hblank, ?_⟩
  simp only [lateFebruary, List.forall_mem_cons]
  exact ⟨h, Nat.le_of_ble_eq_true rfl, Nat.le_of_ble_eq_true rfl, fun _ h => absurd h List.not_mem_nil⟩

/-- The 29th of February is decoded in a leap year, and not in another one. -/
theorem dateOf_spelled_leap_day :
    (∃ m : Moment, dateOf (.text "Date(2024, 1,29)") = .ok (some m)) ∧
      ∀ m : Moment, dateOf (.text "Date(2023, 1,29)") ≠ .ok (some m) := by
  have hleap := @isReadable_lateFebruary (plainNumeral "2024" (by decide)) (Nat.le_of_ble_eq_true rfl)
  have hcommon := @isReadable_lateFebruary (plainNumeral "2023" (by decide)) (Nat.le_of_ble_eq_true rfl)
  obtain ⟨hread, -, hvalid, -⟩ := dateOf_spelled "Date(2024, 1,29)"
  obtain ⟨-, hdate, -⟩ := dateOf_spelled "Date(2023, 1,29)"
  constructor
  · obtain ⟨m, hm⟩ := (hvalid ((lateFebruary (plainNumeral "2024" (by decide))).map Numeral.value)).mpr
      (by constructor <;> decide)
    exact ⟨m, (hread m).mpr ⟨_, hleap, hm⟩⟩
  · intro m hm
    have hnumbers := ((hdate _ (hcommon.1.mono fun _ => Text.isBlank_of_isNumeralBlank)).1 hcommon m).mp hm
    exact absurd ((hvalid _).mp ⟨m, hnumbers⟩).day (by decide)

/-- White space that only dates may have around their commas makes a date fail. -/
theorem dateOf_fails_at_separator :
    ∃ numerals, IsDate Text.isBlank "Date(2024,\x1c0,15)" numerals ∧
      InCalendar (numerals.map Numeral.value) ∧
      dateOf (.text "Date(2024,\x1c0,15)") = .error .malformed := by
  have hblank : ∀ c ∈ ['\x1c'], Text.isBlank c = true := List.forall_mem_singleton.mpr rfl
  exact ⟨[plainNumeral "2024" (by decide), plainNumeral "0" (by decide), plainNumeral "15" (by decide)],
    isDate_of_three (plainNumeral "2024" _) (plainNumeral "0" _) (plainNumeral "15" _) hblank,
    by constructor <;> decide, rfl⟩

end RowStore.Response
