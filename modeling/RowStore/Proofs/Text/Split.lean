import RowStore.Text.Blank

/-!
# Taking texts apart

* `span_ofChars` : a run of characters of a class ends where the next one is of another class;
* `eq_ofChars` : a text without halves is that of its characters;
* `pieces_intercalate` : parts with a separator between them are the pieces of the whole;
* `trimBy_of_none`, `isBlank_of_visible` : a text without white space is not trimmed.
-/

namespace RowStore.Text

theorem span_ofChars {p : Char → Bool} {cs : List Char} {t : Text} (hcs : ∀ c ∈ cs, p c = true)
    (ht : ∀ q ∈ t.head?, q.isOf p = false) : span p (ofChars cs ++ t) = (cs, t) := by
  induction cs with
  | nil =>
    cases t with
    | nil => rfl
    | cons q t =>
      have hq := ht q rfl
      cases q with
      | half _ => rfl
      | char c =>
        change p c = false at hq
        simp [ofChars, span, hq]
  | cons c cs ih =>
    have hrest := ih fun c hc => hcs c (List.mem_cons_of_mem _ hc)
    change span p (.char c :: (ofChars cs ++ t)) = _
    rw [span, if_pos (hcs c List.mem_cons_self), hrest]

/-- A text with characters is made of them. -/
theorem eq_ofChars {t : Text} {cs : List Char} (h : t.chars? = some cs) : t = ofChars cs := by
  induction t generalizing cs with
  | nil =>
    cases h
    rfl
  | cons p rest ih =>
    rw [chars?, List.mapM_cons] at h
    obtain ⟨c, hc, h⟩ := Option.bind_eq_some_iff.mp h
    obtain ⟨more, hmore, h⟩ := Option.bind_eq_some_iff.mp h
    cases h
    cases p with
    | half _ => cases hc
    | char c =>
      cases hc
      rw [ih hmore]
      rfl

section
variable {α : Type} [DecidableEq α] {separator : α}

/-- A list without the separator is the first piece of what starts with it. -/
theorem pieces_append {xs : List α} (hxs : separator ∉ xs) (ys : List α) :
    pieces separator (xs ++ separator :: ys) = xs :: pieces separator ys := by
  induction xs with
  | nil => rw [List.nil_append, pieces, if_pos rfl]
  | cons x xs ih =>
    have hx : x ≠ separator := fun h => hxs (h ▸ List.mem_cons_self)
    rw [List.cons_append, pieces, if_neg hx, ih fun h => hxs (List.mem_cons_of_mem _ h)]

theorem pieces_of_notMem {xs : List α} (hxs : separator ∉ xs) : pieces separator xs = [xs] := by
  induction xs with
  | nil => rfl
  | cons x xs ih =>
    have hx : x ≠ separator := fun h => hxs (h ▸ List.mem_cons_self)
    rw [pieces, if_neg hx, ih fun h => hxs (List.mem_cons_of_mem _ h)]

theorem pieces_intercalate {parts : List (List α)} (hne : parts ≠ [])
    (hparts : ∀ part ∈ parts, separator ∉ part) :
    pieces separator ([separator].intercalate parts) = parts := by
  induction parts with
  | nil => exact absurd rfl hne
  | cons part parts ih =>
    have hpart := hparts part List.mem_cons_self
    cases parts with
    | nil =>
      rw [List.intercalate_singleton]
      exact pieces_of_notMem hpart
    | cons next parts =>
      have hrest := ih (List.cons_ne_nil _ _) fun p hp => hparts p (List.mem_cons_of_mem _ hp)
      rw [List.intercalate_cons_cons, List.append_assoc, List.singleton_append,
        pieces_append hpart, hrest]

end

theorem trimBy_of_none {α : Type} {drop : α → Bool} {xs : List α} (h : ∀ x ∈ xs, drop x = false) :
    trimBy drop xs = xs := by
  have hd : ∀ ys : List α, (∀ y ∈ ys, drop y = false) → ys.dropWhile drop = ys := by
    intro ys hys
    cases ys with
    | nil => rfl
    | cons y rest => rw [List.dropWhile_cons, hys y List.mem_cons_self]; rfl
  rw [trimBy, hd xs h, hd xs.reverse fun x hx => h x (List.mem_reverse.mp hx), List.reverse_reverse]

section
variable {c : Char} (h : 0x21 ≤ c.toNat ∧ c.toNat ≤ 0x7E)
include h

/-- A visible ASCII character is no white space. -/
theorem isBlank_of_visible : isBlank c = false := by
  simp only [isBlank, isWideBlank, Bool.or_eq_false_iff, Bool.and_eq_false_iff,
    decide_eq_false_iff_not, beq_eq_false_iff_ne]
  omega

theorem isNumeralBlank_of_visible : isNumeralBlank c = false := by
  simp only [isNumeralBlank, isWideBlank, Bool.or_eq_false_iff, Bool.and_eq_false_iff,
    decide_eq_false_iff_not, beq_eq_false_iff_ne]
  omega

end

end RowStore.Text
