import Mathlib.Data.List.DropRight
import RowStore.Proofs.Text.Split

/-!
# Trimmed lists

* `exists_append_trimBy` : a list is what is left of it between what is dropped at its ends;
* `trimBy_append` : what is dropped may be added at the ends;
* `trimBy_of_ends` : a list is not trimmed if its ends are kept;
* `intercalate_pieces` : the pieces of a list, with the separator between them, are the list.
-/

namespace RowStore.Text

section
variable {α : Type} {drop : α → Bool} {xs l r : List α}

theorem trimBy_eq (drop : α → Bool) (xs : List α) :
    trimBy drop xs = (xs.dropWhile drop).rdropWhile drop := rfl

/-- What is dropped at the ends, and what is left between them. -/
theorem exists_append_trimBy (drop : α → Bool) (xs : List α) :
    ∃ l r, xs = l ++ trimBy drop xs ++ r ∧ (∀ x ∈ l, drop x = true) ∧ ∀ x ∈ r, drop x = true := by
  refine ⟨xs.takeWhile drop, (xs.dropWhile drop).rtakeWhile drop, ?_, fun x => List.mem_takeWhile_imp,
    fun x => List.mem_rtakeWhile_imp⟩
  rw [trimBy_eq, List.append_assoc, List.rdropWhile_append_rtakeWhile, List.takeWhile_append_dropWhile]

theorem mem_trimBy {x : α} (hx : x ∈ xs) (hkeep : drop x = false) : x ∈ trimBy drop xs := by
  obtain ⟨l, r, heq, hl, hr⟩ := exists_append_trimBy drop xs
  rw [heq, List.mem_append, List.mem_append] at hx
  rcases hx with (hx | hx) | hx
  · exact absurd (hl x hx) (Bool.eq_false_iff.mp hkeep)
  · exact hx
  · exact absurd (hr x hx) (Bool.eq_false_iff.mp hkeep)

theorem mem_of_mem_trimBy {x : α} (hx : x ∈ trimBy drop xs) : x ∈ xs := by
  obtain ⟨l, r, heq, -, -⟩ := exists_append_trimBy drop xs
  rw [heq]
  exact List.mem_append_left _ (List.mem_append_right _ hx)

theorem rdropWhile_append (hr : ∀ x ∈ r, drop x = true) : (xs ++ r).rdropWhile drop = xs.rdropWhile drop := by
  rw [List.rdropWhile, List.reverse_append,
    List.dropWhile_append_of_pos fun x hx => hr x (List.mem_reverse.mp hx), List.rdropWhile]

/-- What is dropped may be added at the ends. -/
theorem trimBy_append (hl : ∀ x ∈ l, drop x = true) (hr : ∀ x ∈ r, drop x = true) :
    trimBy drop (l ++ xs ++ r) = trimBy drop xs := by
  rw [trimBy_eq, trimBy_eq, List.append_assoc, List.dropWhile_append_of_pos hl, List.dropWhile_append]
  split
  · rename_i hempty
    rw [List.isEmpty_iff.mp hempty, List.dropWhile_eq_nil_iff.mpr hr]
  · exact rdropWhile_append hr

/-- A list whose first and last elements are kept is not trimmed. -/
theorem trimBy_of_ends (hhead : ∀ x ∈ xs.head?, drop x = false) (hlast : ∀ x ∈ xs.getLast?, drop x = false) :
    trimBy drop xs = xs := by
  have hfront : xs.dropWhile drop = xs := by
    cases xs with
    | nil => rfl
    | cons x rest => rw [List.dropWhile_cons_of_neg (Bool.eq_false_iff.mp (hhead x rfl))]
  rw [trimBy_eq, hfront, List.rdropWhile_eq_self_iff]
  exact fun hne => Bool.eq_false_iff.mp (hlast _ (List.getLast?_eq_some_getLast hne))

end

section
variable {α : Type} [DecidableEq α] (separator : α)

theorem pieces_ne_nil (xs : List α) : pieces separator xs ≠ [] := by
  cases xs with
  | nil => exact List.cons_ne_nil _ _
  | cons x rest =>
    rw [pieces]
    split
    · exact List.cons_ne_nil _ _
    · split <;> exact List.cons_ne_nil _ _

/-- The pieces of a list, with the separator between them, are the list. -/
theorem intercalate_pieces (xs : List α) : [separator].intercalate (pieces separator xs) = xs := by
  induction xs with
  | nil => rfl
  | cons x rest ih =>
    obtain ⟨piece, more, hpieces⟩ := List.exists_cons_of_ne_nil (pieces_ne_nil separator rest)
    rw [pieces, hpieces]
    rw [hpieces] at ih
    by_cases hx : x = separator
    · rw [if_pos hx, List.intercalate_cons_cons, ih, hx]
      rfl
    · rw [if_neg hx, ← ih]
      cases more with
      | nil => rfl
      | cons next more => rw [List.intercalate_cons_cons, List.intercalate_cons_cons]; rfl

end

end RowStore.Text
