/-!
# Parts of a list between bounds

A bound is an integer: a negative one counts from the end of the list, and one beyond the list is taken
for its nearer end. `Slice.upTo` gives what lies before a bound, `Slice.onward` what lies after it, and
`Slice.without` takes out what lies between two bounds.
-/

namespace RowStore.Slice

variable {α : Type}

/-- The position that a bound means in a list of a length. -/
def bound (n : Int) (length : Nat) : Nat :=
  if n < 0 then (n + length).toNat else min n.toNat length

def upTo (n : Int) (xs : List α) : List α := xs.take (bound n xs.length)

def onward (n : Int) (xs : List α) : List α := xs.drop (bound n xs.length)

/-- The list without its elements from one bound up to another one. -/
def without (first after : Int) (xs : List α) : List α :=
  let start := bound first xs.length
  xs.take start ++ xs.drop (max start (bound after xs.length))

theorem bound_natCast (n length : Nat) : bound n length = min n length := by
  simp [bound, Int.not_lt.mpr (Int.natCast_nonneg n)]

theorem upTo_natCast (n : Nat) (xs : List α) : upTo n xs = xs.take n := by
  rw [upTo, bound_natCast, Nat.min_comm, List.take_eq_take_min (i := n), Nat.min_comm]

theorem onward_natCast (n : Nat) (xs : List α) : onward n xs = xs.drop n := by
  rw [onward, bound_natCast]
  rcases Nat.le_total n xs.length with h | h
  · rw [Nat.min_eq_left h]
  · rw [Nat.min_eq_right h, List.drop_length, List.drop_eq_nil_of_le h]

/-- Between a bound and the next one lies one element. -/
theorem without_natCast (n : Nat) (xs : List α) :
    without n (n + 1 : Nat) xs = xs.eraseIdx n := by
  rw [without, bound_natCast, bound_natCast, List.eraseIdx_eq_take_drop_succ]
  rcases Nat.lt_or_ge n xs.length with h | h
  · rw [Nat.min_eq_left (Nat.le_of_lt h), Nat.min_eq_left h, Nat.max_eq_right (Nat.le_succ n)]
  · rw [Nat.min_eq_right h, Nat.min_eq_right (Nat.le_succ_of_le h), Nat.max_self,
      List.take_of_length_le h, List.take_of_length_le (Nat.le_refl _), List.drop_length,
      List.drop_eq_nil_of_le (Nat.le_succ_of_le h)]

end RowStore.Slice
