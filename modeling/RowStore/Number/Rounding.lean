/-!
# Rounding a quotient of natural numbers

`divHalfEven n d` is the natural number nearest to `n / d`, a tie going to the even neighbour. It is
the one rounding of this library: floating-point values and texts with fixed places both use it.
-/

namespace RowStore

/-- The natural number nearest to `n / d`; of two equally near ones, the even one. -/
def divHalfEven (n d : Nat) : Nat :=
  let quotient := n / d
  let twice := 2 * (n % d)
  if twice < d then quotient
  else if d < twice then quotient + 1
  else if quotient % 2 = 0 then quotient
  else quotient + 1

theorem divHalfEven_mul (n d : Nat) (h : 0 < d) : divHalfEven (n * d) d = n := by
  simp [divHalfEven, Nat.mul_div_cancel _ h, h]

end RowStore
