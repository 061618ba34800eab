import RowStore.Number.Rounding

/-!
# Double-precision numbers

A finite double is an integer number of units of `2 ^ -1074`, the distance between the smallest
ones. It is held as `m · 2 ^ q` units in the one form that has `m < 2 ^ 53` and `q` as small as
possible (`Binary64.Canonical`), so equal values are equal terms, the two zeros apart. A NaN carries
a payload: it equals no number, but two NaNs with one payload are the same one.

* `ofRatio` : the double nearest to a quotient, ties to even, infinity from the overflow threshold;
* `units`, `isIntegral`, `truncate?` : the exact value and its integer part;
* `ofInt?` : the nearest double of an integer, `none` when it overflows;
* `times`, `dividedBy`, `plusInt` : exact operation, then one rounding;
* `place?` : where a double stands in the order of numbers.
-/

namespace RowStore

-- powers are those of the core library, whatever other instances there are
attribute [scoped instance (2000)] instPowNat

/-- `m · 2 ^ q` units, in the only form used for that value. -/
def Binary64.Canonical (m q : Nat) : Prop :=
  m < 2 ^ (53 : Nat) ∧ q ≤ 2045 ∧ (q = 0 ∨ 2 ^ (52 : Nat) ≤ m)

instance (m q : Nat) : Decidable (Binary64.Canonical m q) := by
  unfold Binary64.Canonical; infer_instance

/-- A double: a finite value counts `m · 2 ^ q` units of `2 ^ -1074`. -/
inductive Binary64
  | nan (payload : Nat)
  | infinite (negative : Bool)
  | finite (negative : Bool) (m q : Nat) (canonical : Binary64.Canonical m q)
  deriving DecidableEq

namespace Binary64

/-- One unit is `2 ^ -1074`, so this many units make one. -/
def unitsPerOne : Nat := 2 ^ (1074 : Nat)

def zero : Binary64 := .finite false 0 0 (by decide)

instance : Inhabited Binary64 := ⟨zero⟩

/-- The double of `m · 2 ^ q` units; beyond the largest finite one, infinity. -/
def pack (negative : Bool) (m q : Nat) : Binary64 :=
  if h : Canonical m q then .finite negative m q h else .infinite negative

/-- The double nearest to `num / den`, ties to even. -/
def ofRatio (negative : Bool) (num den : Nat) : Binary64 :=
  let scaled := num * unitsPerOne
  let q := Nat.log2 (scaled / den) + 1 - 53
  let m := divHalfEven scaled (den * 2 ^ q)
  if m = 2 ^ (53 : Nat) then pack negative (2 ^ (52 : Nat)) (q + 1) else pack negative m q

def isFinite : Binary64 → Bool
  | .finite .. => true
  | _ => false

def isNegative : Binary64 → Bool
  | .nan _ => false
  | .infinite negative => negative
  | .finite negative m _ _ => negative && m != 0

/-- The magnitude in units of `2 ^ -1074`. -/
def units : Binary64 → Nat
  | .finite _ m q _ => m * 2 ^ q
  | _ => 0

/-- The value in units of `2 ^ -1074`, for a finite double. -/
def signedUnits? : Binary64 → Option Int
  | .finite negative m q _ =>
    some (if negative then -((m * 2 ^ q : Nat) : Int) else ((m * 2 ^ q : Nat) : Int))
  | _ => none

/-- Finite and without a fractional part. -/
def isIntegral (x : Binary64) : Bool :=
  x.isFinite && x.units % unitsPerOne == 0

/-- The integer part, toward zero. -/
def truncate? : Binary64 → Option Int
  | .finite negative m q _ =>
    let whole := m * 2 ^ q / unitsPerOne
    some (if negative then -(whole : Int) else (whole : Int))
  | _ => none

/-- The double, unless it is infinite. -/
def unlessInfinite : Binary64 → Option Binary64
  | .infinite _ => none
  | x => some x

/-- The nearest double, or `none` when the integer is beyond the finite ones. -/
def ofInt? (n : Int) : Option Binary64 := (ofRatio (n < 0) n.natAbs 1).unlessInfinite

/-- Numerical equality with an integer. -/
def equalsInt (x : Binary64) (n : Int) : Bool :=
  x.isIntegral && x.truncate? == some n

/-- Where a double stands among all numbers: the infinities outside, and between them the finite ones
by their units. A NaN stands nowhere. -/
def place? : Binary64 → Option (Int × Int)
  | .nan _ => none
  | .infinite negative => some (if negative then -1 else 1, 0)
  | x => x.signedUnits?.map fun units => (0, units)

/-- The least integer that is not below the magnitude. -/
def ceiling (x : Binary64) : Nat := (x.units + (unitsPerOne - 1)) / unitsPerOne

/-- Numerical equality; the two zeros are equal, and a NaN is taken for itself. -/
def equals (x y : Binary64) : Bool :=
  x == y || (x.isFinite && y.isFinite && x.units == 0 && y.units == 0)

/-- The double nearest to `x · n`, for a positive `n`. -/
def times (x : Binary64) (n : Nat) : Binary64 :=
  match x with
  | .finite negative m q _ => ofRatio negative (m * 2 ^ q * n) unitsPerOne
  | x => x

/-- The double nearest to `x + n`. -/
def plusInt (x : Binary64) (n : Int) : Binary64 :=
  match x.signedUnits? with
  | some units =>
    let sum := units + n * unitsPerOne
    ofRatio (sum < 0) sum.natAbs unitsPerOne
  | none => x

/-- The double nearest to `x / d`, for a positive `d`. -/
def dividedBy (x : Binary64) (d : Nat) : Binary64 :=
  match x with
  | .finite negative m q _ => ofRatio negative (m * 2 ^ q) (unitsPerOne * d)
  | x => x

@[simp] theorem units_nan (payload : Nat) : units (.nan payload) = 0 := rfl

@[simp] theorem isFinite_finite (s m q h) : isFinite (.finite s m q h) = true := rfl

theorem truncate?_isSome (x : Binary64) : x.truncate?.isSome = x.isFinite := by
  cases x <;> rfl

theorem exists_truncate? {x : Binary64} (h : x.isIntegral = true) : ∃ n, x.truncate? = some n := by
  rw [isIntegral, Bool.and_eq_true] at h
  exact Option.isSome_iff_exists.mp (x.truncate?_isSome.trans h.1)

end Binary64

end RowStore
