import RowStore.Fault.Basic

/-!
# Locks within one process

A `Mutex` is held or free. Taking one that is held fails once the wait is over, and a free one may
not be released. A wait is a number of seconds and is taken as whole nanoseconds, rounded away from
zero: it has to fit a signed word of 64 bits, it must not be negative, except for `-1`, which has no
limit, and it is at most `longestNanos`.
-/

namespace RowStore

/-- A lock that is held or free. -/
structure Mutex where
  held : Bool
  deriving DecidableEq

namespace Mutex

def free : Mutex := ⟨false⟩

def nanosPerSecond : Nat := 1000000000

/-- The longest wait: the longest one of whole microseconds that fits the word. -/
def longestNanos : Int := 9223372036854775000

/-- A double rounded away from zero to an integer, if it is finite. -/
def awayFromZero? (x : Binary64) : Option Int :=
  if x.isFinite then some (if x.isNegative then -(x.ceiling : Int) else x.ceiling) else none

/-- Refuses a number of nanoseconds that is no span of time. -/
def checkNanos (nanos : Int) : Except Fault Unit :=
  if nanos < -(2 ^ (63 : Nat)) ∨ longestNanos < nanos then .error .overflow
  else if nanos = -nanosPerSecond ∨ 0 ≤ nanos then .ok ()
  else .error .malformed

/-- Refuses a wait that is no span of time. -/
def checkWait (seconds : Binary64) : Except Fault Unit :=
  match seconds with
  | .nan _ => .error .malformed
  | seconds =>
    match awayFromZero? (seconds.times nanosPerSecond) with
    | some nanos => checkNanos nanos
    | none => .error .overflow

/-- Takes the lock if it is free; says whether it was taken. -/
def acquire (m : Mutex) (seconds : Binary64) : Except Fault Bool × Mutex :=
  match checkWait seconds with
  | .error fault => (.error fault, m)
  | .ok () => if m.held then (.ok false, m) else (.ok true, ⟨true⟩)

def release (m : Mutex) : Except Fault Unit × Mutex :=
  if m.held then (.ok (), ⟨false⟩) else (.error .unheldLock, m)

end Mutex

end RowStore
