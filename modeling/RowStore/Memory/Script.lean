import RowStore.Program

/-!
# Scripted answers

What a service in memory is to answer, one entry per request. The entries of a lasting script are
used up one by one and the last of them is repeated; the faults of a call are used up and then the
call succeeds.
-/

namespace RowStore.Memory

/-- A scripted answer to a query: a fault, an answer with its status, or a value alone. -/
inductive Reply
  | fault (f : Fault)
  | answer (a : WebAnswer)
  | bare (v : Value)

namespace Reply

/-- What is answered where no status is expected; an answer with one does not suit. -/
def text : Reply → Except Fault Value
  | fault f => .error f
  | answer _ => .error .unsuitable
  | bare v => .ok v

/-- The whole answer; a text alone has status 200, and any other value alone is no answer. -/
def whole : Reply → Except Fault WebAnswer
  | fault f => .error f
  | answer a => .ok a
  | bare (.text s) => .ok ⟨.int 200, .text s⟩
  | bare _ => .error .unsuitable

end Reply

/-- The next entry of a lasting script, and the script after it. -/
def nextLasting {α : Type} : List α → Option α × List α
  | [] => (none, [])
  | [last] => (some last, [last])
  | entry :: rest => (some entry, rest)

/-- The faults that the calls of each name raise, in the order of the calls. -/
abbrev FaultScripts := List (String × List (Option Fault))

namespace FaultScripts

/-- The next fault of a call, if there is one, and the scripts after it. -/
def next (name : String) : FaultScripts → Option Fault × FaultScripts
  | [] => (none, [])
  | (n, entries) :: rest =>
    if n = name then
      match entries with
      | [] => (none, (n, []) :: rest)
      | entry :: later => (entry, (n, later) :: rest)
    else
      let (fault, others) := next name rest
      (fault, (n, entries) :: others)

end FaultScripts

end RowStore.Memory
