import RowStore.Query.Clauses
import RowStore.Proofs.Number.Written

/-!
# A reader of query texts

The grammar of the query service, as a function from texts: `select`, `where`, `order by`, `limit`
and `offset` in this order, each of them optional, and nothing else. `read` gives what a text says.

* `readQuoted` : a text in single quotes, in which a backslash stands for the code point after it;
* `readConstant`, `readComparison`, `readTerm` : the parts of clauses;
* `readMany` : parts with a separator between them;
* `readClause`, `readNumberClause`, `read` : clauses and whole texts.
-/

namespace RowStore.Query

/-- A constant as the query service takes it. -/
inductive Constant
  | integer (n : Int)
  | decimal (numeral : List Char)
  | truth (b : Bool)
  | quoted (t : Text)
  deriving DecidableEq

/-- A predicate on a column: it equals a constant, or it is empty. -/
structure Predicate where
  code : Text
  constant : Option Constant
  deriving DecidableEq

/-- What a query text says. -/
structure Meaning where
  select : List Text
  predicates : List Predicate
  order : List OrderTerm
  limit : Option Int
  offset : Option Int

/-! ## Words -/

/-- What follows the given start of a text. -/
def after? : Text → Text → Option Text
  | [], t => some t
  | _ :: _, [] => none
  | p :: start, q :: t => if p = q then after? start t else none

/-- The code points up to a blank. -/
def word (t : Text) : Text := t.takeWhile (· ≠ .char ' ')

/-- What follows the first word. -/
def afterWord (t : Text) : Text := t.dropWhile (· ≠ .char ' ')

/-- The capital letters at the start of a text; there has to be one. -/
def readCode (t : Text) : Option (Text × Text) :=
  if (Text.span Column.isCapital t).1 = [] then none
  else some (Text.ofChars (Text.span Column.isCapital t).1, (Text.span Column.isCapital t).2)

/-! ## Constants -/

/-- The text up to the closing quote; a backslash stands for the code point after it. -/
def readQuoted : Text → Option (Text × Text)
  | [] => none
  | p :: rest =>
    if p = .char '\'' then some ([], rest)
    else if p = .char '\\' then
      match rest with
      | [] => none
      | q :: rest => (readQuoted rest).map fun r => (q :: r.1, r.2)
    else (readQuoted rest).map fun r => (p :: r.1, r.2)

/-- The number that a word without a sign is. -/
def natural? (t : Text) : Option Int :=
  t.chars?.bind fun cs => if isDigits cs then some (digitsValue cs) else none

/-- The number that a word is. -/
def number? (t : Text) : Option Constant :=
  t.chars?.bind fun cs =>
    match integerOf? cs with
    | some n => some (.integer n)
    | none => if isDecimal cs then some (.decimal cs) else none

/-- The constant that a word without quotes is. -/
def bare? (t : Text) : Option Constant :=
  match number? t with
  | some c => some c
  | none =>
    if t = "true" then some (.truth true) else if t = "false" then some (.truth false) else none

def readConstant (t : Text) : Option (Constant × Text) :=
  match after? "'" t with
  | some rest => (readQuoted rest).map fun r => (.quoted r.1, r.2)
  | none => (bare? (word t)).map fun c => (c, afterWord t)

/-! ## Parts of clauses -/

def readComparison (t : Text) : Option (Predicate × Text) := do
  let (code, rest) ← readCode t
  match after? " is null" rest with
  | some rest => return (⟨code, none⟩, rest)
  | none =>
    let (constant, rest) ← readConstant (← after? " = " rest)
    return (⟨code, some constant⟩, rest)

/-- The direction at the start of a text, if there is one. -/
def readDirection (t : Text) : Option Direction × Text :=
  match after? " ASC" t with
  | some rest => (some .ascending, rest)
  | none =>
    match after? " DESC" t with
    | some rest => (some .descending, rest)
    | none => (none, t)

def readTerm (t : Text) : Option (OrderTerm × Text) := do
  let (code, rest) ← readCode t
  return (⟨code, (readDirection rest).1⟩, (readDirection rest).2)

/-! ## Clauses -/

section
variable {α : Type}

/-- One part, and another one after each separator. -/
def readMany (part : Text → Option (α × Text)) (separator : Text) (t : Text) :
    Option (List α × Text) :=
  match part t with
  | none => none
  | some (a, rest) =>
    match after? separator rest with
    | none => some ([a], rest)
    | some more =>
      if more.length < t.length then
        (readMany part separator more).map fun r => (a :: r.1, r.2)
      else none
termination_by t.length

/-- The parts of a clause; there are none if its keyword does not follow. -/
def readClause (keyword separator : String) (part : Text → Option (α × Text)) (t : Text) :
    Option (List α × Text) :=
  match after? (" " ++ keyword ++ " ") t with
  | some rest => readMany part separator rest
  | none => some ([], t)

end

/-- The number of a clause, which has no sign; there is none if its keyword does not follow. -/
def readNumberClause (keyword : String) (t : Text) : Option (Option Int × Text) :=
  match after? (" " ++ keyword ++ " ") t with
  | some rest => (natural? (word rest)).map fun n => (some n, afterWord rest)
  | none => some (none, t)

/-- A blank before a text that is not empty. -/
def lead (t : Text) : Text := if t.isEmpty then [] else .char ' ' :: t

/-- What a query text says, if it is one. -/
def read (t : Text) : Option Meaning := do
  let (select, t) ← readClause "select" ", " readCode (lead t)
  let (predicates, t) ← readClause "where" " and " readComparison t
  let (order, t) ← readClause "order by" ", " readTerm t
  let (limit, t) ← readNumberClause "limit" t
  let (offset, t) ← readNumberClause "offset" t
  if t.isEmpty then some ⟨select, predicates, order, limit, offset⟩ else none

end RowStore.Query
