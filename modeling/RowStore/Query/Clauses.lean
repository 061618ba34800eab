import RowStore.Query.Descriptor
import RowStore.Query.Literal
import RowStore.Text.Case

/-!
# Clauses of a query

A compiled request: positional codes to show, comparisons joined by `and`, order terms, a limit and
an offset. `Clauses.render` writes them in a fixed order and leaves out the empty ones. `compile`
resolves a descriptor's headers; a header that is not known is dropped with a note.
-/

namespace RowStore.Query

/-- The ways to sort by a column. -/
inductive Direction
  | ascending
  | descending
  deriving DecidableEq

def Direction.word : Direction → String
  | ascending => "ASC"
  | descending => "DESC"

/-- A comparison: the column equals a literal, or it is empty. -/
structure Comparison where
  code : Text
  literal : Option Literal

def Comparison.render (c : Comparison) : Text :=
  match c.literal with
  | some l => c.code ++ " = " ++ l.render
  | none => c.code ++ " is null"

/-- A column to sort by. -/
structure OrderTerm where
  code : Text
  direction : Option Direction

def OrderTerm.render (t : OrderTerm) : Text :=
  match t.direction with
  | some d => t.code ++ " " ++ d.word
  | none => t.code

/-- A compiled request. -/
structure Clauses where
  select : List Text
  comparisons : List Comparison
  order : List OrderTerm
  limit : Option Int
  offset : Option Int

namespace Clauses

/-- A keyword and the parts of its clause, or nothing when there are no parts. -/
def clause (keyword separator : String) (parts : List Text) : Text :=
  if parts.isEmpty then [] else keyword ++ " " ++ Text.join separator parts

/-- A keyword and a number. -/
def numberClause (keyword : String) (n : Option Int) : Text :=
  match n with
  | some n => keyword ++ " " ++ toString n
  | none => []

/-- The texts of the clauses in their order; an absent one is empty. -/
def texts (c : Clauses) : List Text := [
  clause "select" ", " c.select,
  clause "where" " and " (c.comparisons.map Comparison.render),
  clause "order by" ", " (c.order.map OrderTerm.render),
  numberClause "limit" c.limit,
  numberClause "offset" c.offset]

/-- The text of the query. -/
def render (c : Clauses) : Text := Text.join " " (c.texts.filter (· ≠ []))

end Clauses

/-- The code of a header. -/
def codeOf? (columns : Columns) (name : Value) : Option Value :=
  name.text?.bind columns.codes.findText?

/-- The code of a header; one that is not known leaves a note that names the clause. -/
def resolve (columns : Columns) (clause : String) (name : Value) : Noted (Option Value) :=
  match codeOf? columns name with
  | some code => return some code
  | none => do
    Noted.note .warning
      ("Dropping unknown column " ++ name.written ++ " from " ++ clause ++ " clause")
    return none

/-- The codes of the headers to show. -/
def selectCodes (columns : Columns) (select : Value) : Noted (List Text) :=
  if select.isBlank then return []
  else do
    let names ← select.each
    let codes ← names.filterMapM (resolve columns "select")
    codes.mapM fun code => code.expectText

/-- The comparison of a header with a value. -/
def comparison? (columns : Columns) (name value : Value) : Noted (Option Comparison) := do
  let some code ← resolve columns "where" name | return none
  if value.isNull then return some ⟨code.plain, none⟩
  return some ⟨code.plain, some (← Literal.ofValue value (columns.typeOf code))⟩

/-- The comparisons of a mapping from headers to values. -/
def comparisonsOf (columns : Columns) (conditions : Value) : Noted (List Comparison) :=
  if conditions.isBlank then return []
  else do (← conditions.expectEntries).filterMapM fun e => comparison? columns e.1 e.2

/-- The header and the direction of an entry; an entry that is not a text is a sequence of them. -/
def orderParts (entry : Value) : Except Fault (Value × Value) :=
  match entry with
  | .text t => .ok (.text t, .null)
  | entry => do
    match ← entry.each with
    | [] => throw .malformed
    | [name] => return (name, .null)
    | name :: direction :: _ => return (name, direction)

/-- The direction that a word names, in any case. -/
def directionOf? (v : Value) : Option Direction :=
  match v with
  | .text t =>
    let word := Text.upper t
    if word = Direction.ascending.word then some .ascending
    else if word = Direction.descending.word then some .descending
    else none
  | _ => none

/-- The code and the direction of one entry. -/
def orderItem? (columns : Columns) (entry : Value) :
    Noted (Option (Value × Option Direction)) := do
  let (name, direction) ← orderParts entry
  let some code ← resolve columns "order by" name | return none
  return some (code, directionOf? direction)

/-- An order term; a code without a direction has to be a text. -/
def orderTerm (code : Value) (direction : Option Direction) : Except Fault OrderTerm :=
  match direction with
  | some d => .ok ⟨code.plain, some d⟩
  | none => do return ⟨← code.expectText, none⟩

def orderTerms (columns : Columns) (order : Value) : Noted (List OrderTerm) :=
  if order.isBlank then return []
  else do
    let entries ← order.each
    let terms ← entries.filterMapM (orderItem? columns)
    terms.mapM fun t => orderTerm t.1 t.2

/-- A limit has to be a positive integer. -/
def limitOf? : Value → Option Int
  | .int n => if 0 < n then some n else none
  | _ => none

/-- An offset has to be an integer that is not negative. -/
def offsetOf? : Value → Option Int
  | .int n => if 0 ≤ n then some n else none
  | _ => none

/-- A number that stands in a clause has to have a numeral. -/
def numberFor (n : Option Int) : Except Fault (Option Int) :=
  if n.all hasNumeral then .ok n else .error .malformed

/-- The clauses of a descriptor over the columns of a sheet. -/
def clausesOf (columns : Columns) (d : Descriptor) : Noted Clauses := do
  let select ← selectCodes columns d.select
  let comparisons ← comparisonsOf columns d.conditions
  let order ← orderTerms columns d.order
  return ⟨select, comparisons, order, ← numberFor (limitOf? d.limit), ← numberFor (offsetOf? d.offset)⟩

/-- The query text of a descriptor. Without columns it is empty, which asks for everything. -/
def compile (columns : Option Columns) (d : Descriptor) : Noted Text :=
  match columns with
  | some c =>
    if c.isEmpty then degraded d else do return (← clausesOf c d).render
  | none => degraded d
where
  degraded (d : Descriptor) : Noted Text := do
    if !d.isEverything then
      Noted.note .warning "Column metadata unavailable; query degrades to select everything"
    return []

end RowStore.Query
