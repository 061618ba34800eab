import RowStore.Columns

/-!
# Queries with bracketed headers

In a free-form query a column is named by its header in brackets. `Bracket.resolve` replaces each
`[Header]` by the header's code and refuses a query with a header that is not known. A token is a
bracket, at least one character other than a closing bracket, and a closing bracket; tokens are found
from left to right, and the text between them is not touched.
-/

namespace RowStore.Query.Bracket

/-- A piece of a query: a code point outside of tokens, or the name in a token. -/
inductive Piece
  | point (p : CodePoint)
  | token (name : Text)
  deriving DecidableEq

/-- The name of the token that starts after an opening bracket, and the text after the token. -/
def tokenAfter? (t : Text) : Option (Text × Text) :=
  match t.dropWhile (· ≠ .char ']') with
  | [] => none
  | _ :: rest =>
    if (t.takeWhile (· ≠ .char ']')).isEmpty then none
    else some (t.takeWhile (· ≠ .char ']'), rest)

theorem tokenAfter?_length {t name rest : Text} (h : tokenAfter? t = some (name, rest)) :
    rest.length < t.length := by
  have hs := (List.dropWhile_sublist (· ≠ .char ']') (l := t)).length_le
  unfold tokenAfter? at h
  split at h
  · simp at h
  · rename_i heq
    rw [heq] at hs
    split at h
    · simp at h
    · simp only [Option.some.injEq, Prod.mk.injEq] at h
      obtain ⟨_, rfl⟩ := h
      simpa [Nat.succ_le_iff] using hs

/-- The pieces of a query. -/
def pieces (t : Text) : List Piece :=
  match t with
  | [] => []
  | p :: rest =>
    if p = .char '[' then
      match _found : tokenAfter? rest with
      | some (name, after) => .token name :: pieces after
      | none => .point p :: pieces rest
    else .point p :: pieces rest
termination_by t.length
decreasing_by
  · have := tokenAfter?_length _found
    simp only [List.length_cons]; omega
  · simp
  · simp

/-- The code that replaces a token. -/
def codeOf (columns : Columns) (name : Text) : Except Fault Value :=
  match columns.codes.findText? name with
  | some code => .ok code
  | none => .error (.bracket (.unknownHeader name columns.headers))

/-- What replaces each piece: a text, or a code. -/
def substitute (columns : Columns) : Piece → Except Fault Value
  | .point p => .ok (.text [p])
  | .token name => codeOf columns name

/-- Puts texts together; a code that is no text does not suit. -/
def joined (parts : List Value) : Except Fault Text := do
  return (← parts.mapM Value.expectText).flatten

/-- The query with every token replaced by its header's code. -/
def resolve (columns : Option Columns) (query : Value) : Except Fault Text :=
  match columns with
  | none => .error (.bracket .noColumns)
  | some c =>
    if c.isEmpty then .error (.bracket .noColumns)
    else do
      joined (← (pieces (← query.expectText)).mapM (substitute c))

end RowStore.Query.Bracket
