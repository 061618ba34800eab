import RowStore.Table.Operation

/-!
# A table of users

A table with two columns, on which the general statements are tried out.
-/

namespace RowStore.Sample

/-- The columns of the sheet: an identifier and a name. -/
def columns : Columns :=
  ⟨[⟨.text "id", .text "A", .string⟩, ⟨.text "Name", .text "B", .string⟩], .text "id"⟩

/-- The descriptors of the columns. -/
def descriptors : List Value :=
  [.mapping [(.text "id", .text "A"), (.text "label", .text "id"), (.text "type", .text "string")],
    .mapping [(.text "id", .text "B"), (.text "label", .text "Name"), (.text "type", .text "string")]]

/-- An answer of the query service that holds these descriptors. -/
def answer : Value := .text ("(\x7b\"status\":\"ok\",\"table\":\x7b\"cols\":[" ++
  "\x7b\"id\":\"A\",\"label\":\"id\",\"type\":\"string\"\x7d," ++
  "\x7b\"id\":\"B\",\"label\":\"Name\",\"type\":\"string\"\x7d]\x7d\x7d)")

/-- A table on the sheet, with a longest wait for its write lock. -/
def table (waitMs : Value) : Table := ⟨.text "id", ⟨.standard (.text "Users"), waitMs, none⟩, .service⟩

/-- The session of a table that has fetched its columns. -/
def session : Session := ⟨some columns, [], []⟩

/-- The record of a user. -/
def user (id name : String) : Value := .mapping [(.text "id", .text id), (.text "Name", .text name)]

/-- The row of a user. -/
def row (id name : String) : Row := [.text id, .text name]

/-- A sheet with two users. -/
def rows : Rows := [row "id" "Name", row "e1" "Alice", row "e2" "Bob"]

end RowStore.Sample
