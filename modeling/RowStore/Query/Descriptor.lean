import RowStore.Fault.Basic
import RowStore.Value.Entries

/-!
# Query descriptors

A structured read request as callers give it: the headers to show, the values to look for, an order,
a limit and an offset. Nothing in it is checked before it is compiled; `Descriptor.ofFields` only
refuses unknown names. `Descriptor.requested` takes a request in any of the forms in which callers may
give it.
-/

namespace RowStore.Query

/-- A read request; null stands for a part that is not given. -/
structure Descriptor where
  select : Value
  conditions : Value
  order : Value
  limit : Value
  offset : Value

namespace Descriptor

/-- The request for everything. -/
def everything : Descriptor := ⟨.null, .null, .null, .null, .null⟩

/-- The request for the first record that has the given values. -/
def first (conditions : Entries Value) : Descriptor :=
  ⟨.null, .mapping conditions, .null, .int 1, .null⟩

def isEverything (d : Descriptor) : Bool :=
  d.select.isNull && d.conditions.isNull && d.order.isNull && d.limit.isNull && d.offset.isNull

/-- The names that a mapping may give. -/
def knownNames : List Text := ["select", "where", "orderBy", "order_by", "limit", "offset"]

def isKnown (name : Value) : Bool := name.text?.any knownNames.contains

/-- A text is taken for a list of that one text. -/
def listed (v : Value) : Value :=
  match v with
  | .text s => .list [.text s]
  | v => v

/-- The fault for names that are not known: they are shown in ascending order, so it has to be
possible to sort them. -/
def unknownFault (names : List Value) : Fault :=
  match Value.sorted? names with
  | some sorted => Fault.worded (.validation (.unknownDescriptorKeys sorted))
  | none => .unsuitable

/-- The request that a mapping describes. -/
def ofMapping (fields : Entries Value) : Except Fault Descriptor :=
  let unknown := fields.names.filter fun name => !isKnown name
  if unknown.isEmpty then
    let order := match fields.findText? "orderBy" with
      | some v => v
      | none => Value.get fields "order_by"
    .ok ⟨listed (Value.get fields "select"), Value.get fields "where", listed order,
      Value.get fields "limit", Value.get fields "offset"⟩
  else .error (unknownFault unknown)

/-- The names of a value's parts, each once; they have to be such that may name an entry. -/
def namesOf (v : Value) : Except Fault (List Value) := do
  let names ← v.each
  if Value.areKeys names then
    return Entries.names (Entries.ofList (names.map fun name => (name, ())))
  else throw .unsuitable

/-- The request whose fields a value gives. What is no mapping has no fields, but its parts are taken
for names at first. -/
def ofFields (v : Value) : Except Fault Descriptor :=
  match v with
  | .mapping fields => ofMapping fields
  | v => do
    let unknown := (← namesOf v).filter fun name => !isKnown name
    throw (if unknown.isEmpty then .unsuitable else unknownFault unknown)

/-- The request that a caller gives: ready, as a mapping, or null for everything. -/
def requested (v : Value) : Except Fault Descriptor :=
  match v with
  | .null => .ok everything
  | .request select conditions order limit offset =>
    .ok ⟨select, conditions, order, limit, offset⟩
  | .mapping fields => ofMapping fields
  | v => .error (.validation (.unsupportedDescriptor v.typeName))

end Descriptor

end RowStore.Query
