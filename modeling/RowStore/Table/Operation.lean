import RowStore.Table.Read
import RowStore.Table.Write

/-!
# Operations on a table

All that a caller may ask of a table, as one type: `Table.perform` performs an `Operation` and gives
its `Outcome`.
-/

namespace RowStore

open Response

/-- What a caller may ask of a table. -/
inductive Operation
  | findById (id : Value)
  | find (conditions : Value)
  | findMany (request : Value)
  | getAll
  | query (text : Value)
  | toFrame (records : Value)
  | create (record : Value)
  | createMany (records : Value)
  | updateById (id fields : Value)
  | update (conditions fields : Value)
  | updateMany (conditions fields : Value)
  | deleteById (id : Value)
  | delete (conditions : Value)
  | deleteMany (conditions : Value)
  | clearData
  | refresh
  | invalidate
  | columns

/-- What an operation gives. -/
inductive Outcome
  | record (r : Option Record)
  | records (rs : Option (List Record))
  | frame (f : Frame)
  | done (ok : Bool)
  | count (n : Nat)
  | columns (c : Option Columns)
  | nothing

namespace Table

/-- Performs an operation. -/
def perform (t : Table) : Operation → Act Outcome
  | .findById id => return .record (← t.findById id)
  | .find conditions => return .record (← t.find conditions)
  | .findMany request => return .records (← t.findMany request)
  | .getAll => return .records (some (← t.getAll))
  | .query text => return .records (← t.query text)
  | .toFrame records => return .frame (← t.toFrame records)
  | .create record => return .done (← t.create record)
  | .createMany records => return .count (← t.createMany records)
  | .updateById id fields => return .done (← t.updateById id fields)
  | .update conditions fields => return .done (← t.update conditions fields)
  | .updateMany conditions fields => return .count (← t.updateMany conditions fields)
  | .deleteById id => return .done (← t.deleteById id)
  | .delete conditions => return .done (← t.delete conditions)
  | .deleteMany conditions => return .count (← t.deleteMany conditions)
  | .clearData => return .done (← t.clearData)
  | .refresh => return .done (← t.refresh)
  | .invalidate => do
    Table.invalidate
    return .nothing
  | .columns => return .columns (← Act.columns)

end Table

end RowStore
