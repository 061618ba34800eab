import RowStore.Grid.Basic

/-!
# The calls of batches

* `Batch.call` : the call in which a batch is sent, if there is anything to send;
* `SheetCalls.sending` : the sending of such a call; `appendRows_eq`, `setBlocks_eq`, `deleteRows_eq`
  and `clearRows_eq` : this is what is done with a batch of each kind.
-/

namespace RowStore

/-- The call that clears the rows from one on, if a worksheet of a size has that row. -/
def SheetCalls.clearing (startRow : Value) (size : Int × Int) : Except Fault (Option SheetWrite) := do
  if ← (Value.int size.1).before startRow then return none
  else return some (.clear (areaFrom startRow size.1 size.2))

/-- The call in which a batch is sent, if there is anything to send; a clearing depends on the size of
the worksheet, and the row from which it starts has to have a text. -/
def Batch.call (size : Int × Int) : Batch → Except Fault (Option SheetWrite)
  | .append parts => do
    let rows ← Grid.joined parts
    if rows.isEmpty then return none else return some (.append (← Rows.ofValues rows))
  | .set blocks => .ok (if blocks.isEmpty then none else some (.setBlocks blocks))
  | .delete rows =>
    if rows.isEmpty then .ok none
    else do return some (.deleteSpans (← SheetCalls.spansOf rows))
  | .clear first others => do
    let startRow ← Grid.least first others
    startRow.checkText
    SheetCalls.clearing startRow size
  | .foreign v => .error (.unknownChange v.typeName)

namespace SheetCalls

/-- Sends a call, if there is one. -/
def sending (call : Except Fault (Option SheetWrite)) (cause : Text → ServiceFault) : Act Unit := do
  match ← call with
  | none => return ()
  | some w => send w cause

theorem appendRows_eq (title : Text) (parts : List Value) :
    ∃ cause, (do appendRows title (← Grid.joined parts) : Act Unit) =
      sending (Batch.call (0, 0) (.append parts)) cause := by
  rw [Batch.call]
  rcases Grid.joined parts with fault | rows
  · exact ⟨.appendFailed 0 title, rfl⟩
  · refine ⟨.appendFailed rows.length title, ?_⟩
    change appendRows title rows = sending (if rows.isEmpty then _ else _) _
    rw [appendRows]
    split
    · rfl
    · rcases Rows.ofValues rows with fault | rows <;> rfl

theorem setBlocks_eq (blocks : List Block) :
    ∃ cause, setBlocks blocks = sending (Batch.call (0, 0) (.set blocks)) cause := by
  refine ⟨.blocksFailed blocks.length, ?_⟩
  rw [setBlocks, Batch.call]
  split <;> rfl

theorem deleteRows_eq (title : Text) (rows : List Value) :
    ∃ cause, deleteRows title rows = sending (Batch.call (0, 0) (.delete rows)) cause := by
  refine ⟨.deleteFailed rows.length title, ?_⟩
  rw [deleteRows, Batch.call]
  split
  · rfl
  · rcases spansOf rows with fault | spans <;> rfl

theorem clearRows_eq (title : Text) (startRow : Value) : ∃ cause : Int × Int → Text → ServiceFault,
    clearRows title startRow =
      Act.ask .extent >>= fun size => sending (clearing startRow size) (cause size) := by
  refine ⟨fun size => .clearFailed (areaFrom startRow size.1 size.2) title, ?_⟩
  rw [clearRows]
  congr 1
  funext ⟨lastRow, columnCount⟩
  dsimp only
  rw [clearing]
  rcases (Value.int lastRow).before startRow with fault | _ | _ <;> rfl

end SheetCalls

end RowStore
