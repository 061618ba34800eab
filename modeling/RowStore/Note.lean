import RowStore.Text.Basic

/-!
# Notes

What is written to the log: a level and a text.
-/

namespace RowStore

/-- How much attention a note asks for. -/
inductive NoteLevel
  | debug
  | info
  | warning
  | error
  deriving DecidableEq, Repr

/-- The name of a level in the log. -/
def NoteLevel.name : NoteLevel → String
  | debug => "DEBUG"
  | info => "INFO"
  | warning => "WARNING"
  | error => "ERROR"

/-- One line of the log. -/
structure Note where
  level : NoteLevel
  text : Text
  deriving DecidableEq, Repr

/-- The line as it stands in the log. -/
def Note.line (n : Note) : Text := n.level.name ++ ": " ++ n.text

end RowStore
