import RowStore.Digest.Sha1
import RowStore.Fault.Basic
import RowStore.Note

/-!
# Locks between processes

A lock file is held by at most one handle, which may take it several times and must release it as
often. The handles here belong to one process, so a wait without limit for another handle could never
end and is refused. `LockFile.pathOf` names the file that all writers of one worksheet share: a digest
of the spreadsheet and the worksheet inside a folder.
-/

namespace RowStore

/-- A lock file: the handle that holds it and how often it has taken it. -/
structure LockFile where
  holder : Option (Nat × Nat)
  deriving DecidableEq

namespace LockFile

def free : LockFile := ⟨none⟩

/-- Takes the lock unless another handle holds it; says whether it was taken. A negative wait has no
limit. -/
def acquire (f : LockFile) (handle : Nat) (seconds : Binary64) : Except Fault Bool × LockFile :=
  match f.holder with
  | none => (.ok true, ⟨some (handle, 1)⟩)
  | some (h, depth) =>
    if h = handle then (.ok true, ⟨some (h, depth + 1)⟩)
    else if seconds.isNegative then (.error .deadlock, f)
    else (.ok false, f)

/-- Gives the lock back once; a handle that does not hold it changes nothing. -/
def release (f : LockFile) (handle : Nat) : LockFile :=
  match f.holder with
  | none => f
  | some (h, depth) =>
    if h = handle then
      if depth ≤ 1 then ⟨none⟩ else ⟨some (h, depth - 1)⟩
    else f

/-- The note about a wait that was too short. -/
def timeoutNote (seconds : Binary64) (path : Text) : Note :=
  ⟨.warning, "Timed out after " ++ seconds.fixedText 1 ++ "s waiting for write lock " ++ path⟩

/-- The slashes with which a path starts: one, or two if there are exactly two. -/
def rootOf (path : Text) : String :=
  match (path.takeWhile (· = .char '/')).length with
  | 0 => ""
  | 2 => "//"
  | _ => "/"

/-- The parts of a path; empty ones and those that are a single point count for nothing. -/
def partsOf (path : Text) : List Text :=
  (Text.pieces (.char '/') path).filter fun part => part ≠ [] ∧ part ≠ "."

/-- The path of a file in a folder. -/
def join (folder name : Text) : Text :=
  rootOf folder ++ Text.join "/" (partsOf folder ++ [name])

/-- The number of bytes of a code point in a path. A half from `U+DC80` to `U+DCFF` stands for a
single byte there, and the other halves cannot occur. -/
def pointSize? : CodePoint → Option Nat
  | .char c => some c.utf8Size
  | .half h => if 0x480 ≤ h.val ∧ h.val < 0x500 then some 1 else none

/-- The number of bytes of a path. -/
def pathSize? (path : Text) : Option Nat :=
  (path.mapM pointSize?).map fun sizes => sizes.foldl (· + ·) 0

/-- The most bytes that the name of a file or folder may have. -/
def longestName : Nat := 255

/-- The most bytes that a path may have. -/
def longestPath : Nat := 4095

/-- Whether a text has more than a number of bytes. -/
def isLonger (limit : Nat) (t : Text) : Bool := (pathSize? t).any (limit < ·)

/-- Refuses a path that can name no file: one that has no bytes, one with a NUL character, or one
that is too long. -/
def checkPath (path : Text) : Except Fault Unit :=
  if (pathSize? path).isNone then .error .unencodable
  else if path.contains (.char '\x00') then .error .malformed
  else if isLonger longestPath path || (partsOf path).any (isLonger longestName) then
    .error .pathTooLong
  else .ok ()

/-- The name of the lock file of a worksheet. The digest is one of bytes, which half of a surrogate
pair does not have. -/
def nameOf (store sheet : Text) : Except Fault Text :=
  match (store ++ "\x00" ++ sheet).string? with
  | some message =>
    let digest := (Sha1.hexChars message.toUTF8.toList).take 16
    .ok ("sheetrecords-" ++ String.ofList digest ++ ".lock")
  | none => .error .unencodable

/-- The folder of lock files unless another one is given. -/
def standardFolder : String := "/tmp"

/-- The path of the lock file of a worksheet. -/
def pathOf (store sheet : Text) (folder : Value) : Except Fault Text := do
  let name ← nameOf store sheet
  if folder.isBlank then return join standardFolder name
  else return join (← folder.expectText) name

end LockFile

end RowStore
