import Electrosphere.Agent.FileRead
import Electrosphere.Backends.AgentFiles

/-!
# The result of the tool `read`

`workspaceReadResult` turns an answer for a workspace path into the tool's
result.  The guest returns the lines of the ranges without their numbers;
`lineNumbers` finds the numbers again.
-/

namespace Electrosphere

open Foundation Agent

structure ReadArguments where
  path : Text
  offset : Option Nat := none
  limit : Option Nat := none
  ranges : Option (List (Nat × Nat)) := none
  cursor : Option Text := none

/-- An element of `lines` in the result. -/
structure LineEntry where
  line : Nat
  text : Text
  deriving DecidableEq

/-- The loop of `lineNumbers`, in which a turn of either loop takes one unit of
fuel. -/
def lineNumbersLoop (ranges : List (Nat × Nat)) :
    Nat → Nat → List Text → Option (List LineEntry)
  | _, _, [] => some []
  | 0, _, _ :: _ => none
  | fuel + 1, current, text :: lines =>
      if covers ranges current then
        (lineNumbersLoop ranges fuel (current + 1) lines).map
          ({ line := current, text } :: ·)
      else lineNumbersLoop ranges fuel (current + 1) (text :: lines)

/-- The part of the result that holds what was read. -/
inductive ReadContent where
  | entries (values : List Entry)
  | lines (values : List LineEntry)
  | content (text : Text) (offset : Nat)

structure WorkspaceReadResult where
  path : Text
  size : Option Nat := none
  digest : Option Text := none
  truncated : Bool
  mediaType : Option String := none
  nextOffset : Option Nat := none
  nextCursor : Option Text := none
  content : ReadContent

/-- The line where the daemon takes the answer to begin; `cursorLine` reads a
cursor. -/
def startLine (cursorLine : Text → Option Nat) (args : ReadArguments) : Nat :=
  ((((truthy args.cursor).bind cursorLine).or
    (args.ranges.bind fun ranges => ranges.head?.map Prod.fst)).or
      args.offset).getD 1

/-- `workspaceReadResult`, if its loops end within the fuel. -/
def workspaceReadResult (cursorLine : Text → Option Nat) (fuel : Nat)
    (path : Text) (result : FileReadResult) (args : ReadArguments) :
    Option WorkspaceReadResult :=
  if result.isDirectory then
    some
      { path
        truncated := result.truncated
        nextCursor := result.nextCursor
        content := .entries (result.entries.getD []) }
  else
    let common (content : ReadContent) : WorkspaceReadResult :=
      { path
        size := result.size
        digest := result.digest
        truncated := result.truncated
        mediaType := some "text/plain"
        nextOffset := result.nextOffset
        nextCursor := result.nextCursor
        content }
    match args.ranges with
    | some ranges =>
        (lineNumbersLoop ranges fuel (startLine cursorLine args)
          (result.lines.getD [])).map fun lines => common (.lines lines)
    | none =>
        some (common (.content (result.lines.getD []).flatten
          (startLine cursorLine args)))

/-- The end of `handleRead`, which reads a text file of the workspace. -/
def readWorkspaceText (service : FileService)
    (cursorLine : Text → Option Nat) (fuel : Nat) (path : Text)
    (args : ReadArguments) : Except Thrown (Option WorkspaceReadResult) := do
  let result ← AgentFileClient.read path
    (service.fileRead
      { path
        offset := args.offset
        limit := args.limit
        ranges := args.ranges
        cursor := truthy args.cursor })
  .ok (workspaceReadResult cursorLine fuel path result args)

end Electrosphere
