import Electrosphere.Agent.FileWrite

/-!
# `file_edit` of the guest agent

The edits of a request name lines of the file as it is.  They are sorted and
checked, and then spliced into the bytes from the last to the first, at offsets
that are computed once.  The result takes the place of the file by a rename.

A computation without result is one that panics.  File modes are left out.
-/

namespace Electrosphere.Agent

open Foundation

def maxEditFileBytes : Nat := 16 * 1024 * 1024

def maxEditContentBytes : Nat := 768 * 1024

inductive EditKind where
  | replace
  | delete
  | insertBefore
  | insertAfter
  deriving DecidableEq

def EditKind.parse (kind : String) : Option EditKind :=
  if kind = "replace" then some .replace
  else if kind = "delete" then some .delete
  else if kind = "insert_before" then some .insertBefore
  else if kind = "insert_after" then some .insertAfter
  else none

structure EditSpec where
  kind : String
  startLine : Nat
  endLine : Option Nat := none
  content : Option Text := none

/-- `end_line.unwrap_or(start_line)`. -/
def EditSpec.lastLine (edit : EditSpec) : Nat :=
  edit.endLine.getD edit.startLine

/-- The order of `sort_by_key`. -/
def byLines (left right : EditSpec) : Prop :=
  left.startLine < right.startLine ∨
    (left.startLine = right.startLine ∧ left.lastLine ≤ right.lastLine)

instance decidableByLines : DecidableRel byLines := fun left right =>
  inferInstanceAs (Decidable (left.startLine < right.startLine ∨
    (left.startLine = right.startLine ∧ left.lastLine ≤ right.lastLine)))

/-! ## Where the lines begin -/

def startsAfter (length : Nat) : Nat → Bytes → List Nat
  | _, [] => []
  | index, byte :: bytes =>
      if byte = 0x0A ∧ index + 1 < length then
        (index + 1) :: startsAfter length (index + 1) bytes
      else startsAfter length (index + 1) bytes

def lineStarts (bytes : Bytes) : List Nat :=
  if bytes = [] then [] else 0 :: startsAfter bytes.length 0 bytes

/-! ## Checks -/

def EditSpec.checkFields (edit : EditSpec) : FileResult Unit :=
  match EditKind.parse edit.kind with
  | some .replace =>
      if edit.endLine.isNone ∨ edit.content.isNone then
        .error (.coded "INVALID_ARGUMENT" "replace requires endLine and content")
      else .ok ()
  | some .delete =>
      if edit.endLine.isNone ∨ edit.content.isSome then
        .error (.coded "INVALID_ARGUMENT"
          "delete requires endLine and no content")
      else .ok ()
  | some .insertBefore | some .insertAfter =>
      if edit.endLine.isSome ∨ edit.content.isNone then
        .error (.coded "INVALID_ARGUMENT"
          "insert requires content and no endLine")
      else .ok ()
  | none => .error (.coded "INVALID_ARGUMENT" "Edit kind is invalid")

def checkEdits (lineCount : Nat) : Nat → List EditSpec → FileResult Unit
  | _, [] => .ok ()
  | previousEnd, edit :: edits =>
      if edit.startLine = 0 ∨ lineCount < edit.startLine then
        .error (.coded "INVALID_ARGUMENT" "Edit line is out of range")
      else if edit.lastLine < edit.startLine ∨ lineCount < edit.lastLine ∨
          edit.startLine ≤ previousEnd then
        .error (.coded "INVALID_ARGUMENT"
          "Edit ranges overlap or are invalid")
      else
        match edit.checkFields with
        | .error failure => .error failure
        | .ok _ => checkEdits lineCount edit.lastLine edits

/-! ## Splices -/

def lineEnd (starts : List Nat) (bytes : Bytes) (line : Nat) : Option Nat :=
  if line < starts.length then starts[line]? else some bytes.length

/-- What is replaced in the bytes, and by what. -/
def EditSpec.span (edit : EditSpec) (starts : List Nat) (bytes : Bytes) :
    Option (Nat × Nat × Text) := do
  let lineStart ← starts[edit.startLine - 1]?
  let content := edit.content.getD []
  match EditKind.parse edit.kind with
  | some .replace =>
      let finish ← edit.endLine.bind (lineEnd starts bytes)
      some (lineStart, finish, content)
  | some .delete =>
      let finish ← edit.endLine.bind (lineEnd starts bytes)
      some (lineStart, finish, [])
  | some .insertBefore => some (lineStart, lineStart, content)
  | some .insertAfter =>
      let finish ← lineEnd starts bytes edit.startLine
      some (finish, finish, content)
  | none => none

/-- `Vec::splice`. -/
def splice (bytes : Bytes) (start finish : Nat) (replacement : Bytes) :
    Option Bytes :=
  if start ≤ finish ∧ finish ≤ bytes.length then
    some (bytes.take start ++ replacement ++ bytes.drop finish)
  else none

def EditSpec.apply (starts : List Nat) (edit : EditSpec) (bytes : Bytes) :
    Option Bytes :=
  (edit.span starts bytes).bind fun span =>
    splice bytes span.1 span.2.1 (Utf8.encode span.2.2)

/-- The loop from the last edit to the first. -/
def applyEdits (starts : List Nat) (bytes : Bytes) :
    List EditSpec → Option Bytes
  | [] => some bytes
  | edit :: edits => (applyEdits starts bytes edits).bind (edit.apply starts)

def linesAfter (bytes : Bytes) : Nat :=
  if bytes = [] then 0
  else
    1 + bytes.count 0x0A - (if bytes.getLast? = some 0x0A then 1 else 0)

/-! ## The request -/

section Service

variable (library : WriteLibrary) (faults : Faults)

def fileDigest (bytes : Bytes) : Text := (library.sha256 bytes).text.toList

def contentBytes (edits : List EditSpec) : Nat :=
  ((edits.filterMap EditSpec.content).map fun content =>
    (Utf8.encode content).length).sum

/-- The new bytes, and the answer. -/
def editBytes (bytes : Bytes) (expectedDigest : Text) (edits : List EditSpec) :
    Option (FileResult (Bytes × FileResponse)) :=
  if fileDigest library bytes ≠ expectedDigest then
    some (.error (.stale (fileDigest library bytes)))
  else if (fromUtf8 bytes).isNone then
    some (.error (.coded "INVALID_ARGUMENT" "File is not valid UTF-8"))
  else if maxEditContentBytes < contentBytes edits then
    some (.error (.coded "FILE_TOO_LARGE" "Edit content exceeds size limit"))
  else
    let starts := lineStarts bytes
    let edits := edits.insertionSort byLines
    match checkEdits starts.length 0 edits with
    | .error failure => some (.error failure)
    | .ok _ =>
        match applyEdits starts bytes edits with
        | none => none
        | some edited =>
            if maxEditFileBytes < edited.length then
              some (.error (.coded "FILE_TOO_LARGE"
                "Edited file exceeds size limit"))
            else
              some (.ok (edited,
                { digest := some (fileDigest library edited)
                  linesBefore := some starts.length
                  linesAfter := some (linesAfter edited) }))

/-- The file that a path leads to.  What symbolic links lead to is the
kernel's. -/
def resolveFile (followed : Workspace → Path → Except IoError Path)
    (workspace : Workspace) (path : Path) : Except IoError Path :=
  match path.dropLast.foldlM (enter workspace) [] with
  | .error .loop => followed workspace path
  | .error error => .error error
  | .ok directory =>
      let name := directory ++ [path.getLastD []]
      match workspace.links.lookup name with
      | none => .error .noEntry
      | some .symlink => followed workspace path
      | some _ => .ok name

variable (followed : Workspace → Path → Except IoError Path)

/-- Everything up to `read_to_end`. -/
def readForEdit (workspace : Workspace) (path : Text) : FileResult Bytes := do
  validateRelative path false
  match faults.fails .openFile with
  | some error => .error (openFailure library error (components path))
  | none =>
      match resolveFile followed workspace (components path) with
      | .error error => .error (openFailure library error (components path))
      | .ok name =>
          match faults.fails .stat with
          | some error => .error (ioFailure error "Read file metadata")
          | none =>
              match workspace.content name with
              | none =>
                  .error (.coded "INVALID_ARGUMENT"
                    "FileEdit requires a regular file")
              | some bytes =>
                  if maxEditFileBytes < bytes.length then
                    .error (.coded "FILE_TOO_LARGE"
                      "File exceeds edit size limit")
                  else
                    match faults.fails .read with
                    | some error =>
                        .error (ioFailure error "Read workspace file for edit")
                    | none => .ok bytes

/-- The name of the staging file, whose suffix is unique. -/
def editName (suffix : Text) : Text :=
  ".electrosphere-edit-".toList ++ suffix ++ ".tmp".toList

/-- The calls on the staging file, up to the first that fails. -/
def publishEdit (workspace : Workspace) (file : Nat) (temporary target : Path)
    (bytes : Bytes) : FileResult Unit × Workspace :=
  match faults.fails .changeMode with
  | some error =>
      (.error (ioFailure error "Preserve edited file mode"), workspace)
  | none =>
      match writeAll faults workspace file bytes with
      | (some error, workspace) =>
          (.error (ioFailure error "Write edited file"), workspace)
      | (none, workspace) =>
          match faults.fails .flush with
          | some error =>
              (.error (ioFailure error "Flush edited file"), workspace)
          | none =>
              match faults.fails .sync with
              | some error =>
                  (.error (ioFailure error "Sync edited file"), workspace)
              | none =>
                  match renameAt faults workspace temporary target with
                  | (some error, workspace) =>
                      (.error (ioFailure error "Publish edited file"),
                        workspace)
                  | (none, workspace) =>
                      match faults.fails .syncDirectory with
                      | some error =>
                          (.error (ioFailure error
                            "Sync edited file directory"), workspace)
                      | none => (.ok (), workspace)

def atomicReplace (workspace : Workspace) (suffix path : Text)
    (bytes : Bytes) : FileResult Unit × Workspace :=
  match openParent library faults workspace path false with
  | (.error failure, workspace) => (.error failure, workspace)
  | (.ok (parent, targetName), workspace) =>
      match rejectSymlinkTarget faults workspace (parent ++ [targetName]) with
      | .error failure => (.error failure, workspace)
      | .ok _ =>
          let temporary := parent ++ [editName suffix]
          match createAt faults workspace temporary with
          | .error error =>
              (.error (ioFailure error "Create edit staging file"), workspace)
          | .ok (file, workspace) =>
              match publishEdit faults workspace file temporary
                  (parent ++ [targetName]) bytes with
              | (.ok _, workspace) => (.ok (), workspace)
              | (.error failure, workspace) =>
                  (.error failure, (unlinkAt faults workspace temporary).2)

def fileEdit (workspace : Workspace) (suffix path expectedDigest : Text)
    (edits : List EditSpec) :
    Option (FileResult FileResponse) × Workspace :=
  match readForEdit library faults followed workspace path with
  | .error failure => (some (.error failure), workspace)
  | .ok bytes =>
      match editBytes library bytes expectedDigest edits with
      | none => (none, workspace)
      | some (.error failure) => (some (.error failure), workspace)
      | some (.ok (edited, response)) =>
          match atomicReplace library faults workspace suffix path edited with
          | (.error failure, workspace) => (some (.error failure), workspace)
          | (.ok _, workspace) => (some (.ok response), workspace)

end Service

end Electrosphere.Agent
