import Electrosphere.Agent.Files
import Mathlib.Data.List.Sort

/-!
# `file_read` of the guest agent

A regular file is read line by line, a directory entry by entry.  The kernel's
answer to `open_existing` and `fstat` is part of the service.
-/

namespace Electrosphere.Agent

open Foundation

def validateRelative (path : Text) (allowRoot : Bool) : FileResult Unit :=
  if path = [] then
    if allowRoot then .ok ()
    else
      .error (.coded "PATH_OUTSIDE_WORKSPACE"
        "Workspace root is not valid for this operation")
  else if path.contains (Char.ofNat 0) || path.head? == some '/' then
    .error (.coded "PATH_OUTSIDE_WORKSPACE" "Path must be workspace-relative")
  else if (path.splitOn '/').any fun component =>
      component == [] || component == ['.'] || component == ['.', '.'] then
    .error (.coded "PATH_OUTSIDE_WORKSPACE" "Path contains an unsafe component")
  else .ok ()

structure DirectoryItem where
  name : Bytes
  kind : Text
  size : Nat
  modifiedAt : Nat

inductive Node where
  /-- The size that `fstat` reports, and what reading yields. -/
  | file (size : Nat) (bytes : Bytes)
  | directory (items : List DirectoryItem)
  | other

structure FileService where
  openExisting : Text → FileResult Node
  sha256 : Bytes → Digest
  readCursor : CursorReader ReadCursor.encode
  directoryCursor : CursorReader DirectoryCursor.encode

structure ReadRequest where
  path : Text
  offset : Option Nat := none
  limit : Option Nat := none
  ranges : Option (List (Nat × Nat)) := none
  cursor : Option Text := none

/-! ## Directories -/

def byPath (left right : Entry) : Prop :=
  byteOrder left.path ≤ byteOrder right.path

instance decidableByPath : DecidableRel byPath := fun left right =>
  inferInstanceAs (Decidable (byteOrder left.path ≤ byteOrder right.path))

def directoryKind : Text := "directory".toList

def fileKind : Text := "file".toList

def DirectoryItem.entry (directory : Text) (item : DirectoryItem) : Entry :=
  let name := Utf8.decodeLossy item.name
  let relative := if directory = [] then name else directory ++ '/' :: name
  { path := if item.kind = directoryKind then relative ++ ['/'] else relative
    kind := item.kind
    size := if item.kind = fileKind then some item.size else none
    modifiedAt := some item.modifiedAt }

/-- The loop of `read_directory` over the entries after the cursor. -/
def readEntries (limit : Nat) (entries : List Entry) :
    List Entry → List Entry
  | [] => entries
  | entry :: remaining =>
      if limit ≤ entries.length then entries
      else
        let response : FileResponse :=
          { entries := some (entries ++ [entry])
            isDirectory := some true, truncated := some false }
        if maxReadResponseBytes < response.encodedSize then entries
        else readEntries limit (entries ++ [entry]) remaining

def FileService.readDirectory (service : FileService) (path : Text)
    (items : List DirectoryItem) (limit : Nat) (cursor : Option Text) :
    FileResult FileResponse :=
  if limit = 0 ∨ 10000 < limit then
    .error (.coded "INVALID_ARGUMENT" "Directory read limit is invalid")
  else do
    let cursor ← cursor.mapM service.directoryCursor.decodeCursor
    let all := (items.map (DirectoryItem.entry path)).insertionSort byPath
    let remaining := all.filter fun entry =>
      cursor.all fun value =>
        decide (byteOrder value.path < byteOrder entry.path)
    let entries := readEntries limit [] remaining
    let truncated := decide (entries.length < remaining.length)
    .ok
      { entries := some entries
        isDirectory := some true
        truncated := some truncated
        nextCursor :=
          if truncated then
            entries.getLast?.map fun entry =>
              encodeCursor (DirectoryCursor.encode { path := entry.path })
          else none }

/-! ## Regular files -/

def byRange (left right : Nat × Nat) : Prop :=
  left.1 < right.1 ∨ left.1 = right.1 ∧ left.2 ≤ right.2

instance decidableByRange : DecidableRel byRange := fun left right =>
  inferInstanceAs
    (Decidable (left.1 < right.1 ∨ left.1 = right.1 ∧ left.2 ≤ right.2))

instance totalByRange : Std.Total byRange where
  total left right := by
    unfold byRange
    omega

instance transByRange : IsTrans (Nat × Nat) byRange where
  trans left middle right first second := by
    unfold byRange at *
    omega

def covers (ranges : List (Nat × Nat)) (number : Nat) : Bool :=
  ranges.any fun range => decide (range.1 ≤ number ∧ number ≤ range.2)

def selects (ranges : List (Nat × Nat)) (number : Nat) : Bool :=
  if ranges.isEmpty then true else covers ranges number

/-- The answer that is tried for its size. -/
def readCandidate (size : Nat) (lines : List Text) : FileResponse :=
  { lines := some lines, size := some size, truncated := some false }

/-- The loop over the lines of the file, `number` of which are read. -/
def readLines (ranges : List (Nat × Nat)) (first maximum size : Nat) :
    Nat → List Text → Option Nat → List Bytes →
      FileResult (List Text × Option Nat)
  | _, returned, nextLine, [] => .ok (returned, nextLine)
  | number, returned, nextLine, buffer :: rest =>
      if number + 1 < first then
        readLines ranges first maximum size (number + 1) returned nextLine rest
      else if selects ranges (number + 1) = false then
        readLines ranges first maximum size (number + 1) returned nextLine rest
      else if maximum ≤ returned.length then
        readLines ranges first maximum size (number + 1) returned
          (nextLine.or (some (number + 1))) rest
      else
        match fromUtf8 buffer with
        | none =>
            .error (.coded "INVALID_ARGUMENT" "File is not valid UTF-8")
        | some line =>
            if maxReadResponseBytes <
                (readCandidate size (returned ++ [line])).encodedSize then
              readLines ranges first maximum size (number + 1) returned
                (nextLine.or (some (number + 1))) rest
            else
              readLines ranges first maximum size (number + 1)
                (returned ++ [line]) nextLine rest

def firstLine (ranges : List (Nat × Nat)) (offset cursorLine : Option Nat) :
    Nat :=
  cursorLine.getD
    (if ranges.isEmpty then offset.getD 1
    else (ranges.head?.map Prod.fst).getD 1)

def maximumLines (ranges : List (Nat × Nat)) (limit : Option Nat) : Nat :=
  if ranges.isEmpty then limit.getD 200 else usizeMax

def FileService.readText (service : FileService) (request : ReadRequest)
    (size : Nat) (bytes : Bytes) : FileResult FileResponse :=
  let requested := request.ranges.getD []
  if requested.any fun range =>
      decide (range.1 = 0) || decide (range.2 < range.1) then
    .error (.coded "INVALID_ARGUMENT" "Line range is invalid")
  else do
    let ranges := requested.insertionSort byRange
    let cursor ← request.cursor.mapM service.readCursor.decodeCursor
    let first := firstLine ranges request.offset
      (cursor.map ReadCursor.nextLine)
    let maximum := maximumLines ranges request.limit
    if first = 0 then
      .error (.coded "INVALID_ARGUMENT" "Line offset must be positive")
    else if maximum = 0 then
      .error (.coded "INVALID_ARGUMENT" "Line limit must be positive")
    else do
      let (returned, nextLine) ←
        readLines ranges first maximum size 0 [] none (byteLines bytes)
      if bytes.length ≠ size then
        .error (.backend "File changed while it was being read")
      else
        .ok
          { lines := some returned
            size := some bytes.length
            digest := some (service.sha256 bytes).text.toList
            nextOffset := if ranges.isEmpty then nextLine else none
            truncated := some nextLine.isSome
            nextCursor :=
              if ranges.isEmpty then none
              else
                nextLine.map fun value =>
                  encodeCursor (ReadCursor.encode { nextLine := value }) }

def FileService.fileRead (service : FileService) (request : ReadRequest) :
    FileResult FileResponse := do
  validateRelative request.path true
  if request.ranges.isSome && (request.offset.isSome || request.limit.isSome)
  then
    .error (.coded "INVALID_ARGUMENT"
      "ranges cannot be combined with offset or limit")
  else do
    match ← service.openExisting request.path with
    | .directory items =>
        if request.ranges.isSome || request.offset.isSome then
          .error (.coded "INVALID_ARGUMENT"
            "Directory reads do not accept line offsets or ranges")
        else
          service.readDirectory request.path items
            (request.limit.getD 1000) request.cursor
    | .other =>
        .error (.coded "INVALID_ARGUMENT"
          "FileRead requires a regular file or directory")
    | .file size bytes => service.readText request size bytes

end Electrosphere.Agent
