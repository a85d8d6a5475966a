import Electrosphere.Agent.FileRead
import Electrosphere.Foundation.Volume

/-!
# Writing files in the guest agent

A write is a transfer: `fileWriteBegin` opens a temporary file next to the
target, `fileWriteChunk` writes to it, and `fileWriteCommit` gives it the name
of the target.  Every system call may fail.
-/

namespace Electrosphere.Agent

open Foundation

def maxFileChunkBytes : Nat := 384 * 1024

def maxFileWriteBytes : Nat := 256 * 1024 * 1024

def maxPendingWrites : Nat := 8

/-! ## System calls -/

/-- A path below the workspace root, component by component. -/
abbrev Path := List Text

abbrev Workspace := Volume Path UInt8

inductive IoError where
  | noEntry
  | noSpace
  | quota
  | noSystemCall
  | alreadyExists
  | notDirectory
  | isDirectory
  | loop
  | crossDevice
  | other (description : String)
  deriving DecidableEq

def IoError.description : IoError → String
  | .noEntry => "No such file or directory (os error 2)"
  | .noSpace => "No space left on device (os error 28)"
  | .quota => "Disk quota exceeded (os error 122)"
  | .noSystemCall => "Function not implemented (os error 38)"
  | .alreadyExists => "File exists (os error 17)"
  | .notDirectory => "Not a directory (os error 20)"
  | .isDirectory => "Is a directory (os error 21)"
  | .loop => "Too many levels of symbolic links (os error 40)"
  | .crossDevice => "Invalid cross-device link (os error 18)"
  | .other description => description

def ioFailure (error : IoError) (context : String) : FileFailure :=
  match error with
  | .noEntry => .coded "FILE_NOT_FOUND" context
  | .noSpace | .quota => .coded "STORAGE_EXHAUSTED" context
  | .noSystemCall =>
      .coded "BACKEND_UNAVAILABLE" "openat2 is unavailable on this guest kernel"
  | error => .backend (context ++ ": " ++ error.description)

inductive Syscall where
  | duplicate
  | makeDirectory (path : Path)
  | openDirectory (path : Path)
  | metadata
  | create
  | write
  | flush
  | sync
  | rename
  | syncDirectory
  | unlink
  | openFile
  | stat
  | read
  | changeMode
  deriving DecidableEq

/-- The system calls that fail for reasons of their own, and how much a
failing write has written. -/
structure Faults where
  fails : Syscall → Option IoError
  written : Nat := 0

def Faults.none : Faults where
  fails _ := Option.none

def mkdirAt (faults : Faults) (workspace : Workspace) (path : Path) :
    Option IoError × Workspace :=
  match faults.fails (.makeDirectory path) with
  | some error => (some error, workspace)
  | none =>
      match workspace.links.lookup path with
      | some _ => (some .alreadyExists, workspace)
      | none => (none, workspace.makeDirectory path)

/-- One component of a path that no symbolic link may be part of. -/
def enter (workspace : Workspace) (directory : Path) (component : Text) :
    Except IoError Path :=
  let path := directory ++ [component]
  match workspace.links.lookup path with
  | some .directory => .ok path
  | some .symlink => .error .loop
  | some _ => .error .notDirectory
  | none => .error .noEntry

/-- `openat` with `O_CREAT | O_EXCL`. -/
def createAt (faults : Faults) (workspace : Workspace) (path : Path) :
    Except IoError (Nat × Workspace) :=
  match faults.fails .create with
  | some error => .error error
  | none =>
      match workspace.links.lookup path with
      | some _ => .error .alreadyExists
      | none => .ok (workspace.inodes.length, workspace.create path)

def writeAll (faults : Faults) (workspace : Workspace) (file : Nat)
    (data : Bytes) : Option IoError × Workspace :=
  match faults.fails .write with
  | some error =>
      (some error, workspace.append file (data.take faults.written))
  | none => (none, workspace.append file data)

def renameAt (faults : Faults) (workspace : Workspace)
    (source target : Path) : Option IoError × Workspace :=
  match faults.fails .rename with
  | some error => (some error, workspace)
  | none =>
      match workspace.links.lookup source with
      | none => (some .noEntry, workspace)
      | some _ =>
          if workspace.links.lookup target = some .directory then
            (some .isDirectory, workspace)
          else (none, workspace.rename source target)

def unlinkAt (faults : Faults) (workspace : Workspace) (path : Path) :
    Option IoError × Workspace :=
  match faults.fails .unlink with
  | some error => (some error, workspace)
  | none =>
      match workspace.links.lookup path with
      | none => (some .noEntry, workspace)
      | some .directory => (some .isDirectory, workspace)
      | some _ => (none, workspace.unlink path)

/-! ## The service -/

/-- What decoding the text of a chunk yields. -/
structure ChunkDecoder where
  decode : Text → Option Bytes
  decode_encode : ∀ bytes, decode (Base64.encodeStandard bytes) = some bytes

/-- The decoder that accepts only what the encoder writes. -/
def ChunkDecoder.canonical : ChunkDecoder where
  decode text :=
    if Base64.encodeStandard (Base64.decodeStandard text) = text then
      some (Base64.decodeStandard text)
    else none
  decode_encode bytes := by
    rw [Base64.decodeStandard_encodeStandard, if_pos rfl]

/-- What the transfers take from libraries. -/
structure WriteLibrary where
  sha256 : Bytes → Digest
  chunk : ChunkDecoder
  /-- A path between quotes. -/
  quoted : Text → String

structure PendingFileWrite where
  file : Nat
  parent : Path
  temporaryName : Text
  targetName : Text
  bytes : Nat
  /-- What has been hashed so far. -/
  hasher : Bytes

def PendingFileWrite.temporary (pending : PendingFileWrite) : Path :=
  pending.parent ++ [pending.temporaryName]

def PendingFileWrite.target (pending : PendingFileWrite) : Path :=
  pending.parent ++ [pending.targetName]

/-- The part of `FileService` that writes. -/
structure FileWriter where
  workspace : Workspace
  writes : Table Text PendingFileWrite

/-- The components of a path. -/
def components (path : Text) : Path := path.splitOn '/'

/-- The directory of a path, and the name in it. -/
def splitParent (path : Text) : Path × Text :=
  ((components path).dropLast, (components path).getLastD [])

def temporaryName (transferId : Text) : Text :=
  ".electrosphere-".toList ++ transferId ++ ".tmp".toList

/-- Where a transfer collects what is to be written to a path. -/
def temporaryPath (transferId path : Text) : Path :=
  (splitParent path).1 ++ [temporaryName transferId]

def validTransferId (value : Text) : Bool :=
  value ≠ [] && decide ((Utf8.encode value).length ≤ 128) &&
    value.all fun character =>
      character.isAlphanum || character == '-' || character == '_' ||
        character == '.'

section Service

variable (library : WriteLibrary) (faults : Faults)

def openFailure (error : IoError) (path : Path) : FileFailure :=
  if error = .crossDevice ∨ error = .loop then
    .coded "PATH_OUTSIDE_WORKSPACE"
      "Path resolves outside the workspace or through an unsafe symlink"
  else
    ioFailure error
      ("Open workspace path " ++ library.quoted (['/'].intercalate path))

/-- `openat2` for a directory, without symbolic links. -/
def openDirectory (workspace : Workspace) (directory path : Path) :
    FileResult Path :=
  match faults.fails (.openDirectory (directory ++ path)) with
  | some error => .error (openFailure library error path)
  | none =>
      match path.foldlM (enter workspace) directory with
      | .error error => .error (openFailure library error path)
      | .ok opened => .ok opened

/-- The loop of `open_parent` that makes missing directories. -/
def openParents (workspace : Workspace) (current : Path) :
    List Text → FileResult Path × Workspace
  | [] => (.ok current, workspace)
  | component :: remaining =>
      match mkdirAt faults workspace (current ++ [component]) with
      | (error, workspace) =>
          match error.filter (· ≠ .alreadyExists) with
          | some error =>
              (.error (ioFailure error "Create workspace parent directory"),
                workspace)
          | none =>
              match openDirectory library faults workspace current
                  [component] with
              | .error failure => (.error failure, workspace)
              | .ok opened => openParents workspace opened remaining

def openParent (workspace : Workspace) (path : Text) (createParents : Bool) :
    FileResult (Path × Text) × Workspace :=
  match validateRelative path false with
  | .error failure => (.error failure, workspace)
  | .ok _ =>
      let (parent, name) := splitParent path
      if createParents = false ∧ parent ≠ [] then
        match openDirectory library faults workspace [] parent with
        | .error failure => (.error failure, workspace)
        | .ok opened => (.ok (opened, name), workspace)
      else
        match faults.fails .duplicate with
        | some error =>
            (.error (ioFailure error "Duplicate workspace directory"),
              workspace)
        | none =>
            match openParents library faults workspace [] parent with
            | (.error failure, workspace) => (.error failure, workspace)
            | (.ok opened, workspace) => (.ok (opened, name), workspace)

def rejectSymlinkTarget (workspace : Workspace) (path : Path) :
    FileResult Unit :=
  let found : Except IoError Linked :=
    match faults.fails .metadata with
    | some error => .error error
    | none => (workspace.links.lookup path).elim (.error .noEntry) .ok
  match found with
  | .ok .symlink =>
      .error (.coded "PATH_OUTSIDE_WORKSPACE" "Destination cannot be a symlink")
  | .ok _ => .ok ()
  | .error error =>
      let failure := ioFailure error "Read workspace entry metadata"
      if failure.code = some "FILE_NOT_FOUND" then .ok () else .error failure

namespace FileWriter

def fileWriteBegin (writer : FileWriter) (transferId path : Text)
    (createParents : Bool) : FileResult FileResponse × FileWriter :=
  if validTransferId transferId = false then
    (.error (.coded "INVALID_ARGUMENT" "Transfer ID is invalid"), writer)
  else if (writer.writes.lookup transferId).isSome then
    (.error (.coded "INVALID_ARGUMENT" "Transfer ID already exists"), writer)
  else if maxPendingWrites ≤ writer.writes.entries.length then
    (.error (.coded "TRANSFER_CAPACITY" "Pending file write capacity reached"),
      writer)
  else
    match openParent library faults writer.workspace path createParents with
    | (.error failure, workspace) => (.error failure, { writer with workspace })
    | (.ok (parent, targetName), workspace) =>
        match rejectSymlinkTarget faults workspace (parent ++ [targetName]) with
        | .error failure => (.error failure, { writer with workspace })
        | .ok _ =>
            match createAt faults workspace
                (parent ++ [temporaryName transferId]) with
            | .error error =>
                (.error (ioFailure error "Create temporary workspace file"),
                  { writer with workspace })
            | .ok (file, workspace) =>
                (.ok {},
                  { workspace
                    writes := writer.writes.insert transferId
                      { file
                        parent
                        temporaryName := temporaryName transferId
                        targetName
                        bytes := 0
                        hasher := [] } })

def abortWrite (writer : FileWriter) (transferId : Text) :
    FileResult Unit × FileWriter :=
  match writer.writes.lookup transferId with
  | none => (.ok (), writer)
  | some pending =>
      let (error, workspace) :=
        unlinkAt faults writer.workspace pending.temporary
      let writer := { workspace, writes := writer.writes.erase transferId }
      match error.filter (· ≠ .noEntry) with
      | some error =>
          (.error (ioFailure error "Abort workspace file write"), writer)
      | none => (.ok (), writer)

def fileWriteChunk (writer : FileWriter) (transferId data : Text) :
    FileResult FileResponse × FileWriter :=
  match library.chunk.decode data with
  | none =>
      (.error (.coded "INVALID_ARGUMENT" "File write chunk is not valid base64"),
        writer)
  | some decoded =>
      if maxFileChunkBytes < decoded.length then
        (.error (.coded "INVALID_ARGUMENT"
          "File write chunk exceeds protocol limit"), writer)
      else
        match writer.writes.lookup transferId with
        | none =>
            (.error (.coded "TRANSFER_NOT_FOUND"
              "File write transfer not found"), writer)
        | some pending =>
            let next := min (pending.bytes + decoded.length) usizeMax
            if maxFileWriteBytes < next then
              (.error (.coded "FILE_TOO_LARGE"
                "File write exceeds size limit"),
                (writer.abortWrite faults transferId).2)
            else
              match writeAll faults writer.workspace pending.file decoded with
              | (some error, workspace) =>
                  (.error (ioFailure error "Write workspace file chunk"),
                    { writer with workspace })
              | (none, workspace) =>
                  (.ok {},
                    { workspace
                      writes := writer.writes.insert transferId
                        { pending with
                          hasher := pending.hasher ++ decoded
                          bytes := next } })

/-- The calls that publish a transfer, up to the first that fails. -/
def publish (workspace : Workspace) (pending : PendingFileWrite) :
    FileResult FileResponse × Workspace :=
  match faults.fails .flush with
  | some error => (.error (ioFailure error "Flush workspace file"), workspace)
  | none =>
      match faults.fails .sync with
      | some error =>
          (.error (ioFailure error "Sync workspace file"), workspace)
      | none =>
          match renameAt faults workspace pending.temporary pending.target with
          | (some error, workspace) =>
              (.error (ioFailure error "Publish workspace file"), workspace)
          | (none, workspace) =>
              match faults.fails .syncDirectory with
              | some error =>
                  (.error (ioFailure error "Sync workspace directory"),
                    workspace)
              | none =>
                  (.ok
                    { size := some pending.bytes
                      digest :=
                        some (library.sha256 pending.hasher).text.toList },
                    workspace)

def fileWriteCommit (writer : FileWriter) (transferId : Text) :
    FileResult FileResponse × FileWriter :=
  match writer.writes.lookup transferId with
  | none =>
      (.error (.coded "TRANSFER_NOT_FOUND" "File write transfer not found"),
        writer)
  | some pending =>
      let writes := writer.writes.erase transferId
      match publish library faults writer.workspace pending with
      | (.ok response, workspace) => (.ok response, { workspace, writes })
      | (.error failure, workspace) =>
          (.error failure,
            { workspace := (unlinkAt faults workspace pending.temporary).2
              writes })

def fileWriteAbort (writer : FileWriter) (transferId : Text) :
    FileResult FileResponse × FileWriter :=
  match writer.abortWrite faults transferId with
  | (.error failure, writer) => (.error failure, writer)
  | (.ok _, writer) => (.ok {}, writer)

end FileWriter

end Service

end Electrosphere.Agent
