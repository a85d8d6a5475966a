import Electrosphere.Agent.FileWrite
import Electrosphere.Foundation.SystemCalls

/-!
# `file_remove` of the guest agent

An entry is renamed to a name that is not used otherwise, and then removed
with what is below it, one directory inside the other.  Names are bytes, and
the agent needs the permissions that the owner of a directory has.  Every
directory on the way down takes two descriptors.  Times are left out.
-/

namespace Electrosphere.Agent

open Foundation Foundation.FileSystem

namespace IoError

/-- `EACCES` -/
def accessDenied : IoError := .other "Permission denied (os error 13)"

/-- `ENOTEMPTY` -/
def notEmpty : IoError := .other "Directory not empty (os error 39)"

/-- `EMFILE` -/
def tooManyFiles : IoError := .other "Too many open files (os error 24)"

/-- `ENAMETOOLONG` -/
def nameTooLong : IoError := .other "File name too long (os error 36)"

end IoError

/-! ## System calls -/

section Calls

variable (process : FileSystem.Process) (fs : FileSystem) (directory : Location)
  (name : Name)

/-- `S_IRUSR` -/
def mayRead (mode : Nat) : Bool := mode.testBit 8

/-- Whether the names in a directory can be listed. -/
def mayList : Bool :=
  process.privileged ||
    match fs.node directory with
    | some (.directory mode _) => mayRead mode
    | _ => false

/-- What a name stands for, which no link is followed for. -/
def lookupAt : Except IoError FileSystem.Node :=
  if process.mayEnter fs directory = false then .error .accessDenied
  else
    match fs.node (directory ++ [name]) with
    | some node => .ok node
    | none =>
        if process.refuses (directory ++ [name]) then .error .nameTooLong
        else .error .noEntry

/-- One name of a path that no symbolic link may be part of. -/
def enterAt : Except IoError Location :=
  match lookupAt process fs directory name with
  | .error error => .error error
  | .ok (.directory _ _) => .ok (directory ++ [name])
  | .ok (.symlink _ _) => .error .loop
  | .ok _ => .error .notDirectory

/-- `openat2` for a directory, without symbolic links. -/
def openDirectoryAt (names : List Name) : Except IoError Location :=
  match names.foldlM (enterAt process fs) directory with
  | .error error => .error error
  | .ok location =>
      if mayList process fs location then .ok location
      else .error .accessDenied

/-- `renameat2` with `RENAME_NOREPLACE` within one directory. -/
def renameNoReplaceAt (target : Name) : Except IoError FileSystem :=
  match lookupAt process fs directory name with
  | .error error => .error error
  | .ok _ =>
      if (fs.node (directory ++ [target])).isSome then .error .alreadyExists
      else if process.mayChange fs directory = false then .error .accessDenied
      else if process.refuses (directory ++ [target]) then .error .nameTooLong
      else if free : fs.Free directory target then
        .ok (fs.move (directory ++ [name]) directory target (by simp) free
          (not_prefix_append directory name))
      else .error .noEntry

/-- `unlinkat`, with or without `AT_REMOVEDIR`. -/
def removeAt (asDirectory : Bool) : Except IoError FileSystem :=
  match lookupAt process fs directory name with
  | .error error => .error error
  | .ok node =>
      if process.mayChange fs directory = false then .error .accessDenied
      else if node.isDirectory && !asDirectory then .error .isDirectory
      else if asDirectory && !node.isDirectory then .error .notDirectory
      else if asDirectory && !(fs.children (directory ++ [name])).isEmpty then
        .error .notEmpty
      else .ok (fs.remove (directory ++ [name]) (by simp))

end Calls

/-! ## The service -/

/-- The part of `FileService` that removes, and what it takes from the kernel
and from libraries. -/
structure RemovalService where
  process : FileSystem.Process
  /-- The workspace. -/
  root : Location
  /-- How many descriptors the agent may still open. -/
  descriptors : Nat
  /-- What `read_dir` yields, in the order of the directory. -/
  names : FileSystem → Location → List Name
  names_perm : ∀ fs location, (names fs location).Perm (fs.children location)
  /-- The error of the last `fsync`, if it fails. -/
  syncs : Option IoError
  library : WriteLibrary
  uniqueSuffix : Text

/-- The outcome of a removal, and what it leaves. -/
abbrev Removal (α : Type) := FileResult α × FileSystem

/-- The loop over the names in a directory, each of which is converted to a
text that may stand for other bytes. -/
def removeChildren (remove : FileSystem → Text → Removal Unit) :
    FileSystem → List Name → Removal Unit
  | fs, [] => (.ok (), fs)
  | fs, child :: children =>
      match remove fs (Utf8.decodeLossy child) with
      | (.error failure, fs) => (.error failure, fs)
      | (.ok _, fs) => removeChildren remove fs children

namespace RemovalService

variable (service : RemovalService)

def detachedName : Text :=
  ".electrosphere-remove-".toList ++ service.uniqueSuffix ++ ".tmp".toList

def openParent (fs : FileSystem) (path : Text) :
    FileResult (Location × Text) := do
  validateRelative path false
  let (parent, name) := splitParent path
  if service.descriptors = 0 then
    if parent = [] then
      .error (ioFailure .tooManyFiles "Duplicate workspace directory")
    else .error (openFailure service.library .tooManyFiles parent)
  else if parent = [] then .ok (service.root, name)
  else
    match openDirectoryAt service.process fs service.root
        (parent.map Utf8.encode) with
    | .error error => .error (openFailure service.library error parent)
    | .ok opened => .ok (opened, name)

def removeDetached (descriptors : Nat) (fs : FileSystem) (parent : Location)
    (name : Text) : Removal Unit :=
  match lookupAt service.process fs parent (Utf8.encode name) with
  | .error error =>
      (.error (ioFailure error "Read workspace entry metadata"), fs)
  | .ok node =>
      if node.isDirectory = false then
        match removeAt service.process fs parent (Utf8.encode name) false with
        | .error error =>
            (.error (ioFailure error "Remove workspace file"), fs)
        | .ok fs => (.ok (), fs)
      else
        match descriptors with
        | 0 =>
            (.error (openFailure service.library .tooManyFiles [name]), fs)
        | descriptors + 1 =>
            match openDirectoryAt service.process fs parent
                [Utf8.encode name] with
            | .error error =>
                (.error (openFailure service.library error [name]), fs)
            | .ok directory =>
                match descriptors with
                | 0 =>
                    (.error (ioFailure .tooManyFiles
                      "Read workspace directory for removal"), fs)
                | descriptors + 1 =>
                    match removeChildren
                        (fun fs child =>
                          removeDetached descriptors fs directory child)
                        fs (service.names fs directory) with
                    | (.error failure, fs) => (.error failure, fs)
                    | (.ok _, fs) =>
                        match removeAt service.process fs parent
                            (Utf8.encode name) true with
                        | .error error =>
                            (.error (ioFailure error
                              "Remove workspace directory"), fs)
                        | .ok fs => (.ok (), fs)

def fileRemove (fs : FileSystem) (path : Text) : Removal FileResponse :=
  match validateRelative path false with
  | .error failure => (.error failure, fs)
  | .ok _ =>
      match service.openParent fs path with
      | .error failure => (.error failure, fs)
      | .ok (parent, name) =>
          match lookupAt service.process fs parent (Utf8.encode name) with
          | .error error =>
              (.error (ioFailure error "Read workspace entry metadata"), fs)
          | .ok _ =>
              match renameNoReplaceAt service.process fs parent
                  (Utf8.encode name) (Utf8.encode service.detachedName) with
              | .error error =>
                  (.error (ioFailure error
                    "Detach workspace entry for removal"), fs)
              | .ok fs =>
                  match service.removeDetached (service.descriptors - 1) fs
                      parent service.detachedName with
                  | (.error failure, fs) => (.error failure, fs)
                  | (.ok _, fs) =>
                      match service.syncs with
                      | some error =>
                          (.error (ioFailure error
                            "Sync removed workspace entry"), fs)
                      | none => (.ok {}, fs)

end RemovalService

end Electrosphere.Agent
