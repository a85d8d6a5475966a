import Electrosphere.Foundation.Effects
import Electrosphere.Foundation.Rounding
import Electrosphere.Foundation.Table
import Electrosphere.Foundation.TreeChanges
import Electrosphere.Storage.CfsExport
import Mathlib.Data.Rat.Floor

/-!
# Extracting an archive

`extractCfs` reads one entry after the other and makes it at once, below a
staging directory that takes the place of the destination in the end.  The
system gets absolute paths.
-/

namespace Electrosphere.Cfs

open Foundation FileSystem Workspace

/-! ## Decoding -/

/-- A number read from a buffer, which must hold it. -/
def readNumber (width : Nat) (buffer : Bytes) (offset : Nat) :
    Except Thrown Nat :=
  if offset + width ≤ buffer.length then
    .ok (ofBigEndian ((buffer.drop offset).take width))
  else .error outOfRange

/-- `subarray`, which cuts its bounds to the buffer. -/
def subarray (buffer : Bytes) (start stop : Nat) : Bytes :=
  (buffer.drop start).take (stop - start)

structure EntryHeader where
  path : Text
  type : Nat
  mode : Nat
  mtimeNs : Nat
  payloadLength : Nat
  deriving DecidableEq

/-- `Number.MAX_SAFE_INTEGER`. -/
def maxSafeInteger : Nat := 2 ^ 53 - 1

def readHeader (buffer : Bytes) (offset : Nat) :
    Except Thrown (EntryHeader × Nat) :=
  if buffer.length < offset + 4 then
    .error (.coded .backendError "Truncated CFS path length")
  else do
    let pathLength ← readNumber 4 buffer offset
    let offset := offset + 4
    if buffer.length < offset + pathLength + 21 then
      .error (.coded .backendError "Truncated CFS entry")
    else do
      let path := Utf8.decodeLossy (subarray buffer offset (offset + pathLength))
      let offset := offset + pathLength
      let type := (buffer[offset]?).elim 0 UInt8.toNat
      let mode ← readNumber 4 buffer (offset + 1)
      let mtimeNs ← readNumber 8 buffer (offset + 5)
      let payloadLength ← readNumber 8 buffer (offset + 13)
      if maxSafeInteger < payloadLength then
        .error (.coded .snapshotLimit "CFS payload is too large")
      else if mode &&& 0o6000 ≠ 0 then
        .error (.coded .snapshotUnsupportedEntry
          ("setuid/setgid entry rejected: " ++ String.ofList path))
      else do
        validateRelativePath path
        return ({ path, type, mode, mtimeNs, payloadLength }, offset + 21)

def safeDestination (root : List Text) (relativePath : Text) :
    Except Thrown (List Text) :=
  let destination := Workspace.resolve root relativePath
  if inside root destination then .ok destination
  else .error (.coded .snapshotUnsupportedEntry "CFS path escapes workspace")

abbrev EntryTypes := Table Text Nat

/-- The loop of `assertNoSymlinkAncestor` over the parts of a path. -/
def noSymlinkAncestor (relativePath : Text) (entryTypes : EntryTypes) :
    List Text → List Text → Except Thrown Unit
  | _, [] => .ok ()
  | above, part :: parts =>
      let ancestor := above ++ [part]
      if entryTypes.lookup (joinPath ancestor) = some typeSymlink then
        .error (.coded .snapshotUnsupportedEntry
          ("CFS path traverses symlink: " ++ String.ofList relativePath))
      else noSymlinkAncestor relativePath entryTypes ancestor parts

def assertNoSymlinkAncestor (relativePath : Text) (entryTypes : EntryTypes) :
    Except Thrown Unit :=
  noSymlinkAncestor relativePath entryTypes []
    (relativePath.splitOn '/').dropLast

/-- `Number(mtimeNs) / 1_000_000_000`, in doubles: both steps round to 53
digits. -/
def seconds (mtimeNs : Nat) : ℚ :=
  roundTo 53 (roundTo 53 (mtimeNs : ℚ) / 1000000000)

/-! ## The file system -/

abbrev Disk (α : Type) := Effect FileSystem Thrown α

/-- What extraction takes from its surroundings. -/
structure Extractor where
  process : Process
  /-- The time that `utimes` stores for a number of seconds. -/
  stores : ℚ → Timestamp
  remnants : Remnants
  /-- `dirname(destination)` -/
  parent : List Text
  /-- `basename(destination)` -/
  name : Text
  /-- `crypto.randomUUID()` -/
  uuid : Text
  validName : ValidText name
  validStaging : ValidText (".staging-".toList ++ uuid)
  different : name ≠ ".staging-".toList ++ uuid

def errnoText : Errno → String
  | .noEntry => "ENOENT: no such file or directory"
  | .alreadyExists => "EEXIST: file already exists"
  | .notDirectory => "ENOTDIR: not a directory"
  | .accessDenied => "EACCES: permission denied"
  | .notPermitted => "EPERM: operation not permitted"
  | .nameTooLong => "ENAMETOOLONG: name too long"
  | .tooManyLinks => "ELOOP: too many symbolic links encountered"

def pathText (path : List Text) : String :=
  "'/" ++ String.ofList (joinPath path) ++ "'"

def systemError (errno : Errno) (syscall operands : String) : Thrown :=
  .plain (errnoText errno ++ ", " ++ syscall ++ " " ++ operands)

def syscall (name operands : String)
    (operation : FileSystem → Except Errno FileSystem) : Disk Unit :=
  Effect.change fun fs =>
    (operation fs).mapError (systemError · name operands)

namespace Extractor

variable (extractor : Extractor)

/-- What becomes of the time in a header. -/
def time (mtimeNs : Nat) : Timestamp := extractor.stores (seconds mtimeNs)

def destination : List Text := extractor.parent ++ [extractor.name]

/-- `.staging-${crypto.randomUUID()}` beside the destination. -/
def staging : List Text :=
  extractor.parent ++ [".staging-".toList ++ extractor.uuid]

def makeDirectory (path : List Text) (mode : Nat) : Disk Unit :=
  syscall "mkdir" (pathText path) fun fs =>
    mkdir extractor.process fs [] (encodePath path) mode

/-- One directory of a recursive `mkdir` for `goal`, which may be there already.
Something else is an error, on the way as on the whole path. -/
def ensureDirectory (fs : FileSystem) (goal path : List Name) (mode : Nat) :
    Except Errno FileSystem :=
  match mkdir extractor.process fs [] path mode with
  | .ok made => .ok made
  | .error .alreadyExists =>
      match FileSystem.resolve extractor.process fs true maxLinks [] path with
      | .ok location =>
          if fs.isDirectory location then .ok fs
          else if path = goal then .error .alreadyExists
          else .error .notDirectory
      | .error errno => .error errno
  | .error errno => .error errno

/-- `mkdir` with `recursive`. -/
def makeDirectories (path : List Text) (mode : Nat) : List Text → List Text →
    Disk Unit
  | _, [] => pure ()
  | above, name :: rest => do
      syscall "mkdir" (pathText path) fun fs =>
        extractor.ensureDirectory fs (encodePath path)
          (encodePath (above ++ [name])) mode
      makeDirectories path mode (above ++ [name]) rest

/-- `open` for a new file, then `write`, `sync` and `close`. -/
def writeNewFile (path : List Text) (mode : Nat) (payload : Bytes) :
    Disk Unit := do
  let inode ← (fun fs => (.ok fs.inodes.length, fs) : Disk Nat)
  syscall "open" (pathText path) fun fs =>
    createFile extractor.process fs [] (encodePath path) mode
  Effect.change fun fs => .ok (fs.write inode payload)

def makeSymlink (target : Text) (path : List Text) : Disk Unit :=
  syscall "symlink" ("'" ++ String.ofList target ++ "' -> " ++ pathText path)
    fun fs => FileSystem.symlink extractor.process fs []
      (Utf8.encode target) (encodePath path)

def makeLink (existing path : List Text) : Disk Unit :=
  syscall "link" (pathText existing ++ " -> " ++ pathText path) fun fs =>
    FileSystem.link extractor.process fs [] (encodePath existing)
      (encodePath path)

def changeMode (path : List Text) (mode : Nat) : Disk Unit :=
  syscall "chmod" (pathText path) fun fs =>
    chmod extractor.process fs [] (encodePath path) mode

def changeTimes (path : List Text) (mtimeNs : Nat) : Disk Unit :=
  syscall "utime" (pathText path) fun fs =>
    utimes extractor.process fs [] (encodePath path) (extractor.time mtimeNs)

def changeLinkTimes (path : List Text) (mtimeNs : Nat) : Disk Unit :=
  syscall "lutime" (pathText path) fun fs =>
    lutimes extractor.process fs [] (encodePath path) (extractor.time mtimeNs)

/-- `rm` with `recursive` and `force`. -/
def remove (path : List Text) : Disk Unit := fun fs =>
  match removeTree extractor.process fs (encodePath path) with
  | .ok cleared => (.ok (), cleared)
  | .error (errno, location) =>
      (.error (systemError errno "rm" (pathText path)),
        location.elim fs (extractor.remnants.left fs))

def moveTree (source target : List Text) : Disk Unit :=
  syscall "rename" (pathText source ++ " -> " ++ pathText target) fun fs =>
    renameTree extractor.process fs (encodePath source) (encodePath target)

/-! ## Entries -/

/-- What the loop of `extractCfs` keeps. -/
structure Progress where
  entryTypes : EntryTypes := ∅
  directoryTimes : List (List Text × Nat) := []

/-- The branch of an entry's type. -/
def makeEntry (progress : Progress) (header : EntryHeader) (payload : Bytes)
    (output : List Text) : Disk Progress :=
  if header.type = typeDirectory then do
    extractor.makeDirectory output (header.mode &&& 0o777)
    return { progress with
      directoryTimes := progress.directoryTimes ++ [(output, header.mtimeNs)] }
  else if header.type = typeFile then do
    extractor.writeNewFile output (header.mode &&& 0o777) payload
    return progress
  else if header.type = typeSymlink then do
    let target := Utf8.decodeLossy payload
    if '\x00' ∈ target ∨ target.head? = some '/' then
      Effect.fail (.coded .snapshotUnsupportedEntry
        ("Unsafe symlink target: " ++ String.ofList header.path))
    else if inside extractor.staging
        (Workspace.resolve output.dropLast target) = false then
      Effect.fail (.coded .snapshotUnsupportedEntry
        ("Symlink target escapes workspace: " ++ String.ofList header.path))
    else do
      extractor.makeSymlink target output
      extractor.changeLinkTimes output header.mtimeNs
      return progress
  else if header.type = typeHardlink then do
    let target := Utf8.decodeLossy payload
    Effect.ofExcept (validateRelativePath target)
    if progress.entryTypes.lookup target ≠ some typeFile then
      Effect.fail (.coded .snapshotUnsupportedEntry
        ("Hard-link target is not a prior regular file: " ++
          String.ofList header.path))
    else do
      let existing ← Effect.ofExcept (safeDestination extractor.staging target)
      extractor.makeLink existing output
      return progress
  else
    Effect.fail (.coded .snapshotUnsupportedEntry
      ("Unsupported CFS entry type: " ++ toString header.type))

/-- Modes and times that are set as soon as an entry is there. -/
def setAttributes (header : EntryHeader) (output : List Text) : Disk Unit :=
  if header.type = typeSymlink then pure ()
  else do
    extractor.changeMode output (header.mode &&& 0o777)
    if header.type = typeDirectory then pure ()
    else extractor.changeTimes output header.mtimeNs

def extractEntry (progress : Progress) (header : EntryHeader)
    (payload : Bytes) : Disk Progress := do
  Effect.ofExcept (assertNoSymlinkAncestor header.path progress.entryTypes)
  let output ← Effect.ofExcept (safeDestination extractor.staging header.path)
  extractor.makeDirectories output.dropLast 0o700 [] output.dropLast
  let progress ← extractor.makeEntry progress header payload output
  extractor.setAttributes header output
  return { progress with
    entryTypes := progress.entryTypes.insert header.path header.type }

/-- The loop of `extractCfs`.  Every entry takes some bytes, so the number of
bytes bounds the number of rounds. -/
def extractEntries (bytes : Bytes) : Nat → Nat → Progress → Disk Progress
  | 0, _, progress => pure progress
  | fuel + 1, offset, progress =>
      if offset < bytes.length then do
        let (header, offset) ← Effect.ofExcept (readHeader bytes offset)
        if bytes.length < offset + header.payloadLength then
          Effect.fail (.coded .backendError "Truncated CFS payload")
        else do
          let payload := subarray bytes offset (offset + header.payloadLength)
          let progress ← extractor.extractEntry progress header payload
          extractEntries bytes fuel (offset + header.payloadLength) progress
      else pure progress

def setDirectoryTimes : List (List Text × Nat) → Disk Unit
  | [] => pure ()
  | (path, mtimeNs) :: rest => do
      extractor.changeTimes path mtimeNs
      setDirectoryTimes rest

/-- The `try` block. -/
def extractStaged (bytes : Bytes) : Disk Unit := do
  let progress ← extractor.extractEntries bytes bytes.length magic.length {}
  extractor.setDirectoryTimes progress.directoryTimes.reverse
  extractor.remove extractor.destination
  extractor.moveTree extractor.staging extractor.destination

/-- `object` is what reading the archive answers. -/
def extractCfs (object : Except Thrown Bytes) : Disk Unit := do
  let bytes ← Effect.ofExcept object
  if bytes.take magic.length ≠ magic then
    Effect.fail (.coded .backendError "Invalid CFS magic")
  else do
    extractor.makeDirectory extractor.staging 0o700
    Effect.handle (extractor.extractStaged bytes) fun error => do
      extractor.remove extractor.staging
      Effect.fail error

def materializeCfs (object : Except Thrown Bytes) : Disk Unit := do
  extractor.makeDirectories extractor.parent 0o700 [] extractor.parent
  extractor.extractCfs object

end Extractor

end Electrosphere.Cfs
