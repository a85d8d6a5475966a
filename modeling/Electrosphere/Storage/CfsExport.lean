import Electrosphere.Storage.Snapshots
import Electrosphere.Storage.TreeListing

/-!
# Exporting a workspace from the daemon

`exportCfs` lists the workspace, then writes one entry after the other.  A
file must give as many bytes as its metadata says.
-/

namespace Electrosphere.Cfs

open Foundation FileSystem Workspace

def validateRelativePath (path : Text) : Except Thrown Unit :=
  if unsafePath path ∨ '\x00' ∈ path then
    .error (.coded .snapshotUnsupportedEntry
      ("Unsafe snapshot path: " ++ String.ofList path))
  else .ok ()

def collectEntries (fs : FileSystem) (root : List Text) :
    Except Thrown (List TreeEntry) :=
  collectWith validateRelativePath fs root

/-! ## Headers -/

/-- `ERR_OUT_OF_RANGE` of a write to a buffer. -/
def outOfRange : Thrown := .plain "The value of \"value\" is out of range."

def u32 (value : Nat) : Except Thrown Bytes :=
  if value < 2 ^ 32 then .ok (bigEndian 4 value) else .error outOfRange

def u64 (value : Int) : Except Thrown Bytes :=
  if 0 ≤ value ∧ value < 2 ^ 64 then .ok (bigEndian 8 value.toNat)
  else .error outOfRange

/-- The length of a buffer always fits 64 bits. -/
def encodeHeader (path : Text) (type mode : Nat) (mtimeNs : Int)
    (payloadLength : Nat) : Except Thrown Bytes := do
  let pathBytes := Utf8.encode path
  let pathLength ← u32 pathBytes.length
  let mode ← u32 mode
  let mtimeNs ← u64 mtimeNs
  return pathLength ++ (pathBytes ++ (bigEndian 1 type ++ (mode ++
    (mtimeNs ++ bigEndian 8 payloadLength))))

/-- `mtimeNs` rounded to milliseconds; the division of a `bigint` truncates. -/
def roundedMtimeNs (time : Timestamp) : Int :=
  (time.total + 500000).tdiv 1000000 * 1000000

/-! ## Writing the entries -/

def treeLimit : Thrown :=
  .coded .snapshotLimit "Snapshot exceeds total size limit"

def append (out chunk : Bytes) : Except Thrown Bytes :=
  appendWithin treeLimit out chunk

/-- `${message}: ${entry.relative}`. -/
def entryError (code : ErrorCode) (message : String) (entry : TreeEntry) :
    Thrown :=
  .coded code (message ++ ": " ++ String.ofList (joinPath entry.path))

/-- A target is rejected if it is absolute or leads out of the root, as far as
its text tells. -/
def targetLeaves (root path : List Text) (target : Text) : Bool :=
  target.head? = some '/' ∨
    inside root (Workspace.resolve (root ++ path.dropLast) target) = false

def exportRegular (fs : FileSystem) (inode mode : Nat) (mtimeNs : Int)
    (state : Exporting) (entry : TreeEntry) : Except Thrown Exporting := do
  let content := fs.content inode
  let size := content.length
  if maxFileBytes < size then
    .error (entryError .snapshotLimit "File exceeds size limit" entry)
  else
    match if 1 < fs.nlink inode then state.hardLinks.lookup inode
      else none with
    | some linkTarget => do
        let payload := Utf8.encode linkTarget
        let header ← encodeHeader (joinPath entry.path) typeHardlink mode
          mtimeNs payload.length
        let out ← append state.out header
        let out ← append out payload
        return { state with out }
    | none => do
        let hardLinks := if 1 < fs.nlink inode then
            state.hardLinks.insert inode (joinPath entry.path)
          else state.hardLinks
        let header ← encodeHeader (joinPath entry.path) typeFile mode mtimeNs
          size
        let out ← append state.out header
        let blocks := readBlocks content size size 0
        let out ← blocks.foldlM append out
        if blocks.flatten.length ≠ size then
          .error (entryError .backendError "File changed during snapshot"
            entry)
        else return { out, hardLinks }

def exportCollected (fs : FileSystem) (root : List Text) (state : Exporting)
    (entry : TreeEntry) : Except Thrown Exporting :=
  let mode := entry.stats.mode &&& 0o7777
  if mode &&& 0o6000 ≠ 0 then
    .error (entryError .snapshotUnsupportedEntry
      "setuid/setgid entry rejected" entry)
  else
    let mtimeNs := roundedMtimeNs entry.stats.mtime
    match entry.stats.node with
    | .directory _ _ => do
        let header ← encodeHeader (joinPath entry.path) typeDirectory mode
          mtimeNs 0
        let out ← append state.out header
        return { state with out }
    | .symlink target _ => do
        let target := Utf8.decodeLossy target
        if targetLeaves root entry.path target then
          .error (entryError .snapshotUnsupportedEntry
            "Symlink target escapes workspace" entry)
        else
          let payload := Utf8.encode target
          let header ← encodeHeader (joinPath entry.path) typeSymlink mode
            mtimeNs payload.length
          let out ← append state.out header
          let out ← append out payload
          return { state with out }
    | .file inode => exportRegular fs inode mode mtimeNs state entry
    | .other _ _ =>
        .error (entryError .snapshotUnsupportedEntry "Unsupported entry" entry)

/-- The bytes of the archive, which is stored under their digest. -/
def exportCfs (fs : FileSystem) (root : List Text) : Except Thrown Bytes :=
  if fs.isDirectory (encodePath root) then do
    let out ← append [] magic
    let entries ← collectEntries fs root
    let state ← entries.foldlM (exportCollected fs root)
      { out, hardLinks := ∅ }
    return state.out
  else .error (.coded .invalidArgument "Workspace root does not exist")

end Electrosphere.Cfs
