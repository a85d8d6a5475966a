import Electrosphere.Foundation.Enumeration
import Electrosphere.Storage.Snapshots

/-!
# Exporting the workspace from the guest

`export_workspace_file` lists the workspace, then writes one entry after the
other.  What it learns of a file comes at three times: the length with the
metadata, the bytes with the reads that follow, and nothing keeps the two
together.
-/

namespace Electrosphere.Agent.Snapshot

open Foundation FileSystem Cfs

/-! ## The snapshot file -/

/-- The bytes written so far.  The size and the digest that are kept beside
them are theirs. -/
abbrev SnapshotWriter := Bytes

abbrev SnapshotResult := Except String

def SnapshotWriter.write (out : SnapshotWriter) (buffer : Bytes) :
    SnapshotResult SnapshotWriter :=
  appendWithin "snapshot exceeds total limit" out buffer

def validateRelative (path : List Name) : SnapshotResult (List Char) :=
  if up ∈ path ∨ here ∈ path then .error "unsafe snapshot path"
  else
    let value := (Utf8.decodeLossy (pathBytes path)).map fun letter =>
      if letter = '\\' then '/' else letter
    if value = [] ∨ '\x00' ∈ value then .error "unsafe snapshot path"
    else .ok value

def writeHeader (out : SnapshotWriter) (path : List Char)
    (kind mode mtimeNs payloadLen : Nat) : SnapshotResult SnapshotWriter := do
  let bytes := Utf8.encode path
  let out ← out.write (bigEndian 4 bytes.length)
  let out ← out.write bytes
  let out ← out.write (bigEndian 1 kind)
  let out ← out.write (bigEndian 4 mode)
  let out ← out.write (bigEndian 8 mtimeNs)
  out.write (bigEndian 8 payloadLen)

/-! ## Enumerating -/

/-- `collect`: the paths of a directory go to the end of the list, and the
whole list is sorted after each directory. -/
def collect (fs : FileSystem) (root : Location) :
    Nat → List Name → List (List Name) → List (List Name)
  | 0, _, entries => entries
  | depth + 1, directory, entries =>
      let children := (fs.children (root ++ directory)).insertionSort ByteOrder
      (children.foldl (fun entries name =>
        let path := directory ++ [name]
        let entries := entries ++ [path]
        if fs.isDirectory (root ++ path) then collect fs root depth path entries
        else entries) entries).insertionSort ByPath

/-! ## Writing the entries -/

/-- What a file gives away while it is exported: the length in its metadata,
and the bytes of each read until one reads nothing. -/
structure Observation where
  length : Nat
  reads : List Bytes

/-- `mtime` and `mtime_nsec` in wrapping arithmetic, rounded to
milliseconds. -/
def mtimeNs (time : Timestamp) : UInt64 :=
  let raw := time.seconds.toUInt64 * 1000000000 +
    UInt64.ofNat time.nanoseconds
  (raw + 500000) / 1000000 * 1000000

/-- A symbolic link may not be absolute or name a parent. -/
def targetEscapes (target : Bytes) : Bool :=
  target.head? = some slash ∨ up ∈ FileSystem.components target

def writeChunks (out : SnapshotWriter) : List Bytes → SnapshotResult SnapshotWriter
  | [] => .ok out
  | chunk :: chunks => do
      let out ← out.write chunk
      writeChunks out chunks

def exportFile (observation : Observation) (relative : List Char) (inode nlink : Nat)
    (mode mtime : Nat) (state : Exporting) : SnapshotResult Exporting := do
  if maxFileBytes < observation.length then
    .error ("file exceeds snapshot limit: " ++ String.ofList relative)
  else
    match if 1 < nlink then state.hardLinks.lookup inode else none with
    | some target => do
        let bytes := Utf8.encode target
        let out ← writeHeader state.out relative typeHardlink mode mtime
          bytes.length
        let out ← out.write bytes
        return { state with out }
    | none => do
        let hardLinks := if 1 < nlink then state.hardLinks.insert inode relative
          else state.hardLinks
        let out ← writeHeader state.out relative typeFile mode mtime
          observation.length
        let out ← writeChunks out observation.reads
        return { out, hardLinks }

def exportNode (fs : FileSystem) (observation : Observation)
    (relative : List Char) (stats : Stats) (state : Exporting) :
    SnapshotResult Exporting :=
  let mode := stats.mode &&& 0o7777
  if mode &&& 0o6000 ≠ 0 then
    .error ("setuid/setgid entry rejected: " ++ String.ofList relative)
  else
    let mtime := (mtimeNs stats.mtime).toNat
    match stats.node with
    | .directory _ _ => do
        let out ← writeHeader state.out relative typeDirectory mode mtime 0
        return { state with out }
    | .symlink target _ =>
        if targetEscapes target then
          .error ("symlink target escapes workspace: " ++
            String.ofList relative)
        else do
          let bytes := Utf8.encode (Utf8.decodeLossy target)
          let out ← writeHeader state.out relative typeSymlink mode mtime
            bytes.length
          let out ← out.write bytes
          return { state with out }
    | .file inode =>
        exportFile observation relative inode (fs.nlink inode) mode mtime state
    | .other _ _ =>
        .error ("unsupported snapshot entry: " ++ String.ofList relative)

def exportEntry (fs : FileSystem) (root : Location)
    (observe : List Name → Observation) (state : Exporting)
    (path : List Name) : SnapshotResult Exporting := do
  let relative ← validateRelative path
  match fs.lstat (root ++ path) with
  | none => .error "No such file or directory (os error 2)"
  | some stats => exportNode fs (observe path) relative stats state

/-- The bytes of the snapshot.  A snapshot that fails is removed. -/
def exportWorkspaceFile (fs : FileSystem) (root : Location)
    (observe : List Name → Observation) : SnapshotResult Bytes :=
  if fs.isDirectory root then do
    let paths := collect fs root (fs.height + 1) [] []
    let out ← SnapshotWriter.write [] magic
    let state ← paths.foldlM (exportEntry fs root observe)
      { out, hardLinks := ∅ }
    return state.out
  else
    .error ("read /" ++ String.ofList (Utf8.decodeLossy (pathBytes root)))

/-! ## The guest as an exporter -/

theorem writeHeader_eq (out : SnapshotWriter) (path : List Char)
    (kind mode mtimeNs payloadLen : Nat) :
    writeHeader out path kind mode mtimeNs payloadLen =
      out.write (Header.encode {
        path := Utf8.encode path, type := kind, mode, mtimeNs
        payloadLength := payloadLen }) := by
  simp only [writeHeader, SnapshotWriter.write, Header.encode,
    ← appendWithin_append]

end Electrosphere.Agent.Snapshot
