import Electrosphere.Foundation.Table
import Electrosphere.Foundation.Ustar
import Electrosphere.Storage.TreeListing

/-!
# The archive of a workspace

`chunks` writes a tree as a ustar archive, chunk by chunk.  Every chunk has
its own bytes except those of a file, which all lie in one buffer.
-/

namespace Electrosphere.Tar

open Foundation FileSystem Workspace

abbrev Bytes := List UInt8

/-! ## Headers -/

/-- `BigInt(value).toString(8)`. -/
def toStringOctal : Int → Text
  | .ofNat value => Nat.toDigits 8 value
  | .negSucc value => '-' :: Nat.toDigits 8 (value + 1)

def octal (value : Int) (width : Nat) : Except Thrown Bytes :=
  let encoded := (toStringOctal value).leftpad (width - 1) '0'
  if width ≤ encoded.length then
    .error (.coded .snapshotLimit "Tar numeric field exceeds format limit")
  else .ok (Ustar.ascii (encoded ++ ['\x00']))

/-- Bytes copied over those of a buffer. -/
def copy (value header : Bytes) (offset : Nat) : Bytes :=
  header.take offset ++ (value ++ header.drop (offset + value.length))

def writeField (header : Bytes) (offset width : Nat) (value : Bytes) :
    Except Thrown Bytes :=
  if width < value.length then
    .error (.coded .snapshotUnsupportedEntry "Tar field exceeds format limit")
  else .ok (copy value header offset)

structure HeaderInput where
  name : Text
  mode : Nat
  size : Nat
  mtime : Int
  type : Char
  linkName : Text := []

def tarHeader (input : HeaderInput) : Except Thrown Bytes := do
  let header := List.replicate 512 0
  let name := Utf8.encode input.name
  let linkName := Utf8.encode input.linkName
  if 100 < name.length ∨ 100 < linkName.length then
    .error (.coded .snapshotUnsupportedEntry
      "Tar path exceeds ustar field limit")
  else do
    let header ← writeField header 0 100 name
    let header ← writeField header 100 8
      (← octal (input.mode &&& 0o7777 : Nat) 8)
    let header ← writeField header 108 8 (← octal 1000 8)
    let header ← writeField header 116 8 (← octal 1000 8)
    let header ← writeField header 124 12 (← octal input.size 12)
    let header ← writeField header 136 12 (← octal input.mtime 12)
    let header := copy (List.replicate 8 0x20) header 148
    let header := copy (Ustar.ascii [input.type]) header 156
    let header ← writeField header 157 100 linkName
    let header := copy (Ustar.ascii "ustar\x00".toList) header 257
    let header := copy (Ustar.ascii "00".toList) header 263
    let header := copy (Ustar.ascii "code".toList) header 265
    let header := copy (Ustar.ascii "code".toList) header 297
    let checksum := (header.map UInt8.toNat).sum
    let checksumBytes := Ustar.ascii
      ((Nat.toDigits 8 checksum).leftpad 6 '0' ++ ['\x00', ' '])
    return copy checksumBytes header 148

/-! ## Entries -/

/-- What the generator yields: bytes of their own, or the front of the buffer
of a file after a read into it. -/
inductive Chunk where
  | own (bytes : Bytes)
  | view (file : List Text) (block : Bytes)
  deriving DecidableEq

def Chunk.bytes : Chunk → Bytes
  | .own bytes => bytes
  | .view _ block => block

/-- The paths are checked for their parts only. -/
def validatePath (path : Text) : Except Thrown Unit :=
  if unsafePath path then
    .error (.coded .snapshotUnsupportedEntry
      ("Unsafe archive path: " ++ String.ofList path))
  else .ok ()

def collect (fs : FileSystem) (root : List Text) :
    Except Thrown (List TreeEntry) :=
  collectWith validatePath fs root

def fileChunks (fs : FileSystem) (inode mode : Nat) (mtime : Int)
    (entry : TreeEntry) : Except Thrown (List Chunk) := do
  let content := fs.content inode
  let size := content.length
  let header ← tarHeader {
    name := joinPath entry.path, mode, size, mtime, type := '0' }
  let blocks := readBlocks content size size 0
  if blocks.flatten.length ≠ size then
    .error (.coded .backendError
      ("File changed during archive: " ++ String.ofList (joinPath entry.path)))
  else
    let padding := (512 - size % 512) % 512
    return .own header :: (blocks.map (Chunk.view entry.path) ++
      if 0 < padding then [.own (List.replicate padding 0)] else [])

/-- The chunks of an entry, and the names that are known after it. -/
def entryChunks (fs : FileSystem) (hardLinks : Table Nat Text)
    (entry : TreeEntry) : Except Thrown (List Chunk × Table Nat Text) := do
  let name := joinPath entry.path
  let mode := entry.stats.mode &&& 0o7777
  let mtime := entry.stats.mtime.total.tdiv 1000000000
  match entry.stats.node with
  | .directory _ _ => do
      let header ← tarHeader {
        name := name ++ ['/'], mode, size := 0, mtime, type := '5' }
      return ([.own header], hardLinks)
  | .symlink target _ => do
      let header ← tarHeader {
        name, mode, size := 0, mtime, type := '2'
        linkName := Utf8.decodeLossy target }
      return ([.own header], hardLinks)
  | .file inode =>
      match if 1 < fs.nlink inode then hardLinks.lookup inode else none with
      | some linkName => do
          let header ← tarHeader {
            name, mode, size := 0, mtime, type := '1', linkName }
          return ([.own header], hardLinks)
      | none => do
          let hardLinks := if 1 < fs.nlink inode then
            hardLinks.insert inode name else hardLinks
          return (← fileChunks fs inode mode mtime entry, hardLinks)
  | .other _ _ =>
      .error (.coded .snapshotUnsupportedEntry
        ("Unsupported archive entry: " ++ String.ofList name))

/-- The last chunk is two blocks of zeros. -/
def chunksFrom (fs : FileSystem) :
    Table Nat Text → List TreeEntry → Except Thrown (List Chunk)
  | _, [] => .ok [.own (List.replicate 1024 0)]
  | hardLinks, entry :: entries => do
      let (own, hardLinks) ← entryChunks fs hardLinks entry
      return own ++ (← chunksFrom fs hardLinks entries)

def chunks (fs : FileSystem) (root : List Text) :
    Except Thrown (List Chunk) := do
  chunksFrom fs ∅ (← collect fs root)

end Electrosphere.Tar
