import Electrosphere.Domain.Types
import Electrosphere.Foundation.Enumeration
import Electrosphere.Foundation.Utf8Split

/-!
# Paths and trees as the daemon sees them

The daemon works with paths as texts: names that it reads are decoded, and
names that it gives to the system are encoded.  A name that is not valid
UTF-8 comes back as another name.
-/

namespace Electrosphere

open Foundation FileSystem

namespace Workspace

abbrev Text := List Char

/-- `join` of names, as the text of a relative path. -/
def joinPath (path : List Text) : Text := ['/'].intercalate path

/-- The names that the system gets. -/
def encodePath (path : List Text) : List Name := path.map Utf8.encode

/-- `resolve`: `.` and empty parts vanish, and `..` takes the part before it
away. -/
def resolveStep (stack : List Text) (part : Text) : List Text :=
  if part = [] ∨ part = ['.'] then stack
  else if part = ['.', '.'] then stack.dropLast
  else stack ++ [part]

def resolve (directory : List Text) (path : Text) : List Text :=
  (path.splitOn '/').foldl resolveStep
    (if path.head? = some '/' then [] else directory)

/-- `resolved === root || resolved.startsWith(root + sep)`; below the root
directory nothing starts with `//`. -/
def inside (root resolved : List Text) : Bool :=
  resolved = root ∨ root ≠ [] ∧ root <+: resolved

/-- Whether a part of a path may not stand in a snapshot. -/
def unsafePath (path : Text) : Bool :=
  path = [] ∨ path.head? = some '/' ∨
    ∃ part ∈ path.splitOn '/', part = [] ∨ part = ['.'] ∨ part = ['.', '.']

structure TreeEntry where
  path : List Text
  stats : Stats
  deriving DecidableEq

/-- `ENOENT` of `lstat`. -/
def noEntry (path : List Text) : Thrown :=
  .plain ("ENOENT: no such file or directory, lstat '/" ++
    String.ofList (joinPath path) ++ "'")

def ByEncoding (left right : Text) : Prop :=
  ByteOrder (Utf8.encode left) (Utf8.encode right)

instance decidableByEncoding (left right : Text) :
    Decidable (ByEncoding left right) :=
  inferInstanceAs (Decidable (ByteOrder _ _))

/-- The order of entries by their relative paths. -/
def ByRelative (left right : TreeEntry) : Prop :=
  ByEncoding (joinPath left.path) (joinPath right.path)

instance decidableByRelative (left right : TreeEntry) :
    Decidable (ByRelative left right) :=
  inferInstanceAs (Decidable (ByEncoding _ _))

/-- One name of a directory: the entry, then what stands below it. -/
def visit (validate : Text → Except Thrown Unit) (fs : FileSystem)
    (root : List Text)
    (descend : List Text → Except Thrown (List TreeEntry))
    (directory : List Text) (entries : List TreeEntry) (name : Text) :
    Except Thrown (List TreeEntry) := do
  let path := directory ++ [name]
  validate (joinPath path)
  match fs.lstat (encodePath (root ++ path)) with
  | none => .error (noEntry (root ++ path))
  | some stats => do
      let below ← if stats.node.isDirectory then descend path else .ok []
      return entries ++ { path, stats } :: below

def walk (validate : Text → Except Thrown Unit) (fs : FileSystem)
    (root : List Text) : Nat → List Text → Except Thrown (List TreeEntry)
  | 0, _ => .ok []
  | depth + 1, directory =>
      let names := ((fs.children (encodePath (root ++ directory))).map
        Utf8.decodeLossy).insertionSort ByEncoding
      names.foldlM (visit validate fs root (walk validate fs root depth)
        directory) []

/-- All entries of a tree, sorted by the bytes of their paths. -/
def collectWith (validate : Text → Except Thrown Unit) (fs : FileSystem)
    (root : List Text) : Except Thrown (List TreeEntry) := do
  let entries ← walk validate fs root (fs.height + 1) []
  return entries.insertionSort ByRelative

/-- Files are read in blocks of this size. -/
def blockBytes : Nat := 64 * 1024

/-- The blocks that reading a file of a given size yields, from an offset on;
a read that yields nothing ends it. -/
def readBlocks (content : List UInt8) (size : Nat) :
    Nat → Nat → List (List UInt8)
  | 0, _ => []
  | fuel + 1, offset =>
      if offset < size then
        let block := (content.drop offset).take (min blockBytes (size - offset))
        if block = [] then []
        else block :: readBlocks content size fuel (offset + block.length)
      else []

end Workspace

end Electrosphere
