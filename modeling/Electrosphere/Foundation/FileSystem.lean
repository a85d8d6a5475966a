import Mathlib.Data.List.Dedup
import Mathlib.Data.List.DropRight
import Mathlib.Data.List.Infix
import Mathlib.Data.List.Perm.Subperm

/-!
# File systems

Directories, files with several names, symbolic links, and their attributes.
A location is the list of the names that lead to it from the root through
real directories; what stands there is a node.  A file system is closed:
whatever stands at a location stands in a directory.
-/

namespace Foundation

structure Timestamp where
  seconds : Int64
  nanoseconds : Nat
  below : nanoseconds < 1000000000
  deriving DecidableEq

/-- Nanoseconds since 1970. -/
def Timestamp.total (time : Timestamp) : Int :=
  time.seconds.toInt * 1000000000 + time.nanoseconds

/-- A time in full seconds. -/
def Timestamp.whole (seconds : Int64) : Timestamp where
  seconds
  nanoseconds := 0
  below := by decide

namespace FileSystem

abbrev Name := List UInt8

abbrev Location := List Name

def slash : UInt8 := 0x2F

/-- `.` -/
def here : Name := [0x2E]

/-- `..` -/
def up : Name := [0x2E, 0x2E]

/-- The names of a path. -/
def components (path : List UInt8) : List Name := path.splitOn slash

/-- The names that a directory may hold. -/
structure ValidName (name : Name) : Prop where
  notEmpty : name ≠ []
  notHere : name ≠ here
  notUp : name ≠ up
  noSlash : slash ∉ name
  noNul : 0 ∉ name

instance decidableValidName (name : Name) : Decidable (ValidName name) :=
  decidable_of_iff (name ≠ [] ∧ name ≠ here ∧ name ≠ up ∧ slash ∉ name ∧
    0 ∉ name)
    ⟨fun ⟨first, second, third, fourth, fifth⟩ =>
      ⟨first, second, third, fourth, fifth⟩,
      fun valid => ⟨valid.notEmpty, valid.notHere, valid.notUp, valid.noSlash,
        valid.noNul⟩⟩

inductive Node where
  | directory (mode : Nat) (mtime : Timestamp)
  | file (inode : Nat)
  | symlink (target : List UInt8) (mtime : Timestamp)
  | other (mode : Nat) (mtime : Timestamp)
  deriving DecidableEq

structure Inode where
  mode : Nat
  mtime : Timestamp
  content : List UInt8
  deriving DecidableEq

namespace Node

def isDirectory : Node → Bool
  | .directory _ _ => true
  | _ => false

/-- Symbolic links have no mode of their own, and the attributes of a file
are its inode's. -/
def adjust (mode : Nat → Nat) (mtime : Timestamp → Timestamp) : Node → Node
  | .directory held time => .directory (mode held) (mtime time)
  | .file inode => .file inode
  | .symlink target time => .symlink target (mtime time)
  | .other held time => .other (mode held) (mtime time)

/-- What may stand in a file system with so many inodes. -/
def Fits (inodes : Nat) : Node → Prop
  | .file inode => inode < inodes
  | .symlink target _ => target ≠ [] ∧ 0 ∉ target
  | _ => True

instance decidableFits (inodes : Nat) :
    (node : Node) → Decidable (node.Fits inodes)
  | .file inode => inferInstanceAs (Decidable (inode < inodes))
  | .symlink target _ =>
      inferInstanceAs (Decidable (target ≠ [] ∧ 0 ∉ target))
  | .directory _ _ => .isTrue trivial
  | .other _ _ => .isTrue trivial

variable {mode : Nat → Nat} {mtime : Timestamp → Timestamp} {node : Node}
  {inodes more : Nat}

@[simp] theorem isDirectory_adjust :
    (node.adjust mode mtime).isDirectory = node.isDirectory := by
  cases node <;> rfl

@[simp] theorem fits_adjust :
    (node.adjust mode mtime).Fits inodes ↔ node.Fits inodes := by
  cases node <;> rfl

theorem Fits.mono (fits : node.Fits inodes) (le : inodes ≤ more) :
    node.Fits more := by
  cases node with
  | file inode => exact Nat.lt_of_lt_of_le fits le
  | _ => exact fits

theorem any_isDirectory_adjust (held : Option Node) :
    (held.map (adjust mode mtime)).any isDirectory = held.any isDirectory := by
  cases held with
  | none => rfl
  | some node => exact isDirectory_adjust

theorem isDirectory_iff :
    node.isDirectory = true ↔ ∃ mode mtime, node = .directory mode mtime := by
  cases node with
  | directory mode mtime => simp [isDirectory]
  | _ => simp [isDirectory]

end Node

end FileSystem

open FileSystem

structure FileSystem where
  node : Location → Option Node
  /-- Finitely many locations hold something. -/
  listing : List Location
  inodes : List Inode
  listed : ∀ location, (node location).isSome → location ∈ listing
  rooted : (node []).any Node.isDirectory = true
  closed : ∀ location name, (node (location ++ [name])).isSome →
    (node location).any Node.isDirectory = true
  named : ∀ location name, (node (location ++ [name])).isSome → ValidName name
  fits : ∀ location held, node location = some held →
    held.Fits inodes.length

namespace FileSystem

variable {fs : FileSystem} {location other : Location} {name : Name}

def isDirectory (fs : FileSystem) (location : Location) : Bool :=
  (fs.node location).any Node.isDirectory

def isSymlink (fs : FileSystem) (location : Location) : Bool :=
  match fs.node location with
  | some (.symlink _ _) => true
  | _ => false

/-- Nothing but the root directory. -/
def bare (mode : Nat) (mtime : Timestamp) : FileSystem where
  node held := if held = [] then some (.directory mode mtime) else none
  listing := [[]]
  inodes := []
  listed held found := by
    split at found
    case isTrue isRoot => exact isRoot ▸ List.mem_singleton_self _
    case isFalse => cases found
  rooted := rfl
  closed held name found := by
    rw [if_neg (by simp)] at found
    cases found
  named held name found := by
    rw [if_neg (by simp)] at found
    cases found
  fits held node found := by
    split at found
    · cases found
      trivial
    · cases found

/-- The names in a directory. -/
def children (fs : FileSystem) (location : Location) : List Name :=
  ((fs.listing.filter fun held =>
    held.dropLast = location ∧ held ≠ [] ∧ (fs.node held).isSome).dedup).map
      fun held => held.getLastD []

/-- The bytes of a file. -/
def content (fs : FileSystem) (inode : Nat) : List UInt8 :=
  (fs.inodes[inode]?).elim [] Inode.content

/-- The number of names of an inode. -/
def nlink (fs : FileSystem) (inode : Nat) : Nat :=
  (fs.listing.filter fun held =>
    fs.node held = some (.file inode)).dedup.length

structure Stats where
  node : Node
  mode : Nat
  mtime : Timestamp
  deriving DecidableEq

def lstat (fs : FileSystem) (location : Location) : Option Stats :=
  match fs.node location with
  | none => none
  | some (.directory mode mtime) =>
      some { node := .directory mode mtime, mode, mtime }
  | some (.file inode) =>
      (fs.inodes[inode]?).map fun held =>
        { node := .file inode, mode := held.mode, mtime := held.mtime }
  | some (.symlink target mtime) =>
      some { node := .symlink target mtime, mode := 0o777, mtime }
  | some (.other mode mtime) => some { node := .other mode mtime, mode, mtime }

theorem lstat_eq_none_iff :
    fs.lstat location = none ↔ fs.node location = none := by
  rw [lstat]
  cases found : fs.node location with
  | none => simp
  | some node =>
      cases node with
      | file inode =>
          have inside : inode < fs.inodes.length := fs.fits _ _ found
          simp [List.getElem?_eq_getElem inside]
      | _ => simp

theorem node_of_lstat {stats : Stats} (found : fs.lstat location = some stats) :
    fs.node location = some stats.node := by
  rw [lstat] at found
  cases isNode : fs.node location with
  | none => simp [isNode] at found
  | some node =>
      rw [isNode] at found
      cases node with
      | file inode =>
          obtain ⟨held, -, rfl⟩ := Option.map_eq_some_iff.mp found
          rfl
      | _ =>
          cases found
          rfl

theorem isDirectory_iff :
    fs.isDirectory location = true ↔
      ∃ mode mtime, fs.node location = some (.directory mode mtime) := by
  rw [isDirectory, Option.any_eq_true]
  constructor
  · rintro ⟨node, found, isDirectory⟩
    obtain ⟨mode, mtime, rfl⟩ := Node.isDirectory_iff.mp isDirectory
    exact ⟨mode, mtime, found⟩
  · rintro ⟨mode, mtime, found⟩
    exact ⟨_, found, rfl⟩

theorem isSome_of_isDirectory (isDirectory : fs.isDirectory location = true) :
    (fs.node location).isSome = true := by
  obtain ⟨mode, mtime, found⟩ := isDirectory_iff.mp isDirectory
  rw [found]
  rfl

/-- Everything above a node is a directory. -/
theorem isDirectory_of_append {rest : Location} (notHere : rest ≠ [])
    (found : (fs.node (location ++ rest)).isSome) :
    fs.isDirectory location = true := by
  induction rest using List.reverseRecOn with
  | nil => exact absurd rfl notHere
  | append_singleton rest name induction =>
      rw [← List.append_assoc] at found
      have parent := fs.closed _ _ found
      by_cases direct : rest = []
      · rw [direct, List.append_nil] at parent
        exact parent
      · exact induction direct (isSome_of_isDirectory parent)

theorem validName_of_mem (found : (fs.node location).isSome)
    (member : name ∈ location) : ValidName name := by
  obtain ⟨before, after, rfl⟩ := List.append_of_mem member
  have named : (fs.node (before ++ [name])).isSome := by
    by_cases last : after = []
    · rw [last] at found
      exact found
    · apply isSome_of_isDirectory
      apply isDirectory_of_append last
      rw [List.append_assoc]
      exact found
  exact fs.named before name named

theorem mem_children :
    name ∈ fs.children location ↔
      (fs.node (location ++ [name])).isSome = true := by
  simp only [children, List.mem_map, List.mem_dedup, List.mem_filter,
    decide_eq_true_eq]
  constructor
  · rintro ⟨held, ⟨-, rfl, notRoot, found⟩, rfl⟩
    rw [List.getLastD_eq_getLast?, List.getLast?_eq_getLast_of_ne_nil notRoot,
      Option.getD_some, List.dropLast_append_getLast]
    exact found
  · intro found
    refine ⟨location ++ [name], ⟨fs.listed _ found, ?_, ?_, found⟩, ?_⟩
    · exact List.dropLast_concat
    · simp
    · simp

/-- A file at two places has two names. -/
theorem one_lt_nlink {inode : Nat} (different : location ≠ other)
    (isFirst : fs.node location = some (.file inode))
    (isSecond : fs.node other = some (.file inode)) : 1 < fs.nlink inode := by
  have names {held : Location} (isName : fs.node held = some (.file inode)) :
      held ∈ (fs.listing.filter fun held =>
        fs.node held = some (.file inode)).dedup := by
    rw [List.mem_dedup, List.mem_filter, decide_eq_true_eq]
    exact ⟨fs.listed held (by rw [isName]; rfl), isName⟩
  have two : [location, other] ⊆ (fs.listing.filter fun held =>
      fs.node held = some (.file inode)).dedup := by
    simp [names isFirst, names isSecond]
  have distinct : [location, other].Nodup := by simp [different]
  exact (distinct.subperm two).length_le

theorem nodup_children (fs : FileSystem) (location : Location) :
    (fs.children location).Nodup := by
  rw [children]
  apply (List.nodup_dedup _).map_on
  intro first isFirst second isSecond same
  simp only [List.mem_dedup, List.mem_filter, decide_eq_true_eq] at isFirst isSecond
  obtain ⟨-, firstAbove, firstNotRoot, -⟩ := isFirst
  obtain ⟨-, secondAbove, secondNotRoot, -⟩ := isSecond
  rw [List.getLastD_eq_getLast?, List.getLastD_eq_getLast?,
    List.getLast?_eq_getLast_of_ne_nil firstNotRoot,
    List.getLast?_eq_getLast_of_ne_nil secondNotRoot] at same
  rw [← List.dropLast_append_getLast firstNotRoot,
    ← List.dropLast_append_getLast secondNotRoot, firstAbove, secondAbove]
  exact congrArg (fun last => location ++ [last]) same

/-! ## Changes -/

theorem not_prefix_append (location : Location) (name : Name) :
    ¬ location ++ [name] <+: location := by
  intro below
  have shorter := below.length_le
  rw [List.length_append, List.length_singleton] at shorter
  omega

/-- A file has its attributes in its inode. -/
def adjustedInodes (fs : FileSystem) (location : Location) (mode : Nat → Nat)
    (mtime : Timestamp → Timestamp) : List Inode :=
  match fs.node location with
  | some (.file inode) =>
      fs.inodes.modify inode fun held =>
        { held with mode := mode held.mode, mtime := mtime held.mtime }
  | _ => fs.inodes

@[simp] theorem length_adjustedInodes (fs : FileSystem) (location : Location)
    (mode : Nat → Nat) (mtime : Timestamp → Timestamp) :
    (fs.adjustedInodes location mode mtime).length = fs.inodes.length := by
  rw [adjustedInodes]
  split
  · exact List.length_modify ..
  · rfl

/-- Change the attributes of what stands at a location. -/
def adjust (fs : FileSystem) (location : Location) (mode : Nat → Nat)
    (mtime : Timestamp → Timestamp) : FileSystem where
  node held :=
    if held = location then (fs.node held).map (Node.adjust mode mtime)
    else fs.node held
  listing := fs.listing
  inodes := fs.adjustedInodes location mode mtime
  listed held found := by
    apply fs.listed
    split at found
    · rwa [Option.isSome_map] at found
    · exact found
  rooted := by
    have rooted := fs.rooted
    split
    · rwa [Node.any_isDirectory_adjust]
    · exact rooted
  closed held name found := by
    have closed := fs.closed held name (by
      split at found
      · rwa [Option.isSome_map] at found
      · exact found)
    split
    · rwa [Node.any_isDirectory_adjust]
    · exact closed
  named held name found := by
    apply fs.named held name
    split at found
    · rwa [Option.isSome_map] at found
    · exact found
  fits held node found := by
    rw [length_adjustedInodes]
    split at found
    · obtain ⟨before, isBefore, rfl⟩ := Option.map_eq_some_iff.mp found
      exact Node.fits_adjust.mpr (fs.fits held before isBefore)
    · exact fs.fits held node found

/-- What a new node asks of the place it is put at. -/
structure Free (fs : FileSystem) (location : Location) (name : Name) :
    Prop where
  inside : fs.isDirectory location = true
  free : fs.node (location ++ [name]) = none
  valid : ValidName name

instance decidableFree (fs : FileSystem) (location : Location) (name : Name) :
    Decidable (fs.Free location name) :=
  decidable_of_iff (fs.isDirectory location = true ∧
    fs.node (location ++ [name]) = none ∧ ValidName name)
    ⟨fun ⟨inside, free, valid⟩ => ⟨inside, free, valid⟩,
      fun free => ⟨free.inside, free.free, free.valid⟩⟩

/-- A new name, with the inodes that come with it. -/
def place (fs : FileSystem) (location : Location) (name : Name) (held : Node)
    (extra : List Inode) (free : fs.Free location name)
    (fits : held.Fits (fs.inodes ++ extra).length) : FileSystem where
  node other := if other = location ++ [name] then some held else fs.node other
  listing := (location ++ [name]) :: fs.listing
  inodes := fs.inodes ++ extra
  listed other found := by
    split at found
    case isTrue same => exact same ▸ List.mem_cons_self
    case isFalse => exact List.mem_cons_of_mem _ (fs.listed other found)
  rooted := by
    rw [if_neg (by simp)]
    exact fs.rooted
  closed other child found := by
    have stays : other ≠ location ++ [name] ∧
        (fs.node other).any Node.isDirectory = true := by
      split at found
      case isTrue same =>
        obtain ⟨rfl, -⟩ := List.append_inj' same rfl
        exact ⟨by simp, free.inside⟩
      case isFalse =>
        have above := fs.closed other child found
        refine ⟨?_, above⟩
        rintro rfl
        rw [free.free] at above
        cases above
    rw [if_neg stays.1]
    exact stays.2
  named other child found := by
    split at found
    case isTrue same =>
      obtain ⟨-, isName⟩ := List.append_inj' same rfl
      cases isName
      exact free.valid
    case isFalse => exact fs.named other child found
  fits other node found := by
    split at found
    case isTrue =>
      cases found
      exact fits
    case isFalse =>
      exact (fs.fits other node found).mono (by simp)

def write (fs : FileSystem) (inode : Nat) (content : List UInt8) :
    FileSystem where
  node := fs.node
  listing := fs.listing
  inodes := fs.inodes.modify inode fun held => { held with content }
  listed := fs.listed
  rooted := fs.rooted
  closed := fs.closed
  named := fs.named
  fits held node found := by
    rw [List.length_modify]
    exact fs.fits held node found

/-- Remove a location with everything below it. -/
def remove (fs : FileSystem) (location : Location) (notRoot : location ≠ []) :
    FileSystem where
  node other := if location <+: other then none else fs.node other
  listing := fs.listing
  inodes := fs.inodes
  listed other found := by
    split at found
    · cases found
    · exact fs.listed other found
  rooted := by
    rw [if_neg (mt List.prefix_nil.mp notRoot)]
    exact fs.rooted
  closed other name found := by
    split at found
    case isTrue => cases found
    case isFalse outside =>
      rw [if_neg fun above => outside (above.trans (List.prefix_append _ _))]
      exact fs.closed other name found
  named other name found := by
    split at found
    · cases found
    · exact fs.named other name found
  fits other node found := by
    split at found
    · cases found
    · exact fs.fits other node found

/-- Give a location, with everything below it, another name. -/
def move (fs : FileSystem) (source target : Location) (name : Name)
    (notRoot : source ≠ []) (free : fs.Free target name)
    (outside : ¬ source <+: target) : FileSystem where
  node other :=
    if target ++ [name] <+: other then
      fs.node (source ++ other.drop (target ++ [name]).length)
    else if source <+: other then none
    else fs.node other
  listing := fs.listing ++ fs.listing.map fun held =>
    (target ++ [name]) ++ held.drop source.length
  inodes := fs.inodes
  listed other found := by
    apply List.mem_append.mpr
    split at found
    case isTrue below =>
      right
      obtain ⟨rest, rfl⟩ := below
      rw [List.drop_left] at found
      apply List.mem_map.mpr
      exact ⟨source ++ rest, fs.listed _ found, by rw [List.drop_left]⟩
    case isFalse =>
      left
      split at found
      · cases found
      · exact fs.listed other found
  rooted := by
    rw [if_neg (by simp), if_neg (mt List.prefix_nil.mp notRoot)]
    exact fs.rooted
  closed other child found := by
    split at found
    case isTrue below =>
      obtain ⟨rest, split⟩ := below
      cases rest using List.reverseRecOn with
      | nil =>
          rw [List.append_nil] at split
          obtain ⟨rfl, -⟩ := List.append_inj' split rfl
          rw [if_neg (not_prefix_append _ _), if_neg outside]
          exact free.inside
      | append_singleton rest last =>
          rw [← List.append_assoc] at split
          obtain ⟨rfl, -⟩ := List.append_inj' split rfl
          rw [if_pos (List.prefix_append _ _), List.drop_left]
          rw [List.append_assoc, List.drop_left, ← List.append_assoc] at found
          exact fs.closed _ _ found
    case isFalse apart =>
      split at found
      · cases found
      case isFalse away =>
        have below : other <+: other ++ [child] := List.prefix_append _ _
        rw [if_neg fun inside => apart (inside.trans below),
          if_neg fun inside => away (inside.trans below)]
        exact fs.closed _ _ found
  named other child found := by
    split at found
    case isTrue below =>
      obtain ⟨rest, split⟩ := below
      cases rest using List.reverseRecOn with
      | nil =>
          rw [List.append_nil] at split
          obtain ⟨-, isName⟩ := List.append_inj' split rfl
          cases isName
          exact free.valid
      | append_singleton rest last =>
          rw [← List.append_assoc] at split
          obtain ⟨rfl, isLast⟩ := List.append_inj' split rfl
          cases isLast
          rw [List.append_assoc, List.drop_left, ← List.append_assoc] at found
          exact fs.named _ _ found
    case isFalse =>
      split at found
      · cases found
      · exact fs.named _ _ found
  fits other node found := by
    split at found
    · exact fs.fits _ node found
    · split at found
      · cases found
      · exact fs.fits _ node found

/-! ## What stands where after a change -/

section Nodes

variable {mode : Nat → Nat} {mtime : Timestamp → Timestamp} {held : Node}
  {extra : List Inode}

theorem node_adjust :
    (fs.adjust location mode mtime).node other =
      if other = location then (fs.node other).map (Node.adjust mode mtime)
      else fs.node other :=
  rfl

theorem node_adjust_of_ne (different : other ≠ location) :
    (fs.adjust location mode mtime).node other = fs.node other :=
  if_neg different

@[simp] theorem isDirectory_adjust :
    (fs.adjust location mode mtime).isDirectory other =
      fs.isDirectory other := by
  rw [isDirectory, node_adjust, isDirectory]
  split
  · rw [Node.any_isDirectory_adjust]
  · rfl

@[simp] theorem node_adjust_eq_file {inode : Nat} :
    (fs.adjust location mode mtime).node other = some (.file inode) ↔
      fs.node other = some (.file inode) := by
  rw [node_adjust]
  split
  · cases found : fs.node other with
    | none => simp
    | some held => cases held <;> simp [Node.adjust]
  · rfl

@[simp] theorem length_inodes_adjust :
    (fs.adjust location mode mtime).inodes.length = fs.inodes.length :=
  length_adjustedInodes fs location mode mtime

theorem inodes_adjust_of_directory
    (isDirectory : fs.isDirectory location = true) :
    (fs.adjust location mode mtime).inodes = fs.inodes := by
  obtain ⟨held, time, found⟩ := isDirectory_iff.mp isDirectory
  change fs.adjustedInodes location mode mtime = fs.inodes
  rw [adjustedInodes, found]

theorem inodes_adjust_of_file {inode : Nat}
    (found : fs.node location = some (.file inode)) :
    (fs.adjust location mode mtime).inodes =
      fs.inodes.modify inode fun held =>
        { held with mode := mode held.mode, mtime := mtime held.mtime } := by
  change fs.adjustedInodes location mode mtime = _
  rw [adjustedInodes, found]

theorem node_place (free : fs.Free location name)
    (fits : held.Fits (fs.inodes ++ extra).length) :
    (fs.place location name held extra free fits).node other =
      if other = location ++ [name] then some held else fs.node other :=
  rfl

theorem node_remove {notRoot : location ≠ []} :
    (fs.remove location notRoot).node other =
      if location <+: other then none else fs.node other :=
  rfl

theorem node_remove_away {notRoot : location ≠ []}
    (outside : ¬ location <+: other) :
    (fs.remove location notRoot).node other = fs.node other :=
  if_neg outside

theorem node_move {source target : Location} {notRoot : source ≠ []}
    {free : fs.Free target name} {outside : ¬ source <+: target} :
    (fs.move source target name notRoot free outside).node other =
      if target ++ [name] <+: other then
        fs.node (source ++ other.drop (target ++ [name]).length)
      else if source <+: other then none
      else fs.node other :=
  rfl

end Nodes

end FileSystem

end Foundation
