import Electrosphere.Foundation.TreeChanges
import Mathlib.Logic.Function.Basic

/-!
# A tree laid over a file system

Calls that work below one directory build a tree there and leave the rest as
it is.  An overlay is this tree in itself: the names of one file are a group,
known by the first of them, and which inode a group has is left to the file
system.
-/

namespace Foundation

namespace FileSystem

inductive Shape where
  | directory (mode : Nat)
  | file (group : Location)
  | symlink (target : List UInt8) (mtime : Timestamp)
  deriving DecidableEq

structure Overlay where
  shape : Location → Option Shape
  inode : Location → Inode

namespace Overlay

def empty : Overlay where
  shape _ := none
  inode _ := { mode := 0, mtime := .whole 0, content := [] }

def put (overlay : Overlay) (path : Location) (shape : Shape) : Overlay :=
  { overlay with shape := Function.update overlay.shape path (some shape) }

def setInode (overlay : Overlay) (group : Location) (inode : Inode) :
    Overlay :=
  { overlay with inode := Function.update overlay.inode group inode }

/-- A name that leads through a path is no symbolic link. -/
def NoLinkAbove (overlay : Overlay) (path : Location) : Prop :=
  ∀ above, above <+: path → above ≠ path →
    ∀ target mtime, overlay.shape above ≠ some (.symlink target mtime)

variable {overlay : Overlay} {path other group : Location} {shape : Shape}
  {inode : Inode}

theorem shape_put :
    (overlay.put path shape).shape other =
      if other = path then some shape else overlay.shape other := by
  rw [put]
  exact Function.update_apply ..

theorem shape_put_self : (overlay.put path shape).shape path = some shape := by
  rw [shape_put, if_pos rfl]

theorem shape_put_of_ne (different : other ≠ path) :
    (overlay.put path shape).shape other = overlay.shape other := by
  rw [shape_put, if_neg different]

@[simp] theorem shape_setInode :
    (overlay.setInode group inode).shape path = overlay.shape path := rfl

@[simp] theorem inode_put :
    (overlay.put path shape).inode other = overlay.inode other := rfl

theorem inode_setInode :
    (overlay.setInode group inode).inode other =
      if other = group then inode else overlay.inode other := by
  rw [setInode]
  exact Function.update_apply ..

theorem put_put {first second : Shape} :
    (overlay.put path first).put path second = overlay.put path second := by
  rw [put, put, put, Function.update_idem]

theorem put_eq_self (isShape : overlay.shape path = some shape) :
    overlay.put path shape = overlay := by
  rw [put, ← isShape, Function.update_eq_self]

theorem setInode_setInode {first second : Inode} :
    (overlay.setInode group first).setInode group second =
      overlay.setInode group second := by
  rw [setInode, setInode, setInode, Function.update_idem]

@[simp] theorem inode_setInode_self :
    (overlay.setInode group inode).inode group = inode := by
  rw [inode_setInode, if_pos rfl]

/-- A directory that may be there already. -/
def ensure (overlay : Overlay) (mode : Nat) (path : Location) : Overlay :=
  if overlay.shape path = none then overlay.put path (.directory mode)
  else overlay

/-- The directories that lead on from a path. -/
def ensureAll (overlay : Overlay) (mode : Nat) (above : Location) :
    List Name → Overlay
  | [] => overlay
  | name :: rest =>
      (overlay.ensure mode (above ++ [name])).ensureAll mode (above ++ [name])
        rest

theorem shape_ensure {mode : Nat} :
    (overlay.ensure mode path).shape other =
      if other = path ∧ overlay.shape path = none then some (.directory mode)
      else overlay.shape other := by
  rw [ensure]
  by_cases absent : overlay.shape path = none
  · rw [if_pos absent, shape_put]
    simp only [absent, and_true]
  · rw [if_neg absent, if_neg fun both => absent both.2]

/-- A place between a path and where some names lead from it. -/
def Between (above : Location) (names : List Name) (other : Location) : Prop :=
  above <+: other ∧ above ≠ other ∧ other <+: above ++ names

instance decidableBetween (above : Location) (names : List Name)
    (other : Location) : Decidable (Between above names other) :=
  inferInstanceAs (Decidable (_ ∧ _ ∧ _))

theorem between_nil {above : Location} : ¬ Between above [] other := by
  rintro ⟨below, different, short⟩
  rw [List.append_nil] at short
  exact different (below.eq_of_length_le short.length_le)

theorem between_cons {above rest : Location} {name : Name} :
    Between above (name :: rest) other ↔
      other = above ++ [name] ∨ Between (above ++ [name]) rest other := by
  constructor
  · rintro ⟨⟨inner, rfl⟩, different, short⟩
    have below := (List.prefix_append_right_inj above).mp short
    cases inner with
    | nil => exact absurd (List.append_nil _).symm different
    | cons first inner =>
        obtain ⟨rfl, below⟩ := List.cons_prefix_cons.mp below
        cases inner with
        | nil => exact .inl rfl
        | cons second inner =>
            refine .inr ⟨?_, ?_, ?_⟩
            · exact (List.prefix_append_right_inj above).mpr (by simp)
            · simp
            · rw [List.append_assoc]
              exact short
  · rintro (rfl | ⟨below, -, short⟩)
    · refine ⟨List.prefix_append _ _, by simp, ?_⟩
      exact (List.prefix_append_right_inj above).mpr (by simp)
    · refine ⟨(List.prefix_append _ _).trans below, ?_, ?_⟩
      · rintro rfl
        exact not_prefix_append _ _ below
      · rwa [List.append_assoc] at short

/-- Directories come where nothing was, and nothing else changes. -/
theorem shape_ensureAll {mode : Nat} {above : Location} {names : List Name} :
    (overlay.ensureAll mode above names).shape other =
      if overlay.shape other = none ∧ Between above names other then
        some (.directory mode)
      else overlay.shape other := by
  induction names generalizing overlay above with
  | nil => rw [ensureAll, if_neg fun both => between_nil both.2]
  | cons name rest induction =>
      rw [ensureAll, induction, shape_ensure]
      by_cases isHere : other = above ++ [name]
      · by_cases absent : overlay.shape (above ++ [name]) = none
        · simp [isHere, absent, between_cons]
        · simp [isHere, absent]
      · simp [isHere, between_cons]

theorem ensure_eq_self {mode : Nat} (present : overlay.shape path ≠ none) :
    overlay.ensure mode path = overlay :=
  if_neg present

/-- Where all directories are there already, none is made. -/
theorem ensureAll_eq_self {mode : Nat} {above : Location} {names : List Name}
    (present : ∀ other, Between above names other →
      overlay.shape other ≠ none) :
    overlay.ensureAll mode above names = overlay := by
  induction names generalizing above with
  | nil => rfl
  | cons name rest induction =>
      rw [ensureAll, ensure_eq_self]
      · apply induction
        intro other between
        exact present other (between_cons.mpr (.inr between))
      · exact present _ (between_cons.mpr (.inl rfl))

theorem NoLinkAbove.ensure {mode : Nat} (noLink : overlay.NoLinkAbove path) :
    (overlay.ensure mode other).NoLinkAbove path := by
  intro inner below different target mtime isLink
  rw [shape_ensure] at isLink
  split at isLink
  · cases isLink
  · exact noLink inner below different target mtime isLink

theorem NoLinkAbove.ensureAll {mode : Nat} {above : Location}
    {names : List Name} (noLink : overlay.NoLinkAbove path) :
    (overlay.ensureAll mode above names).NoLinkAbove path := by
  intro inner below different target mtime isLink
  rw [shape_ensureAll] at isLink
  split at isLink
  · cases isLink
  · exact noLink inner below different target mtime isLink

theorem NoLinkAbove.mono (noLink : overlay.NoLinkAbove path)
    (below : other <+: path) : overlay.NoLinkAbove other := by
  intro inner isInner different
  apply noLink inner (isInner.trans below)
  rintro rfl
  exact different (isInner.eq_of_length_le below.length_le)

end Overlay

/-- What stands at a place has a shape; a group has a number. -/
inductive Stands (number : Location → Nat) : Option Node → Option Shape → Prop
  | absent : Stands number none none
  | directory {mode : Nat} {mtime : Timestamp} :
      Stands number (some (.directory mode mtime)) (some (.directory mode))
  | file {group : Location} :
      Stands number (some (.file (number group))) (some (.file group))
  | symlink {target : List UInt8} {mtime : Timestamp} :
      Stands number (some (.symlink target mtime))
        (some (.symlink target mtime))

namespace Stands

variable {number later : Location → Nat} {held : Option Node}
  {shape : Option Shape}

theorem isNone_iff (stands : Stands number held shape) :
    held = none ↔ shape = none := by
  cases stands <;> simp

theorem of_directory {mode : Nat}
    (stands : Stands number held (some (.directory mode))) :
    ∃ mtime, held = some (.directory mode mtime) := by
  cases stands
  exact ⟨_, rfl⟩

theorem of_file {group : Location}
    (stands : Stands number held (some (.file group))) :
    held = some (.file (number group)) := by
  cases stands
  rfl

theorem of_symlink {target : List UInt8} {mtime : Timestamp}
    (stands : Stands number held (some (.symlink target mtime))) :
    held = some (.symlink target mtime) := by
  cases stands
  rfl

theorem symlink_shape {target : List UInt8} {mtime : Timestamp}
    (stands : Stands number (some (.symlink target mtime)) shape) :
    shape = some (.symlink target mtime) := by
  cases stands
  rfl

theorem congr (stands : Stands number held shape)
    (same : ∀ group, shape = some (.file group) → later group = number group) :
    Stands later held shape := by
  cases stands with
  | absent => exact .absent
  | directory => exact .directory
  | symlink => exact .symlink
  | file =>
      rw [← same _ rfl]
      exact .file

/-- The times of a directory show in no shape. -/
theorem adjust_mtime (stands : Stands number held shape)
    (isDirectory : held.any Node.isDirectory = true)
    (mtime : Timestamp → Timestamp) :
    Stands number (held.map (Node.adjust id mtime)) shape := by
  cases stands with
  | absent => cases isDirectory
  | directory => exact .directory
  | symlink => cases isDirectory
  | file => cases isDirectory

end Stands

/-- A directory of its own in which calls work, and a file system that is
otherwise as it was. -/
structure Confined (start : FileSystem) (root : Location) (fs : FileSystem) :
    Prop where
  directory : fs.isDirectory root = true
  outside : ∀ other, ¬ root <+: other → fs.node other = start.node other
  inodes : ∀ inode, inode < start.inodes.length →
    fs.inodes[inode]? = start.inodes[inode]?
  grown : start.inodes.length ≤ fs.inodes.length

/-- Below the root stands what the overlay says. -/
structure Lays (start : FileSystem) (root : Location) (overlay : Overlay)
    (number : Location → Nat) (fs : FileSystem) : Prop extends
    Confined start root fs where
  node : ∀ path, path ≠ [] →
    Stands number (fs.node (root ++ path)) (overlay.shape path)
  file : ∀ group, overlay.shape group = some (.file group) →
    start.inodes.length ≤ number group ∧
      fs.inodes[number group]? = some (overlay.inode group)
  separate : ∀ first second, overlay.shape first = some (.file first) →
    overlay.shape second = some (.file second) →
    number first = number second → first = second
  owned : ∀ path group, overlay.shape path = some (.file group) →
    overlay.shape group = some (.file group)
  rootless : overlay.shape [] = none

section Confined

variable {start fs after : FileSystem} {root location : Location} {held : Node}
  {extra : List Inode} {now : Timestamp}

theorem isPrefix_dropLast_append {path : Location} (notRoot : path ≠ []) :
    root <+: (root ++ path).dropLast := by
  rw [List.dropLast_append_of_ne_nil notRoot]
  exact List.prefix_append _ _

theorem inodes_adjust_of_no_file {mode : Nat → Nat}
    {mtime : Timestamp → Timestamp}
    (noFile : ∀ inode, fs.node location ≠ some (.file inode)) :
    (fs.adjust location mode mtime).inodes = fs.inodes := by
  change fs.adjustedInodes location mode mtime = fs.inodes
  unfold adjustedInodes
  split
  · next inode found => exact absurd found (noFile inode)
  · rfl

theorem Confined.refl (isDirectory : start.isDirectory root = true) :
    Confined start root start where
  directory := isDirectory
  outside _ _ := rfl
  inodes _ _ := rfl
  grown := Nat.le_refl _

theorem Confined.created (confined : Confined start root fs) {path : Location}
    (notRoot : path ≠ [])
    (created : Created fs after (root ++ path) held extra now) :
    Confined start root after := by
  have below : root <+: (root ++ path).dropLast :=
    isPrefix_dropLast_append notRoot
  constructor
  · rw [isDirectory, created.node, if_neg (by simp [notRoot])]
    split
    · rw [Node.any_isDirectory_adjust]
      exact confined.directory
    · exact confined.directory
  · intro other outside
    rw [created.node, if_neg, if_neg]
    · exact confined.outside other outside
    · rintro rfl
      exact outside below
    · rintro rfl
      exact outside (List.prefix_append _ _)
  · intro inode old
    rw [created.inodes, List.getElem?_append_left (old.trans_le confined.grown)]
    exact confined.inodes inode old
  · rw [created.inodes, List.length_append]
    exact confined.grown.trans (Nat.le_add_right _ _)

theorem Confined.adjusted (confined : Confined start root fs) {path : Location}
    {mode : Nat → Nat} {mtime : Timestamp → Timestamp}
    (fresh : ∀ inode, fs.node (root ++ path) = some (.file inode) →
      start.inodes.length ≤ inode) :
    Confined start root (fs.adjust (root ++ path) mode mtime) := by
  constructor
  · rw [isDirectory_adjust]
    exact confined.directory
  · intro other outside
    rw [node_adjust_of_ne]
    · exact confined.outside other outside
    · rintro rfl
      exact outside (List.prefix_append _ _)
  · intro inode old
    rw [← confined.inodes inode old]
    by_cases isFile : ∃ changed, fs.node (root ++ path) = some (.file changed)
    · obtain ⟨changed, found⟩ := isFile
      rw [inodes_adjust_of_file found]
      apply List.getElem?_modify_ne
      rintro rfl
      exact Nat.not_lt.mpr (fresh _ found) old
    · rw [inodes_adjust_of_no_file (not_exists.mp isFile)]
  · rw [length_inodes_adjust]
    exact confined.grown

theorem Confined.written (confined : Confined start root fs) {inode : Nat}
    {content : List UInt8} (fresh : start.inodes.length ≤ inode) :
    Confined start root (fs.write inode content) := by
  constructor
  · exact confined.directory
  · exact confined.outside
  · intro other old
    rw [← confined.inodes other old]
    apply List.getElem?_modify_ne
    omega
  · rw [FileSystem.write, List.length_modify]
    exact confined.grown

/-- What works below a directory that is itself below another. -/
theorem Confined.within {begun : FileSystem} {path : Location}
    (earlier : Confined start root begun)
    (confined : Confined begun (root ++ path) fs) : Confined start root fs := by
  constructor
  · exact isDirectory_of_below (List.prefix_append _ _) confined.directory
  · intro other outside
    rw [confined.outside, earlier.outside other outside]
    intro below
    exact outside ((List.prefix_append _ _).trans below)
  · intro inode old
    rw [confined.inodes inode (old.trans_le earlier.grown)]
    exact earlier.inodes inode old
  · exact earlier.grown.trans confined.grown

theorem Confined.touched (confined : Confined start root fs)
    (mtime : Timestamp → Timestamp) :
    Confined start root (fs.adjust root id mtime) := by
  have fresh : ∀ inode, fs.node (root ++ []) = some (.file inode) →
      start.inodes.length ≤ inode := by
    intro inode isFile
    have directory := confined.directory
    rw [List.append_nil] at isFile
    rw [isDirectory, isFile] at directory
    cases directory
  have adjusted := @Confined.adjusted start fs root confined [] id mtime fresh
  rwa [List.append_nil] at adjusted

variable {name goal : Name}

theorem Confined.removed (confined : Confined start root fs) :
    Confined start root (fs.remove (root ++ [name]) append_singleton_ne_nil) := by
  constructor
  · rw [isDirectory, node_remove_away (not_prefix_append _ _)]
    exact confined.directory
  · intro other outside
    rw [node_remove_away]
    · exact confined.outside other outside
    · intro below
      exact outside ((List.prefix_append _ _).trans below)
  · exact confined.inodes
  · exact confined.grown

theorem Confined.left (confined : Confined start root fs)
    (remnants : Remnants) :
    Confined start root (remnants.left fs (root ++ [name])) := by
  constructor
  · obtain ⟨mode, mtime, found⟩ :=
      FileSystem.isDirectory_iff.mp confined.directory
    have above := remnants.above fs (root ++ [name]) mode mtime
    rw [List.dropLast_concat] at above
    obtain ⟨later, isLater⟩ := above found
    exact FileSystem.isDirectory_iff.mpr ⟨mode, later, isLater⟩
  · intro other outside
    rw [remnants.node]
    · exact confined.outside other outside
    · intro below
      exact outside ((List.prefix_append _ _).trans below)
    · rw [List.dropLast_concat]
      rintro rfl
      exact outside (List.prefix_refl _)
  · rw [remnants.inodes]
    exact confined.inodes
  · rw [remnants.inodes]
    exact confined.grown

theorem Confined.moved (confined : Confined start root fs)
    (free : fs.Free root goal) (apart : ¬ root ++ [name] <+: root) :
    Confined start root (fs.move (root ++ [name]) root goal
      append_singleton_ne_nil free apart) := by
  constructor
  · rw [isDirectory, node_move, if_neg (not_prefix_append _ _),
      if_neg (not_prefix_append _ _)]
    exact confined.directory
  · intro other outside
    rw [node_move, if_neg, if_neg]
    · exact confined.outside other outside
    · intro below
      exact outside ((List.prefix_append _ _).trans below)
    · intro below
      exact outside ((List.prefix_append _ _).trans below)
  · exact confined.inodes
  · exact confined.grown

end Confined

/-! ## One name of a directory -/

/-- What one name of a directory leads to may have changed, and so may the
times of the directory. -/
structure Untouched (start : FileSystem) (above : Location) (name : Name)
    (fs : FileSystem) : Prop where
  directory : ∀ mode mtime, start.node above = some (.directory mode mtime) →
    ∃ later, fs.node above = some (.directory mode later)
  outside : ∀ other, ¬ above ++ [name] <+: other → other ≠ above →
    fs.node other = start.node other
  inodes : ∀ inode, inode < start.inodes.length →
    fs.inodes[inode]? = start.inodes[inode]?
  grown : start.inodes.length ≤ fs.inodes.length

namespace Untouched

variable {start fs after : FileSystem} {above : Location} {name : Name}

theorem refl : Untouched start above name start where
  directory _ mtime isDirectory := ⟨mtime, isDirectory⟩
  outside _ _ _ := rfl
  inodes _ _ := rfl
  grown := Nat.le_refl _

theorem isDirectory (untouched : Untouched start above name fs)
    (directory : start.isDirectory above = true) :
    fs.isDirectory above = true := by
  obtain ⟨mode, mtime, found⟩ := FileSystem.isDirectory_iff.mp directory
  obtain ⟨later, isLater⟩ := untouched.directory mode mtime found
  exact FileSystem.isDirectory_iff.mpr ⟨mode, later, isLater⟩

theorem touched (untouched : Untouched start above name fs)
    (directory : start.isDirectory above = true)
    (mtime : Timestamp → Timestamp) :
    Untouched start above name (fs.adjust above id mtime) := by
  obtain ⟨mode, time, found⟩ := FileSystem.isDirectory_iff.mp directory
  obtain ⟨later, isLater⟩ := untouched.directory mode time found
  have inodes : (fs.adjust above id mtime).inodes = fs.inodes := by
    apply inodes_adjust_of_no_file
    intro inode isFile
    rw [isLater] at isFile
    cases isFile
  constructor
  · intro held heldTime isHeld
    obtain ⟨next, isNext⟩ := untouched.directory held heldTime isHeld
    refine ⟨mtime next, ?_⟩
    rw [node_adjust, if_pos rfl, isNext]
    rfl
  · intro other notBelow notAbove
    rw [node_adjust_of_ne notAbove]
    exact untouched.outside other notBelow notAbove
  · rw [inodes]
    exact untouched.inodes
  · rw [inodes]
    exact untouched.grown

theorem created {held : Node} {extra : List Inode} {now : Timestamp}
    (made : Created start after (above ++ [name]) held extra now) :
    Untouched start above name after := by
  constructor
  · intro mode mtime found
    refine ⟨now, ?_⟩
    rw [made.node, if_neg (by simp), List.dropLast_concat, if_pos rfl, found]
    rfl
  · intro other notBelow notAbove
    rw [made.node, if_neg, List.dropLast_concat, if_neg notAbove]
    rintro rfl
    exact notBelow (List.prefix_refl _)
  · intro inode old
    rw [made.inodes, List.getElem?_append_left old]
  · rw [made.inodes, List.length_append]
    exact Nat.le_add_right _ _

theorem confined {begun : FileSystem}
    (untouched : Untouched start above name begun)
    (confined : Confined begun (above ++ [name]) fs) :
    Untouched start above name fs := by
  constructor
  · rw [confined.outside above (not_prefix_append _ _)]
    exact untouched.directory
  · intro other notBelow notAbove
    rw [confined.outside other notBelow]
    exact untouched.outside other notBelow notAbove
  · intro inode old
    rw [confined.inodes inode (old.trans_le untouched.grown)]
    exact untouched.inodes inode old
  · exact untouched.grown.trans confined.grown

theorem removed (untouched : Untouched start above name fs) :
    Untouched start above name
      (fs.remove (above ++ [name]) append_singleton_ne_nil) := by
  constructor
  · rw [node_remove_away (not_prefix_append _ _)]
    exact untouched.directory
  · intro other notBelow notAbove
    rw [node_remove_away notBelow]
    exact untouched.outside other notBelow notAbove
  · exact untouched.inodes
  · exact untouched.grown

theorem left (untouched : Untouched start above name fs)
    (remnants : Remnants) :
    Untouched start above name (remnants.left fs (above ++ [name])) := by
  constructor
  · intro mode mtime found
    obtain ⟨later, isLater⟩ := untouched.directory mode mtime found
    have above := remnants.above fs (above ++ [name]) mode later
    rw [List.dropLast_concat] at above
    exact above isLater
  · intro other notBelow notAbove
    rw [remnants.node]
    · exact untouched.outside other notBelow notAbove
    · exact notBelow
    · rwa [List.dropLast_concat]
  · rw [remnants.inodes]
    exact untouched.inodes
  · rw [remnants.inodes]
    exact untouched.grown

end Untouched

section Lays

variable {start fs after : FileSystem} {root path other group : Location}
  {overlay : Overlay} {number : Location → Nat} {held : Node}
  {extra : List Inode} {now : Timestamp} {shape : Shape}

theorem lays_empty (isDirectory : start.isDirectory root = true)
    (vacant : ∀ path, path ≠ [] → start.node (root ++ path) = none) :
    Lays start root .empty number start where
  toConfined := .refl isDirectory
  node path notRoot := by
    rw [vacant path notRoot]
    exact .absent
  file _ isFile := by cases isFile
  separate _ _ isFile := by cases isFile
  owned _ _ isFile := by cases isFile
  rootless := rfl

theorem Lays.isNone_iff (lays : Lays start root overlay number fs)
    (notRoot : path ≠ []) :
    fs.node (root ++ path) = none ↔ overlay.shape path = none :=
  (lays.node path notRoot).isNone_iff

theorem Lays.ne_nil (lays : Lays start root overlay number fs)
    (isShape : overlay.shape path = some shape) : path ≠ [] := by
  rintro rfl
  rw [lays.rootless] at isShape
  cases isShape

theorem Lays.node_directory (lays : Lays start root overlay number fs)
    {mode : Nat} (isShape : overlay.shape path = some (.directory mode)) :
    ∃ mtime, fs.node (root ++ path) = some (.directory mode mtime) := by
  have stands := lays.node path (lays.ne_nil isShape)
  rw [isShape] at stands
  exact stands.of_directory

theorem Lays.node_file (lays : Lays start root overlay number fs)
    (isShape : overlay.shape path = some (.file group)) :
    fs.node (root ++ path) = some (.file (number group)) := by
  have stands := lays.node path (lays.ne_nil isShape)
  rw [isShape] at stands
  exact stands.of_file

theorem Lays.node_symlink (lays : Lays start root overlay number fs)
    {target : List UInt8} {mtime : Timestamp}
    (isShape : overlay.shape path = some (.symlink target mtime)) :
    fs.node (root ++ path) = some (.symlink target mtime) := by
  have stands := lays.node path (lays.ne_nil isShape)
  rw [isShape] at stands
  exact stands.of_symlink

/-- A file below the root is none of those that were there before. -/
theorem Lays.fresh (lays : Lays start root overlay number fs) {inode : Nat}
    (notRoot : path ≠ [])
    (found : fs.node (root ++ path) = some (.file inode)) :
    start.inodes.length ≤ inode := by
  have stands := lays.node path notRoot
  rw [found] at stands
  generalize isShape : overlay.shape path = shape at stands
  cases stands with
  | @file group => exact (lays.file group (lays.owned path group isShape)).1

/-- What stands at other paths stays when a node is made. -/
theorem Lays.stands_created (lays : Lays start root overlay number fs)
    (created : Created fs after (root ++ path) held extra now)
    (different : other ≠ path) (notRoot : other ≠ []) :
    Stands number (after.node (root ++ other)) (overlay.shape other) := by
  rw [created.node, if_neg (by simpa using different)]
  split
  · next isAbove =>
      have isDirectory := created.above
      rw [← isAbove] at isDirectory
      exact (lays.node other notRoot).adjust_mtime isDirectory _
  · exact lays.node other notRoot

/-- A path gets a shape, and no file gets another. -/
theorem Lays.put (lays : Lays start root overlay number fs)
    (confined : Confined start root after) (notRoot : path ≠ [])
    (others : ∀ other, other ≠ path → other ≠ [] →
      Stands number (after.node (root ++ other)) (overlay.shape other))
    (here : Stands number (after.node (root ++ path)) (some shape))
    (inodes : after.inodes = fs.inodes)
    (noFile : ∀ group, overlay.shape path ≠ some (.file group))
    (grouped : ∀ group, shape = .file group →
      overlay.shape group = some (.file group)) :
    Lays start root (overlay.put path shape) number after := by
  -- The path is the first name of no group, before and after.
  have stays : ∀ group, (overlay.put path shape).shape group =
      some (.file group) → overlay.shape group = some (.file group) := by
    intro group isFile
    rw [Overlay.shape_put] at isFile
    split at isFile
    · exact grouped group (Option.some.inj isFile)
    · exact isFile
  refine { toConfined := confined, node := ?_, file := ?_, separate := ?_,
           owned := ?_, rootless := ?_ }
  · intro other otherNot
    by_cases same : other = path
    · rw [same, Overlay.shape_put_self]
      exact here
    · rw [Overlay.shape_put_of_ne same]
      exact others other same otherNot
  · intro group isFile
    rw [inodes]
    exact lays.file group (stays group isFile)
  · intro first second isFirst isSecond
    exact lays.separate first second (stays first isFirst)
      (stays second isSecond)
  · intro other group isFile
    have owner : overlay.shape group = some (.file group) := by
      rw [Overlay.shape_put] at isFile
      split at isFile
      · exact grouped group (Option.some.inj isFile)
      · exact lays.owned other group isFile
    rw [Overlay.shape_put_of_ne]
    · exact owner
    · rintro rfl
      exact noFile _ owner
  · rw [Overlay.shape_put_of_ne (Ne.symm notRoot)]
    exact lays.rootless

/-- A directory or a link is made, or a further name of a file. -/
theorem Lays.make (lays : Lays start root overlay number fs)
    (notRoot : path ≠ [])
    (created : Created fs after (root ++ path) held [] now)
    (stands : Stands number (some held) (some shape))
    (grouped : ∀ group, shape = .file group →
      overlay.shape group = some (.file group)) :
    Lays start root (overlay.put path shape) number after := by
  have absent := (lays.isNone_iff notRoot).mp created.absent
  apply lays.put (lays.toConfined.created notRoot created) notRoot
  · intro other different otherNot
    exact lays.stands_created created different otherNot
  · rw [created.node, if_pos rfl]
    exact stands
  · rw [created.inodes, List.append_nil]
  · intro group isFile
    rw [absent] at isFile
    cases isFile
  · exact grouped

/-- A file is made; it is the first of its group. -/
theorem Lays.makeFile (lays : Lays start root overlay number fs)
    (notRoot : path ≠ []) {inode : Inode}
    (created : Created fs after (root ++ path) (.file fs.inodes.length)
      [inode] now) :
    Lays start root ((overlay.put path (.file path)).setInode path inode)
      (Function.update number path fs.inodes.length) after := by
  have absent := (lays.isNone_iff notRoot).mp created.absent
  have otherGroup : ∀ group, overlay.shape group = some (.file group) →
      group ≠ path := by
    rintro group isFile rfl
    rw [absent] at isFile
    cases isFile
  have old : ∀ group, overlay.shape group = some (.file group) →
      Function.update number path fs.inodes.length group = number group :=
    fun group isFile => Function.update_of_ne (otherGroup group isFile) _ _
  have bound : ∀ group, overlay.shape group = some (.file group) →
      number group < fs.inodes.length := by
    intro group isFile
    have inode := (lays.file group isFile).2
    exact (List.getElem?_eq_some_iff.mp inode).1
  refine { toConfined := lays.toConfined.created notRoot created, node := ?_,
           file := ?_, separate := ?_, owned := ?_, rootless := ?_ }
  · intro other otherNot
    rw [Overlay.shape_setInode]
    by_cases same : other = path
    · rw [same, Overlay.shape_put_self, created.node, if_pos rfl]
      have stands : Stands (Function.update number path fs.inodes.length)
          (some (.file (Function.update number path fs.inodes.length path)))
          (some (.file path)) := .file
      rwa [Function.update_self] at stands
    · rw [Overlay.shape_put_of_ne same]
      apply (lays.stands_created created same otherNot).congr
      intro group isFile
      exact old group (lays.owned other group isFile)
  · intro group isFile
    rw [Overlay.shape_setInode] at isFile
    rw [created.inodes]
    by_cases same : group = path
    · rw [same, Function.update_self, Overlay.inode_setInode, if_pos rfl]
      exact ⟨lays.grown, List.getElem?_concat_length⟩
    · rw [Overlay.shape_put_of_ne same] at isFile
      rw [old group isFile, Overlay.inode_setInode, if_neg same,
        List.getElem?_append_left (bound group isFile)]
      exact lays.file group isFile
  · intro first second isFirst isSecond equal
    rw [Overlay.shape_setInode, Overlay.shape_put] at isFirst isSecond
    split at isFirst
    · next isHere =>
        split at isSecond
        · next alsoHere => rw [isHere, alsoHere]
        · rw [isHere, Function.update_self, old second isSecond] at equal
          exact absurd equal (Nat.ne_of_gt (bound second isSecond))
    · split at isSecond
      · next alsoHere =>
          rw [alsoHere, Function.update_self, old first isFirst] at equal
          exact absurd equal (Nat.ne_of_lt (bound first isFirst))
      · rw [old first isFirst, old second isSecond] at equal
        exact lays.separate first second isFirst isSecond equal
  · intro other group isFile
    rw [Overlay.shape_setInode, Overlay.shape_put] at isFile ⊢
    split at isFile
    · cases isFile
      rw [if_pos rfl]
    · have owner := lays.owned other group isFile
      rw [if_neg (otherGroup group owner)]
      exact owner
  · rw [Overlay.shape_setInode, Overlay.shape_put_of_ne (Ne.symm notRoot)]
    exact lays.rootless

/-- The inode of a group changes, and nothing else. -/
theorem Lays.setInode (lays : Lays start root overlay number fs)
    (confined : Confined start root after)
    (isFile : overlay.shape group = some (.file group))
    {change : Inode → Inode}
    (nodes : ∀ path, path ≠ [] → after.node (root ++ path) =
      fs.node (root ++ path))
    (inodes : after.inodes = fs.inodes.modify (number group) change) :
    Lays start root (overlay.setInode group (change (overlay.inode group)))
      number after := by
  refine { toConfined := confined, node := ?_, file := ?_,
           separate := lays.separate, owned := lays.owned,
           rootless := lays.rootless }
  · intro path notRoot
    rw [nodes path notRoot]
    exact lays.node path notRoot
  · intro other isOther
    have held := lays.file other isOther
    rw [inodes, Overlay.inode_setInode]
    by_cases same : other = group
    · rw [if_pos same, same, List.getElem?_modify_eq]
      rw [same] at held
      exact ⟨held.1, by rw [held.2]; rfl⟩
    · rw [if_neg same, List.getElem?_modify_ne]
      · exact held
      · intro equal
        exact same (lays.separate other group isOther isFile equal.symm)

/-! ### Attributes -/

theorem Lays.confined_adjust (lays : Lays start root overlay number fs)
    (notRoot : path ≠ []) {mode : Nat → Nat} {mtime : Timestamp → Timestamp} :
    Confined start root (fs.adjust (root ++ path) mode mtime) :=
  lays.toConfined.adjusted fun _ found => lays.fresh notRoot found

theorem Lays.adjust_directory (lays : Lays start root overlay number fs)
    {held : Nat} (isShape : overlay.shape path = some (.directory held))
    (mode : Nat → Nat) (mtime : Timestamp → Timestamp) :
    Lays start root (overlay.put path (.directory (mode held))) number
      (fs.adjust (root ++ path) mode mtime) := by
  have notRoot := lays.ne_nil isShape
  obtain ⟨time, found⟩ := lays.node_directory isShape
  apply lays.put (lays.confined_adjust notRoot) notRoot
  · intro other different otherNot
    rw [node_adjust_of_ne (by simpa using different)]
    exact lays.node other otherNot
  · rw [node_adjust, if_pos rfl, found]
    exact .directory
  · apply inodes_adjust_of_no_file
    intro inode isFile
    rw [found] at isFile
    cases isFile
  · intro group isFile
    rw [isShape] at isFile
    cases isFile
  · intro group isFile
    cases isFile

theorem Lays.adjust_symlink (lays : Lays start root overlay number fs)
    {target : List UInt8} {held : Timestamp}
    (isShape : overlay.shape path = some (.symlink target held))
    (mode : Nat → Nat) (mtime : Timestamp → Timestamp) :
    Lays start root (overlay.put path (.symlink target (mtime held))) number
      (fs.adjust (root ++ path) mode mtime) := by
  have notRoot := lays.ne_nil isShape
  have found := lays.node_symlink isShape
  apply lays.put (lays.confined_adjust notRoot) notRoot
  · intro other different otherNot
    rw [node_adjust_of_ne (by simpa using different)]
    exact lays.node other otherNot
  · rw [node_adjust, if_pos rfl, found]
    exact .symlink
  · apply inodes_adjust_of_no_file
    intro inode isFile
    rw [found] at isFile
    cases isFile
  · intro group isFile
    rw [isShape] at isFile
    cases isFile
  · intro group isFile
    cases isFile

theorem Lays.adjust_file (lays : Lays start root overlay number fs)
    (isShape : overlay.shape path = some (.file group))
    (mode : Nat → Nat) (mtime : Timestamp → Timestamp) :
    Lays start root
      (overlay.setInode group { overlay.inode group with
        mode := mode (overlay.inode group).mode
        mtime := mtime (overlay.inode group).mtime })
      number (fs.adjust (root ++ path) mode mtime) := by
  have notRoot := lays.ne_nil isShape
  have found := lays.node_file isShape
  have inodes : (fs.adjust (root ++ path) mode mtime).inodes =
      fs.inodes.modify (number group) fun held =>
        { held with mode := mode held.mode, mtime := mtime held.mtime } :=
    inodes_adjust_of_file found
  apply lays.setInode (lays.confined_adjust notRoot)
    (lays.owned path group isShape) _ inodes
  intro other otherNot
  rw [node_adjust]
  split
  · next same => rw [same, found]; rfl
  · rfl

theorem Lays.write (lays : Lays start root overlay number fs)
    (isShape : overlay.shape group = some (.file group))
    (content : List UInt8) :
    Lays start root
      (overlay.setInode group { overlay.inode group with content })
      number (fs.write (number group) content) := by
  have inodes : (fs.write (number group) content).inodes =
      fs.inodes.modify (number group) fun held => { held with content } := rfl
  have fresh := (lays.file group isShape).1
  apply lays.setInode (lays.toConfined.written fresh) isShape _ inodes
  intro other _
  rfl

/-! ### Paths -/

theorem isPrefix_append_iff {above : Location} :
    above <+: root ++ path ↔
      above <+: root ∨ ∃ inner, inner <+: path ∧ above = root ++ inner := by
  constructor
  · intro isPrefix
    rcases List.prefix_or_prefix_of_prefix isPrefix
      (List.prefix_append root path) with short | ⟨inner, rfl⟩
    · exact .inl short
    · exact .inr ⟨inner, (List.prefix_append_right_inj root).mp isPrefix, rfl⟩
  · rintro (short | ⟨inner, below, rfl⟩)
    · exact short.trans (List.prefix_append _ _)
    · exact (List.prefix_append_right_inj root).mpr below

/-- A path below the root leads where its names say, if anywhere. -/
theorem Lays.eq_of_resolve (lays : Lays start root overlay number fs)
    {process : Process} {follow : Bool} {location : Location}
    (valid : ∀ name ∈ path, ValidName name)
    (noLink : overlay.NoLinkAbove path)
    (last : follow = true →
      ∀ target mtime, overlay.shape path ≠ some (.symlink target mtime))
    (resolved : resolve process fs follow maxLinks [] (root ++ path) =
      .ok location) : location = root ++ path := by
  change location = [] ++ (root ++ path)
  apply FileSystem.eq_of_resolve _ _ resolved
  · intro name member
    rcases List.mem_append.mp member with inRoot | inPath
    · exact validName_of_mem (isSome_of_isDirectory lays.directory) inRoot
    · exact valid name inPath
  · intro above isAbove strict
    rw [List.nil_append]
    rcases isPrefix_append_iff.mp isAbove with short | ⟨inner, below, rfl⟩
    · apply isSymlink_of_isDirectory
      exact isDirectory_of_below short lays.directory
    · by_cases isRoot : inner = []
      · rw [isRoot, List.append_nil]
        exact isSymlink_of_isDirectory lays.directory
      · have stands := lays.node inner isRoot
        rw [isSymlink]
        split
        · next target mtime found =>
            rw [found] at stands
            have isLink := stands.symlink_shape
            by_cases same : inner = path
            · rw [same] at isLink strict
              have follows := strict.resolve_left fun different =>
                different rfl
              exact absurd isLink (last follows _ _)
            · exact absurd isLink (noLink inner below same _ _)
        · rfl

/-- On the way to something there are directories. -/
theorem Lays.noLinkAbove (lays : Lays start root overlay number fs)
    (isShape : overlay.shape path = some shape) :
    overlay.NoLinkAbove path := by
  rintro above ⟨rest, rfl⟩ different target mtime isLink
  have isRest : rest ≠ [] := by
    rintro rfl
    exact different (List.append_nil _).symm
  have found : (fs.node (root ++ above ++ rest)).isSome = true := by
    rw [List.append_assoc, Option.isSome_iff_ne_none]
    intro absent
    rw [(lays.isNone_iff (lays.ne_nil isShape)).mp absent] at isShape
    cases isShape
  have isDirectory := isDirectory_of_append isRest found
  rw [FileSystem.isDirectory, lays.node_symlink isLink] at isDirectory
  cases isDirectory

theorem Lays.validName (lays : Lays start root overlay number fs)
    (isShape : overlay.shape path = some shape) :
    ∀ name ∈ path, ValidName name := by
  intro name member
  have found : (fs.node (root ++ path)).isSome = true := by
    rw [Option.isSome_iff_ne_none]
    intro absent
    rw [(lays.isNone_iff (lays.ne_nil isShape)).mp absent] at isShape
    cases isShape
  exact validName_of_mem found (List.mem_append_right root member)

end Lays

end FileSystem

end Foundation
