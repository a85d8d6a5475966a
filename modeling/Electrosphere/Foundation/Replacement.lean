import Electrosphere.Foundation.Overlay

/-!
# A tree that takes the place of another

A tree is built beside the place it is meant for, what stands at that place is
removed, and the tree is renamed.  A process with privileges can always do the
last two steps, and it can always take away what it has built.
-/

namespace Foundation

namespace FileSystem

section Privileged

variable {process : Process} {fs : FileSystem} {above : Location}
  {name goal : Name}

theorem Process.mayEnter_of_privileged (privileged : process.privileged = true)
    (location : Location) : process.mayEnter fs location = true := by
  simp [Process.mayEnter, privileged]

theorem Process.mayChange_of_privileged
    (privileged : process.privileged = true) (location : Location) :
    process.mayChange fs location = true := by
  simp [Process.mayChange, privileged]

/-- A name in a directory can be resolved, whether something stands there or
not. -/
theorem resolve_of_privileged (privileged : process.privileged = true)
    (isDirectory : fs.isDirectory above = true) (valid : ValidName name)
    {follow : Bool} {links : Nat}
    (stays : follow = false ∨ fs.isSymlink (above ++ [name]) = false) :
    resolve process fs follow links [] (above ++ [name]) =
      .ok (above ++ [name]) := by
  have resolved := @resolve_concat process fs follow links [] name above valid
    (fun _ _ => Process.mayEnter_of_privileged privileged _)
  rw [List.nil_append] at resolved
  exact resolved isDirectory stays

/-- What is left when a name has been cleared. -/
def cleared (fs : FileSystem) (above : Location) (name : Name)
    (now : Timestamp) : FileSystem :=
  if (fs.node (above ++ [name])).isNone then fs
  else (fs.remove (above ++ [name]) append_singleton_ne_nil).adjust above id
    fun _ => now

theorem removeTree_of_privileged (privileged : process.privileged = true)
    (isDirectory : fs.isDirectory above = true) (valid : ValidName name) :
    removeTree process fs (above ++ [name]) =
      .ok (fs.cleared above name process.now) := by
  rw [removeTree, resolve_of_privileged privileged isDirectory valid (.inl rfl),
    cleared]
  dsimp only
  split
  · rfl
  · rw [dif_pos append_singleton_ne_nil, if_pos]
    · rw [List.dropLast_concat]
    · simp [Process.mayClear, privileged]

theorem renameTree_of_privileged (privileged : process.privileged = true)
    (isDirectory : fs.isDirectory above = true) (validName : ValidName name)
    (validGoal : ValidName goal)
    (present : (fs.node (above ++ [name])).isSome = true)
    (free : fs.node (above ++ [goal]) = none)
    (accepts : process.refuses (above ++ [goal]) = false) :
    ∃ after, renameTree process fs (above ++ [name]) (above ++ [goal]) =
      .ok after := by
  have origin := @resolve_of_privileged process fs above name privileged
    isDirectory validName false maxLinks (.inl rfl)
  have target := @resolve_of_privileged process fs above goal privileged
    isDirectory validGoal false maxLinks (.inl rfl)
  have place : fs.Free above goal := ⟨isDirectory, free, validGoal⟩
  have may := @Process.mayChange_of_privileged process fs privileged above
  have absent : (fs.node (above ++ [name])).isNone = false := by
    rw [← Option.not_isSome, present]
    rfl
  rw [renameTree, origin, target]
  simp only [bind, Except.bind, List.dropLast_concat, List.getLastD_concat,
    absent, may, free, accepts, Option.isSome_none, Bool.false_eq_true,
    if_false, or_self, reduceCtorEq]
  rw [dif_pos ⟨append_singleton_ne_nil, place, not_prefix_append _ _⟩]
  exact ⟨_, rfl⟩

end Privileged

/-! ## What has changed in the end -/

/-- Nothing has changed but the times of one directory. -/
structure Unharmed (start : FileSystem) (above : Location) (fs : FileSystem) :
    Prop where
  directory : ∀ mode mtime, start.node above = some (.directory mode mtime) →
    ∃ later, fs.node above = some (.directory mode later)
  outside : ∀ other, other ≠ above → fs.node other = start.node other
  inodes : ∀ inode, inode < start.inodes.length →
    fs.inodes[inode]? = start.inodes[inode]?

/-- At a location stands the tree that the overlay says; its files are new. -/
structure Holds (start : FileSystem) (root : Location) (overlay : Overlay)
    (number : Location → Nat) (fs : FileSystem) : Prop where
  directory : fs.isDirectory root = true
  node : ∀ path, path ≠ [] →
    Stands number (fs.node (root ++ path)) (overlay.shape path)
  file : ∀ group, overlay.shape group = some (.file group) →
    start.inodes.length ≤ number group ∧
      fs.inodes[number group]? = some (overlay.inode group)
  separate : ∀ first second, overlay.shape first = some (.file first) →
    overlay.shape second = some (.file second) →
    number first = number second → first = second

section Outcome

variable {start begun fs after : FileSystem} {above root : Location}
  {name goal : Name} {overlay : Overlay} {number : Location → Nat}
  {now : Timestamp}

theorem Unharmed.refl : Unharmed start above start where
  directory _ mtime isDirectory := ⟨mtime, isDirectory⟩
  outside _ _ := rfl
  inodes _ _ := rfl

theorem Untouched.cleared (untouched : Untouched start above name fs)
    (directory : start.isDirectory above = true) :
    Untouched start above name (fs.cleared above name now) := by
  rw [FileSystem.cleared]
  split
  · exact untouched
  · exact untouched.removed.touched directory _

/-- Below a name that leads to nothing there is nothing. -/
theorem node_append_of_absent {location rest : Location}
    (absent : fs.node location = none) : fs.node (location ++ rest) = none := by
  by_cases isHere : rest = []
  · rw [isHere, List.append_nil]
    exact absent
  · by_contra present
    have directory := isDirectory_of_append isHere
      (Option.isSome_iff_ne_none.mpr present)
    rw [isDirectory, absent] at directory
    cases directory

theorem node_cleared {rest : Location} :
    (fs.cleared above name now).node (above ++ [name] ++ rest) = none := by
  rw [cleared]
  split
  · next absent =>
      exact node_append_of_absent (Option.isNone_iff_eq_none.mp absent)
  · rw [node_adjust_of_ne, node_remove, if_pos (List.prefix_append _ _)]
    simp

/-- Where nothing was, a name that has been cleared is as it was. -/
theorem Untouched.unharmed (untouched : Untouched start above name fs)
    (directory : start.isDirectory above = true)
    (absent : start.node (above ++ [name]) = none) :
    Unharmed start above (fs.cleared above name now) where
  directory := (untouched.cleared directory).directory
  outside other notAbove := by
    by_cases below : above ++ [name] <+: other
    · obtain ⟨rest, rfl⟩ := below
      rw [node_cleared, node_append_of_absent absent]
    · exact (untouched.cleared directory).outside other below notAbove
  inodes := (untouched.cleared directory).inodes

theorem node_cleared_away {other : Location}
    (outside : ¬ above ++ [name] <+: other) (notAbove : other ≠ above) :
    (fs.cleared above name now).node other = fs.node other := by
  rw [cleared]
  split
  · rfl
  · rw [node_adjust_of_ne notAbove, node_remove_away outside]

theorem directory_cleared {mode : Nat} {mtime : Timestamp}
    (found : fs.node above = some (.directory mode mtime)) :
    ∃ later, (fs.cleared above name now).node above =
      some (.directory mode later) := by
  rw [cleared]
  split
  · exact ⟨mtime, found⟩
  · refine ⟨now, ?_⟩
    rw [node_adjust, if_pos rfl, node_remove_away (not_prefix_append _ _),
      found]
    rfl

theorem inodes_cleared (isDirectory : fs.isDirectory above = true) :
    (fs.cleared above name now).inodes = fs.inodes := by
  rw [cleared]
  split
  · rfl
  · apply inodes_adjust_of_directory
    rw [FileSystem.isDirectory, node_remove_away (not_prefix_append _ _)]
    exact isDirectory

/-- The file system when a tree has been renamed in its directory. -/
def renamed (fs : FileSystem) (above : Location) (name goal : Name)
    (now : Timestamp) (free : fs.Free above goal)
    (apart : ¬ above ++ [name] <+: above) : FileSystem :=
  ((fs.move (above ++ [name]) above goal append_singleton_ne_nil free
    apart).adjust above id fun _ => now).adjust above id fun _ => now

section Renamed

variable {free : fs.Free above goal} {apart : ¬ above ++ [name] <+: above}

/-- A tree is renamed with everything below it. -/
theorem node_renamed {rest : Location} :
    (fs.renamed above name goal now free apart).node
        (above ++ [goal] ++ rest) = fs.node (above ++ [name] ++ rest) := by
  have below : above ++ [goal] ++ rest ≠ above := by simp
  rw [renamed, node_adjust_of_ne below, node_adjust_of_ne below, node_move,
    if_pos (List.prefix_append _ _), List.drop_left]

theorem node_renamed_away {other : Location}
    (outside : ¬ above ++ [goal] <+: other) (notAbove : other ≠ above) :
    (fs.renamed above name goal now free apart).node other =
      if above ++ [name] <+: other then none else fs.node other := by
  rw [renamed, node_adjust_of_ne notAbove, node_adjust_of_ne notAbove,
    node_move, if_neg outside]

theorem directory_renamed {mode : Nat} {mtime : Timestamp}
    (found : fs.node above = some (.directory mode mtime)) :
    ∃ later, (fs.renamed above name goal now free apart).node above =
      some (.directory mode later) := by
  refine ⟨now, ?_⟩
  rw [renamed, node_adjust, if_pos rfl, node_adjust, if_pos rfl, node_move,
    if_neg (not_prefix_append _ _), if_neg apart, found]
  rfl

theorem inodes_renamed :
    (fs.renamed above name goal now free apart).inodes = fs.inodes := by
  have stays : (fs.move (above ++ [name]) above goal append_singleton_ne_nil
      free apart).isDirectory above = true := by
    rw [isDirectory, node_move, if_neg (not_prefix_append _ _), if_neg apart]
    exact free.inside
  rw [renamed, inodes_adjust_of_directory, inodes_adjust_of_directory stays]
  · rfl
  · rwa [isDirectory_adjust]

end Renamed

/-- A tree that has been built under a new name takes the place of what was at
another name, and nothing else has happened. -/
theorem Lays.replaces (untouched : Untouched start above name begun)
    (directory : start.isDirectory above = true)
    (absent : start.node (above ++ [name]) = none)
    (lays : Lays begun (above ++ [name]) overlay number fs)
    (different : name ≠ goal)
    (free : (fs.cleared above goal now).Free above goal)
    (apart : ¬ above ++ [name] <+: above) :
    Untouched start above goal
        ((fs.cleared above goal now).renamed above name goal now free apart) ∧
      Holds start (above ++ [goal]) overlay number
        ((fs.cleared above goal now).renamed above name goal now free
          apart) ∧
      ∀ rest, ((fs.cleared above goal now).renamed above name goal now free
        apart).node (above ++ [goal] ++ rest) =
          fs.node (above ++ [name] ++ rest) := by
  have built := untouched.confined lays.toConfined
  have isDirectory := built.isDirectory directory
  have separate : ∀ rest, ¬ above ++ [goal] <+: above ++ [name] ++ rest := by
    intro rest below
    rw [List.append_assoc, List.prefix_append_right_inj, List.singleton_append,
      List.cons_prefix_cons] at below
    exact different below.1.symm
  have tree : ∀ rest, ((fs.cleared above goal now).renamed above name goal now
      free apart).node (above ++ [goal] ++ rest) =
        fs.node (above ++ [name] ++ rest) := by
    intro rest
    rw [node_renamed, node_cleared_away (separate rest) (by simp)]
  have inodes : ((fs.cleared above goal now).renamed above name goal now free
      apart).inodes = fs.inodes := by
    rw [inodes_renamed, inodes_cleared isDirectory]
  refine ⟨?_, ?_, tree⟩
  · constructor
    · intro mode mtime found
      obtain ⟨later, isLater⟩ := built.directory mode mtime found
      obtain ⟨next, isNext⟩ := directory_cleared isLater
      exact directory_renamed isNext
    · intro other outside notAbove
      rw [node_renamed_away outside notAbove]
      split
      · next below =>
          obtain ⟨rest, rfl⟩ := below
          exact (node_append_of_absent absent).symm
      · next notBelow =>
          rw [node_cleared_away outside notAbove]
          exact built.outside other notBelow notAbove
    · rw [inodes]
      exact built.inodes
    · rw [inodes]
      exact built.grown
  · constructor
    · have here := tree []
      rw [List.append_nil, List.append_nil] at here
      rw [FileSystem.isDirectory, here]
      exact lays.directory
    · intro path notRoot
      rw [tree]
      exact lays.node path notRoot
    · intro group isFile
      obtain ⟨fresh, isInode⟩ := lays.file group isFile
      rw [inodes]
      exact ⟨untouched.grown.trans fresh, isInode⟩
    · exact lays.separate

end Outcome

end FileSystem

end Foundation
