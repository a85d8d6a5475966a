import Electrosphere.Foundation.Outcome
import Electrosphere.Foundation.SystemCalls

/-!
# What system calls change

What stands where after a call that has succeeded, and the calls that remove
and rename whole trees.
-/

namespace Foundation

namespace FileSystem

section Specifications

variable {process : Process} {fs after : FileSystem} {location other : Location}
  {held : Node} {extra : List Inode}

/-- Everything on the way to a directory is a directory. -/
theorem isDirectory_of_below {above : Location} (below : above <+: location)
    (isDirectory : fs.isDirectory location = true) :
    fs.isDirectory above = true := by
  obtain ⟨rest, rfl⟩ := below
  by_cases isLast : rest = []
  · rwa [isLast, List.append_nil] at isDirectory
  · exact isDirectory_of_append isLast (isSome_of_isDirectory isDirectory)

theorem isSymlink_of_isDirectory (isDirectory : fs.isDirectory location = true) :
    fs.isSymlink location = false := by
  obtain ⟨mode, mtime, found⟩ := FileSystem.isDirectory_iff.mp isDirectory
  rw [isSymlink, found]

theorem eq_of_resolve_directory {follow : Bool} {links : Nat}
    (isDirectory : fs.isDirectory location = true)
    (resolved : resolve process fs follow links [] location = .ok other) :
    other = location := by
  change other = [] ++ location
  apply FileSystem.eq_of_resolve _ _ resolved
  · intro name member
    exact validName_of_mem (isSome_of_isDirectory isDirectory) member
  · intro above below _
    exact isSymlink_of_isDirectory (isDirectory_of_below below isDirectory)

/-- A name in a directory is where it says, when no link is followed there. -/
theorem eq_of_resolve_last {name : Name} {follow : Bool} {links : Nat}
    (isDirectory : fs.isDirectory location = true) (valid : ValidName name)
    (last : follow = true → fs.isSymlink (location ++ [name]) = false)
    (resolved : resolve process fs follow links [] (location ++ [name]) =
      .ok other) : other = location ++ [name] := by
  change other = [] ++ (location ++ [name])
  apply FileSystem.eq_of_resolve _ _ resolved
  · intro part member
    rcases List.mem_append.mp member with isAbove | isLast
    · exact validName_of_mem (isSome_of_isDirectory isDirectory) isAbove
    · rw [List.mem_singleton.mp isLast]
      exact valid
  · intro above below strict
    rcases List.prefix_concat_iff.mp below with isHere | short
    · rw [isHere] at strict ⊢
      exact last (strict.resolve_left fun different => different rfl)
    · apply isSymlink_of_isDirectory
      exact isDirectory_of_below short isDirectory

theorem eq_of_resolve_concat {name : Name} {links : Nat}
    (isDirectory : fs.isDirectory location = true) (valid : ValidName name)
    (resolved : resolve process fs false links [] (location ++ [name]) =
      .ok other) : other = location ++ [name] :=
  eq_of_resolve_last isDirectory valid (fun follows => by cases follows)
    resolved

/-- A new node stands at a location, and its directory has been changed. -/
structure Created (fs after : FileSystem) (location : Location) (held : Node)
    (extra : List Inode) (now : Timestamp) : Prop where
  absent : fs.node location = none
  above : fs.isDirectory location.dropLast = true
  valid : ValidName (location.getLastD [])
  fits : held.Fits (fs.inodes ++ extra).length
  node : ∀ other, after.node other =
    if other = location then some held
    else if other = location.dropLast then
      (fs.node other).map (Node.adjust id fun _ => now)
    else fs.node other
  inodes : after.inodes = fs.inodes ++ extra

theorem ne_nil_of_absent (absent : fs.node location = none) :
    location ≠ [] := by
  rintro rfl
  have rooted := fs.rooted
  rw [absent] at rooted
  cases rooted

theorem dropLast_append_getLastD (notRoot : location ≠ []) :
    location.dropLast ++ [location.getLastD []] = location := by
  rw [List.getLastD_eq_getLast?, List.getLast?_eq_getLast_of_ne_nil notRoot,
    Option.getD_some, List.dropLast_append_getLast]

theorem created_of_create
    (made : create process fs location held extra = .ok after) :
    Created fs after location held extra process.now := by
  rw [create] at made
  split at made
  · cases made
  · next absent =>
      have absent : fs.node location = none := by simpa using absent
      have whole := dropLast_append_getLastD (ne_nil_of_absent absent)
      split at made
      · cases made
      · split at made
        · cases made
        · split at made
          · next possible =>
              cases made
              constructor
              · exact absent
              · exact possible.1.inside
              · exact possible.1.valid
              · exact possible.2
              · intro other
                rw [node_adjust, node_place, whole]
                by_cases isHere : other = location
                · have below : other ≠ location.dropLast := by
                    rintro rfl
                    have longer := congrArg List.length (whole.trans isHere.symm)
                    rw [List.length_append] at longer
                    simp at longer
                  rw [if_neg below, if_pos isHere, if_pos isHere]
                · rw [if_neg isHere, if_neg isHere]
              · apply inodes_adjust_of_directory
                rw [isDirectory, node_place, if_neg]
                · exact possible.1.inside
                · rw [whole]
                  intro same
                  have shorter := congrArg List.length (whole.trans same.symm)
                  rw [List.length_append] at shorter
                  simp at shorter
          · cases made

/-- Nothing is below a node that has just been made. -/
theorem Created.vacant {now : Timestamp} {rest : Location}
    (created : Created fs after location held extra now) (notHere : rest ≠ []) :
    after.node (location ++ rest) = none := by
  have absent : fs.node (location ++ rest) = none := by
    by_contra present
    have directory := isDirectory_of_append notHere
      (Option.isSome_iff_ne_none.mpr present)
    rw [isDirectory, created.absent] at directory
    cases directory
  rw [created.node, if_neg (by simpa using notHere)]
  split
  · rw [absent]
    rfl
  · exact absent

/-- A name can be made where the process may change the directory. -/
theorem create_eq_ok (absent : fs.node location = none)
    (may : process.mayChange fs location.dropLast = true)
    (accepted : process.refuses location = false)
    (above : fs.isDirectory location.dropLast = true)
    (valid : ValidName (location.getLastD []))
    (fits : held.Fits (fs.inodes ++ extra).length) :
    ∃ after, create process fs location held extra = .ok after := by
  have free : fs.Free location.dropLast (location.getLastD []) := by
    refine ⟨above, ?_, valid⟩
    rw [dropLast_append_getLastD (ne_nil_of_absent absent)]
    exact absent
  rw [create, if_neg (by simp [absent]), if_neg (by simp [may]),
    if_neg (by simp [accepted]), dif_pos ⟨free, fits⟩]
  exact ⟨_, rfl⟩

theorem setAttributes_eq_ok {base : Location} {follow : Bool}
    {path : List Name} {mode : Nat → Nat} {mtime : Timestamp → Timestamp}
    (adjusted : setAttributes process fs base follow path mode mtime =
      .ok after) :
    ∃ location, resolve process fs follow maxLinks base path = .ok location ∧
      (fs.node location).isSome = true ∧
      after = fs.adjust location mode mtime := by
  rw [setAttributes] at adjusted
  cases resolved : resolve process fs follow maxLinks base path with
  | error errno =>
      rw [resolved] at adjusted
      cases adjusted
  | ok location =>
      rw [resolved] at adjusted
      change (if _ then _ else _) = _ at adjusted
      split at adjusted
      · next found =>
          cases adjusted
          exact ⟨location, rfl, found, rfl⟩
      · cases adjusted

end Specifications

/-! ## Removing and renaming trees -/

/-- `S_IRUSR` -/
def Process.mayRead (mode : Nat) : Bool := mode.testBit 8

/-- Whether the names in a directory can be listed. -/
def Process.mayList (process : Process) (fs : FileSystem)
    (location : Location) : Bool :=
  process.privileged ||
    match fs.node location with
    | some (.directory mode _) => Process.mayRead mode
    | _ => false

/-- Whether everything from a location on can be removed. -/
def Process.mayClear (process : Process) (fs : FileSystem)
    (location : Location) : Bool :=
  process.privileged ||
    (process.mayChange fs location.dropLast &&
      fs.listing.all fun held =>
        !(decide (location <+: held)) || (fs.children held).isEmpty ||
          (process.mayList fs held && process.mayChange fs held))

/-- What a removal that has failed leaves: nothing has happened away from the
location. -/
structure Remnants where
  left : FileSystem → Location → FileSystem
  node : ∀ fs location other, ¬ location <+: other →
    other ≠ location.dropLast → (left fs location).node other = fs.node other
  above : ∀ fs location mode mtime,
    fs.node location.dropLast = some (.directory mode mtime) →
      ∃ later, (left fs location).node location.dropLast =
        some (.directory mode later)
  inodes : ∀ fs location, (left fs location).inodes = fs.inodes

/-- A removal that fails before it has removed anything. -/
def Remnants.all : Remnants where
  left fs _ := fs
  node _ _ _ _ _ := rfl
  above _ _ _ mtime found := ⟨mtime, found⟩
  inodes _ _ := rfl

section Trees

variable (process : Process) (fs : FileSystem)

/-- `rm` with `recursive` and `force`. -/
def removeTree (path : List Name) : Except (Errno × Option Location) FileSystem :=
  match resolve process fs false maxLinks [] path with
  | .error .noEntry => .ok fs
  | .error errno => .error (errno, none)
  | .ok location =>
      if (fs.node location).isNone then .ok fs
      else if notRoot : location ≠ [] then
        if process.mayClear fs location then
          .ok ((fs.remove location notRoot).adjust location.dropLast id
            fun _ => process.now)
        else .error (.accessDenied, some location)
      else .error (.notPermitted, none)

/-- `rename` to a name that is free. -/
def renameTree (source target : List Name) : Except Errno FileSystem := do
  let origin ← resolve process fs false maxLinks [] source
  let goal ← resolve process fs false maxLinks [] target
  if (fs.node origin).isNone then .error .noEntry
  else if process.mayChange fs origin.dropLast = false ∨
      process.mayChange fs goal.dropLast = false then
    .error .accessDenied
  else if (fs.node goal).isSome then .error .alreadyExists
  else if process.refuses goal then .error .nameTooLong
  else if possible : origin ≠ [] ∧
      fs.Free goal.dropLast (goal.getLastD []) ∧
      ¬ origin <+: goal.dropLast then
    .ok (((fs.move origin goal.dropLast (goal.getLastD []) possible.1
      possible.2.1 possible.2.2).adjust origin.dropLast id
        fun _ => process.now).adjust goal.dropLast id fun _ => process.now)
  else .error .noEntry

end Trees

section Specifications

variable {process : Process} {fs after : FileSystem} {above : Location}
  {name : Name}

theorem append_singleton_ne_nil : above ++ [name] ≠ [] := by simp

/-- A tree that has been removed is what the path names. -/
theorem removeTree_eq_ok (isDirectory : fs.isDirectory above = true)
    (valid : ValidName name)
    (removed : removeTree process fs (above ++ [name]) = .ok after) :
    after = fs ∨
      after = (fs.remove (above ++ [name]) append_singleton_ne_nil).adjust
        above id fun _ => process.now := by
  rw [removeTree] at removed
  split at removed
  · cases removed
    exact .inl rfl
  · cases removed
  · next location resolved =>
      have isHere := eq_of_resolve_concat isDirectory valid resolved
      subst isHere
      split at removed
      · cases removed
        exact .inl rfl
      · split at removed
        · split at removed
          · cases removed
            right
            rw [List.dropLast_concat]
          · cases removed
        · cases removed

/-- A removal that fails has begun at the path, or not at all. -/
theorem removeTree_eq_error {errno : Errno} {location : Option Location}
    (isDirectory : fs.isDirectory above = true) (valid : ValidName name)
    (failed : removeTree process fs (above ++ [name]) =
      .error (errno, location)) :
    location = none ∨ location = some (above ++ [name]) := by
  rw [removeTree] at failed
  split at failed
  · cases failed
  · cases failed
    exact .inl rfl
  · next resolved =>
      have isHere := eq_of_resolve_concat isDirectory valid resolved
      subst isHere
      split at failed
      · cases failed
      · split at failed
        · split at failed
          · cases failed
          · cases failed
            exact .inr rfl
        · cases failed
          exact .inl rfl

/-- A tree that has been renamed has been at the one path and is at the other,
which was free. -/
theorem renameTree_eq_ok {goal : Name} (isDirectory : fs.isDirectory above = true)
    (validName : ValidName name) (validGoal : ValidName goal)
    (renamed : renameTree process fs (above ++ [name]) (above ++ [goal]) =
      .ok after) :
    ∃ (free : fs.Free above goal) (apart : ¬ above ++ [name] <+: above),
      after = ((fs.move (above ++ [name]) above goal append_singleton_ne_nil
        free apart).adjust above id fun _ => process.now).adjust above id
          fun _ => process.now := by
  obtain ⟨origin, resolved, renamed⟩ := bind_eq_ok_iff.mp renamed
  obtain ⟨target, resolvedTarget, renamed⟩ := bind_eq_ok_iff.mp renamed
  have isOrigin := eq_of_resolve_concat isDirectory validName resolved
  have isTarget := eq_of_resolve_concat isDirectory validGoal resolvedTarget
  subst isOrigin isTarget
  split at renamed
  · cases renamed
  · split at renamed
    · cases renamed
    · split at renamed
      · cases renamed
      · split at renamed
        · cases renamed
        · split at renamed
          · next possible =>
              cases renamed
              obtain ⟨-, free, apart⟩ := possible
              simp only [List.dropLast_concat, List.getLastD_concat] at free apart
              refine ⟨free, apart, ?_⟩
              simp only [List.dropLast_concat, List.getLastD_concat]
          · cases renamed

end Specifications

end FileSystem

end Foundation
