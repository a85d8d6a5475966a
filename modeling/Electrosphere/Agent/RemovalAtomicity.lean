import Electrosphere.Agent.FileRemove

/-!
# When a removal is all or nothing

The entry is renamed away before anything below it is known to go.  It goes
with all that is below exactly when every directory can be read, emptied and
opened, and every name is text; otherwise a part of it stays under the name
that it was given.
-/

namespace Electrosphere.Agent

open Foundation Foundation.FileSystem

/-! ## Everything below a location -/

/-- What a removal asks of everything below a location. -/
structure Removable (process : FileSystem.Process) (fs : FileSystem)
    (location : Location) (descriptors : Nat) : Prop where
  listable : ∀ below, fs.isDirectory (location ++ below) = true →
    mayList process fs (location ++ below) = true
  changeable : ∀ below name,
    (fs.node (location ++ below ++ [name])).isSome = true →
    process.mayChange fs (location ++ below) = true
  text : ∀ below name,
    (fs.node (location ++ below ++ [name])).isSome = true →
    Utf8.encode (Utf8.decodeLossy name) = name
  shallow : ∀ below, fs.isDirectory (location ++ below) = true →
    2 * (below.length + 1) ≤ descriptors

/-- All nodes outside a location, and all inodes, are what they were. -/
structure KeptOutside (before after : FileSystem) (location : Location) :
    Prop where
  nodes : ∀ other, ¬ location <+: other → after.node other = before.node other
  inodes : after.inodes = before.inodes

/-- Nothing stands at a location or below it. -/
def Vacant (fs : FileSystem) (location : Location) : Prop :=
  ∀ other, location <+: other → fs.node other = none

section Locations

variable {process : FileSystem.Process} {fs before after : FileSystem}
  {location other : Location} {name : Name}

theorem isDirectory_congr (same : after.node other = before.node location) :
    after.isDirectory other = before.isDirectory location := by
  rw [FileSystem.isDirectory, same, FileSystem.isDirectory]

theorem mayList_congr (same : after.node other = before.node location) :
    mayList process after other = mayList process before location := by
  rw [mayList, same, mayList]

theorem mayChange_congr (same : after.node other = before.node location) :
    process.mayChange after other = process.mayChange before location := by
  rw [FileSystem.Process.mayChange, same, FileSystem.Process.mayChange]

theorem mayEnter_of_mayChange (may : process.mayChange fs location = true) :
    process.mayEnter fs location = true := by
  rw [FileSystem.Process.mayChange] at may
  rw [FileSystem.Process.mayEnter]
  cases isPrivileged : process.privileged with
  | true => rfl
  | false =>
      rw [isPrivileged, Bool.false_or] at may
      rw [Bool.false_or]
      split at may
      · exact ((Bool.and_eq_true _ _).mp may).2
      · cases may

/-- What is removable depends only on what is there. -/
theorem Removable.congr {descriptors : Nat}
    (same : ∀ below, after.node (other ++ below) =
      before.node (location ++ below))
    (removable : Removable process before location descriptors) :
    Removable process after other descriptors := by
  constructor
  · intro below isDirectory
    rw [isDirectory_congr (same below)] at isDirectory
    rw [mayList_congr (same below)]
    exact removable.listable below isDirectory
  · intro below name found
    rw [List.append_assoc, same, ← List.append_assoc] at found
    rw [mayChange_congr (same below)]
    exact removable.changeable below name found
  · intro below name found
    rw [List.append_assoc, same, ← List.append_assoc] at found
    exact removable.text below name found
  · intro below isDirectory
    rw [isDirectory_congr (same below)] at isDirectory
    exact removable.shallow below isDirectory

theorem removable_congr {descriptors : Nat}
    (same : ∀ below, after.node (other ++ below) =
      before.node (location ++ below)) :
    Removable process after other descriptors ↔
      Removable process before location descriptors :=
  ⟨Removable.congr fun below => (same below).symm, Removable.congr same⟩

/-- Nothing is below what is not a directory. -/
theorem removable_of_leaf {descriptors : Nat}
    (leaf : fs.isDirectory location = false) :
    Removable process fs location descriptors := by
  have nothing {below : Location} (some : below ≠ [])
      (found : (fs.node (location ++ below)).isSome = true) : False := by
    rw [fs.isDirectory_of_append some found] at leaf
    cases leaf
  have noDirectory {below : Location}
      (isDirectory : fs.isDirectory (location ++ below) = true) : False := by
    cases below with
    | nil =>
        rw [List.append_nil, leaf] at isDirectory
        cases isDirectory
    | cons first rest =>
        exact nothing (List.cons_ne_nil _ _)
          (FileSystem.isSome_of_isDirectory isDirectory)
  constructor
  · intro below isDirectory
    exact (noDirectory isDirectory).elim
  · intro below name found
    rw [List.append_assoc] at found
    exact (nothing (by simp) found).elim
  · intro below name found
    rw [List.append_assoc] at found
    exact (nothing (by simp) found).elim
  · intro below isDirectory
    exact (noDirectory isDirectory).elim

/-- A directory is removable if each of its entries is. -/
theorem removable_directory_iff {descriptors : Nat}
    (isDirectory : fs.isDirectory location = true) :
    Removable process fs location (descriptors + 2) ↔
      mayList process fs location = true ∧
        ∀ name ∈ fs.children location,
          process.mayChange fs location = true ∧
            Utf8.encode (Utf8.decodeLossy name) = name ∧
            Removable process fs (location ++ [name]) descriptors := by
  constructor
  · intro removable
    constructor
    · have listable := removable.listable []
      rw [List.append_nil] at listable
      exact listable isDirectory
    · intro name member
      have found := mem_children.mp member
      have changeable := removable.changeable [] name
      have text := removable.text [] name
      rw [List.append_nil] at changeable text
      refine ⟨changeable found, text found, ?_⟩
      constructor
      · intro below
        rw [List.append_assoc]
        exact removable.listable (name :: below)
      · intro below child
        rw [List.append_assoc location]
        exact removable.changeable (name :: below) child
      · intro below child
        rw [List.append_assoc location]
        exact removable.text (name :: below) child
      · intro below inner
        rw [List.append_assoc] at inner
        have shallow := removable.shallow (name :: below) inner
        rw [List.length_cons] at shallow
        omega
  · rintro ⟨listable, entries⟩
    -- What is below the directory is below one of its entries.
    have entry {first : Name} {rest : Location}
        (found : (fs.node (location ++ first :: rest)).isSome = true) :
        first ∈ fs.children location := by
      rw [mem_children]
      cases rest with
      | nil => exact found
      | cons second rest =>
          rw [List.append_cons location first] at found
          exact FileSystem.isSome_of_isDirectory
            (fs.isDirectory_of_append (List.cons_ne_nil _ _) found)
    constructor
    · intro below inner
      cases below with
      | nil =>
          rw [List.append_nil]
          exact listable
      | cons first rest =>
          have member := entry (FileSystem.isSome_of_isDirectory inner)
          rw [List.append_cons location first] at inner ⊢
          exact (entries first member).2.2.listable rest inner
    · intro below name found
      cases below with
      | nil =>
          rw [List.append_nil] at found ⊢
          exact (entries name (mem_children.mpr found)).1
      | cons first rest =>
          have inside : (fs.node
              (location ++ first :: (rest ++ [name]))).isSome = true := by
            rw [← found]
            simp
          have member := entry inside
          rw [List.append_cons location first] at found ⊢
          exact (entries first member).2.2.changeable rest name found
    · intro below name found
      cases below with
      | nil =>
          rw [List.append_nil] at found
          exact (entries name (mem_children.mpr found)).2.1
      | cons first rest =>
          have inside : (fs.node
              (location ++ first :: (rest ++ [name]))).isSome = true := by
            rw [← found]
            simp
          have member := entry inside
          rw [List.append_cons location first] at found
          exact (entries first member).2.2.text rest name found
    · intro below inner
      cases below with
      | nil =>
          change 2 ≤ descriptors + 2
          omega
      | cons first rest =>
          have member := entry (FileSystem.isSome_of_isDirectory inner)
          rw [List.append_cons location first] at inner
          have shallow := (entries first member).2.2.shallow rest inner
          rw [List.length_cons]
          omega

/-- Two descriptors are needed for a directory. -/
theorem not_removable_of_few {descriptors : Nat}
    (isDirectory : fs.isDirectory location = true) (few : descriptors < 2) :
    ¬ Removable process fs location descriptors := by
  intro removable
  have shallow := removable.shallow [] (by
    rw [List.append_nil]
    exact isDirectory)
  change 2 ≤ descriptors at shallow
  omega

end Locations

/-! ## System calls -/

section Calls

variable {process : FileSystem.Process} {fs before after : FileSystem}
  {directory location other : Location} {name : Name}
  {node : FileSystem.Node} {asDirectory : Bool}

theorem lookupAt_eq_ok_iff :
    lookupAt process fs directory name = .ok node ↔
      process.mayEnter fs directory = true ∧
        fs.node (directory ++ [name]) = some node := by
  rw [lookupAt]
  cases enters : process.mayEnter fs directory with
  | false => simp
  | true =>
      rw [if_neg (by simp)]
      cases found : fs.node (directory ++ [name]) with
      | none =>
          dsimp only
          split <;> simp
      | some held => simp

theorem keptOutside_remove (notRoot : location ≠ []) :
    KeptOutside fs (fs.remove location notRoot) location where
  nodes _ outside := node_remove_away outside
  inodes := rfl

theorem vacant_remove (notRoot : location ≠ []) :
    Vacant (fs.remove location notRoot) location := by
  intro other below
  rw [node_remove, if_pos below]

theorem KeptOutside.trans {last : FileSystem}
    (first : KeptOutside fs before location)
    (second : KeptOutside before last location) :
    KeptOutside fs last location where
  nodes other outside :=
    (second.nodes other outside).trans (first.nodes other outside)
  inodes := second.inodes.trans first.inodes

/-- What `unlinkat` has found when it succeeds. -/
structure Unlinked (process : FileSystem.Process) (fs : FileSystem)
    (directory : Location) (name : Name) (asDirectory : Bool)
    (after : FileSystem) : Prop where
  may : process.mayChange fs directory = true
  empty : asDirectory = true → fs.children (directory ++ [name]) = []
  result : after = fs.remove (directory ++ [name]) (by simp)

theorem unlinked_of_removeAt
    (removes : removeAt process fs directory name asDirectory = .ok after) :
    Unlinked process fs directory name asDirectory after := by
  rw [removeAt] at removes
  cases looks : lookupAt process fs directory name with
  | error error =>
      rw [looks] at removes
      cases removes
  | ok held =>
      rw [looks] at removes
      dsimp only at removes
      split at removes
      · cases removes
      · next may =>
          split at removes
          · cases removes
          · split at removes
            · cases removes
            · split at removes
              · cases removes
              · next empty =>
                  cases removes
                  constructor
                  · simpa using may
                  · rintro rfl
                    simpa using empty
                  · rfl

theorem removeAt_eq (found : fs.node (directory ++ [name]) = some node)
    (kind : node.isDirectory = asDirectory)
    (may : process.mayChange fs directory = true)
    (empty : asDirectory = true → fs.children (directory ++ [name]) = []) :
    removeAt process fs directory name asDirectory =
      .ok (fs.remove (directory ++ [name]) (by simp)) := by
  have looks : lookupAt process fs directory name = .ok node :=
    lookupAt_eq_ok_iff.mpr ⟨mayEnter_of_mayChange may, found⟩
  rw [removeAt, looks]
  dsimp only
  rw [may, kind]
  cases asDirectory with
  | false => rfl
  | true =>
      rw [empty rfl]
      rfl

theorem openDirectoryAt_one
    (enters : process.mayEnter fs directory = true)
    (found : fs.node (directory ++ [name]) = some node)
    (isDirectory : node.isDirectory = true) :
    openDirectoryAt process fs directory [name] =
      if mayList process fs (directory ++ [name]) then .ok (directory ++ [name])
      else .error .accessDenied := by
  obtain ⟨mode, mtime, rfl⟩ := FileSystem.Node.isDirectory_iff.mp isDirectory
  have entered : enterAt process fs directory name = .ok (directory ++ [name]) := by
    rw [enterAt, lookupAt_eq_ok_iff.mpr ⟨enters, found⟩]
  rw [openDirectoryAt, List.foldlM_cons, entered]
  rfl

end Calls

/-! ## One entry and the entries of a directory -/

/-- What a removal makes of one entry of a directory. -/
structure Removes (process : FileSystem.Process) (fs : FileSystem)
    (parent : Location) (entry : Name) (descriptors : Nat)
    (result : Removal Unit) : Prop where
  kept : KeptOutside fs result.2 (parent ++ [entry])
  done_iff : result.1 = .ok () ↔
    (fs.node (parent ++ [entry])).isSome = true ∧
      process.mayChange fs parent = true ∧
      Removable process fs (parent ++ [entry]) descriptors
  vacant : result.1 = .ok () → Vacant result.2 (parent ++ [entry])

section Entries

variable {process : FileSystem.Process} {fs after : FileSystem}
  {parent directory : Location} {entry : Name} {descriptors : Nat}
  {failure : FileFailure} {remove : FileSystem → Text → Removal Unit}

theorem KeptOutside.refl (fs : FileSystem) (location : Location) :
    KeptOutside fs fs location where
  nodes _ _ := rfl
  inodes := rfl

theorem Removes.failed
    (stays : KeptOutside fs after (parent ++ [entry]))
    (cannot : ¬ ((fs.node (parent ++ [entry])).isSome = true ∧
      process.mayChange fs parent = true ∧
      Removable process fs (parent ++ [entry]) descriptors)) :
    Removes process fs parent entry descriptors (.error failure, after) where
  kept := stays
  done_iff := iff_of_false (by simp) cannot
  vacant done := by cases done

theorem Removes.done (stays : KeptOutside fs after (parent ++ [entry]))
    (gone : Vacant after (parent ++ [entry]))
    (can : (fs.node (parent ++ [entry])).isSome = true ∧
      process.mayChange fs parent = true ∧
      Removable process fs (parent ++ [entry]) descriptors) :
    Removes process fs parent entry descriptors (.ok (), after) where
  kept := stays
  done_iff := iff_of_true rfl can
  vacant _ := gone

theorem name_of_inside {first second : Name} {below : Location}
    (inside : directory ++ [first] <+: directory ++ second :: below) :
    first = second := by
  have short := (List.prefix_append_right_inj directory).mp inside
  exact (List.cons_prefix_cons.mp short).1

/-- Another entry of the directory stays as it is. -/
theorem KeptOutside.sibling {other : Name}
    (kept : KeptOutside fs after (directory ++ [entry]))
    (different : entry ≠ other) (below : Location) :
    after.node (directory ++ other :: below) =
      fs.node (directory ++ other :: below) :=
  kept.nodes _ fun inside => different (name_of_inside inside)

theorem KeptOutside.above (kept : KeptOutside fs after (directory ++ [entry])) :
    after.node directory = fs.node directory :=
  kept.nodes _ (not_prefix_append directory entry)

variable (spec : ∀ fs child,
  Removes process fs directory (Utf8.encode child) descriptors (remove fs child))

include spec

/-- The loop touches only what its names decode to. -/
theorem removeChildren_kept {children : List Name} {other : Location}
    (outside : ∀ child ∈ children,
      ¬ directory ++ [Utf8.encode (Utf8.decodeLossy child)] <+: other) :
    (removeChildren remove fs children).2.node other = fs.node other := by
  induction children generalizing fs with
  | nil => rfl
  | cons child children induction =>
      have one := spec fs (Utf8.decodeLossy child)
      have apart := one.kept.nodes other (outside child List.mem_cons_self)
      rw [removeChildren]
      cases result : remove fs (Utf8.decodeLossy child) with
      | mk answer next =>
          rw [result] at apart
          cases answer with
          | error failure => exact apart
          | ok _ =>
              have later : (removeChildren remove next children).2.node other =
                  next.node other :=
                induction fun other member =>
                  outside other (List.mem_cons_of_mem child member)
              exact later.trans apart

theorem removeChildren_inodes {children : List Name} :
    (removeChildren remove fs children).2.inodes = fs.inodes := by
  induction children generalizing fs with
  | nil => rfl
  | cons child children induction =>
      have one := (spec fs (Utf8.decodeLossy child)).kept.inodes
      rw [removeChildren]
      cases result : remove fs (Utf8.decodeLossy child) with
      | mk answer next =>
          rw [result] at one
          cases answer with
          | error failure => exact one
          | ok _ => exact induction.trans one

/-- The entries of a directory go if each of them can go. -/
theorem removeChildren_done_iff {children : List Name}
    (distinct : children.Nodup)
    (text : ∀ child ∈ children,
      Utf8.encode (Utf8.decodeLossy child) = child) :
    (removeChildren remove fs children).1 = .ok () ↔
      ∀ child ∈ children,
        (fs.node (directory ++ [child])).isSome = true ∧
          process.mayChange fs directory = true ∧
          Removable process fs (directory ++ [child]) descriptors := by
  induction children generalizing fs with
  | nil => simp [removeChildren]
  | cons child children induction =>
      have one := spec fs (Utf8.decodeLossy child)
      rw [text child List.mem_cons_self] at one
      obtain ⟨fresh, distinct⟩ := List.nodup_cons.mp distinct
      have laterText := fun other member =>
        text other (List.mem_cons_of_mem child member)
      rw [removeChildren]
      cases result : remove fs (Utf8.decodeLossy child) with
      | mk answer next =>
          rw [result] at one
          cases answer with
          | error failure =>
              apply iff_of_false (by simp)
              intro all
              have first := one.done_iff.mpr (all child List.mem_cons_self)
              cases first
          | ok _ =>
              have first := one.done_iff.mp rfl
              -- The later entries are as they were.
              have same : ∀ other ∈ children, ∀ below,
                  next.node (directory ++ [other] ++ below) =
                    fs.node (directory ++ [other] ++ below) := by
                intro other member below
                rw [List.append_assoc]
                apply one.kept.sibling
                rintro rfl
                exact fresh member
              have mayChange : process.mayChange next directory =
                  process.mayChange fs directory :=
                mayChange_congr one.kept.above
              dsimp only
              rw [induction distinct laterText, List.forall_mem_cons,
                and_iff_right first]
              apply forall₂_congr
              intro other member
              have here := same other member []
              rw [List.append_nil] at here
              rw [here, mayChange, removable_congr (same other member)]

/-- What the loop has removed is gone. -/
theorem removeChildren_vacant {children : List Name} {child : Name}
    (member : child ∈ children)
    (text : ∀ child ∈ children,
      Utf8.encode (Utf8.decodeLossy child) = child)
    (distinct : children.Nodup)
    (done : (removeChildren remove fs children).1 = .ok ()) :
    (removeChildren remove fs children).2.node (directory ++ [child]) =
      none := by
  induction children generalizing fs with
  | nil => cases member
  | cons first children induction =>
      have one := spec fs (Utf8.decodeLossy first)
      rw [text first List.mem_cons_self] at one
      obtain ⟨fresh, distinct⟩ := List.nodup_cons.mp distinct
      have laterText := fun other member =>
        text other (List.mem_cons_of_mem first member)
      rw [removeChildren] at done ⊢
      cases result : remove fs (Utf8.decodeLossy first) with
      | mk answer next =>
          rw [result] at done one
          cases answer with
          | error failure => cases done
          | ok _ =>
              dsimp only at done ⊢
              rcases List.mem_cons.mp member with rfl | later
              · rw [removeChildren_kept spec]
                · exact one.vacant rfl _ (List.prefix_refl _)
                · intro other isOther inside
                  rw [laterText other isOther] at inside
                  have same := name_of_inside inside
                  exact fresh (same ▸ isOther)
              · exact induction later laterText distinct done

/-- A directory whose entries have been visited is empty only if the names of
all of them were text. -/
theorem text_of_empty {children : List Name}
    (listed : ∀ child ∈ children,
      (fs.node (directory ++ [child])).isSome = true)
    (empty : (removeChildren remove fs children).2.children directory = []) :
    ∀ child ∈ children, Utf8.encode (Utf8.decodeLossy child) = child := by
  intro child member
  by_contra other
  have outside : ∀ next ∈ children,
      ¬ directory ++ [Utf8.encode (Utf8.decodeLossy next)] <+:
        directory ++ [child] := by
    intro next _ inside
    have same := name_of_inside inside
    rw [← same, Utf8.decodeLossy_encode] at other
    exact other rfl
  have stays : (removeChildren remove fs children).2.node
      (directory ++ [child]) = fs.node (directory ++ [child]) :=
    removeChildren_kept spec outside
  have remains :
      child ∈ (removeChildren remove fs children).2.children directory := by
    rw [mem_children, stays]
    exact listed child member
  rw [empty] at remains
  cases remains

/-- A directory is emptied exactly when each of its entries can go. -/
theorem removeChildren_empties_iff {children : List Name}
    (isListing : children.Perm (fs.children directory)) :
    (removeChildren remove fs children).1 = .ok () ∧
        (removeChildren remove fs children).2.children directory = [] ↔
      ∀ child ∈ fs.children directory,
        process.mayChange fs directory = true ∧
          Utf8.encode (Utf8.decodeLossy child) = child ∧
          Removable process fs (directory ++ [child]) descriptors := by
  have distinct : children.Nodup :=
    isListing.nodup_iff.mpr (fs.nodup_children directory)
  have listed : ∀ child ∈ children,
      (fs.node (directory ++ [child])).isSome = true := fun child member =>
    mem_children.mp (isListing.mem_iff.mp member)
  constructor
  · rintro ⟨done, empty⟩ child member
    have text := text_of_empty spec listed empty
    have inside := isListing.mem_iff.mpr member
    obtain ⟨-, mayChange, removable⟩ :=
      (removeChildren_done_iff spec distinct text).mp done child inside
    exact ⟨mayChange, text child inside, removable⟩
  · intro all
    have entry := fun child (member : child ∈ children) =>
      all child (isListing.mem_iff.mp member)
    have text := fun child member => (entry child member).2.1
    have done := (removeChildren_done_iff spec distinct text).mpr
      fun child member =>
        ⟨listed child member, (entry child member).1, (entry child member).2.2⟩
    refine ⟨done, ?_⟩
    rw [List.eq_nil_iff_forall_not_mem]
    intro child remains
    rw [mem_children] at remains
    by_cases member : child ∈ children
    · rw [removeChildren_vacant spec member text distinct done] at remains
      cases remains
    · rw [removeChildren_kept spec] at remains
      · exact member (isListing.mem_iff.mpr (mem_children.mpr remains))
      · intro next isNext inside
        rw [text next isNext] at inside
        exact member (name_of_inside inside ▸ isNext)

end Entries

/-! ## Removing what has been detached -/

namespace RemovalService

variable {service : RemovalService} {fs : FileSystem} {parent : Location}
  {name : Text}

theorem removes_of_unfound {descriptors : Nat} {error : IoError}
    (looks : lookupAt service.process fs parent (Utf8.encode name) =
      .error error) :
    Removes service.process fs parent (Utf8.encode name) descriptors
      (service.removeDetached descriptors fs parent name) := by
  rw [removeDetached.eq_def, looks]
  apply Removes.failed (KeptOutside.refl fs _)
  rintro ⟨found, may, -⟩
  obtain ⟨node, isNode⟩ := Option.isSome_iff_exists.mp found
  rw [lookupAt_eq_ok_iff.mpr ⟨mayEnter_of_mayChange may, isNode⟩] at looks
  cases looks

theorem removes_of_leaf {descriptors : Nat} {node : FileSystem.Node}
    (looks : lookupAt service.process fs parent (Utf8.encode name) = .ok node)
    (leaf : node.isDirectory = false) :
    Removes service.process fs parent (Utf8.encode name) descriptors
      (service.removeDetached descriptors fs parent name) := by
  have found := (lookupAt_eq_ok_iff.mp looks).2
  have empty : false = true →
      fs.children (parent ++ [Utf8.encode name]) = [] := by simp
  rw [removeDetached.eq_def, looks]
  dsimp only
  rw [if_pos leaf]
  cases removes : removeAt service.process fs parent (Utf8.encode name) false with
  | error error =>
      apply Removes.failed (KeptOutside.refl fs _)
      rintro ⟨-, may, -⟩
      rw [removeAt_eq found leaf may empty] at removes
      cases removes
  | ok after =>
      have unlinked := unlinked_of_removeAt removes
      rw [unlinked.result]
      apply Removes.done (keptOutside_remove _) (vacant_remove _)
      have notDirectory :
          fs.isDirectory (parent ++ [Utf8.encode name]) = false := by
        rw [FileSystem.isDirectory, found]
        exact leaf
      refine ⟨?_, unlinked.may, removable_of_leaf notDirectory⟩
      rw [found]
      rfl

theorem removes_of_few {descriptors : Nat} {node : FileSystem.Node}
    (looks : lookupAt service.process fs parent (Utf8.encode name) = .ok node)
    (isDirectory : node.isDirectory = true) (few : descriptors < 2) :
    Removes service.process fs parent (Utf8.encode name) descriptors
      (service.removeDetached descriptors fs parent name) := by
  obtain ⟨enters, found⟩ := lookupAt_eq_ok_iff.mp looks
  have directory : fs.isDirectory (parent ++ [Utf8.encode name]) = true := by
    rw [FileSystem.isDirectory, found]
    exact isDirectory
  have cannot : ¬ ((fs.node (parent ++ [Utf8.encode name])).isSome = true ∧
      service.process.mayChange fs parent = true ∧
      Removable service.process fs (parent ++ [Utf8.encode name])
        descriptors) := by
    rintro ⟨-, -, removable⟩
    exact not_removable_of_few directory few removable
  rw [removeDetached.eq_def, looks]
  dsimp only
  rw [if_neg (by simp [isDirectory])]
  cases descriptors with
  | zero => exact Removes.failed (KeptOutside.refl fs _) cannot
  | succ descriptors =>
      obtain rfl : descriptors = 0 := by omega
      dsimp only
      rw [openDirectoryAt_one enters found isDirectory]
      cases mayList service.process fs (parent ++ [Utf8.encode name]) with
      | false => exact Removes.failed (KeptOutside.refl fs _) cannot
      | true => exact Removes.failed (KeptOutside.refl fs _) cannot

theorem removes_of_directory {descriptors : Nat} {node : FileSystem.Node}
    (looks : lookupAt service.process fs parent (Utf8.encode name) = .ok node)
    (isDirectory : node.isDirectory = true)
    (spec : ∀ fs parent child, Removes service.process fs parent
      (Utf8.encode child) descriptors
      (service.removeDetached descriptors fs parent child)) :
    Removes service.process fs parent (Utf8.encode name) (descriptors + 2)
      (service.removeDetached (descriptors + 2) fs parent name) := by
  obtain ⟨enters, found⟩ := lookupAt_eq_ok_iff.mp looks
  have directory : fs.isDirectory (parent ++ [Utf8.encode name]) = true := by
    rw [FileSystem.isDirectory, found]
    exact isDirectory
  have spec := fun fs child => spec fs (parent ++ [Utf8.encode name]) child
  have empties := removeChildren_empties_iff spec
    (service.names_perm fs (parent ++ [Utf8.encode name]))
  have inner : ∀ child ∈ service.names fs (parent ++ [Utf8.encode name]),
      ∀ {other}, ¬ parent ++ [Utf8.encode name] <+: other →
        ¬ parent ++ [Utf8.encode name] ++
          [Utf8.encode (Utf8.decodeLossy child)] <+: other :=
    fun child _ other outside inside =>
      outside ((List.prefix_append _ _).trans inside)
  have keeps := fun other (outside : ¬ parent ++ [Utf8.encode name] <+: other) =>
    @removeChildren_kept _ fs _ _ _ spec _ _ fun child member =>
      inner child member outside
  have keepsHere := @removeChildren_kept _ fs _ _ _ spec
    (service.names fs (parent ++ [Utf8.encode name])) _
    fun child _ => not_prefix_append (parent ++ [Utf8.encode name]) _
  have keepsInodes := @removeChildren_inodes _ fs _ _ _ spec
    (service.names fs (parent ++ [Utf8.encode name]))
  rw [removeDetached, looks]
  dsimp only
  rw [if_neg (by simp [isDirectory]),
    openDirectoryAt_one enters found isDirectory]
  cases lists : mayList service.process fs (parent ++ [Utf8.encode name]) with
  | false =>
      apply Removes.failed (KeptOutside.refl fs _)
      rintro ⟨-, -, removable⟩
      rw [removable_directory_iff directory, lists] at removable
      cases removable.1
  | true =>
      rw [if_pos rfl]
      dsimp only
      cases loop : removeChildren
          (fun fs child => service.removeDetached descriptors fs
            (parent ++ [Utf8.encode name]) child) fs
          (service.names fs (parent ++ [Utf8.encode name])) with
      | mk answer emptied =>
          rw [loop] at empties keeps keepsHere keepsInodes
          have kept : KeptOutside fs emptied (parent ++ [Utf8.encode name]) :=
            ⟨keeps, keepsInodes⟩
          cases answer with
          | error failure =>
              apply Removes.failed kept
              rintro ⟨-, -, removable⟩
              rw [removable_directory_iff directory] at removable
              have done := (empties.mpr removable.2).1
              cases done
          | ok _ =>
              have sameChange : service.process.mayChange emptied parent =
                  service.process.mayChange fs parent :=
                mayChange_congr kept.above
              have foundLater := keepsHere.trans found
              dsimp only
              cases removes : removeAt service.process emptied parent
                  (Utf8.encode name) true with
              | error error =>
                  apply Removes.failed kept
                  rintro ⟨-, may, removable⟩
                  rw [removable_directory_iff directory] at removable
                  have empty := (empties.mpr removable.2).2
                  rw [removeAt_eq foundLater isDirectory
                    (sameChange.trans may) fun _ => empty] at removes
                  cases removes
              | ok after =>
                  have unlinked := unlinked_of_removeAt removes
                  rw [unlinked.result]
                  apply Removes.done (kept.trans (keptOutside_remove _))
                    (vacant_remove _)
                  refine ⟨?_, sameChange.symm.trans unlinked.may, ?_⟩
                  · rw [found]
                    rfl
                  · rw [removable_directory_iff directory]
                    exact ⟨lists, empties.mp ⟨rfl, unlinked.empty rfl⟩⟩

/-- The induction is on the descriptors, two of which go with a directory. -/
theorem removes (service : RemovalService) (descriptors : Nat) :
    ∀ fs parent name, Removes service.process fs parent (Utf8.encode name)
      descriptors (service.removeDetached descriptors fs parent name) := by
  induction descriptors using Nat.strong_induction_on with
  | h descriptors induction =>
      intro fs parent name
      cases looks : lookupAt service.process fs parent (Utf8.encode name) with
      | error error => exact removes_of_unfound looks
      | ok node =>
          cases isDirectory : node.isDirectory with
          | false => exact removes_of_leaf looks isDirectory
          | true =>
              match descriptors with
              | 0 => exact removes_of_few looks isDirectory (by omega)
              | 1 => exact removes_of_few looks isDirectory (by omega)
              | descriptors + 2 =>
                  exact removes_of_directory looks isDirectory
                    (induction descriptors (by omega))

/-! ## The whole removal -/

/-- The directory that a path names an entry of. -/
def parentOf (service : RemovalService) (path : Text) : Location :=
  service.root ++ (splitParent path).1.map Utf8.encode

def target (service : RemovalService) (path : Text) : Location :=
  service.parentOf path ++ [Utf8.encode (splitParent path).2]

/-- The entry is there and can be given its other name. -/
structure Detachable (service : RemovalService) (fs : FileSystem)
    (path : Text) : Prop where
  opens : service.openParent fs path =
    .ok (service.parentOf path, (splitParent path).2)
  found : (fs.node (service.target path)).isSome = true
  may : service.process.mayChange fs (service.parentOf path) = true
  free : fs.Free (service.parentOf path) (Utf8.encode service.detachedName)
  accepted : service.process.refuses
    (service.parentOf path ++ [Utf8.encode service.detachedName]) = false

theorem valid_of_openParent {path : Text} {opened : Location × Text}
    (opens : service.openParent fs path = .ok opened) :
    validateRelative path false = .ok () := by
  rw [openParent] at opens
  cases valid : validateRelative path false with
  | error failure =>
      rw [valid] at opens
      cases opens
  | ok _ => rfl

theorem foldlM_enterAt {process : FileSystem.Process} {names : List Name}
    {directory location : Location}
    (enters : names.foldlM (enterAt process fs) directory = .ok location) :
    location = directory ++ names := by
  induction names generalizing directory with
  | nil =>
      cases enters
      exact (List.append_nil _).symm
  | cons name names induction =>
      rw [List.foldlM_cons] at enters
      cases entered : enterAt process fs directory name with
      | error error =>
          rw [entered] at enters
          cases enters
      | ok next =>
          rw [entered] at enters
          have isNext : next = directory ++ [name] := by
            rw [enterAt] at entered
            split at entered <;> cases entered
            rfl
          rw [induction enters, isNext, List.append_assoc]
          rfl

theorem openParent_eq {path : Text} {parent : Location}
    (opens : service.openParent fs path = .ok (parent, name)) :
    parent = service.parentOf path ∧ name = (splitParent path).2 := by
  have valid := valid_of_openParent opens
  rw [openParent, valid] at opens
  change (if service.descriptors = 0 then _ else _) = _ at opens
  split at opens
  · split at opens <;> cases opens
  · split at opens
    · next isRoot =>
        cases opens
        rw [parentOf, splitParent, isRoot]
        exact ⟨(List.append_nil _).symm, rfl⟩
    · cases opened : openDirectoryAt service.process fs service.root
          ((components path).dropLast.map Utf8.encode) with
      | error error =>
          rw [opened] at opens
          cases opens
      | ok location =>
          rw [opened] at opens
          cases opens
          rw [openDirectoryAt] at opened
          split at opened
          · cases opened
          · next entered =>
              split at opened
              · cases opened
                exact ⟨foldlM_enterAt entered, rfl⟩
              · cases opened

/-- What `fileRemove` owes the workspace: the entry and nothing else is gone,
or nothing has changed. -/
def AllOrNothing (before : FileSystem) (target : Location) :
    Removal FileResponse → Prop
  | (.ok _, after) =>
      KeptOutside before after target ∧ Vacant after target
  | (.error _, after) =>
      after.node = before.node ∧ after.inodes = before.inodes

theorem allOrNothing_failed (target : Location) (failure : FileFailure) :
    AllOrNothing fs target (.error failure, fs) :=
  ⟨rfl, rfl⟩

/-- The entry after it has got its other name. -/
structure Detached (service : RemovalService) (fs : FileSystem)
    (path : Text) (moved : FileSystem) : Prop where
  can : service.Detachable fs path
  below : ∀ below, moved.node (service.parentOf path ++
      [Utf8.encode service.detachedName] ++ below) =
    fs.node (service.target path ++ below)
  gone : moved.node (service.target path) = none
  elsewhere : ∀ other, ¬ service.parentOf path ++
      [Utf8.encode service.detachedName] <+: other →
    moved.node other =
      if service.target path <+: other then none else fs.node other
  inodes : moved.inodes = fs.inodes

theorem target_ne_nil {path : Text} : service.target path ≠ [] := by
  rw [target]
  simp

theorem target_not_prefix {path : Text} :
    ¬ service.target path <+: service.parentOf path :=
  not_prefix_append _ _

theorem detached_move {path : Text} (can : service.Detachable fs path) :
    Detached service fs path
      (fs.move (service.target path) (service.parentOf path)
        (Utf8.encode service.detachedName) target_ne_nil can.free
        target_not_prefix) := by
  have elsewhere : ∀ other, ¬ service.parentOf path ++
        [Utf8.encode service.detachedName] <+: other →
      (fs.move (service.target path) (service.parentOf path)
          (Utf8.encode service.detachedName) target_ne_nil can.free
          target_not_prefix).node other =
        if service.target path <+: other then none else fs.node other := by
    intro other outside
    rw [node_move, if_neg outside]
  constructor
  · exact can
  · intro below
    rw [node_move, if_pos (List.prefix_append _ _), List.drop_left]
  · rw [elsewhere]
    · exact if_pos (List.prefix_refl _)
    · intro inside
      have same := name_of_inside inside
      have found := can.found
      rw [target, ← same, can.free.free] at found
      cases found
  · exact elsewhere
  · rfl

/-- Below a free name there is nothing. -/
theorem Detachable.free_below {path : Text}
    (can : service.Detachable fs path) (below : Location) :
    fs.node (service.parentOf path ++ [Utf8.encode service.detachedName] ++
      below) = none := by
  have free := can.free.free
  cases below with
  | nil =>
      rw [List.append_nil]
      exact free
  | cons first rest =>
      by_contra found
      have above := FileSystem.isSome_of_isDirectory
        (fs.isDirectory_of_append (List.cons_ne_nil first rest)
          (Option.isSome_iff_ne_none.mpr found))
      rw [free] at above
      cases above

theorem renameNoReplaceAt_cases {path : Text}
    (opens : service.openParent fs path =
      .ok (service.parentOf path, (splitParent path).2)) :
    (∃ error, renameNoReplaceAt service.process fs (service.parentOf path)
        (Utf8.encode (splitParent path).2) (Utf8.encode service.detachedName) =
        .error error ∧ ¬ service.Detachable fs path) ∨
      ∃ moved, renameNoReplaceAt service.process fs (service.parentOf path)
        (Utf8.encode (splitParent path).2) (Utf8.encode service.detachedName) =
        .ok moved ∧ Detached service fs path moved := by
  rw [renameNoReplaceAt]
  cases looks : lookupAt service.process fs (service.parentOf path)
      (Utf8.encode (splitParent path).2) with
  | error error =>
      refine .inl ⟨error, rfl, ?_⟩
      intro can
      obtain ⟨node, found⟩ := Option.isSome_iff_exists.mp can.found
      rw [lookupAt_eq_ok_iff.mpr ⟨mayEnter_of_mayChange can.may, found⟩] at looks
      cases looks
  | ok node =>
      have found := (lookupAt_eq_ok_iff.mp looks).2
      dsimp only
      split
      · next taken =>
          refine .inl ⟨_, rfl, ?_⟩
          intro can
          rw [can.free.free] at taken
          cases taken
      · split
        · next may =>
            refine .inl ⟨_, rfl, ?_⟩
            intro can
            rw [can.may] at may
            cases may
        · next may =>
            split
            · next refused =>
                refine .inl ⟨_, rfl, ?_⟩
                intro can
                rw [can.accepted] at refused
                cases refused
            · next accepted =>
                split
                · next free =>
                    have can : service.Detachable fs path :=
                      { opens
                        found := by
                          rw [target, found]
                          rfl
                        may := by simpa using may
                        free
                        accepted := by simpa using accepted }
                    exact .inr ⟨_, rfl, detached_move can⟩
                · next taken =>
                    refine .inl ⟨_, rfl, ?_⟩
                    intro can
                    exact taken can.free

/-- What a removal returns and leaves once the entry has got its other name. -/
theorem fileRemove_cases (service : RemovalService) (fs : FileSystem)
    (path : Text) :
    (∃ failure, service.fileRemove fs path = (.error failure, fs) ∧
        ¬ service.Detachable fs path) ∨
      ∃ moved answer after, Detached service fs path moved ∧
        service.removeDetached (service.descriptors - 1) moved
          (service.parentOf path) service.detachedName = (answer, after) ∧
        ((∃ failure, (answer ≠ .ok () ∨ service.syncs ≠ none) ∧
            service.fileRemove fs path = (.error failure, after)) ∨
          (answer = .ok () ∧ service.syncs = none ∧
            service.fileRemove fs path = (.ok {}, after))) := by
  rw [fileRemove]
  cases opens : service.openParent fs path with
  | error failure =>
      left
      have cannot : ¬ service.Detachable fs path := by
        intro can
        rw [can.opens] at opens
        cases opens
      cases validateRelative path false with
      | error failure => exact ⟨_, rfl, cannot⟩
      | ok _ => exact ⟨_, rfl, cannot⟩
  | ok opened =>
      obtain ⟨parent, name⟩ := opened
      obtain ⟨rfl, rfl⟩ := openParent_eq opens
      rw [valid_of_openParent opens]
      dsimp only
      cases looks : lookupAt service.process fs (service.parentOf path)
          (Utf8.encode (splitParent path).2) with
      | error error =>
          refine .inl ⟨_, rfl, ?_⟩
          intro can
          obtain ⟨node, found⟩ := Option.isSome_iff_exists.mp can.found
          rw [lookupAt_eq_ok_iff.mpr ⟨mayEnter_of_mayChange can.may, found⟩]
            at looks
          cases looks
      | ok node =>
          dsimp only
          rcases renameNoReplaceAt_cases opens with
            ⟨error, fails, cannot⟩ | ⟨moved, moves, detached⟩
          · rw [fails]
            exact .inl ⟨_, rfl, cannot⟩
          · rw [moves]
            dsimp only
            cases answers : service.removeDetached (service.descriptors - 1)
                moved (service.parentOf path) service.detachedName with
            | mk answer after =>
                refine .inr ⟨moved, answer, after, detached, answers, ?_⟩
                cases answer with
                | error failure => exact .inl ⟨_, .inl (by simp), rfl⟩
                | ok _ =>
                    cases synced : service.syncs with
                    | some error => exact .inl ⟨_, .inr (by simp), rfl⟩
                    | none => exact .inr ⟨rfl, rfl, rfl⟩

theorem fileRemove_allOrNothing_iff (service : RemovalService)
    (fs : FileSystem) (path : Text) :
    AllOrNothing fs (service.target path) (service.fileRemove fs path) ↔
      (service.Detachable fs path →
        Removable service.process fs (service.target path)
            (service.descriptors - 1) ∧
          service.syncs = none) := by
  rcases service.fileRemove_cases fs path with
    ⟨failure, result, cannot⟩ | ⟨moved, answer, after, detached, answers, ends⟩
  · rw [result]
    exact iff_of_true (allOrNothing_failed _ _) fun can => (cannot can).elim
  · have can := detached.can
    have removal := service.removes (service.descriptors - 1) moved
      (service.parentOf path) service.detachedName
    rw [answers] at removal
    have movedFound : (moved.node (service.parentOf path ++
        [Utf8.encode service.detachedName])).isSome = true := by
      have moves := detached.below []
      rw [List.append_nil, List.append_nil] at moves
      rw [moves]
      exact can.found
    have movedMay : service.process.mayChange moved (service.parentOf path) =
        true := by
      have same : moved.node (service.parentOf path) =
          fs.node (service.parentOf path) := by
        rw [detached.elsewhere _ (not_prefix_append _ _),
          if_neg target_not_prefix]
      exact (mayChange_congr same).trans can.may
    have done_iff : answer = .ok () ↔
        Removable service.process fs (service.target path)
          (service.descriptors - 1) := by
      rw [← removable_congr detached.below]
      constructor
      · intro done
        exact (removal.done_iff.mp done).2.2
      · intro removable
        exact removal.done_iff.mpr ⟨movedFound, movedMay, removable⟩
    rcases ends with ⟨failure, notDone, result⟩ | ⟨done, synced, result⟩
    · rw [result]
      apply iff_of_false
      · rintro ⟨nodes, -⟩
        -- The entry has lost its name, and no error gives it back.
        have found := can.found
        have outside : ¬ service.parentOf path ++
            [Utf8.encode service.detachedName] <+: service.target path := by
          intro inside
          have same := name_of_inside inside
          rw [target, ← same, can.free.free] at found
          cases found
        rw [← nodes, removal.kept.nodes _ outside, detached.gone] at found
        cases found
      · intro holds
        obtain ⟨removable, synced⟩ := holds can
        rcases notDone with failed | unsynced
        · exact failed (done_iff.mpr removable)
        · exact unsynced synced
    · rw [result]
      apply iff_of_true
      · have vacant := removal.vacant done
        constructor
        · constructor
          · intro other outside
            by_cases inside : service.parentOf path ++
                [Utf8.encode service.detachedName] <+: other
            · obtain ⟨below, rfl⟩ := inside
              rw [vacant _ (List.prefix_append _ _), can.free_below]
            · rw [removal.kept.nodes _ inside, detached.elsewhere _ inside,
                if_neg outside]
          · exact removal.kept.inodes.trans detached.inodes
        · intro other inside
          by_cases below : service.parentOf path ++
              [Utf8.encode service.detachedName] <+: other
          · exact vacant other below
          · rw [removal.kept.nodes _ below, detached.elsewhere _ below,
              if_pos inside]
      · intro _
        exact ⟨done_iff.mp done, synced⟩

end RemovalService

/-! ## A name that is no text -/

/-- A directory `e` with a file whose name is one byte. -/
private def oneByteTree : FileSystem :=
  let root := FileSystem.bare 0o755 (.whole 0)
  let directory := root.place [] [0x65] (.directory 0o755 (.whole 0)) []
    (by decide) trivial
  directory.place [[0x65]] [0xFF] (.file 0)
    [{ mode := 0o644, mtime := .whole 0, content := [] }] (by decide) (by decide)

private def plainRemoval : RemovalService where
  process :=
    { privileged := false, now := .whole 0, refuses := fun _ => false }
  root := []
  descriptors := 1000
  names := FileSystem.children
  names_perm _ _ := .refl _
  syncs := none
  library :=
    { sha256 := fun _ =>
        { hex :=
            "5feceb66ffc86f38d952786c6d696c79c2dbc239dd4e91b46729d73a27fb57e9"
          isHex := by decide }
      chunk := .canonical
      quoted := String.ofList }
  uniqueSuffix := ['1']

/-- The directory keeps its other name, and the error is that of a child that
does not exist. -/
theorem removal_leaves_detached :
    ∃ failure after,
      plainRemoval.fileRemove oneByteTree ['e'] = (.error failure, after) ∧
        failure.code = some "FILE_NOT_FOUND" ∧
        after.isDirectory [Utf8.encode plainRemoval.detachedName] = true ∧
        ¬ RemovalService.AllOrNothing oneByteTree (plainRemoval.target ['e'])
          (plainRemoval.fileRemove oneByteTree ['e']) := by
  have code :
      (match (plainRemoval.fileRemove oneByteTree ['e']).1 with
      | .error failure => failure.code
      | .ok _ => none) = some "FILE_NOT_FOUND" := by decide +kernel
  have remains : (plainRemoval.fileRemove oneByteTree ['e']).2.isDirectory
      [Utf8.encode plainRemoval.detachedName] = true := by decide +kernel
  have before : oneByteTree.isDirectory
      [Utf8.encode plainRemoval.detachedName] = false := by decide +kernel
  cases result : plainRemoval.fileRemove oneByteTree ['e'] with
  | mk answer after =>
      rw [result] at code remains
      cases answer with
      | ok _ => cases code
      | error failure =>
          refine ⟨failure, after, rfl, code, remains, ?_⟩
          rintro ⟨nodes, -⟩
          rw [FileSystem.isDirectory, nodes] at remains
          exact absurd (remains.symm.trans before) (by decide)

end Electrosphere.Agent
