import Electrosphere.Foundation.Table

/-!
# Files behind names

A volume keeps files apart from the names that lead to them: a name stands for
a file, a directory or a symbolic link, several names may stand for one file,
and a file can be written through a descriptor whatever its names are.  Each
operation is described by what every name holds after it.
-/

namespace Foundation

/-- What a name stands for. -/
inductive Linked where
  | file (inode : Nat)
  | directory
  | symlink
  | other
  deriving DecidableEq

structure Volume (κ α : Type) [DecidableEq κ] where
  links : Table κ Linked
  inodes : List (List α)
  linked : ∀ name inode, links.lookup name = some (.file inode) →
    inode < inodes.length

namespace Volume

variable {κ α : Type} [DecidableEq κ]

/-- A volume on which nothing has a name. -/
def empty : Volume κ α :=
  { links := ∅
    inodes := []
    linked := by
      intro name inode found
      cases found }

/-- The content of the file that a name stands for. -/
def content (volume : Volume κ α) (name : κ) : Option (List α) :=
  match volume.links.lookup name with
  | some (.file inode) => volume.inodes[inode]?
  | _ => none

/-- The file has this name and no other. -/
def Sole (volume : Volume κ α) (inode : Nat) (name : κ) : Prop :=
  ∀ other, volume.links.lookup other = some (.file inode) ↔ other = name

/-- The same files under the same names. -/
structure SameFiles (before after : Volume κ α) : Prop where
  inodes : after.inodes = before.inodes
  links : ∀ name inode, after.links.lookup name = some (.file inode) ↔
    before.links.lookup name = some (.file inode)

section Lookup

variable {volume after : Volume κ α} {name other : κ} {inode : Nat}
  {data : List α}

theorem content_of_file
    (found : volume.links.lookup name = some (.file inode)) :
    volume.content name = volume.inodes[inode]? := by
  rw [content, found]

theorem content_of_not_file
    (noFile : ∀ inode, volume.links.lookup name ≠ some (.file inode)) :
    volume.content name = none := by
  rw [content]
  split
  · rename_i inode found
    exact absurd found (noFile inode)
  · rfl

theorem content_eq_some_iff :
    volume.content name = some data ↔
      ∃ inode, volume.links.lookup name = some (.file inode) ∧
        volume.inodes[inode]? = some data := by
  constructor
  · intro holds
    rw [content] at holds
    split at holds
    · rename_i inode found
      exact ⟨inode, found, holds⟩
    · cases holds
  · rintro ⟨inode, found, holds⟩
    rw [content_of_file found, holds]

theorem content_congr
    (inodes : after.inodes = volume.inodes)
    (links : ∀ inode, after.links.lookup name = some (.file inode) ↔
      volume.links.lookup other = some (.file inode)) :
    after.content name = volume.content other := by
  apply Option.ext
  intro data
  rw [content_eq_some_iff, content_eq_some_iff, inodes]
  apply exists_congr
  intro inode
  rw [links]

theorem SameFiles.content (same : SameFiles volume after) (name : κ) :
    after.content name = volume.content name :=
  content_congr same.inodes (same.links name)

theorem SameFiles.refl (volume : Volume κ α) : SameFiles volume volume where
  inodes := rfl
  links _ _ := Iff.rfl

theorem SameFiles.trans {first second third : Volume κ α}
    (earlier : SameFiles first second) (later : SameFiles second third) :
    SameFiles first third where
  inodes := later.inodes.trans earlier.inodes
  links name inode := (later.links name inode).trans (earlier.links name inode)

theorem SameFiles.sole (same : SameFiles volume after)
    (sole : volume.Sole inode name) : after.Sole inode name := by
  intro other
  rw [same.links]
  exact sole other

theorem Sole.found (sole : volume.Sole inode name) :
    volume.links.lookup name = some (.file inode) :=
  (sole name).mpr rfl

theorem Sole.name_eq (sole : volume.Sole inode name)
    (found : volume.links.lookup other = some (.file inode)) : other = name :=
  (sole other).mp found

end Lookup

/-! ## Operations -/

/-- A new file without content. -/
def create (volume : Volume κ α) (name : κ) : Volume κ α :=
  { links := volume.links.insert name (.file volume.inodes.length)
    inodes := volume.inodes ++ [[]]
    linked := by
      intro other inode found
      rw [AList.lookup_insert_if] at found
      rw [List.length_append, List.length_singleton]
      split at found
      · cases found
        exact Nat.lt_succ_self _
      · exact Nat.lt_succ_of_lt (volume.linked other inode found) }

/-- Data written at the end of a file. -/
def append (volume : Volume κ α) (inode : Nat) (data : List α) :
    Volume κ α :=
  { links := volume.links
    inodes := volume.inodes.modify inode fun held => held ++ data
    linked := by
      intro name other found
      rw [List.length_modify]
      exact volume.linked name other found }

/-- A name for something that is not a file. -/
def mark (volume : Volume κ α) (name : κ) (linked : Linked)
    (noFile : ∀ inode, linked ≠ .file inode) : Volume κ α :=
  { links := volume.links.insert name linked
    inodes := volume.inodes
    linked := by
      intro other inode found
      rw [AList.lookup_insert_if] at found
      split at found
      · exact absurd (Option.some.inj found) (noFile inode)
      · exact volume.linked other inode found }

def makeDirectory (volume : Volume κ α) (name : κ) : Volume κ α :=
  volume.mark name .directory (fun _ same => by cases same)

def unlink (volume : Volume κ α) (name : κ) : Volume κ α :=
  { links := volume.links.erase name
    inodes := volume.inodes
    linked := by
      intro other inode found
      rw [AList.lookup_erase_if] at found
      split at found
      · cases found
      · exact volume.linked other inode found }

/-- A second name for what a name stands for. -/
def link (volume : Volume κ α) (source target : κ) : Volume κ α :=
  match found : volume.links.lookup source with
  | none => volume
  | some linked =>
      { links := volume.links.insert target linked
        inodes := volume.inodes
        linked := by
          intro other inode isFile
          rw [AList.lookup_insert_if] at isFile
          split at isFile
          · apply volume.linked source inode
            rw [found, isFile]
          · exact volume.linked other inode isFile }

/-- Two names of one file stay as they are. -/
def rename (volume : Volume κ α) (source target : κ) : Volume κ α :=
  if volume.links.lookup source = volume.links.lookup target then volume
  else (volume.link source target).unlink source

section Operations

variable {volume : Volume κ α} {name other source target : κ} {inode : Nat}
  {data : List α}

theorem links_link (found : volume.links.lookup source = some (.file inode)) :
    (volume.link source target).links =
      volume.links.insert target (.file inode) := by
  unfold link
  split
  · rename_i missing
    rw [found] at missing
    cases missing
  · rename_i linked isLinked
    rw [found] at isLinked
    cases isLinked
    rfl

theorem inodes_link : (volume.link source target).inodes = volume.inodes := by
  unfold link
  split <;> rfl

theorem content_link
    (found : volume.links.lookup source = some (.file inode)) (other : κ) :
    (volume.link source target).content other =
      if other = target then volume.content source
      else volume.content other := by
  by_cases same : other = target
  · rw [if_pos same]
    apply content_congr inodes_link
    intro inode
    rw [links_link found, AList.lookup_insert_if, if_pos same, found]
  · rw [if_neg same]
    apply content_congr inodes_link
    intro inode
    rw [links_link found, AList.lookup_insert_if, if_neg same]

theorem content_unlink (other : κ) :
    (volume.unlink name).content other =
      if other = name then none else volume.content other := by
  by_cases same : other = name
  · rw [if_pos same]
    apply content_of_not_file
    intro inode found
    rw [unlink, AList.lookup_erase_if, if_pos same] at found
    cases found
  · rw [if_neg same]
    refine content_congr rfl ?_
    intro inode
    rw [unlink, AList.lookup_erase_if, if_neg same]

/-- A name under which nothing is found may be given to no file. -/
theorem sameFiles_mark {linked : Linked}
    {noFile : ∀ inode, linked ≠ .file inode}
    (absent : volume.links.lookup name = none) :
    SameFiles volume (volume.mark name linked noFile) where
  inodes := rfl
  links := by
    intro other inode
    rw [mark, AList.lookup_insert_if]
    by_cases same : other = name
    · rw [if_pos same, same, absent]
      constructor
      · intro found
        exact absurd (Option.some.inj found) (noFile inode)
      · intro found
        cases found
    · rw [if_neg same]

theorem sameFiles_makeDirectory
    (absent : volume.links.lookup name = none) :
    SameFiles volume (volume.makeDirectory name) :=
  sameFiles_mark absent

theorem content_create (other : κ) :
    (volume.create name).content other =
      if other = name then some [] else volume.content other := by
  by_cases same : other = name
  · rw [if_pos same]
    apply content_eq_some_iff.mpr
    refine ⟨volume.inodes.length, ?_, ?_⟩
    · rw [create, AList.lookup_insert_if, if_pos same]
    · rw [create, List.getElem?_concat_length]
  · rw [if_neg same]
    apply Option.ext
    intro data
    rw [content_eq_some_iff, content_eq_some_iff]
    apply exists_congr
    intro inode
    rw [create, AList.lookup_insert_if, if_neg same]
    apply and_congr_right
    intro found
    rw [List.getElem?_append_left (volume.linked other inode found)]

theorem content_append (sole : volume.Sole inode name) (other : κ) :
    (volume.append inode data).content other =
      if other = name then (volume.content name).map (· ++ data)
      else volume.content other := by
  by_cases same : other = name
  · have found : (volume.append inode data).links.lookup name =
        some (.file inode) := sole.found
    rw [if_pos same, same, content_of_file sole.found, content_of_file found,
      append, List.getElem?_modify_eq]
    rfl
  · rw [if_neg same]
    apply Option.ext
    intro held
    rw [content_eq_some_iff, content_eq_some_iff]
    apply exists_congr
    intro next
    apply and_congr_right
    intro found
    have different : inode ≠ next := by
      intro isInode
      apply same
      apply sole.name_eq
      rw [isInode]
      exact found
    rw [append, List.getElem?_modify_ne _ _ different]

/-- A file that is known by one name changes it. -/
theorem content_rename (sole : volume.Sole inode source)
    (different : source ≠ target) (other : κ) :
    (volume.rename source target).content other =
      if other = target then volume.content source
      else if other = source then none
      else volume.content other := by
  have apart :
      volume.links.lookup source ≠ volume.links.lookup target := by
    intro same
    rw [sole.found] at same
    exact different (sole.name_eq same.symm).symm
  rw [rename, if_neg apart, content_unlink, content_link sole.found]
  by_cases isTarget : other = target
  · have notSource : other ≠ source := by
      intro isSource
      exact different (isSource.symm.trans isTarget)
    rw [if_neg notSource, if_pos isTarget, if_pos isTarget]
  · rw [if_neg isTarget, if_neg isTarget]

theorem links_rename (sole : volume.Sole inode source)
    (different : source ≠ target) :
    (volume.rename source target).links =
      (volume.links.insert target (.file inode)).erase source := by
  have apart :
      volume.links.lookup source ≠ volume.links.lookup target := by
    intro same
    rw [sole.found] at same
    exact different (sole.name_eq same.symm).symm
  rw [rename, if_neg apart, ← links_link sole.found]
  rfl

/-! ### Files with one name -/

theorem sole_create :
    (volume.create name).Sole volume.inodes.length name := by
  intro other
  rw [create, AList.lookup_insert_if]
  constructor
  · intro found
    split at found
    case isTrue same => exact same
    case isFalse =>
      exact absurd (volume.linked other _ found) (Nat.lt_irrefl _)
  · intro same
    rw [if_pos same]

theorem Sole.create (sole : volume.Sole inode name)
    (absent : volume.links.lookup other = none) :
    (volume.create other).Sole inode name := by
  have different : name ≠ other := by
    intro same
    have found := sole.found
    rw [same, absent] at found
    cases found
  intro next
  rw [Volume.create, AList.lookup_insert_if]
  by_cases same : next = other
  · rw [if_pos same, same]
    constructor
    · intro found
      have inside := volume.linked name inode sole.found
      cases found
      exact absurd inside (Nat.lt_irrefl _)
    · intro isName
      exact absurd isName.symm different
  · rw [if_neg same]
    exact sole next

theorem Sole.append (sole : volume.Sole inode name) (other : Nat) :
    (volume.append other data).Sole inode name :=
  sole

theorem Sole.unlink (sole : volume.Sole inode name)
    (different : name ≠ other) : (volume.unlink other).Sole inode name := by
  intro next
  rw [Volume.unlink, AList.lookup_erase_if]
  by_cases same : next = other
  · rw [if_pos same, same]
    constructor
    · intro found
      cases found
    · intro isName
      exact absurd isName.symm different
  · rw [if_neg same]
    exact sole next

/-- Another file may be renamed to any other name. -/
theorem Sole.rename {moved : Nat} (sole : volume.Sole inode name)
    (isMoved : volume.Sole moved source) (other : moved ≠ inode)
    (away : name ≠ target) (different : source ≠ target) :
    (volume.rename source target).Sole inode name := by
  have notSource : name ≠ source := by
    intro same
    have found := sole.found
    rw [same, isMoved.found] at found
    cases found
    exact other rfl
  intro next
  rw [links_rename isMoved different, AList.lookup_erase_if,
    AList.lookup_insert_if]
  by_cases isSource : next = source
  · rw [if_pos isSource, isSource]
    constructor
    · intro found
      cases found
    · intro same
      exact absurd same.symm notSource
  · rw [if_neg isSource]
    by_cases isTarget : next = target
    · rw [if_pos isTarget, isTarget]
      constructor
      · intro found
        cases found
        exact absurd rfl other
      · intro same
        exact absurd same.symm away
    · rw [if_neg isTarget]
      exact sole next

end Operations

end Volume

end Foundation
