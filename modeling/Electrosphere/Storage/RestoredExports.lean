import Electrosphere.Storage.RestoreSuccess

/-!
# Which exports can be restored

What the daemon exports is extracted exactly if no link leads out of the
staging directory.  The guest rejects every link that could, so whatever it
has exported is restored.
-/

namespace Electrosphere.Cfs

open Foundation FileSystem Workspace

namespace Extractor

variable {extractor : Extractor}

/-- A link that the loop takes. -/
def Stays (extractor : Extractor) (path target : Text) : Prop :=
  targetLeaves extractor.staging (parts path) target = false

theorem stays_iff {path target : Text} :
    extractor.Stays path target ↔
      target.head? ≠ some '/' ∧
        inside extractor.staging (Workspace.resolve
          (extractor.staging ++ parts path).dropLast target) = true := by
  rw [Stays, targetLeaves, decide_eq_false_iff_not, not_or,
    Bool.not_eq_false, List.dropLast_append_of_ne_nil (parts_ne_nil path)]

/-! ## What has been noted of a tree -/

/-- What the loop has noted after the entries of some subjects. -/
structure Noted (earlier : List Subject) (progress : Progress) : Prop where
  symlinks : ∀ path, progress.entryTypes.lookup path = some typeSymlink →
    ∃ subject ∈ earlier, subject.written = path ∧
      ∃ target mtime, subject.stats.node = .symlink target mtime
  files : ∀ inode first, Subject.firstName earlier inode = some first →
    progress.entryTypes.lookup first.written = some typeFile

section Written

variable {fs : FileSystem} {root : Location} {clock : Timestamp → Nat}
  {subjects earlier rest : List Subject} {subject : Subject}
  {overlay : Overlay} {progress : Progress}

theorem noted_nil : Noted [] {} where
  symlinks path isNoted := by cases isNoted
  files inode first isFirst := by cases isFirst

/-- Subjects at different places have been written under different paths. -/
theorem written_ne {other : Subject} (surveys : Surveys fs root clock subjects)
    (split : subjects = earlier ++ subject :: rest)
    (isEarlier : other ∈ earlier) : other.written ≠ subject.written := by
  intro same
  exact surveys.place_ne split isEarlier (congrArg location same)

theorem Noted.note (noted : Noted earlier progress)
    (surveys : Surveys fs root clock subjects)
    (split : subjects = earlier ++ subject :: rest) :
    Noted (earlier ++ [subject]) (extractor.note progress
      (subject.piece fs.nlink earlier).entry.header.decoded) where
  symlinks path isNoted := by
    rw [Extractor.note, path_decoded, AList.lookup_insert_if] at isNoted
    by_cases isHere : path = subject.written
    · rw [if_pos isHere] at isNoted
      refine ⟨subject, List.mem_append_right _ (List.mem_singleton_self _),
        isHere.symm, ?_⟩
      have isType : (subject.piece fs.nlink earlier).header.type =
          typeSymlink := Option.some.inj isNoted
      cases isNode : subject.stats.node with
      | symlink target mtime => exact ⟨target, mtime, rfl⟩
      | directory mode mtime =>
          rw [Subject.piece_directory isNode] at isType
          cases isType
      | other mode mtime =>
          rw [Subject.piece, isNode] at isType
          cases isType
      | file inode =>
          cases original : Subject.original fs.nlink earlier inode with
          | none =>
              rw [Subject.piece_first isNode original] at isType
              cases isType
          | some first =>
              rw [Subject.piece_again isNode original] at isType
              cases isType
    · rw [if_neg isHere] at isNoted
      obtain ⟨other, isEarlier, isPath⟩ := noted.symlinks path isNoted
      exact ⟨other, List.mem_append_left _ isEarlier, isPath⟩
  files inode first isFirst := by
    rw [Extractor.note, path_decoded, AList.lookup_insert_if]
    cases isKnown : Subject.firstName earlier inode with
    | some known =>
        rw [Subject.firstName_append isKnown] at isFirst
        obtain rfl : known = first := Option.some.inj isFirst
        have isEarlier := List.mem_of_find?_eq_some isKnown
        rw [if_neg (written_ne surveys split isEarlier)]
        exact noted.files inode known isKnown
    | none =>
        rw [Subject.firstName, List.find?_append, ← Subject.firstName, isKnown,
          Option.none_or] at isFirst
        have isLast := List.mem_of_find?_eq_some isFirst
        rw [List.mem_singleton] at isLast
        have isName := List.find?_some isFirst
        rw [isLast, decide_eq_true_eq] at isName
        have isNode := Subject.inode_eq_some_iff.mp isName
        have original := surveys.original_eq split isNode
        rw [isKnown] at original
        rw [if_pos (by rw [isLast])]
        change some (subject.piece fs.nlink earlier).header.type = _
        rw [Subject.piece_first isNode original]
        rfl

/-! ## The next entry -/

/-- What stands above a subject is a directory. -/
theorem isDirectory_above (surveys : Surveys fs root clock subjects)
    (member : subject ∈ subjects) {path : Location}
    (below : path <+: subject.place) (different : path ≠ subject.place) :
    fs.isDirectory (root ++ path) = true := by
  obtain ⟨inner, isWhole⟩ := below
  apply isDirectory_of_append (List.ne_nil_of_length_pos (l := inner) _)
  · rw [List.append_assoc, isWhole, surveys.node member]
    rfl
  · apply Nat.pos_of_ne_zero
    intro isEmpty
    rw [List.length_eq_zero_iff.mp isEmpty, List.append_nil] at isWhole
    exact different isWhole

theorem checked_written (noted : Noted earlier progress)
    (surveys : Surveys fs root clock subjects)
    (split : subjects = earlier ++ subject :: rest) :
    assertNoSymlinkAncestor subject.written progress.entryTypes = .ok () := by
  have here : subject ∈ subjects := by
    rw [split]
    exact List.mem_append_right _ List.mem_cons_self
  apply noSymlinkAncestor_eq_ok
  intro inner below notHere isNoted
  rw [List.nil_append] at isNoted
  obtain ⟨other, isEarlier, isPath, target, mtime, isLink⟩ :=
    noted.symlinks _ isNoted
  have member : other ∈ subjects := by
    rw [split]
    exact List.mem_append_left _ isEarlier
  have noSlash : ∀ name ∈ inner, '/' ∉ name := by
    intro name isName
    apply Utf8.not_mem_of_mem_splitOn
    exact List.mem_of_mem_dropLast (below.subset isName)
  have isPlace : other.place = encodePath inner := by
    rw [Subject.place, isPath, location, parts, splitOn_joinPath notHere noSlash]
  have isAbove : other.place <+: subject.place := by
    rw [isPlace]
    exact (below.trans (List.dropLast_prefix _)).map _
  have directory := isDirectory_above surveys here isAbove
    (surveys.place_ne split isEarlier)
  obtain ⟨mode, time, isDirectory⟩ := FileSystem.isDirectory_iff.mp directory
  rw [surveys.node member, isLink] at isDirectory
  cases isDirectory

theorem leads_written
    (mirrors : Mirrors extractor.time subjects earlier overlay)
    (surveys : Surveys fs root clock subjects)
    (split : subjects = earlier ++ subject :: rest) :
    Leads overlay subject.place := by
  by_cases isTop : subject.place.dropLast = []
  · exact .inl isTop
  right
  have here : subject ∈ subjects := by
    rw [split]
    exact List.mem_append_right _ List.mem_cons_self
  have different : subject.place.dropLast ≠ subject.place := by
    intro same
    have shorter := congrArg List.length same
    have filled := List.length_pos_of_ne_nil
      (@Surveys.place_ne_nil subject)
    rw [List.length_dropLast] at shorter
    omega
  obtain ⟨other, isOther, isPlace⟩ := surveys.above split isTop
    (List.dropLast_prefix _) different
  have member : other ∈ subjects := by
    rw [split]
    exact List.mem_append_left _ isOther
  have directory := isDirectory_above surveys here (List.dropLast_prefix _)
    different
  obtain ⟨mode, time, isDirectory⟩ := FileSystem.isDirectory_iff.mp directory
  rw [← isPlace, surveys.node member] at isDirectory
  rw [← isPlace, mirrors.shape other isOther, Subject.shape,
    Option.some.inj isDirectory]
  exact ⟨_, rfl⟩

/-- What an archive of the subjects must also have to be extracted. -/
structure Restorable (extractor : Extractor) (subjects : List Subject) :
    Prop where
  valid : ∀ subject ∈ subjects, validateRelativePath subject.written = .ok ()
  target : ∀ subject ∈ subjects, ∀ target mtime,
    subject.stats.node = .symlink target mtime →
      target ≠ [] ∧ 0 ∉ target ∧
        extractor.Stays subject.written (Utf8.decodeLossy target)

theorem fine_written (restorable : extractor.Restorable subjects)
    (noted : Noted earlier progress) (surveys : Surveys fs root clock subjects)
    (split : subjects = earlier ++ subject :: rest) :
    Fine extractor progress
      (subject.piece fs.nlink earlier).entry.header.decoded
      (subject.piece fs.nlink earlier).entry.payload := by
  have here : subject ∈ subjects := by
    rw [split]
    exact List.mem_append_right _ List.mem_cons_self
  cases isNode : subject.stats.node with
  | directory mode mtime =>
      apply Fine.directory
      rw [Subject.piece_directory isNode]
      rfl
  | symlink target mtime =>
      obtain ⟨notEmpty, noNul, stays⟩ :=
        restorable.target subject here target mtime isNode
      obtain ⟨relative, within⟩ := stays_iff.mp stays
      have isPayload : Utf8.decodeLossy
          (subject.piece fs.nlink earlier).entry.payload =
            Utf8.decodeLossy target := by
        rw [Subject.piece_symlink isNode]
        exact Utf8.decodeLossy_encode _
      apply Fine.symlink
      · rw [Subject.piece_symlink isNode]
        rfl
      · rw [isPayload]
        intro isEmpty
        exact notEmpty (Utf8.eq_encode_of_decodeLossy (by simp) isEmpty)
      · rw [isPayload]
        exact fun isNul =>
          noNul ((Utf8.mem_decodeLossy_single (by decide)).mp isNul)
      · rwa [isPayload]
      · rwa [isPayload, path_decoded]
  | file inode =>
      have original := surveys.original_eq split isNode
      cases isFirst : Subject.firstName earlier inode with
      | none =>
          rw [isFirst] at original
          apply Fine.file
          rw [Subject.piece_first isNode original]
          rfl
      | some first =>
          rw [isFirst] at original
          have isPayload : Utf8.decodeLossy
              (subject.piece fs.nlink earlier).entry.payload =
                first.written := by
            rw [Subject.piece_again isNode original]
            exact Utf8.decodeLossy_encode _
          apply Fine.hardlink
          · rw [Subject.piece_again isNode original]
            rfl
          · rw [isPayload]
            apply restorable.valid
            rw [split]
            exact List.mem_append_left _ (List.mem_of_find?_eq_some isFirst)
          · rw [isPayload]
            exact noted.files inode first isFirst
  | other mode mtime => exact absurd isNode (surveys.kind subject here mode mtime)

theorem ready_written (restorable : extractor.Restorable subjects)
    (mirrors : Mirrors extractor.time subjects earlier overlay)
    (noted : Noted earlier progress) (surveys : Surveys fs root clock subjects)
    (split : subjects = earlier ++ subject :: rest) :
    Ready extractor overlay progress
      (subject.piece fs.nlink earlier).entry.header.decoded
      (subject.piece fs.nlink earlier).entry.payload where
  checked := by
    rw [path_decoded]
    exact checked_written noted surveys split
  ensured := by
    rw [path_decoded]
    exact mirrors.ensured surveys split
  leads := by
    rw [path_decoded]
    exact leads_written mirrors surveys split
  absent := by
    rw [path_decoded]
    exact mirrors.vacant surveys split
  fine := fine_written restorable noted surveys split

/-- What has been written for a tree passes, entry after entry. -/
theorem passes_written (restorable : extractor.Restorable subjects)
    (surveys : Surveys fs root clock subjects) :
    extractor.Passes .empty {}
      (decodedEntries (writtenEntries fs.nlink [] subjects)) := by
  have run : ∀ rest earlier overlay progress, subjects = earlier ++ rest →
      Mirrors extractor.time subjects earlier overlay →
      Noted earlier progress →
      extractor.Passes overlay progress
        (decodedEntries (writtenEntries fs.nlink earlier rest)) := by
    intro rest
    induction rest with
    | nil => exact fun _ _ _ _ _ _ => .done
    | cons subject rest induction =>
        intro earlier overlay progress split mirrors noted
        have ready := ready_written restorable mirrors noted surveys split
        have described := mirrors.describe surveys split
        rw [describe_of_ready ready] at described
        apply Passes.entry ready
        exact induction (earlier ++ [subject]) _ _
          (by rw [split, List.append_assoc]; rfl) described
          (noted.note surveys split)
  exact run subjects [] .empty {} rfl mirrors_empty noted_nil

end Written

/-! ## Links that lead out -/

section Runs

variable {fs after : FileSystem} {progress later : Progress}
  {header : EntryHeader} {payload bytes : Bytes}

end Runs

end Extractor

/-! ## What the daemon and the guest export -/

section Exports

variable {fs start : FileSystem} {root : List Text} {bytes : Bytes}
  {extractor : Extractor}

theorem restorable_listing (utf8 : Utf8Names fs (encodePath root))
    (stays : ∀ entry ∈ listing fs root, ∀ target mtime,
      entry.stats.node = .symlink target mtime →
        targetLeaves extractor.staging entry.path (Utf8.decodeLossy target) =
          false) :
    extractor.Restorable ((listing fs root).map (hostSubject fs)) where
  valid := by
    rw [List.forall_mem_map]
    intro entry member
    obtain ⟨found, notRoot⟩ := mem_listing utf8 member
    rw [← encodePath_append] at found
    exact permits_validateRelativePath _ notRoot (validText_of_lstat found)
  target := by
    rw [List.forall_mem_map]
    intro entry member target mtime isLink
    obtain ⟨found, notRoot⟩ := mem_listing utf8 member
    have isNode := node_of_lstat found
    change entry.stats.node = _ at isLink
    rw [isLink] at isNode
    obtain ⟨notEmpty, noNul⟩ := fs.fits _ _ isNode
    refine ⟨notEmpty, noNul, ?_⟩
    rw [← encodePath_append] at found
    have noSlash : ∀ name ∈ entry.path, '/' ∉ name := fun name isName =>
      (validText_of_lstat found name isName).noSlash
    rw [Extractor.Stays, hostSubject, parts, splitOn_joinPath notRoot noSlash]
    exact stays entry member target mtime isLink

/-- The headers of an export are those that the loop takes. -/
theorem reads_exported (utf8 : Utf8Names fs (encodePath root))
    (exported : exportCfs fs root = .ok bytes) :
    bytes.take magic.length = magic ∧
      Reads bytes magic.length (decodedEntries (writtenEntries fs.nlink []
        ((listing fs root).map (hostSubject fs)))) := by
  obtain ⟨-, _, -, -, -, small⟩ := exportCfs_eq_ok_iff.mp exported
  obtain ⟨parsed, accepts⟩ := parse_exported utf8 exported
  obtain ⟨isArchive, sized⟩ := parse_eq_some_iff.mp parsed
  apply reads_archive_iff.mpr
  refine ⟨_, isArchive, ?_, rfl⟩
  intro entry member
  obtain ⟨subject, isSubject, before, isEntry⟩ := mem_writtenEntries member
  obtain ⟨held, isHeld, rfl⟩ := List.mem_map.mp isSubject
  obtain ⟨found, notRoot⟩ := mem_listing utf8 isHeld
  rw [← encodePath_append] at found
  constructor
  · exact sized entry member
  · have counted : entry.payload.length ≤ bytes.length := by
      obtain ⟨first, rest, split⟩ := List.append_of_mem member
      rw [isArchive, archive, split, List.flatMap_append, List.flatMap_cons,
        Entry.encode]
      simp only [List.length_append]
      omega
    have narrow : maxTreeBytes ≤ maxSafeInteger := by decide
    exact counted.trans (small.trans narrow)
  · have mode := @Subject.mode_piece fs.nlink before (hostSubject fs held)
    rw [isEntry]
    change ((hostSubject fs held).piece fs.nlink before).header.mode &&& _ = 0
    rw [mode]
    exact (accepts held isHeld).mode
  · have path := @path_decoded fs.nlink before (hostSubject fs held)
    rw [isEntry]
    change validateRelativePath ((hostSubject fs held).piece fs.nlink
      before).entry.header.decoded.path = .ok ()
    rw [path]
    exact permits_validateRelativePath _ notRoot (validText_of_lstat found)

/-- What the guest exports is what the daemon exports, and no link leads out. -/
theorem host_of_guest {parent : List Text} {workspace : Text}
    {observe : List Name → Agent.Snapshot.Observation}
    (ordinary : Ordinary fs (parent ++ [workspace]))
    (still : Still fs (encodePath (parent ++ [workspace])) observe)
    (exported : Agent.Snapshot.exportWorkspaceFile fs
      (encodePath (parent ++ [workspace])) observe = .ok bytes) :
    exportCfs fs (parent ++ [workspace]) = .ok bytes ∧
      ∀ (above : List Text) (name : Text),
        ∀ entry ∈ listing fs (parent ++ [workspace]), ∀ target mtime,
          entry.stats.node = .symlink target mtime →
            targetLeaves (above ++ [name]) entry.path
              (Utf8.decodeLossy target) = false := by
  have noParent : ¬ NamesParent fs (parent ++ [workspace]) := by
    intro names
    exact rejects_of_namesParent names exported
  have alsoExported := (same_of_noParent rfl ordinary still noParent bytes).mp
    exported
  refine ⟨alsoExported, ?_⟩
  intro above name entry member target mtime isLink
  have isNode := node_of_lstat (mem_listing ordinary.utf8 member).1
  rw [isLink] at isNode
  have accepted := (parse_exported ordinary.utf8 alsoExported).2 entry member
  have inside := accepted.target target mtime isLink
  rw [targetLeaves, decide_eq_false_iff_not, not_or] at inside
  apply targetLeaves_of_noParent
  · exact mt isAbsolute_decodeLossy_iff.mpr inside.1
  · exact fun isParent => noParent ⟨_, target, mtime, isNode, isParent⟩

section Restoring

variable (unrestricted : extractor.Unrestricted)
  (directory : start.isDirectory extractor.home = true)
  (absent : start.node extractor.root = none)

include unrestricted directory absent

theorem restores (utf8 : Utf8Names fs (encodePath root))
    (exported : exportCfs fs root = .ok bytes)
    (stays : ∀ entry ∈ listing fs root, ∀ target mtime,
      entry.stats.node = .symlink target mtime →
        targetLeaves extractor.staging entry.path (Utf8.decodeLossy target) =
          false) :
    ∃ after, extractor.extractCfs (.ok bytes) start = (.ok (), after) := by
  obtain ⟨isMagic, reads⟩ := reads_exported utf8 exported
  have surveys := surveys_listing utf8 fun entry member =>
    ((parse_exported utf8 exported).2 entry member).kind
  have passes := Extractor.passes_written (restorable_listing utf8 stays)
    surveys
  exact Extractor.succeeds_extraction unrestricted directory absent isMagic
    reads passes start rfl

end Restoring

theorem unrestricted_toTop : Extractor.toTop.Unrestricted where
  privileged := rfl
  accepts _ := rfl

theorem guest_exported_twoNames :
    ∃ bytes, Agent.Snapshot.exportWorkspaceFile twoNames
      (encodePath ([] ++ [['w']]))
      (observeStill twoNames (encodePath ([] ++ [['w']]))) = .ok bytes := by
  have accepted : (Agent.Snapshot.exportWorkspaceFile twoNames
      (encodePath ([] ++ [['w']]))
      (observeStill twoNames (encodePath ([] ++ [['w']])))).isOk = true := by
    decide +kernel
  cases isGuest : Agent.Snapshot.exportWorkspaceFile twoNames
      (encodePath ([] ++ [['w']]))
      (observeStill twoNames (encodePath ([] ++ [['w']]))) with
  | ok bytes => exact ⟨bytes, rfl⟩
  | error message =>
      rw [isGuest] at accepted
      cases accepted

end Exports

end Electrosphere.Cfs
