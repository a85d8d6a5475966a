import Electrosphere.Storage.RestoredTree

/-!
# When an extraction succeeds

A process that may do everything extracts every archive of a workspace whose
links stay inside as far as their text tells.  The guest takes no other links,
so what it has exported can always be restored.
-/

namespace Electrosphere.Cfs

open Foundation FileSystem Workspace

namespace Extractor

variable {extractor : Extractor} {start : FileSystem} {overlay : Overlay}

/-- A process that may do everything, on a file system that takes all names. -/
structure Unrestricted (extractor : Extractor) : Prop where
  privileged : extractor.process.privileged = true
  accepts : ∀ location, extractor.process.refuses location = false

theorem Unrestricted.unhindered (unrestricted : extractor.Unrestricted) :
    extractor.Unhindered where
  privileged := unrestricted.privileged
  accepts := unrestricted.accepts _

/-! ## One call -/

section Calls

variable {fs : FileSystem} {number : Location → Nat} {path : Location}

theorem dropLast_getLast (notRoot : path ≠ []) :
    extractor.root ++ path =
      extractor.root ++ path.dropLast ++ [path.getLast notRoot] := by
  rw [List.append_assoc, List.dropLast_append_getLast]

/-- What stands somewhere stands in a directory. -/
theorem isDirectory_dropLast {shape : Shape}
    (lays : Lays start extractor.root overlay number fs)
    (isShape : overlay.shape path = some shape) :
    fs.isDirectory (extractor.root ++ path.dropLast) = true := by
  have notRoot := lays.ne_nil isShape
  apply isDirectory_of_append (List.cons_ne_nil (path.getLast notRoot) [])
  rw [← dropLast_getLast notRoot, Option.isSome_iff_ne_none]
  intro absent
  rw [(lays.isNone_iff notRoot).mp absent] at isShape
  cases isShape

/-- The directory that a place is in is in the tree. -/
def Leads (overlay : Overlay) (path : Location) : Prop :=
  path.dropLast = [] ∨
    ∃ mode, overlay.shape path.dropLast = some (.directory mode)

theorem Leads.isDirectory (leads : Leads overlay path)
    (lays : Lays start extractor.root overlay number fs) :
    fs.isDirectory (extractor.root ++ path.dropLast) = true := by
  rcases leads with isTop | ⟨mode, isShape⟩
  · rw [isTop, List.append_nil]
    exact lays.directory
  · obtain ⟨mtime, found⟩ := lays.node_directory isShape
    exact FileSystem.isDirectory_iff.mpr ⟨mode, mtime, found⟩

variable (unrestricted : extractor.Unrestricted)

include unrestricted

theorem resolve_below {follow : Bool} (notRoot : path ≠ [])
    (valid : ∀ name ∈ path, ValidName name)
    (isDirectory : fs.isDirectory (extractor.root ++ path.dropLast) = true)
    (stays : follow = false ∨ fs.isSymlink (extractor.root ++ path) = false) :
    FileSystem.resolve extractor.process fs follow maxLinks []
        (extractor.root ++ path) = .ok (extractor.root ++ path) := by
  rw [dropLast_getLast notRoot] at stays ⊢
  exact resolve_of_privileged unrestricted.privileged isDirectory
    (valid _ (List.getLast_mem notRoot)) stays

theorem create_below {held : Node} {extra : List Inode} (notRoot : path ≠ [])
    (valid : ∀ name ∈ path, ValidName name)
    (isDirectory : fs.isDirectory (extractor.root ++ path.dropLast) = true)
    (absent : fs.node (extractor.root ++ path) = none)
    (fits : held.Fits (fs.inodes ++ extra).length) :
    ∃ after, create extractor.process fs (extractor.root ++ path) held extra =
      .ok after := by
  apply create_eq_ok absent
  · exact Process.mayChange_of_privileged unrestricted.privileged _
  · exact unrestricted.accepts _
  · rwa [List.dropLast_append_of_ne_nil notRoot]
  · rw [dropLast_getLast notRoot, List.getLastD_concat]
    exact valid _ (List.getLast_mem notRoot)
  · exact fits

/-- A call that resolves a free path and makes something there. -/
theorem make_below {held : Node} {extra : List Inode}
    (lays : Lays start extractor.root overlay number fs) (notRoot : path ≠ [])
    (valid : ∀ name ∈ path, ValidName name) (leads : Leads overlay path)
    (absent : overlay.shape path = none)
    (fits : held.Fits (fs.inodes ++ extra).length) :
    ∃ after, (do
      let location ← FileSystem.resolve extractor.process fs false maxLinks []
        (extractor.root ++ path)
      create extractor.process fs location held extra) = .ok after := by
  have isDirectory := leads.isDirectory lays
  obtain ⟨after, created⟩ := create_below unrestricted notRoot valid
    isDirectory ((lays.isNone_iff notRoot).mpr absent) fits
  refine ⟨after, bind_eq_ok_iff.mpr ⟨_, ?_, created⟩⟩
  exact resolve_below unrestricted notRoot valid isDirectory (.inl rfl)

end Calls

theorem succeeds_syscall {pre : FileSystem → Prop} {name operands : String}
    {operation : FileSystem → Except Errno FileSystem}
    (isOk : ∀ fs, pre fs → ∃ later, operation fs = .ok later) :
    Effect.Succeeds pre (syscall name operands operation) () := by
  apply Effect.succeeds_change
  intro fs isPre
  obtain ⟨later, isLater⟩ := isOk fs isPre
  exact ⟨later, by rw [isLater]; rfl⟩

/-! ## The calls of an entry -/

section Entry

variable (unrestricted : extractor.Unrestricted)

include unrestricted

/-- Directories that are there already can be ensured. -/
theorem succeeds_makeAbove {path above names : List Text} {mode : Nat}
    {pre : FileSystem → Prop}
    (isThere : ∀ fs, pre fs →
      fs.isDirectory (encodePath (above ++ names)) = true) :
    Effect.Succeeds pre (extractor.makeDirectories path mode above names)
      () := by
  induction names generalizing above with
  | nil => exact Effect.succeeds_pure
  | cons name names induction =>
      rw [List.append_cons] at isThere
      have here : ∀ fs, pre fs →
          fs.isDirectory (encodePath above ++ [Utf8.encode name]) = true := by
        intro fs isPre
        have directory := isThere fs isPre
        rw [encodePath_append, encodePath_append] at directory
        exact isDirectory_of_below (List.prefix_append _ _) directory
      have ensured : ∀ fs, pre fs → extractor.ensureDirectory fs
          (encodePath path) (encodePath (above ++ [name])) mode = .ok fs := by
        intro fs isPre
        have isDirectory := here fs isPre
        have valid : ValidName (Utf8.encode name) :=
          validName_of_mem (isSome_of_isDirectory isDirectory)
            (List.mem_append_right _ (List.mem_singleton_self _))
        have inside := isDirectory_of_below (List.prefix_append _ _)
          isDirectory
        have resolved (follow : Bool) :
            FileSystem.resolve extractor.process fs follow maxLinks []
              (encodePath above ++ [Utf8.encode name]) =
                .ok (encodePath above ++ [Utf8.encode name]) :=
          resolve_of_privileged unrestricted.privileged inside valid
            (.inr (isSymlink_of_isDirectory isDirectory))
        have present : mkdir extractor.process fs []
            (encodePath above ++ [Utf8.encode name]) mode =
              .error .alreadyExists := by
          rw [mkdir, resolved false]
          simp only [bind, Except.bind]
          rw [create, if_pos (isSome_of_isDirectory isDirectory)]
        rw [encodePath_append]
        change extractor.ensureDirectory fs (encodePath path)
          (encodePath above ++ [Utf8.encode name]) mode = .ok fs
        rw [ensureDirectory, present]
        dsimp only
        rw [resolved true]
        exact if_pos isDirectory
      rw [makeDirectories]
      have stays : Effect.Ensures pre
          (syscall "mkdir" (pathText path) fun fs =>
            extractor.ensureDirectory fs (encodePath path)
              (encodePath (above ++ [name])) mode)
          (fun _ => pre) fun _ _ => True := by
        apply ensures_syscall
        · intro fs isPre after isAfter
          rw [ensured fs isPre] at isAfter
          cases isAfter
          exact isPre
        · exact fun _ _ => trivial
      have first : Effect.Succeeds pre
          (syscall "mkdir" (pathText path) fun fs =>
            extractor.ensureDirectory fs (encodePath path)
              (encodePath (above ++ [name])) mode)
          () :=
        succeeds_syscall fun fs isPre => ⟨fs, ensured fs isPre⟩
      exact first.bind stays (induction isThere)

/-- A call that changes the attributes of something in the tree. -/
theorem succeeds_attributes {names : List Text} {shape : Shape} {follow : Bool}
    {mode : Nat → Nat} {mtime : Timestamp → Timestamp}
    (name operands : String)
    (isShape : overlay.shape (encodePath names) = some shape)
    (last : follow = true → ∀ target time,
      overlay.shape (encodePath names) ≠ some (.symlink target time)) :
    Effect.Succeeds (extractor.Laid start overlay)
      (syscall name operands fun fs =>
        FileSystem.setAttributes extractor.process fs [] follow
          (encodePath (extractor.staging ++ names)) mode mtime) () := by
  apply succeeds_syscall
  rintro fs ⟨number, lays⟩
  have notRoot := lays.ne_nil isShape
  have present : (fs.node (extractor.root ++ encodePath names)).isSome =
      true := by
    rw [Option.isSome_iff_ne_none]
    intro absent
    rw [(lays.isNone_iff notRoot).mp absent] at isShape
    cases isShape
  have stays : follow = false ∨
      fs.isSymlink (extractor.root ++ encodePath names) = false := by
    cases follow with
    | false => exact .inl rfl
    | true =>
        right
        rw [isSymlink]
        split
        · next target time found =>
            have stands := lays.node (encodePath names) notRoot
            rw [found] at stands
            exact absurd stands.symlink_shape (last rfl target time)
        · rfl
  have resolved := resolve_below unrestricted notRoot (lays.validName isShape)
    (isDirectory_dropLast lays isShape) stays
  refine ⟨fs.adjust (extractor.root ++ encodePath names) mode mtime, ?_⟩
  rw [FileSystem.setAttributes, encodePath_staging, resolved]
  exact if_pos present

theorem succeeds_setAttributes {header : EntryHeader} {shape : Shape}
    (isShape : overlay.shape (location header.path) = some shape)
    (known : header.type = typeSymlink ∨
      (header.type = typeDirectory ∧ ∃ mode, shape = .directory mode) ∨
      (header.type ≠ typeDirectory ∧ ∃ group, shape = .file group)) :
    Effect.Succeeds (extractor.Laid start overlay)
      (extractor.setAttributes header
        (extractor.staging ++ parts header.path)) () := by
  rw [setAttributes]
  split
  · exact Effect.succeeds_pure
  next notLink =>
  rcases known with isLink | ⟨isDirectory, mode, rfl⟩ | ⟨notDirectory, group,
    rfl⟩
  · exact absurd isLink notLink
  · have isHere : overlay.shape (encodePath (parts header.path)) =
        some (.directory mode) := isShape
    have first : Effect.Succeeds (extractor.Laid start overlay)
        (extractor.changeMode (extractor.staging ++ parts header.path)
          (header.mode &&& 0o777)) () :=
      succeeds_attributes unrestricted _ _ isHere (by simp [isHere])
    apply first.bind (ensures_changeMode_directory isShape)
    rw [if_pos isDirectory]
    exact Effect.succeeds_pure
  · have isHere : overlay.shape (encodePath (parts header.path)) =
        some (.file group) := isShape
    have first : Effect.Succeeds (extractor.Laid start overlay)
        (extractor.changeMode (extractor.staging ++ parts header.path)
          (header.mode &&& 0o777)) () :=
      succeeds_attributes unrestricted _ _ isHere (by simp [isHere])
    apply first.bind (ensures_changeMode_file isShape)
    rw [if_neg notDirectory]
    have isLater : (overlay.setInode group { overlay.inode group with
        mode := header.mode &&& 0o777 }).shape
          (encodePath (parts header.path)) = some (.file group) := isHere
    exact succeeds_attributes unrestricted _ _ isLater (by simp [isHere])

variable {path target : Text}

theorem succeeds_makeDirectory {mode : Nat} (safe : SafePath path)
    (leads : Leads overlay (location path))
    (absent : overlay.shape (location path) = none) :
    Effect.Succeeds (extractor.Laid start overlay)
      (extractor.makeDirectory (extractor.staging ++ parts path) mode) () := by
  apply succeeds_syscall
  rintro fs ⟨number, lays⟩
  rw [encodePath_staging]
  exact make_below unrestricted lays (location_ne_nil path) safe.validName
    leads absent trivial

theorem succeeds_writeNewFile {mode : Nat} {payload : Bytes}
    (safe : SafePath path) (leads : Leads overlay (location path))
    (absent : overlay.shape (location path) = none) :
    Effect.Succeeds (extractor.Laid start overlay)
      (extractor.writeNewFile (extractor.staging ++ parts path) mode payload)
      () := by
  rintro fs ⟨number, lays⟩
  obtain ⟨after, made⟩ := @make_below extractor start overlay fs number
    (location path) unrestricted (.file fs.inodes.length)
    [{ mode, mtime := extractor.process.now, content := [] }] lays
    (location_ne_nil path) safe.validName leads absent (by
      change _ < _
      rw [List.length_append]
      exact Nat.lt_succ_self _)
  have opened : syscall "open" (pathText (extractor.staging ++ parts path))
      (fun fs => createFile extractor.process fs []
        (encodePath (extractor.staging ++ parts path)) mode) fs =
        (.ok (), after) := by
    rw [syscall, Effect.run_change_eq_ok_iff, encodePath_staging]
    exact congrArg (Except.mapError _) made
  refine ⟨after.write fs.inodes.length payload, ?_⟩
  rw [writeNewFile]
  apply Effect.run_bind_eq_ok_iff.mpr
  refine ⟨fs.inodes.length, fs, rfl, ?_⟩
  apply Effect.run_bind_eq_ok_iff.mpr
  exact ⟨(), after, opened, rfl⟩

theorem succeeds_makeSymlink (safe : SafePath path)
    (leads : Leads overlay (location path))
    (absent : overlay.shape (location path) = none)
    (notEmpty : target ≠ []) (noNul : '\x00' ∉ target) :
    Effect.Succeeds (extractor.Laid start overlay)
      (extractor.makeSymlink target (extractor.staging ++ parts path)) () := by
  apply succeeds_syscall
  rintro fs ⟨number, lays⟩
  rw [encodePath_staging]
  apply make_below unrestricted lays (location_ne_nil path) safe.validName
    leads absent
  constructor
  · intro isEmpty
    exact notEmpty (Utf8.encode_injective isEmpty)
  · intro member
    exact noNul ((Utf8.mem_encode_single 0 (by decide)).mp member)

theorem succeeds_makeLink (safe : SafePath path)
    (leads : Leads overlay (location path))
    (absent : overlay.shape (location path) = none)
    (isFile : overlay.shape (location target) =
      some (.file (location target))) :
    Effect.Succeeds (extractor.Laid start overlay)
      (extractor.makeLink (extractor.staging ++ parts target)
        (extractor.staging ++ parts path)) () := by
  apply succeeds_syscall
  rintro fs ⟨number, lays⟩
  rw [encodePath_staging, encodePath_staging]
  have found := lays.node_file isFile
  have source : FileSystem.resolve extractor.process fs false maxLinks []
      (extractor.root ++ location target) =
        .ok (extractor.root ++ location target) :=
    resolve_below unrestricted (location_ne_nil target)
      (lays.validName isFile) (isDirectory_dropLast lays isFile) (.inl rfl)
  have isDirectory := leads.isDirectory lays
  have goal : FileSystem.resolve extractor.process fs false maxLinks []
      (extractor.root ++ location path) =
        .ok (extractor.root ++ location path) :=
    resolve_below unrestricted (location_ne_nil path) safe.validName
      isDirectory (.inl rfl)
  have fits : (Node.file (number (location target))).Fits
      (fs.inodes ++ []).length := by
    rw [List.append_nil]
    exact fs.fits _ _ found
  obtain ⟨after, created⟩ := create_below unrestricted (location_ne_nil path)
    safe.validName isDirectory
    ((lays.isNone_iff (location_ne_nil path)).mpr absent) fits
  refine ⟨after, ?_⟩
  refine bind_eq_ok_iff.mpr ⟨_, source, bind_eq_ok_iff.mpr ⟨_, goal, ?_⟩⟩
  rw [found]
  exact created

omit unrestricted in
theorem safeDestination_eq_ok (safe : SafePath path) :
    safeDestination extractor.staging path =
      .ok (extractor.staging ++ parts path) := by
  have within : inside extractor.staging (extractor.staging ++ parts path) =
      true := by
    rw [inside, decide_eq_true_eq]
    exact .inr ⟨by simp [staging], List.prefix_append _ _⟩
  rw [safeDestination, safe.resolve, if_pos within]

omit unrestricted in
theorem noSymlinkAncestor_eq_ok {entryTypes : EntryTypes}
    {above names : List Text}
    (noLink : ∀ inner, inner <+: names → inner ≠ [] →
      entryTypes.lookup (joinPath (above ++ inner)) ≠ some typeSymlink) :
    noSymlinkAncestor path entryTypes above names = .ok () := by
  induction names generalizing above with
  | nil => rfl
  | cons name names induction =>
      rw [noSymlinkAncestor, if_neg (noLink [name] (by simp) (by simp))]
      apply induction
      intro inner below _
      rw [← List.append_cons]
      exact noLink (name :: inner) (List.cons_prefix_cons.mpr ⟨rfl, below⟩)
        (List.cons_ne_nil _ _)

/-- What an entry must be to be made. -/
inductive Fine (extractor : Extractor) (progress : Progress)
    (header : EntryHeader) (payload : Bytes) : Prop
  | directory (isType : header.type = typeDirectory)
  | file (isType : header.type = typeFile)
  | symlink (isType : header.type = typeSymlink)
      (notEmpty : Utf8.decodeLossy payload ≠ [])
      (noNul : '\x00' ∉ Utf8.decodeLossy payload)
      (relative : (Utf8.decodeLossy payload).head? ≠ some '/')
      (within : inside extractor.staging (Workspace.resolve
        (extractor.staging ++ parts header.path).dropLast
        (Utf8.decodeLossy payload)) = true)
  | hardlink (isType : header.type = typeHardlink)
      (valid : validateRelativePath (Utf8.decodeLossy payload) = .ok ())
      (isFile : progress.entryTypes.lookup (Utf8.decodeLossy payload) =
        some typeFile)

variable {progress : Progress} {header : EntryHeader} {payload : Bytes}

/-- Making an entry and setting its attributes. -/
theorem succeeds_attach (recorded : extractor.Recorded overlay progress)
    (safe : SafePath header.path) (leads : Leads overlay (location header.path))
    (noLink : overlay.NoLinkAbove (location header.path))
    (absent : overlay.shape (location header.path) = none)
    (fine : Fine extractor progress header payload) :
    Effect.Succeeds (extractor.Laid start overlay)
      (do
        let later ← extractor.makeEntry progress header payload
          (extractor.staging ++ parts header.path)
        extractor.setAttributes header
          (extractor.staging ++ parts header.path)
        return { later with
          entryTypes := later.entryTypes.insert header.path header.type })
      (extractor.note progress header) := by
  cases fine with
  | directory isType =>
      rw [makeEntry, if_pos isType, note, if_pos isType]
      simp only [bind_assoc, pure_bind]
      apply (succeeds_makeDirectory unrestricted safe leads absent).bind
        (ensures_makeDirectory safe noLink)
      apply Effect.succeeds_of_and
      intro _
      apply (succeeds_setAttributes unrestricted Overlay.shape_put_self
        (.inr (.inl ⟨isType, _, rfl⟩))).bind
        (ensures_setAttributes_directory isType Overlay.shape_put_self)
      exact Effect.succeeds_pure
  | file isType =>
      have notDirectory : header.type ≠ typeDirectory := by
        rw [isType]
        decide
      have notLink : header.type ≠ typeSymlink := by
        rw [isType]
        decide
      rw [makeEntry, if_neg notDirectory, if_pos isType, note,
        if_neg notDirectory]
      simp only [bind_assoc, pure_bind]
      apply (succeeds_writeNewFile unrestricted safe leads absent).bind
        (ensures_writeNewFile safe noLink)
      apply Effect.succeeds_of_and
      intro _
      apply Effect.succeeds_of_exists
      intro mtime
      have isFile : ((overlay.put (location header.path)
          (.file (location header.path))).setInode (location header.path)
            { mode := header.mode &&& 0o777, mtime, content := payload }).shape
              (location header.path) = some (.file (location header.path)) :=
        Overlay.shape_put_self
      apply (succeeds_setAttributes unrestricted isFile
        (.inr (.inr ⟨notDirectory, _, rfl⟩))).bind
        (ensures_setAttributes_file notLink notDirectory isFile)
      exact Effect.succeeds_pure
  | symlink isType notEmpty noNul relative within =>
      have notDirectory : header.type ≠ typeDirectory := by
        rw [isType]
        decide
      have notFile : header.type ≠ typeFile := by
        rw [isType]
        decide
      have isSafe : ¬ ('\x00' ∈ Utf8.decodeLossy payload ∨
          (Utf8.decodeLossy payload).head? = some '/') :=
        not_or.mpr ⟨noNul, relative⟩
      rw [makeEntry, if_neg notDirectory, if_neg notFile, if_pos isType, note,
        if_neg notDirectory]
      dsimp only
      rw [if_neg isSafe, if_neg (by rw [within]; simp)]
      simp only [bind_assoc, pure_bind]
      apply (succeeds_makeSymlink unrestricted safe leads absent notEmpty
        noNul).bind (ensures_makeSymlink safe noLink)
      apply Effect.succeeds_of_and
      intro _
      apply Effect.succeeds_of_exists
      intro time
      have times : Effect.Succeeds (extractor.Laid start
          (overlay.put (location header.path)
            (.symlink (Utf8.encode (Utf8.decodeLossy payload)) time)))
          (extractor.changeLinkTimes (extractor.staging ++ parts header.path)
            header.mtimeNs) () :=
        succeeds_attributes unrestricted _ _ Overlay.shape_put_self (by simp)
      apply times.bind (ensures_changeLinkTimes Overlay.shape_put_self)
      rw [setAttributes, if_pos isType]
      exact Effect.succeeds_pure
  | hardlink isType valid isPrior =>
      have notDirectory : header.type ≠ typeDirectory := by
        rw [isType]
        decide
      have notFile : header.type ≠ typeFile := by
        rw [isType]
        decide
      have notLink : header.type ≠ typeSymlink := by
        rw [isType]
        decide
      have isFile := recorded.files _ isPrior
      rw [makeEntry, if_neg notDirectory, if_neg notFile, if_neg notLink,
        if_pos isType, note, if_neg notDirectory]
      dsimp only
      rw [valid, if_neg (not_not.mpr isPrior),
        safeDestination_eq_ok (safePath_of_validate valid)]
      simp only [bind_assoc, pure_bind]
      change Effect.Succeeds _ (do
        extractor.makeLink
          (extractor.staging ++ parts (Utf8.decodeLossy payload))
          (extractor.staging ++ parts header.path)
        extractor.setAttributes header
          (extractor.staging ++ parts header.path)
        pure _) _
      apply (succeeds_makeLink unrestricted safe leads absent isFile).bind
        (ensures_makeLink safe noLink isFile)
      apply Effect.succeeds_of_and
      intro _
      apply (succeeds_setAttributes unrestricted Overlay.shape_put_self
        (.inr (.inr ⟨notDirectory, _, rfl⟩))).bind
        (ensures_setAttributes_file notLink notDirectory
          Overlay.shape_put_self)
      exact Effect.succeeds_pure

/-- What the tree so far and what has been noted must be for the next entry. -/
structure Ready (extractor : Extractor) (overlay : Overlay)
    (progress : Progress) (header : EntryHeader) (payload : Bytes) : Prop where
  checked : assertNoSymlinkAncestor header.path progress.entryTypes = .ok ()
  ensured : overlay.ensureAll 0o700 [] (location header.path).dropLast =
    overlay
  leads : Leads overlay (location header.path)
  absent : overlay.shape (location header.path) = none
  fine : Fine extractor progress header payload

theorem succeeds_extractEntry (recorded : extractor.Recorded overlay progress)
    (safe : SafePath header.path)
    (ready : Ready extractor overlay progress header payload) :
    Effect.Succeeds (extractor.Laid start overlay)
      (extractor.extractEntry progress header payload)
      (extractor.note progress header) := by
  have noLink := recorded.noLinkAbove ready.checked
  have isDropLast : (extractor.staging ++ parts header.path).dropLast =
      extractor.staging ++ (parts header.path).dropLast :=
    List.dropLast_append_of_ne_nil (parts_ne_nil _)
  have isThere : ∀ fs, extractor.Laid start overlay fs → fs.isDirectory
      (encodePath ([] ++ (extractor.staging ++
        (parts header.path).dropLast))) = true := by
    rintro fs ⟨number, lays⟩
    have leads := ready.leads.isDirectory lays
    have same : encodePath (parts header.path).dropLast =
        (location header.path).dropLast := List.map_dropLast
    rwa [List.nil_append, encodePath_staging, same]
  rw [extractEntry, ready.checked, safeDestination_eq_ok safe]
  change Effect.Succeeds _ (do
    extractor.makeDirectories (extractor.staging ++ parts header.path).dropLast
      0o700 [] (extractor.staging ++ parts header.path).dropLast
    let later ← extractor.makeEntry progress header payload
      (extractor.staging ++ parts header.path)
    extractor.setAttributes header (extractor.staging ++ parts header.path)
    return { later with
      entryTypes := later.entryTypes.insert header.path header.type }) _
  rw [isDropLast]
  apply (succeeds_makeAbove unrestricted isThere).bind
    (ensures_makeAbove isThere)
  exact succeeds_attach unrestricted recorded safe ready.leads noLink
    ready.absent ready.fine

omit unrestricted in
theorem describe_of_ready
    (ready : Ready extractor overlay progress header payload) :
    extractor.describe overlay header payload =
      extractor.attach overlay header payload := by
  rw [describe, ready.ensured]

end Entry

/-! ## Whole extractions -/

/-- Entries each of which can be made after those before it. -/
inductive Passes (extractor : Extractor) : Overlay → Progress →
    List (EntryHeader × Bytes) → Prop
  | done {overlay : Overlay} {progress : Progress} :
      Passes extractor overlay progress []
  | entry {overlay : Overlay} {progress : Progress} {header : EntryHeader}
      {payload : Bytes} {rest : List (EntryHeader × Bytes)}
      (ready : Ready extractor overlay progress header payload)
      (later : Passes extractor (extractor.attach overlay header payload)
        (extractor.note progress header) rest) :
      Passes extractor overlay progress ((header, payload) :: rest)

section Loop

variable (unrestricted : extractor.Unrestricted) {progress : Progress}
  {bytes : Bytes} {entries : List (EntryHeader × Bytes)}

include unrestricted

theorem succeeds_extractEntries {fuel offset : Nat}
    (enough : bytes.length ≤ offset + fuel)
    (recorded : extractor.Recorded overlay progress)
    (passes : extractor.Passes overlay progress entries)
    (reads : Reads bytes offset entries) :
    Effect.Succeeds (extractor.Laid start overlay)
      (extractor.extractEntries bytes fuel offset progress)
      (entries.foldl (fun progress entry => extractor.note progress entry.1)
        progress) := by
  induction reads generalizing fuel overlay progress with
  | @done offset atEnd =>
      cases fuel with
      | zero => exact Effect.succeeds_pure
      | succ fuel =>
          rw [extractEntries, if_neg (Nat.not_lt.mpr atEnd)]
          exact Effect.succeeds_pure
  | @entry offset next header rest more isHeader whole later induction =>
      obtain ⟨safe, further, -⟩ := readHeader_eq_ok isHeader
      cases passes with
      | entry ready passesLater =>
          cases fuel with
          | zero => omega
          | succ fuel =>
              rw [extractEntries, if_pos more, isHeader]
              change Effect.Succeeds _ (if
                  bytes.length < next + header.payloadLength then _ else _) _
              rw [if_neg (Nat.not_lt.mpr whole)]
              apply (succeeds_extractEntry unrestricted recorded safe
                ready).bind (ensures_extractEntry safe recorded)
              apply Effect.succeeds_of_and
              intro recordedLater
              rw [describe_of_ready ready] at recordedLater ⊢
              exact induction (by omega) recordedLater passesLater

theorem succeeds_setDirectoryTimes {times : List (List Text × Nat)}
    (known : ∀ output mtimeNs, (output, mtimeNs) ∈ times →
      ∃ path mode, output = extractor.staging ++ parts path ∧
        overlay.shape (location path) = some (.directory mode)) :
    Effect.Succeeds (extractor.Laid start overlay)
      (extractor.setDirectoryTimes times) () := by
  induction times with
  | nil => exact Effect.succeeds_pure
  | cons first times induction =>
      obtain ⟨output, mtimeNs⟩ := first
      obtain ⟨path, mode, isOutput, isShape⟩ :=
        known output mtimeNs List.mem_cons_self
      have isHere : overlay.shape (encodePath (parts path)) =
          some (.directory mode) := isShape
      have here : Effect.Succeeds (extractor.Laid start overlay)
          (extractor.changeTimes (extractor.staging ++ parts path) mtimeNs)
          () :=
        succeeds_attributes unrestricted _ _ isHere (by simp [isHere])
      rw [setDirectoryTimes, isOutput]
      apply here.bind (ensures_changeTimes_directory isShape)
      apply induction
      intro other time member
      exact known other time (List.mem_cons_of_mem _ member)

theorem succeeds_beginStaging
    (directory : start.isDirectory extractor.home = true)
    (absent : start.node extractor.root = none) :
    Effect.Succeeds (fun fs => fs = start)
      (extractor.makeDirectory extractor.staging 0o700) () := by
  apply succeeds_syscall
  rintro fs rfl
  have resolved : FileSystem.resolve extractor.process fs false maxLinks []
      (extractor.home ++ [extractor.stagingName]) =
        .ok (extractor.home ++ [extractor.stagingName]) :=
    resolve_of_privileged unrestricted.privileged directory
      extractor.validStaging (.inl rfl)
  have created : ∃ after, create extractor.process fs
      (extractor.home ++ [extractor.stagingName])
      (.directory 0o700 extractor.process.now) [] = .ok after := by
    rw [root_eq] at absent
    apply create_eq_ok absent
    · exact Process.mayChange_of_privileged unrestricted.privileged _
    · exact unrestricted.accepts _
    · rwa [List.dropLast_concat]
    · rw [List.getLastD_concat]
      exact extractor.validStaging
    · exact trivial
  obtain ⟨after, created⟩ := created
  rw [staging, encodePath_home]
  exact ⟨after, bind_eq_ok_iff.mpr ⟨_, resolved, created⟩⟩

/-- An archive whose entries can be made is extracted. -/
theorem succeeds_extraction
    (directory : start.isDirectory extractor.home = true)
    (absent : start.node extractor.root = none)
    (isMagic : bytes.take magic.length = magic)
    (reads : Reads bytes magic.length entries)
    (passes : extractor.Passes .empty {} entries) :
    Effect.Succeeds (fun fs => fs = start) (extractor.extractCfs (.ok bytes))
      () := by
  have enough : bytes.length ≤ magic.length + bytes.length :=
    Nat.le_add_left _ _
  change Effect.Succeeds _ (if bytes.take magic.length ≠ magic then _ else _) _
  rw [if_neg (not_not.mpr isMagic)]
  apply (succeeds_beginStaging unrestricted directory absent).bind
    (ensures_beginStaging directory)
  apply Effect.succeeds_of_exists
  intro begun
  apply Effect.succeeds_of_and
  intro _
  apply Effect.succeeds_of_and
  intro untouched
  apply Effect.Succeeds.handle
  apply (succeeds_extractEntries unrestricted enough recorded_empty passes
    reads).bind (ensures_extractEntries enough recorded_empty)
  apply Effect.succeeds_of_exists
  intro held
  apply Effect.succeeds_of_and
  intro _
  apply Effect.succeeds_of_and
  intro recorded
  have known : ∀ output mtimeNs, (output, mtimeNs) ∈ _ →
      ∃ path mode, output = extractor.staging ++ parts path ∧
        (extractor.describeAll .empty held).shape (location path) =
          some (.directory mode) := fun output mtimeNs member =>
    recorded.directories output mtimeNs (List.mem_reverse.mp member)
  apply (succeeds_setDirectoryTimes unrestricted known).bind
    (ensures_setDirectoryTimes known)
  apply (ensures_install unrestricted.unhindered directory absent untouched
    fun _ => True).succeeds.mono
  exact fun _ laid => ⟨trivial, laid⟩

end Loop

end Extractor

end Electrosphere.Cfs
