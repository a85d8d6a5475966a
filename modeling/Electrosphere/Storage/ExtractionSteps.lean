import Electrosphere.Foundation.Outcome
import Electrosphere.Foundation.Overlay
import Electrosphere.Storage.Extraction

/-!
# What extraction lays out

Each entry that is extracted adds to the tree below the staging directory what
the archive says of it, and an entry that is refused has changed nothing
outside.
-/

namespace Electrosphere.Cfs

open Foundation FileSystem Workspace

/-- The names of a relative path. -/
def parts (path : Text) : List Text := path.splitOn '/'

def location (path : Text) : Location := encodePath (parts path)

/-- Paths that `validateRelativePath` lets pass. -/
def SafePath (path : Text) : Prop := ∀ part ∈ parts path, ValidText part

theorem safePath_of_validate {path : Text}
    (validated : validateRelativePath path = .ok ()) : SafePath path := by
  rw [validateRelativePath] at validated
  split at validated
  · cases validated
  · next safe =>
      obtain ⟨isSafe, noNul⟩ := not_or.mp safe
      exact unsafePath_eq_false_iff.mp
        ⟨Bool.eq_false_iff.mpr isSafe, noNul⟩

theorem SafePath.validName {path : Text} (safe : SafePath path) :
    ∀ name ∈ location path, ValidName name := by
  intro name member
  obtain ⟨part, isPart, rfl⟩ := List.mem_map.mp member
  exact safe part isPart

theorem parts_ne_nil (path : Text) : parts path ≠ [] :=
  List.splitOn_ne_nil '/' path

theorem location_ne_nil (path : Text) : location path ≠ [] := by
  rw [location, encodePath, Ne, List.map_eq_nil_iff]
  exact parts_ne_nil path

theorem location_injective : Function.Injective location := by
  intro first second same
  have parts := encodePath_injective same
  rw [← joinPath_splitOn first, ← joinPath_splitOn second]
  exact congrArg joinPath parts

/-- A safe path leads on from where it starts. -/
theorem SafePath.resolve {path : Text} (safe : SafePath path)
    (root : List Text) : Workspace.resolve root path = root ++ parts path := by
  have steps : ∀ (stack names : List Text), (∀ name ∈ names, ValidText name) →
      names.foldl resolveStep stack = stack ++ names := by
    intro stack names
    induction names generalizing stack with
    | nil =>
        intro _
        exact (List.append_nil _).symm
    | cons name names induction =>
        intro valid
        obtain ⟨isName, rest⟩ := List.forall_mem_cons.mp valid
        rw [List.foldl_cons, resolveStep,
          if_neg (not_or.mpr ⟨isName.notEmpty, isName.notHere⟩),
          if_neg isName.notUp, induction _ rest, List.append_assoc]
        rfl
  have relative : path.head? ≠ some '/' := by
    intro isSlash
    have isSafe := (unsafePath_eq_false_iff.mpr safe).1
    rw [unsafePath, decide_eq_false_iff_not, not_or, not_or] at isSafe
    exact isSafe.2.1 isSlash
  rw [Workspace.resolve, if_neg relative]
  exact steps root _ safe

theorem eq_of_safeDestination {root output : List Text} {path : Text}
    (safe : SafePath path) (isOutput : safeDestination root path = .ok output) :
    output = root ++ parts path := by
  rw [safeDestination, safe.resolve] at isOutput
  split at isOutput
  · cases isOutput
    rfl
  · cases isOutput

/-- No part of the path before the last is noted as a link. -/
theorem lookup_of_noSymlinkAncestor {path : Text} {entryTypes : EntryTypes}
    {above names inner : List Text}
    (passed : noSymlinkAncestor path entryTypes above names = .ok ())
    (below : inner <+: names) (notHere : inner ≠ []) :
    entryTypes.lookup (joinPath (above ++ inner)) ≠ some typeSymlink := by
  induction names generalizing above inner with
  | nil => exact absurd (List.prefix_nil.mp below) notHere
  | cons name names induction =>
      rw [noSymlinkAncestor] at passed
      split at passed
      · cases passed
      · next notLink =>
          cases inner with
          | nil => exact absurd rfl notHere
          | cons first inner =>
              obtain ⟨rfl, further⟩ := List.cons_prefix_cons.mp below
              rw [List.append_cons]
              by_cases isLast : inner = []
              · rw [isLast, List.append_nil]
                exact notLink
              · exact induction passed further isLast

/-! ## The tree of an archive -/

namespace Extractor

variable (extractor : Extractor)

/-- What stands at the path of an entry. -/
def attach (overlay : Overlay) (header : EntryHeader) (payload : Bytes) :
    Overlay :=
  let path := location header.path
  if header.type = typeDirectory then
    overlay.put path (.directory (header.mode &&& 0o777))
  else if header.type = typeFile then
    (overlay.put path (.file path)).setInode path
      { mode := header.mode &&& 0o777
        mtime := extractor.time header.mtimeNs
        content := payload }
  else if header.type = typeSymlink then
    overlay.put path (.symlink (Utf8.encode (Utf8.decodeLossy payload))
      (extractor.time header.mtimeNs))
  else
    let group := location (Utf8.decodeLossy payload)
    (overlay.put path (.file group)).setInode group
      { overlay.inode group with
        mode := header.mode &&& 0o777
        mtime := extractor.time header.mtimeNs }

/-- What an entry adds to the tree. -/
def describe (overlay : Overlay) (header : EntryHeader) (payload : Bytes) :
    Overlay :=
  extractor.attach
    (overlay.ensureAll 0o700 [] (location header.path).dropLast) header payload

def root : Location := encodePath extractor.staging

/-- The staging directory holds the tree. -/
def Laid (start : FileSystem) (overlay : Overlay) (fs : FileSystem) : Prop :=
  ∃ number, Lays start extractor.root overlay number fs

/-- What the loop keeps after an entry. -/
def note (progress : Progress) (header : EntryHeader) : Progress where
  entryTypes := progress.entryTypes.insert header.path header.type
  directoryTimes :=
    if header.type = typeDirectory then
      progress.directoryTimes ++
        [(extractor.staging ++ parts header.path, header.mtimeNs)]
    else progress.directoryTimes

/-- What has been noted of the entries is what is in the tree. -/
structure Recorded (overlay : Overlay) (progress : Progress) : Prop where
  symlinks : ∀ place target mtime,
    overlay.shape place = some (.symlink target mtime) →
      ∃ path, place = location path ∧
        progress.entryTypes.lookup path = some typeSymlink
  files : ∀ path, progress.entryTypes.lookup path = some typeFile →
    overlay.shape (location path) = some (.file (location path))
  directories : ∀ output mtimeNs,
    (output, mtimeNs) ∈ progress.directoryTimes →
      ∃ path mode, output = extractor.staging ++ parts path ∧
        overlay.shape (location path) = some (.directory mode)

section Records

variable {extractor : Extractor} {overlay : Overlay} {progress : Progress}
  {header : EntryHeader} {payload : Bytes}

theorem shape_attach_of_ne {place : Location}
    (different : place ≠ location header.path) :
    (extractor.attach overlay header payload).shape place =
      overlay.shape place := by
  rw [attach]
  split
  · exact Overlay.shape_put_of_ne different
  · split
    · exact Overlay.shape_put_of_ne different
    · split
      · exact Overlay.shape_put_of_ne different
      · exact Overlay.shape_put_of_ne different

theorem type_of_shape_attach {target : List UInt8} {mtime : Timestamp}
    (isLink : (extractor.attach overlay header payload).shape
      (location header.path) = some (.symlink target mtime)) :
    header.type = typeSymlink := by
  rw [attach] at isLink
  split at isLink
  · rw [Overlay.shape_put_self] at isLink
    cases isLink
  · split at isLink
    · rw [Overlay.shape_setInode, Overlay.shape_put_self] at isLink
      cases isLink
    · split at isLink
      · next isType => exact isType
      · rw [Overlay.shape_setInode, Overlay.shape_put_self] at isLink
        cases isLink

theorem recorded_empty : extractor.Recorded .empty {} where
  symlinks _ _ _ isLink := by cases isLink
  files path isFile := by cases isFile
  directories _ _ member := by cases member

theorem Recorded.ensureAll (recorded : extractor.Recorded overlay progress)
    (mode : Nat) (above : Location) (names : List Name) :
    extractor.Recorded (overlay.ensureAll mode above names) progress where
  symlinks place target mtime isLink := by
    apply recorded.symlinks place target mtime
    rw [Overlay.shape_ensureAll] at isLink
    split at isLink
    · cases isLink
    · exact isLink
  files path isFile := by
    have isShape := recorded.files path isFile
    rw [Overlay.shape_ensureAll, if_neg]
    · exact isShape
    · rintro ⟨absent, -⟩
      rw [absent] at isShape
      cases isShape
  directories output mtimeNs member := by
    obtain ⟨path, held, isOutput, isShape⟩ :=
      recorded.directories output mtimeNs member
    refine ⟨path, held, isOutput, ?_⟩
    rw [Overlay.shape_ensureAll, if_neg]
    · exact isShape
    · rintro ⟨absent, -⟩
      rw [absent] at isShape
      cases isShape

/-- The names of an entry are noted as they come into the tree. -/
theorem Recorded.attach (recorded : extractor.Recorded overlay progress)
    (absent : overlay.shape (location header.path) = none) :
    extractor.Recorded (extractor.attach overlay header payload)
      (extractor.note progress header) where
  symlinks place target mtime isLink := by
    by_cases isHere : place = location header.path
    · rw [isHere] at isLink
      refine ⟨header.path, isHere, ?_⟩
      rw [note, AList.lookup_insert, type_of_shape_attach isLink]
    · rw [shape_attach_of_ne isHere] at isLink
      obtain ⟨path, rfl, isNoted⟩ := recorded.symlinks place target mtime isLink
      refine ⟨path, rfl, ?_⟩
      rw [note, AList.lookup_insert_ne]
      · exact isNoted
      · rintro rfl
        exact isHere rfl
  files path isFile := by
    rw [note, AList.lookup_insert_if] at isFile
    by_cases isHere : path = header.path
    · rw [if_pos isHere] at isFile
      have isType := Option.some.inj isFile
      have notDirectory : header.type ≠ typeDirectory := by
        rw [isType]
        decide
      rw [isHere, Extractor.attach, if_neg notDirectory, if_pos isType]
      exact Overlay.shape_put_self
    · rw [if_neg isHere] at isFile
      rw [shape_attach_of_ne fun same => isHere (location_injective same)]
      exact recorded.files path isFile
  directories output mtimeNs member := by
    have known : ∀ path held, overlay.shape (location path) =
        some (.directory held) →
        (extractor.attach overlay header payload).shape (location path) =
          some (.directory held) := by
      intro path held isShape
      rw [shape_attach_of_ne]
      · exact isShape
      · intro same
        rw [same, absent] at isShape
        cases isShape
    rw [note] at member
    by_cases isType : header.type = typeDirectory
    · rw [if_pos isType] at member
      rcases List.mem_append.mp member with earlier | isLast
      · obtain ⟨path, held, isOutput, isShape⟩ :=
          recorded.directories output mtimeNs earlier
        exact ⟨path, held, isOutput, known path held isShape⟩
      · cases List.mem_singleton.mp isLast
        refine ⟨header.path, header.mode &&& 0o777, rfl, ?_⟩
        rw [Extractor.attach, if_pos isType]
        exact Overlay.shape_put_self
    · rw [if_neg isType] at member
      obtain ⟨path, held, isOutput, isShape⟩ :=
        recorded.directories output mtimeNs member
      exact ⟨path, held, isOutput, known path held isShape⟩

end Records

section Steps

variable {extractor : Extractor} {start : FileSystem} {overlay : Overlay}
  {pre done failed : FileSystem → Prop}

theorem ensures_syscall {name operands : String}
    {operation : FileSystem → Except Errno FileSystem}
    (isOk : ∀ fs, pre fs → ∀ later, operation fs = .ok later → done later)
    (isError : ∀ fs, pre fs → failed fs) :
    Effect.Ensures pre (syscall name operands operation) (fun _ => done)
      fun _ => failed := by
  apply Effect.ensures_change
  · intro fs isPre later ran
    cases result : operation fs with
    | ok next =>
        rw [result] at ran
        cases ran
        exact isOk fs isPre _ result
    | error errno =>
        rw [result] at ran
        cases ran
  · intro fs isPre error _
    exact isError fs isPre

theorem Laid.confined {fs : FileSystem} (laid : extractor.Laid start overlay fs) :
    Confined start extractor.root fs := by
  obtain ⟨number, lays⟩ := laid
  exact lays.toConfined

/-- A call that resolves a path and makes something there. -/
theorem created_of_bind {process : Process} {fs after : FileSystem}
    {path : Location} {held : Node} {extra : List Inode}
    {number : Location → Nat}
    (lays : Lays start extractor.root overlay number fs)
    (valid : ∀ name ∈ path, ValidName name) (noLink : overlay.NoLinkAbove path)
    (made : (do
      let location ← FileSystem.resolve process fs false maxLinks []
        (extractor.root ++ path)
      create process fs location held extra) = .ok after) :
    Created fs after (extractor.root ++ path) held extra process.now := by
  obtain ⟨location, resolved, made⟩ := bind_eq_ok_iff.mp made
  have isHere := lays.eq_of_resolve valid noLink (fun same => by cases same)
    resolved
  rw [isHere] at made
  exact created_of_create made

theorem encodePath_staging (names : List Text) :
    encodePath (extractor.staging ++ names) =
      extractor.root ++ encodePath names :=
  encodePath_append _ _

/-! ### Directories -/

theorem ensureDirectory_of_made {fs made : FileSystem} {goal path : Location}
    {mode : Nat} (isMade : mkdir extractor.process fs [] path mode = .ok made) :
    extractor.ensureDirectory fs goal path mode = .ok made := by
  rw [ensureDirectory, isMade]

/-- A directory on the way to the root is there. -/
theorem ensureDirectory_above {fs after : FileSystem} {goal above : Location}
    {mode : Nat} (isAbove : fs.isDirectory above = true)
    (ensured : extractor.ensureDirectory fs goal above mode = .ok after) :
    after = fs := by
  rw [ensureDirectory] at ensured
  split at ensured
  · next made isMade =>
      obtain ⟨location, resolved, created⟩ := bind_eq_ok_iff.mp isMade
      have isHere := eq_of_resolve_directory isAbove resolved
      have absent := (created_of_create created).absent
      rw [isHere] at absent
      rw [isDirectory, absent] at isAbove
      cases isAbove
  · split at ensured
    · split at ensured
      · cases ensured
        rfl
      · split at ensured <;> cases ensured
    · cases ensured
  · cases ensured

theorem ensures_ensureDirectory {goal path : Location} {mode : Nat}
    (name operands : String) (valid : ∀ name ∈ path, ValidName name)
    (notRoot : path ≠ []) (noLink : overlay.NoLinkAbove path)
    (notLink : ∀ target mtime,
      overlay.shape path ≠ some (.symlink target mtime)) :
    Effect.Ensures (extractor.Laid start overlay)
      (syscall name operands fun fs =>
        extractor.ensureDirectory fs goal (extractor.root ++ path) mode)
      (fun _ => extractor.Laid start (overlay.ensure mode path))
      fun _ => Confined start extractor.root := by
  apply ensures_syscall
  · rintro fs ⟨number, lays⟩ after ensured
    refine ⟨number, ?_⟩
    rw [ensureDirectory] at ensured
    split at ensured
    · next made isMade =>
        cases ensured
        have created := created_of_bind lays valid noLink isMade
        have absent := (lays.isNone_iff notRoot).mp created.absent
        rw [Overlay.ensure, if_pos absent]
        apply lays.make notRoot created .directory
        intro group isFile
        cases isFile
    · split at ensured
      · next location resolved =>
          split at ensured
          · next isDirectory =>
              cases ensured
              have isHere := lays.eq_of_resolve valid noLink
                (fun _ => notLink) resolved
              rw [Overlay.ensure, if_neg]
              · exact lays
              · intro absent
                rw [isHere, FileSystem.isDirectory,
                  (lays.isNone_iff notRoot).mpr absent] at isDirectory
                cases isDirectory
          · split at ensured <;> cases ensured
      · cases ensured
    · cases ensured
  · exact fun fs laid => laid.confined

theorem makeDirectories_append {path above first second : List Text}
    {mode : Nat} :
    extractor.makeDirectories path mode above (first ++ second) =
      (do
        extractor.makeDirectories path mode above first
        extractor.makeDirectories path mode (above ++ first) second) := by
  induction first generalizing above with
  | nil =>
      rw [List.append_nil]
      rfl
  | cons name first induction =>
      have later := @induction (above ++ [name])
      rw [List.append_assoc] at later
      rw [List.cons_append, makeDirectories, makeDirectories, later]
      funext fs
      simp only [Effect.run_bind]
      split
      · rfl
      · rfl

/-- Directories that are there already are left alone. -/
theorem ensures_makeAbove {path above names : List Text} {mode : Nat}
    (isThere : ∀ fs, pre fs →
      fs.isDirectory (encodePath (above ++ names)) = true) :
    Effect.Ensures pre (extractor.makeDirectories path mode above names)
      (fun _ => pre) fun _ => pre := by
  induction names generalizing above with
  | nil => exact Effect.ensures_pure fun _ isPre => isPre
  | cons name names induction =>
      rw [List.append_cons] at isThere
      rw [makeDirectories]
      apply Effect.ensures_bind fun _ => pre
      · apply ensures_syscall
        · intro fs isPre after ensured
          have isDirectory : fs.isDirectory (encodePath (above ++ [name])) =
              true := by
            have directory := isThere fs isPre
            rw [encodePath_append] at directory
            exact isDirectory_of_below (List.prefix_append _ _) directory
          rw [ensureDirectory_above isDirectory ensured]
          exact isPre
        · exact fun fs isPre => isPre
      · exact fun _ => induction isThere

theorem ensures_makeBelow {path inner names : List Text} {last : Text}
    {mode : Nat}
    (valid : ∀ name ∈ encodePath (inner ++ names), ValidName name)
    (noLink : overlay.NoLinkAbove (encodePath (inner ++ names ++ [last]))) :
    Effect.Ensures (extractor.Laid start overlay)
      (extractor.makeDirectories path mode (extractor.staging ++ inner) names)
      (fun _ => extractor.Laid start
        (overlay.ensureAll mode (encodePath inner) (encodePath names)))
      fun _ => Confined start extractor.root := by
  induction names generalizing inner overlay with
  | nil => exact Effect.ensures_pure fun _ laid => laid
  | cons name names induction =>
      have below : encodePath (inner ++ [name]) <+:
          encodePath (inner ++ name :: names ++ [last]) := by
        simp [encodePath]
      rw [makeDirectories, List.append_assoc]
      apply Effect.ensures_bind fun _ => extractor.Laid start
        (overlay.ensure mode (encodePath (inner ++ [name])))
      · rw [encodePath_staging]
        apply ensures_ensureDirectory
        · intro part member
          apply valid part
          rw [List.append_cons, encodePath_append]
          exact List.mem_append_left _ member
        · simp [encodePath]
        · exact noLink.mono below
        · apply noLink _ below
          intro same
          have longer := congrArg List.length same
          simp [encodePath] at longer
      · intro _
        rw [List.append_cons inner name names] at valid noLink
        have isNext : overlay.ensureAll mode (encodePath inner)
            (encodePath (name :: names)) =
            (overlay.ensure mode (encodePath (inner ++ [name]))).ensureAll mode
              (encodePath (inner ++ [name])) (encodePath names) := by
          rw [encodePath_append]
          rfl
        rw [isNext]
        exact induction valid noLink.ensure

/-- The directories above an entry. -/
theorem ensures_makeDirectories {path : Text} (safe : SafePath path)
    (noLink : overlay.NoLinkAbove (location path)) :
    Effect.Ensures (extractor.Laid start overlay)
      (extractor.makeDirectories (extractor.staging ++ parts path).dropLast
        0o700 [] (extractor.staging ++ parts path).dropLast)
      (fun _ => extractor.Laid start
        (overlay.ensureAll 0o700 [] (location path).dropLast))
      fun _ => Confined start extractor.root := by
  have whole := List.dropLast_append_getLast (parts_ne_nil path)
  have isDropLast : (location path).dropLast =
      encodePath (parts path).dropLast := List.map_dropLast.symm
  rw [List.dropLast_append_of_ne_nil (parts_ne_nil path),
    makeDirectories_append, List.nil_append, isDropLast]
  apply Effect.ensures_bind fun _ => extractor.Laid start overlay
  · apply (ensures_makeAbove fun fs laid => laid.confined.directory).mono
      (fun _ laid => laid) (fun _ _ laid => laid)
    exact fun _ _ laid => laid.confined
  · intro _
    have below := @ensures_makeBelow extractor start overlay
      (extractor.staging ++ (parts path).dropLast) [] (parts path).dropLast
      ((parts path).getLast (parts_ne_nil path)) 0o700
    rw [List.append_nil, List.nil_append, whole] at below
    apply below _ noLink
    intro name member
    apply safe.validName
    exact List.mem_of_mem_dropLast (isDropLast ▸ member)

/-! ### Entries -/

/-- A call that changes the attributes of what an entry has made. -/
theorem ensures_attributes {names : List Text} {later : Overlay}
    {shape : Shape} {follow : Bool} {mode : Nat → Nat}
    {mtime : Timestamp → Timestamp} (name operands : String)
    (isShape : overlay.shape (encodePath names) = some shape)
    (last : follow = true → ∀ target time,
      overlay.shape (encodePath names) ≠ some (.symlink target time))
    (adjusted : ∀ number fs, Lays start extractor.root overlay number fs →
      Lays start extractor.root later number
        (fs.adjust (extractor.root ++ encodePath names) mode mtime)) :
    Effect.Ensures (extractor.Laid start overlay)
      (syscall name operands fun fs =>
        FileSystem.setAttributes extractor.process fs [] follow
          (encodePath (extractor.staging ++ names)) mode mtime)
      (fun _ => extractor.Laid start later)
      fun _ => Confined start extractor.root := by
  apply ensures_syscall
  · rintro fs ⟨number, lays⟩ after changed
    rw [encodePath_staging] at changed
    obtain ⟨location, resolved, -, rfl⟩ := setAttributes_eq_ok changed
    have isHere := lays.eq_of_resolve (lays.validName isShape)
      (lays.noLinkAbove isShape) last resolved
    rw [isHere]
    exact ⟨number, adjusted number fs lays⟩
  · exact fun fs laid => laid.confined

section Attributes

variable {names : List Text}

theorem ensures_changeMode_directory {held mode : Nat}
    (isShape : overlay.shape (encodePath names) = some (.directory held)) :
    Effect.Ensures (extractor.Laid start overlay)
      (extractor.changeMode (extractor.staging ++ names) mode)
      (fun _ => extractor.Laid start
        (overlay.put (encodePath names) (.directory mode)))
      fun _ => Confined start extractor.root := by
  apply ensures_attributes _ _ isShape
  · simp [isShape]
  · intro number fs lays
    exact lays.adjust_directory isShape (fun _ => mode) id

theorem ensures_changeMode_file {group : Location} {mode : Nat}
    (isShape : overlay.shape (encodePath names) = some (.file group)) :
    Effect.Ensures (extractor.Laid start overlay)
      (extractor.changeMode (extractor.staging ++ names) mode)
      (fun _ => extractor.Laid start
        (overlay.setInode group { overlay.inode group with mode }))
      fun _ => Confined start extractor.root := by
  apply ensures_attributes _ _ isShape
  · simp [isShape]
  · intro number fs lays
    exact lays.adjust_file isShape (fun _ => mode) id

theorem ensures_changeTimes_directory {held mtimeNs : Nat}
    (isShape : overlay.shape (encodePath names) = some (.directory held)) :
    Effect.Ensures (extractor.Laid start overlay)
      (extractor.changeTimes (extractor.staging ++ names) mtimeNs)
      (fun _ => extractor.Laid start overlay)
      fun _ => Confined start extractor.root := by
  apply ensures_attributes _ _ isShape
  · simp [isShape]
  · intro number fs lays
    have adjusted := lays.adjust_directory isShape id
      fun _ => extractor.time mtimeNs
    rwa [id, Overlay.put_eq_self isShape] at adjusted

theorem ensures_changeTimes_file {group : Location} {mtimeNs : Nat}
    (isShape : overlay.shape (encodePath names) = some (.file group)) :
    Effect.Ensures (extractor.Laid start overlay)
      (extractor.changeTimes (extractor.staging ++ names) mtimeNs)
      (fun _ => extractor.Laid start
        (overlay.setInode group { overlay.inode group with
          mtime := extractor.time mtimeNs }))
      fun _ => Confined start extractor.root := by
  apply ensures_attributes _ _ isShape
  · simp [isShape]
  · intro number fs lays
    exact lays.adjust_file isShape id fun _ => extractor.time mtimeNs

theorem ensures_changeLinkTimes {target : List UInt8} {held : Timestamp}
    {mtimeNs : Nat}
    (isShape : overlay.shape (encodePath names) =
      some (.symlink target held)) :
    Effect.Ensures (extractor.Laid start overlay)
      (extractor.changeLinkTimes (extractor.staging ++ names) mtimeNs)
      (fun _ => extractor.Laid start (overlay.put (encodePath names)
        (.symlink target (extractor.time mtimeNs))))
      fun _ => Confined start extractor.root := by
  apply ensures_attributes _ _ isShape
  · intro follows
    cases follows
  · intro number fs lays
    exact lays.adjust_symlink isShape id fun _ => extractor.time mtimeNs

end Attributes

/-- What makes one name: nothing stood there before. -/
theorem ensures_makeDirectory {path : Text} {mode : Nat}
    (safe : SafePath path) (noLink : overlay.NoLinkAbove (location path)) :
    Effect.Ensures (extractor.Laid start overlay)
      (extractor.makeDirectory (extractor.staging ++ parts path) mode)
      (fun _ fs => overlay.shape (location path) = none ∧
        extractor.Laid start (overlay.put (location path) (.directory mode)) fs)
      fun _ => Confined start extractor.root := by
  apply ensures_syscall
  · rintro fs ⟨number, lays⟩ after made
    rw [encodePath_staging] at made
    have created := created_of_bind lays safe.validName noLink made
    have notRoot := location_ne_nil path
    refine ⟨(lays.isNone_iff notRoot).mp created.absent, number, ?_⟩
    apply lays.make notRoot created .directory
    intro group isFile
    cases isFile
  · exact fun fs laid => laid.confined

theorem ensures_makeSymlink {path target : Text}
    (safe : SafePath path) (noLink : overlay.NoLinkAbove (location path)) :
    Effect.Ensures (extractor.Laid start overlay)
      (extractor.makeSymlink target (extractor.staging ++ parts path))
      (fun _ fs => overlay.shape (location path) = none ∧
        ∃ time, extractor.Laid start (overlay.put (location path)
          (.symlink (Utf8.encode target) time)) fs)
      fun _ => Confined start extractor.root := by
  apply ensures_syscall
  · rintro fs ⟨number, lays⟩ after made
    rw [encodePath_staging] at made
    have created := created_of_bind lays safe.validName noLink made
    have notRoot := location_ne_nil path
    refine ⟨(lays.isNone_iff notRoot).mp created.absent,
      extractor.process.now, number, ?_⟩
    apply lays.make notRoot created .symlink
    intro group isFile
    cases isFile
  · exact fun fs laid => laid.confined

theorem ensures_writeNewFile {path : Text} {mode : Nat} {payload : Bytes}
    (safe : SafePath path) (noLink : overlay.NoLinkAbove (location path)) :
    Effect.Ensures (extractor.Laid start overlay)
      (extractor.writeNewFile (extractor.staging ++ parts path) mode payload)
      (fun _ fs => overlay.shape (location path) = none ∧
        ∃ mtime, extractor.Laid start
          ((overlay.put (location path) (.file (location path))).setInode
            (location path) { mode, mtime, content := payload }) fs)
      fun _ => Confined start extractor.root := by
  let place := location path
  apply Effect.ensures_bind fun inode fs =>
    extractor.Laid start overlay fs ∧ inode = fs.inodes.length
  · intro fs laid
    constructor
    · intro inode later same
      cases same
      exact ⟨laid, rfl⟩
    · intro error later same
      cases same
  intro inode
  apply Effect.ensures_bind fun _ fs => overlay.shape place = none ∧
    ∃ number, Lays start extractor.root
      ((overlay.put place (.file place)).setInode place
        { mode, mtime := extractor.process.now, content := [] }) number fs ∧
      inode = number place
  · apply ensures_syscall
    · rintro fs ⟨⟨number, lays⟩, isLength⟩ after made
      rw [encodePath_staging] at made
      have created := created_of_bind lays safe.validName noLink made
      have notRoot := location_ne_nil path
      refine ⟨(lays.isNone_iff notRoot).mp created.absent, _,
        lays.makeFile notRoot created, ?_⟩
      rw [isLength, Function.update_self]
    · exact fun fs both => both.1.confined
  intro _
  apply Effect.ensures_change
  · rintro fs ⟨absent, number, lays, isNumber⟩ after written
    cases written
    have shape : ((overlay.put place (.file place)).setInode place
        { mode, mtime := extractor.process.now, content := [] }).shape place =
        some (.file place) := Overlay.shape_put_self
    have later := lays.write shape payload
    rw [Overlay.inode_setInode_self, Overlay.setInode_setInode,
      ← isNumber] at later
    exact ⟨absent, extractor.process.now, number, later⟩
  · intro fs _ error failing
    cases failing

theorem ensures_makeLink {path target : Text}
    (safe : SafePath path) (noLink : overlay.NoLinkAbove (location path))
    (isFile : overlay.shape (location target) =
      some (.file (location target))) :
    Effect.Ensures (extractor.Laid start overlay)
      (extractor.makeLink (extractor.staging ++ parts target)
        (extractor.staging ++ parts path))
      (fun _ fs => overlay.shape (location path) = none ∧
        extractor.Laid start
          (overlay.put (location path) (.file (location target))) fs)
      fun _ => Confined start extractor.root := by
  apply ensures_syscall
  · rintro fs ⟨number, lays⟩ after made
    rw [encodePath_staging, encodePath_staging] at made
    obtain ⟨source, resolved, made⟩ := bind_eq_ok_iff.mp made
    obtain ⟨goal, resolvedGoal, made⟩ := bind_eq_ok_iff.mp made
    have isSource : source = extractor.root ++ location target :=
      lays.eq_of_resolve (lays.validName isFile) (lays.noLinkAbove isFile)
        (fun same => by cases same) resolved
    have isGoal : goal = extractor.root ++ location path :=
      lays.eq_of_resolve safe.validName noLink (fun same => by cases same)
        resolvedGoal
    rw [isSource, lays.node_file isFile, isGoal] at made
    have created := created_of_create made
    have notRoot := location_ne_nil path
    refine ⟨(lays.isNone_iff notRoot).mp created.absent, number, ?_⟩
    apply lays.make notRoot created .file
    rintro group same
    cases same
    exact isFile
  · exact fun fs laid => laid.confined

/-! ### The branches of an entry's type -/

section Branches

variable {progress : Progress} {header : EntryHeader} {payload : Bytes}

theorem ensures_setAttributes_directory {held : Nat}
    (isType : header.type = typeDirectory)
    (isShape : overlay.shape (location header.path) =
      some (.directory held)) :
    Effect.Ensures (extractor.Laid start overlay)
      (extractor.setAttributes header
        (extractor.staging ++ parts header.path))
      (fun _ => extractor.Laid start (overlay.put (location header.path)
        (.directory (header.mode &&& 0o777))))
      fun _ => Confined start extractor.root := by
  have notLink : header.type ≠ typeSymlink := by
    rw [isType]
    decide
  rw [setAttributes, if_neg notLink]
  apply Effect.ensures_bind _ (ensures_changeMode_directory isShape)
  intro _
  rw [if_pos isType]
  exact Effect.ensures_pure fun _ laid => laid

theorem ensures_setAttributes_file {group : Location}
    (notLink : header.type ≠ typeSymlink)
    (notDirectory : header.type ≠ typeDirectory)
    (isShape : overlay.shape (location header.path) = some (.file group)) :
    Effect.Ensures (extractor.Laid start overlay)
      (extractor.setAttributes header
        (extractor.staging ++ parts header.path))
      (fun _ => extractor.Laid start (overlay.setInode group
        { overlay.inode group with
          mode := header.mode &&& 0o777
          mtime := extractor.time header.mtimeNs }))
      fun _ => Confined start extractor.root := by
  rw [setAttributes, if_neg notLink]
  apply Effect.ensures_bind _ (ensures_changeMode_file isShape)
  intro _
  rw [if_neg notDirectory]
  have isFile : (overlay.setInode group { overlay.inode group with
      mode := header.mode &&& 0o777 }).shape (location header.path) =
      some (.file group) := isShape
  apply (ensures_changeTimes_file isFile).mono (fun _ laid => laid) _
    fun _ _ confined => confined
  intro _ fs laid
  rwa [Overlay.inode_setInode_self, Overlay.setInode_setInode] at laid

/-- Making an entry and setting its attributes adds it to the tree. -/
def Attaches (extractor : Extractor) (start : FileSystem) (overlay : Overlay)
    (progress : Progress) (header : EntryHeader) (payload : Bytes) : Prop :=
  Effect.Ensures (extractor.Laid start overlay)
    (do
      let later ← extractor.makeEntry progress header payload
        (extractor.staging ++ parts header.path)
      extractor.setAttributes header
        (extractor.staging ++ parts header.path)
      return { later with
        entryTypes := later.entryTypes.insert header.path header.type })
    (fun later fs => (later = extractor.note progress header ∧
      overlay.shape (location header.path) = none) ∧
      extractor.Laid start (extractor.attach overlay header payload) fs)
    fun _ => Confined start extractor.root

theorem attaches (placed : FileSystem → Prop)
    (made : Effect.Ensures (extractor.Laid start overlay)
      (extractor.makeEntry progress header payload
        (extractor.staging ++ parts header.path))
      (fun later fs => (later = { progress with
          directoryTimes := (extractor.note progress header).directoryTimes } ∧
        overlay.shape (location header.path) = none) ∧ placed fs)
      fun _ => Confined start extractor.root)
    (adorned : Effect.Ensures placed
      (extractor.setAttributes header
        (extractor.staging ++ parts header.path))
      (fun _ => extractor.Laid start (extractor.attach overlay header payload))
      fun _ => Confined start extractor.root) :
    extractor.Attaches start overlay progress header payload := by
  apply Effect.ensures_bind _ made
  intro later
  apply Effect.ensures_of_and
  rintro ⟨rfl, absent⟩
  apply Effect.ensures_bind _ adorned
  intro _
  apply Effect.ensures_pure
  intro fs laid
  exact ⟨⟨rfl, absent⟩, laid⟩

theorem attaches_directory (isType : header.type = typeDirectory)
    (safe : SafePath header.path)
    (noLink : overlay.NoLinkAbove (location header.path)) :
    extractor.Attaches start overlay progress header payload := by
  apply attaches <| extractor.Laid start (overlay.put
    (location header.path) (.directory (header.mode &&& 0o777)))
  · rw [makeEntry, if_pos isType, note, if_pos isType]
    apply Effect.ensures_bind _ (ensures_makeDirectory safe noLink)
    intro _
    apply Effect.ensures_pure
    rintro fs ⟨absent, laid⟩
    exact ⟨⟨rfl, absent⟩, laid⟩
  · apply (ensures_setAttributes_directory isType Overlay.shape_put_self).mono
      (fun _ laid => laid) _ fun _ _ confined => confined
    intro _ fs laid
    rw [Overlay.put_put] at laid
    rwa [attach, if_pos isType]

theorem attaches_file (isType : header.type = typeFile)
    (safe : SafePath header.path)
    (noLink : overlay.NoLinkAbove (location header.path)) :
    extractor.Attaches start overlay progress header payload := by
  have notDirectory : header.type ≠ typeDirectory := by
    rw [isType]
    decide
  have notLink : header.type ≠ typeSymlink := by
    rw [isType]
    decide
  let place := location header.path
  let mode := header.mode &&& 0o777
  apply attaches fun fs => ∃ mtime, extractor.Laid start
    ((overlay.put place (.file place)).setInode place
      { mode, mtime, content := payload }) fs
  · rw [makeEntry, if_neg notDirectory, if_pos isType, note,
      if_neg notDirectory]
    apply Effect.ensures_bind _ (ensures_writeNewFile safe noLink)
    intro _
    apply Effect.ensures_pure
    rintro fs ⟨absent, laid⟩
    exact ⟨⟨rfl, absent⟩, laid⟩
  · apply Effect.ensures_of_exists
    intro mtime
    have isFile : ((overlay.put place (.file place)).setInode place
        { mode, mtime, content := payload }).shape place =
        some (.file place) := Overlay.shape_put_self
    apply (ensures_setAttributes_file notLink notDirectory isFile).mono
      (fun _ laid => laid) _ fun _ _ confined => confined
    intro _ fs laid
    rw [Overlay.inode_setInode_self, Overlay.setInode_setInode] at laid
    rwa [attach, if_neg notDirectory, if_pos isType]

theorem attaches_symlink (isType : header.type = typeSymlink)
    (safe : SafePath header.path)
    (noLink : overlay.NoLinkAbove (location header.path)) :
    extractor.Attaches start overlay progress header payload := by
  have notDirectory : header.type ≠ typeDirectory := by
    rw [isType]
    decide
  have notFile : header.type ≠ typeFile := by
    rw [isType]
    decide
  apply attaches <| extractor.Laid start
    (extractor.attach overlay header payload)
  · rw [makeEntry, if_neg notDirectory, if_neg notFile, if_pos isType, note,
      if_neg notDirectory]
    dsimp only
    split
    · exact Effect.ensures_fail fun fs laid => laid.confined
    · split
      · exact Effect.ensures_fail fun fs laid => laid.confined
      · apply Effect.ensures_bind _ (ensures_makeSymlink safe noLink)
        intro _
        apply Effect.ensures_of_and
        intro absent
        apply Effect.ensures_bind fun _ => extractor.Laid start
          (extractor.attach overlay header payload)
        · apply Effect.ensures_of_exists
          intro time
          apply (ensures_changeLinkTimes Overlay.shape_put_self).mono
            (fun _ laid => laid) _ fun _ _ confined => confined
          intro _ fs laid
          rw [Overlay.put_put] at laid
          rwa [attach, if_neg notDirectory, if_neg notFile, if_pos isType]
        · intro _
          apply Effect.ensures_pure
          intro fs laid
          exact ⟨⟨rfl, absent⟩, laid⟩
  · rw [setAttributes, if_pos isType]
    exact Effect.ensures_pure fun _ laid => laid

theorem attaches_hardlink (isType : header.type = typeHardlink)
    (safe : SafePath header.path)
    (noLink : overlay.NoLinkAbove (location header.path))
    (files : ∀ path, progress.entryTypes.lookup path = some typeFile →
      overlay.shape (location path) = some (.file (location path))) :
    extractor.Attaches start overlay progress header payload := by
  have notDirectory : header.type ≠ typeDirectory := by
    rw [isType]
    decide
  have notFile : header.type ≠ typeFile := by
    rw [isType]
    decide
  have notLink : header.type ≠ typeSymlink := by
    rw [isType]
    decide
  let target := Utf8.decodeLossy payload
  apply attaches <| extractor.Laid start (overlay.put (location header.path)
    (.file (location target)))
  · rw [makeEntry, if_neg notDirectory, if_neg notFile, if_neg notLink,
      if_pos isType, note, if_neg notDirectory]
    apply Effect.ensures_bind fun _ fs => SafePath target ∧
      extractor.Laid start overlay fs
    · apply Effect.ensures_ofExcept
      · intro _ validated fs laid
        exact ⟨safePath_of_validate validated, laid⟩
      · exact fun _ _ fs laid => laid.confined
    intro _
    apply Effect.ensures_of_and
    intro safeTarget
    split
    · exact Effect.ensures_fail fun fs laid => laid.confined
    · next isPrior =>
        have isFile := files target (not_not.mp isPrior)
        apply Effect.ensures_bind fun existing fs =>
          existing = extractor.staging ++ parts target ∧
            extractor.Laid start overlay fs
        · apply Effect.ensures_ofExcept
          · intro existing isExisting fs laid
            exact ⟨eq_of_safeDestination safeTarget isExisting, laid⟩
          · exact fun _ _ fs laid => laid.confined
        intro existing
        apply Effect.ensures_of_and
        rintro rfl
        apply Effect.ensures_bind _ (ensures_makeLink safe noLink isFile)
        intro _
        apply Effect.ensures_pure
        rintro fs ⟨absent, laid⟩
        exact ⟨⟨rfl, absent⟩, laid⟩
  · apply (ensures_setAttributes_file notLink notDirectory
      Overlay.shape_put_self).mono (fun _ laid => laid) _
      fun _ _ confined => confined
    intro _ fs laid
    rwa [attach, if_neg notDirectory, if_neg notFile, if_neg notLink]

theorem attaches_of_recorded (recorded : extractor.Recorded overlay progress)
    (safe : SafePath header.path)
    (noLink : overlay.NoLinkAbove (location header.path)) :
    extractor.Attaches start overlay progress header payload := by
  by_cases isDirectory : header.type = typeDirectory
  · exact attaches_directory isDirectory safe noLink
  by_cases isFile : header.type = typeFile
  · exact attaches_file isFile safe noLink
  by_cases isSymlink : header.type = typeSymlink
  · exact attaches_symlink isSymlink safe noLink
  by_cases isHardlink : header.type = typeHardlink
  · exact attaches_hardlink isHardlink safe noLink recorded.files
  · apply attaches fun _ => False
    · rw [makeEntry, if_neg isDirectory, if_neg isFile, if_neg isSymlink,
        if_neg isHardlink]
      exact Effect.ensures_fail fun fs laid => laid.confined
    · intro fs impossible
      exact impossible.elim

end Branches

/-- The check of an entry's path keeps it off the links of the tree. -/
theorem Recorded.noLinkAbove {progress : Progress} {path : Text}
    (recorded : extractor.Recorded overlay progress)
    (passed : assertNoSymlinkAncestor path progress.entryTypes = .ok ()) :
    overlay.NoLinkAbove (location path) := by
  intro above below different target mtime isLink
  obtain ⟨link, rfl, isNoted⟩ := recorded.symlinks above target mtime isLink
  have shorter : parts link <+: (parts path).dropLast := by
    obtain ⟨rest, whole⟩ :=
      (List.prefix_map_iff_of_injective Utf8.encode_injective).mp below
    have notEmpty : rest ≠ [] := by
      rintro rfl
      rw [List.append_nil] at whole
      exact different (congrArg encodePath whole)
    rw [← whole, List.dropLast_append_of_ne_nil notEmpty]
    exact List.prefix_append _ _
  have notLink := lookup_of_noSymlinkAncestor passed shorter
    (parts_ne_nil link)
  rw [List.nil_append, parts, joinPath_splitOn] at notLink
  exact notLink isNoted

/-- A whole entry. -/
theorem ensures_extractEntry {progress : Progress} {header : EntryHeader}
    {payload : Bytes} (safe : SafePath header.path)
    (recorded : extractor.Recorded overlay progress) :
    Effect.Ensures (extractor.Laid start overlay)
      (extractor.extractEntry progress header payload)
      (fun later fs =>
        extractor.Recorded (extractor.describe overlay header payload) later ∧
        extractor.Laid start (extractor.describe overlay header payload) fs)
      fun _ => Confined start extractor.root := by
  let above := (location header.path).dropLast
  apply Effect.ensures_bind fun _ fs =>
    overlay.NoLinkAbove (location header.path) ∧
      extractor.Laid start overlay fs
  · apply Effect.ensures_ofExcept
    · intro _ passed fs laid
      exact ⟨recorded.noLinkAbove passed, laid⟩
    · exact fun _ _ fs laid => laid.confined
  intro _
  apply Effect.ensures_of_and
  intro noLink
  apply Effect.ensures_bind fun output fs =>
    output = extractor.staging ++ parts header.path ∧
      extractor.Laid start overlay fs
  · apply Effect.ensures_ofExcept
    · intro output isOutput fs laid
      exact ⟨eq_of_safeDestination safe isOutput, laid⟩
    · exact fun _ _ fs laid => laid.confined
  intro output
  apply Effect.ensures_of_and
  rintro rfl
  apply Effect.ensures_bind _ (ensures_makeDirectories safe noLink)
  intro _
  have ensured := recorded.ensureAll 0o700 [] above
  apply (attaches_of_recorded ensured safe noLink.ensureAll).mono
    (fun _ laid => laid) _ fun _ _ confined => confined
  rintro later fs ⟨⟨rfl, absent⟩, laid⟩
  exact ⟨ensured.attach absent, laid⟩

end Steps

end Extractor

end Electrosphere.Cfs
