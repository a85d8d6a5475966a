import Electrosphere.Agent.LineEdits
import Electrosphere.Agent.Transfers

/-!
# How an edit is published

The new bytes are collected in a file of their own, and the renaming puts them
in the place of the old ones.  Up to the renaming every file is as it was.
-/

namespace Electrosphere.Agent

open Foundation

/-- Every file is as it was. -/
def Preserves (before after : Workspace) : Prop :=
  ∀ name data, before.content name = some data → after.content name = some data

theorem Preserves.refl (workspace : Workspace) : Preserves workspace workspace :=
  fun _ _ holds => holds

section Steps

variable {library : WriteLibrary} {faults : Faults}
  {workspace after : Workspace} {path temporary target : Path} {file : Nat}

theorem noEntry_of_missing {error : IoError} {context : String}
    (missing : (ioFailure error context).code = some "FILE_NOT_FOUND") :
    error = .noEntry := by
  cases error with
  | noEntry => rfl
  | noSpace | quota | noSystemCall =>
      simp [ioFailure, FileFailure.coded] at missing
  | alreadyExists | notDirectory | isDirectory | loop | crossDevice | other =>
      simp [ioFailure, FileFailure.backend] at missing

theorem openDirectory_entered {directory opened : Path}
    (isOpened : openDirectory library faults workspace directory path =
      .ok opened) :
    path.foldlM (enter workspace) directory = .ok opened := by
  unfold openDirectory at isOpened
  split at isOpened
  · cases isOpened
  · split at isOpened
    · cases isOpened
    · rename_i entered
      cases isOpened
      exact entered

/-- Without new directories nothing changes. -/
theorem openParent_existing {text : Text} {result : FileResult (Path × Text)}
    (isOpened : openParent library faults workspace text false =
      (result, after)) :
    after = workspace ∧ ∀ opened, result = .ok opened →
      opened = splitParent text ∧
        (splitParent text).1.foldlM (enter workspace) [] =
          .ok (splitParent text).1 := by
  have refused : ∀ failure, (Except.error failure, workspace) =
      (result, after) → after = workspace ∧
        ∀ opened, result = .ok opened → opened = splitParent text ∧
          (splitParent text).1.foldlM (enter workspace) [] =
            .ok (splitParent text).1 := by
    intro failure same
    cases same
    refine ⟨rfl, ?_⟩
    intro opened isOk
    cases isOk
  unfold openParent at isOpened
  split at isOpened
  · exact refused _ isOpened
  · dsimp only at isOpened
    by_cases nested : (splitParent text).1 = []
    · have atRoot : ¬ (False = True ∧ (splitParent text).1 ≠ []) :=
        fun both => both.2 nested
      rw [if_neg (by simp [nested]), nested] at isOpened
      split at isOpened
      · exact refused _ isOpened
      · cases isOpened
        refine ⟨rfl, ?_⟩
        intro opened isOk
        cases isOk
        rw [nested]
        exact ⟨by rw [← nested], rfl⟩
    · rw [if_pos ⟨rfl, nested⟩] at isOpened
      split at isOpened
      · exact refused _ isOpened
      · rename_i entered
        cases isOpened
        refine ⟨rfl, ?_⟩
        intro opened isOk
        cases isOk
        have isParent := openDirectory_ok entered
        rw [List.nil_append] at isParent
        rw [isParent] at entered ⊢
        exact ⟨rfl, openDirectory_entered entered⟩

/-- A symbolic link is recognised unless it is not found. -/
theorem rejectSymlinkTarget_ok
    (accepted : rejectSymlinkTarget faults workspace path = .ok ()) :
    faults.fails .metadata = some .noEntry ∨
      workspace.links.lookup path ≠ some .symlink := by
  unfold rejectSymlinkTarget at accepted
  cases metadata : faults.fails .metadata with
  | none =>
      right
      intro isLink
      rw [metadata, isLink] at accepted
      cases accepted
  | some error =>
      left
      rw [metadata] at accepted
      dsimp only at accepted
      split at accepted
      · rename_i missing
        rw [noEntry_of_missing missing]
      · cases accepted

/-- What a path leads to when its directories are entered. -/
theorem resolveFile_entered
    {followed : Workspace → Path → Except IoError Path} {name : Path}
    (nonempty : path ≠ [])
    (entered : path.dropLast.foldlM (enter workspace) [] = .ok path.dropLast)
    (resolved : resolveFile followed workspace path = .ok name) :
    workspace.links.lookup path ≠ none ∧
      (workspace.links.lookup path ≠ some .symlink → name = path) := by
  have isPath : path.dropLast ++ [path.getLastD []] = path := by
    rw [List.getLastD_eq_getLast?, List.getLast?_eq_some_getLast nonempty]
    exact List.dropLast_append_getLast nonempty
  unfold resolveFile at resolved
  rw [entered] at resolved
  dsimp only at resolved
  rw [isPath] at resolved
  split at resolved
  · cases resolved
  · rename_i isLink
    rw [isLink]
    exact ⟨Option.some_ne_none _, fun other => absurd rfl other⟩
  · rename_i linked notLink found
    cases resolved
    rw [found]
    exact ⟨Option.some_ne_none _, fun _ => rfl⟩

theorem createAt_ok {created : Workspace}
    (isCreated : createAt faults workspace path = .ok (file, created)) :
    workspace.links.lookup path = none ∧ file = workspace.inodes.length ∧
      created = workspace.create path := by
  unfold createAt at isCreated
  split at isCreated
  · cases isCreated
  · split at isCreated
    · cases isCreated
    · rename_i absent
      cases isCreated
      exact ⟨absent, rfl, rfl⟩

theorem content_unlinkAt {other : Path} (different : other ≠ path) :
    (unlinkAt faults workspace path).2.content other =
      workspace.content other := by
  unfold unlinkAt
  split
  · rfl
  · split
    · rfl
    · rfl
    · rw [Volume.content_unlink, if_neg different]

/-- A name of no file is removed from no file. -/
theorem content_unlinkAt_of_none (none : workspace.content path = none)
    (other : Path) :
    (unlinkAt faults workspace path).2.content other =
      workspace.content other := by
  by_cases same : other = path
  · unfold unlinkAt
    split
    · rfl
    · split
      · rfl
      · rfl
      · rw [Volume.content_unlink, if_pos same, same, none]
  · exact content_unlinkAt same

theorem content_of_absent (absent : workspace.links.lookup path = none) :
    workspace.content path = none := by
  apply Volume.content_of_not_file
  intro inode found
  rw [absent] at found
  cases found

/-- What is written to a file that has one name changes this name alone. -/
theorem content_writeAll {data : Bytes} (sole : workspace.Sole file path)
    {other : Path} (different : other ≠ path) :
    (writeAll faults workspace file data).2.content other =
      workspace.content other := by
  unfold writeAll
  split
  · rw [Volume.content_append sole, if_neg different]
  · rw [Volume.content_append sole, if_neg different]

/-- The staging file is filled and renamed, or another call fails. -/
theorem publishEdit_cases {bytes : Bytes} {answer : FileResult Unit}
    (sole : workspace.Sole file temporary)
    (published : publishEdit faults workspace file temporary target bytes =
      (answer, after)) :
    (∃ failure, answer = .error failure ∧
      ∀ other, other ≠ temporary →
        after.content other = workspace.content other) ∨
    (after = (workspace.append file bytes).rename temporary target ∧
      (answer = .ok () ∨
        faults.fails .syncDirectory ≠ none ∧
          ∃ failure, answer = .error failure)) := by
  unfold publishEdit at published
  split at published
  · cases published
    exact .inl ⟨_, rfl, fun _ _ => rfl⟩
  · split at published
    · rename_i error written wrote
      cases published
      refine .inl ⟨_, rfl, ?_⟩
      intro other different
      have kept : (writeAll faults workspace file bytes).2.content other =
          workspace.content other := content_writeAll sole different
      rw [wrote] at kept
      exact kept
    · rename_i written wrote
      have isWritten : written = workspace.append file bytes := by
        unfold writeAll at wrote
        split at wrote
        · cases wrote
        · cases wrote
          rfl
      rw [isWritten] at published
      have kept : ∀ other, other ≠ temporary →
          (workspace.append file bytes).content other =
            workspace.content other := by
        intro other different
        rw [Volume.content_append sole, if_neg different]
      split at published
      · cases published
        exact .inl ⟨_, rfl, kept⟩
      · split at published
        · cases published
          exact .inl ⟨_, rfl, kept⟩
        · split at published
          · rename_i error renamed failed
            cases published
            rw [FileWriter.renameAt_failed (sole.append file) failed]
            exact .inl ⟨_, rfl, kept⟩
          · rename_i renamed succeeded
            rw [FileWriter.renameAt_succeeded succeeded] at published
            split at published
            · rename_i error unsynced
              cases published
              refine .inr ⟨rfl, .inr ⟨?_, _, rfl⟩⟩
              rw [unsynced]
              exact Option.some_ne_none _
            · cases published
              exact .inr ⟨rfl, .inl rfl⟩

end Steps

/-! ## The replacement -/

/-- The path names what the kernel finds under it, and holds the new bytes. -/
structure Replaced (faults : Faults) (workspace after : Workspace)
    (path : Path) (bytes : Bytes) (answer : FileResult Unit) : Prop where
  entered : path.dropLast.foldlM (enter workspace) [] = .ok path.dropLast
  direct : faults.fails .metadata = some .noEntry ∨
    workspace.links.lookup path ≠ some .symlink
  target : after.content path = some bytes
  others : ∀ other, other ≠ path → after.content other = workspace.content other
  answered : answer = .ok () ∨ faults.fails .syncDirectory ≠ none ∧
    ∃ failure, answer = .error failure

section Replacement

variable {library : WriteLibrary} {faults : Faults}
  {workspace after : Workspace} {suffix text : Text} {bytes : Bytes}
  {answer : FileResult Unit}

theorem renamed_content {created : Workspace} {temporary target : Path}
    (absent : workspace.links.lookup temporary = none)
    (different : temporary ≠ target)
    (isCreated : created = (workspace.create temporary).append
      workspace.inodes.length bytes) :
    (created.rename temporary target).content target = some bytes ∧
      ∀ other, other ≠ target →
        (created.rename temporary target).content other =
          workspace.content other := by
  have sole : created.Sole workspace.inodes.length temporary := by
    rw [isCreated]
    exact Volume.sole_create.append _
  constructor
  · rw [Volume.content_rename sole different, if_pos rfl, isCreated,
      Volume.content_append Volume.sole_create, if_pos rfl,
      Volume.content_create, if_pos rfl]
    rfl
  · intro other notTarget
    rw [Volume.content_rename sole different, if_neg notTarget]
    by_cases isTemporary : other = temporary
    · rw [if_pos isTemporary, isTemporary, content_of_absent absent]
    · rw [if_neg isTemporary, isCreated,
        Volume.content_append Volume.sole_create, if_neg isTemporary,
        Volume.content_create, if_neg isTemporary]

theorem atomicReplace_cases
    (present : (components text).dropLast.foldlM (enter workspace) [] =
        .ok (components text).dropLast →
      workspace.links.lookup (components text) ≠ none)
    (replaced : atomicReplace library faults workspace suffix text bytes =
      (answer, after)) :
    (∃ failure, answer = .error failure ∧ Preserves workspace after) ∨
      Replaced faults workspace after (components text) bytes answer := by
  unfold atomicReplace at replaced
  cases isOpened : openParent library faults workspace text false with
  | mk result opened =>
      obtain ⟨same, isParent⟩ := openParent_existing isOpened
      subst same
      rw [isOpened] at replaced
      cases result with
      | error failure =>
          cases replaced
          exact .inl ⟨_, rfl, .refl _⟩
      | ok parts =>
          obtain ⟨isSplit, entered⟩ := isParent _ rfl
          have isTarget := splitParent_target text
          subst isSplit
          dsimp only at replaced
          rw [isTarget] at replaced
          split at replaced
          · cases replaced
            exact .inl ⟨_, rfl, .refl _⟩
          · rename_i accepted
            split at replaced
            · cases replaced
              exact .inl ⟨_, rfl, .refl _⟩
            · rename_i file created isCreated
              obtain ⟨absent, isFile, isNew⟩ := createAt_ok isCreated
              have different : (splitParent text).1 ++ [editName suffix] ≠
                  components text := by
                intro same
                exact present entered (same ▸ absent)
              generalize (splitParent text).1 ++ [editName suffix] = temporary
                at *
              subst isFile isNew
              have kept : ∀ {failed : Workspace},
                  (∀ other, other ≠ temporary → failed.content other =
                    (opened.create temporary).content other) →
                  Preserves opened (unlinkAt faults failed temporary).2 := by
                intro failed same name data holds
                have away : name ≠ temporary := by
                  intro isTemporary
                  rw [isTemporary, content_of_absent absent] at holds
                  cases holds
                rw [content_unlinkAt away, same name away,
                  Volume.content_create, if_neg away, holds]
              cases published : publishEdit faults (opened.create temporary)
                  opened.inodes.length temporary (components text) bytes with
              | mk outcome renamed =>
                  rw [published] at replaced
                  have direct : faults.fails .metadata = some .noEntry ∨
                      opened.links.lookup (components text) ≠ some .symlink :=
                    rejectSymlinkTarget_ok accepted
                  cases publishEdit_cases Volume.sole_create published with
                  | inl failed =>
                      obtain ⟨failure, isError, same⟩ := failed
                      subst isError
                      cases replaced
                      exact .inl ⟨_, rfl, kept same⟩
                  | inr done =>
                      obtain ⟨isRenamed, answered⟩ := done
                      obtain ⟨target, others⟩ :=
                        renamed_content absent different rfl
                      rw [← isRenamed] at target others
                      cases answered with
                      | inl isOk =>
                          subst isOk
                          cases replaced
                          exact .inr ⟨entered, direct, target, others, .inl rfl⟩
                      | inr unsynced =>
                          obtain ⟨fails, failure, isError⟩ := unsynced
                          subst isError
                          cases replaced
                          have removed : ∀ other,
                              (unlinkAt faults renamed temporary).2.content
                                other = renamed.content other :=
                            content_unlinkAt_of_none
                              ((others temporary different).trans
                                (content_of_absent absent))
                          refine .inr ⟨entered, direct, ?_, ?_,
                            .inr ⟨fails, failure, rfl⟩⟩
                          · rw [removed, target]
                          · intro other notTarget
                            rw [removed, others other notTarget]

end Replacement

/-! ## Without failing calls -/

section Faultless

variable {library : WriteLibrary} {faults : Faults} {workspace : Workspace}
  {suffix text : Text} {bytes : Bytes}

theorem openParent_faultless (faultless : ∀ call, faults.fails call = none)
    (valid : validateRelative text false = .ok ())
    (entered : (splitParent text).1.foldlM (enter workspace) [] =
      .ok (splitParent text).1) :
    openParent library faults workspace text false =
      (.ok (splitParent text), workspace) := by
  rw [openParent, valid]
  dsimp only
  by_cases nested : (splitParent text).1 = []
  · rw [if_neg (fun both => both.2 nested), faultless, nested]
    rw [openParents, ← nested]
  · rw [if_pos ⟨rfl, nested⟩, openDirectory, faultless, entered]

theorem rejectSymlinkTarget_faultless {path : Path} {inode : Nat}
    (faultless : ∀ call, faults.fails call = none)
    (found : workspace.links.lookup path = some (.file inode)) :
    rejectSymlinkTarget faults workspace path = .ok () := by
  unfold rejectSymlinkTarget
  rw [faultless, found]
  rfl

theorem publishEdit_faultless {file : Nat} {temporary target : Path}
    (faultless : ∀ call, faults.fails call = none)
    (named : workspace.links.lookup temporary = some (.file file))
    (free : workspace.links.lookup target ≠ some .directory) :
    (publishEdit faults workspace file temporary target bytes).1 = .ok () := by
  have renamed : renameAt faults (workspace.append file bytes) temporary
      target = (none, (workspace.append file bytes).rename temporary target) := by
    have same : (workspace.append file bytes).links = workspace.links := rfl
    rw [renameAt, faultless, same, named]
    exact if_neg free
  unfold publishEdit
  rw [faultless, writeAll, faultless, faultless, faultless]
  dsimp only
  rw [renamed, faultless]

theorem atomicReplace_faultless {inode : Nat}
    (faultless : ∀ call, faults.fails call = none)
    (valid : validateRelative text false = .ok ())
    (entered : (splitParent text).1.foldlM (enter workspace) [] =
      .ok (splitParent text).1)
    (found : workspace.links.lookup (components text) = some (.file inode))
    (free : workspace.links.lookup
      ((splitParent text).1 ++ [editName suffix]) = none) :
    (atomicReplace library faults workspace suffix text bytes).1 = .ok () := by
  have different : components text ≠
      (splitParent text).1 ++ [editName suffix] := by
    intro same
    rw [same, free] at found
    cases found
  have kept : (workspace.create
      ((splitParent text).1 ++ [editName suffix])).links.lookup
        (components text) = some (.file inode) := by
    rw [Volume.create, AList.lookup_insert_ne different, found]
  have named : (workspace.create
      ((splitParent text).1 ++ [editName suffix])).links.lookup
        ((splitParent text).1 ++ [editName suffix]) =
          some (.file workspace.inodes.length) := by
    rw [Volume.create, AList.lookup_insert]
  unfold atomicReplace
  rw [openParent_faultless faultless valid entered]
  dsimp only
  rw [splitParent_target, rejectSymlinkTarget_faultless faultless found]
  dsimp only
  rw [createAt, faultless, free]
  dsimp only
  have published : (publishEdit faults
      (workspace.create ((splitParent text).1 ++ [editName suffix]))
      workspace.inodes.length ((splitParent text).1 ++ [editName suffix])
      (components text) bytes).1 = .ok () := by
    apply publishEdit_faultless faultless named
    rw [kept]
    intro isDirectory
    cases isDirectory
  split
  · rfl
  · rename_i failed
    rw [failed] at published
    cases published

end Faultless

/-! ## The request -/

section Request

variable {library : WriteLibrary} {faults : Faults}
  {followed : Workspace → Path → Except IoError Path}
  {workspace : Workspace} {suffix path expectedDigest : Text}
  {edits : List EditSpec} {bytes : Bytes}

theorem readForEdit_ok
    (read : readForEdit library faults followed workspace path = .ok bytes) :
    ∃ name, resolveFile followed workspace (components path) = .ok name ∧
      workspace.content name = some bytes := by
  unfold readForEdit at read
  cases valid : validateRelative path false with
  | error failure =>
      rw [valid] at read
      cases read
  | ok passed =>
      rw [valid] at read
      dsimp only [Bind.bind, Except.bind] at read
      split at read
      · cases read
      · split at read
        · cases read
        · rename_i name resolved
          split at read
          · cases read
          · split at read
            · cases read
            · rename_i held found
              split at read
              · cases read
              · split at read
                · cases read
                · cases read
                  exact ⟨name, resolved, found⟩

/-- The file that was edited, and what became of it. -/
structure Edited (library : WriteLibrary) (faults : Faults)
    (followed : Workspace → Path → Except IoError Path)
    (workspace after : Workspace) (path : Path) (edits : List EditSpec)
    (new : Bytes) (response : FileResponse) : Prop where
  /-- The file that is read is the one that is replaced. -/
  original : ∃ name bytes, resolveFile followed workspace path = .ok name ∧
    (name = path ∨ faults.fails .metadata = some .noEntry) ∧
    workspace.content name = some bytes ∧
    EditOutcome library bytes edits new response
  published : after.content path = some new
  others : ∀ other, other ≠ path → after.content other = workspace.content other

/-- A request fails and changes no file, or the file is replaced. -/
theorem fileEdit_cases {answer : Option (FileResult FileResponse)}
    {after : Workspace}
    (answered : fileEdit library faults followed workspace suffix path
      expectedDigest edits = (answer, after)) :
    (∃ failure, answer = some (.error failure) ∧ Preserves workspace after) ∨
    ∃ new response,
      Edited library faults followed workspace after (components path) edits
        new response ∧
      (answer = some (.ok response) ∨
        faults.fails .syncDirectory ≠ none ∧ ∃ failure,
          answer = some (.error failure)) := by
  unfold fileEdit at answered
  cases read : readForEdit library faults followed workspace path with
  | error failure =>
      rw [read] at answered
      cases answered
      exact .inl ⟨_, rfl, .refl _⟩
  | ok bytes =>
      obtain ⟨name, resolved, held⟩ := readForEdit_ok read
      rw [read] at answered
      dsimp only at answered
      cases editBytes_cases library bytes expectedDigest edits with
      | inl failed =>
          obtain ⟨-, failure, failed⟩ := failed
          rw [failed] at answered
          cases answered
          exact .inl ⟨_, rfl, .refl _⟩
      | inr edited =>
          obtain ⟨-, new, response, isEdited, outcome⟩ := edited
          rw [isEdited] at answered
          dsimp only at answered
          cases replaced : atomicReplace library faults workspace suffix path
              new with
          | mk published final =>
              rw [replaced] at answered
              have leads := fun entered => resolveFile_entered
                (components_ne_nil path) entered resolved
              cases atomicReplace_cases (fun entered => (leads entered).1)
                  replaced with
              | inl failed =>
                  obtain ⟨failure, isError, preserves⟩ := failed
                  subst isError
                  cases answered
                  exact .inl ⟨_, rfl, preserves⟩
              | inr done =>
                  have same : name = components path ∨
                      faults.fails .metadata = some .noEntry := by
                    cases done.direct with
                    | inl missing => exact .inr missing
                    | inr notLink =>
                        exact .inl ((leads done.entered).2 notLink)
                  have isDone : Edited library faults followed workspace final
                      (components path) edits new response :=
                    ⟨⟨name, bytes, resolved, same, held, outcome⟩, done.target,
                      done.others⟩
                  cases done.answered with
                  | inl isOk =>
                      subst isOk
                      cases answered
                      exact .inr ⟨new, response, isDone, .inl rfl⟩
                  | inr unsynced =>
                      obtain ⟨fails, failure, isError⟩ := unsynced
                      subst isError
                      cases answered
                      exact .inr ⟨new, response, isDone,
                        .inr ⟨fails, failure, rfl⟩⟩

/-- A file that can be read and replaced, by calls of which none fails. -/
structure Editable (faults : Faults) (workspace : Workspace)
    (suffix path : Text) (bytes : Bytes) : Prop where
  faultless : ∀ call, faults.fails call = none
  valid : validateRelative path false = .ok ()
  entered : (components path).dropLast.foldlM (enter workspace) [] =
    .ok (components path).dropLast
  held : workspace.content (components path) = some bytes
  size : bytes.length ≤ maxEditFileBytes
  free : workspace.links.lookup
    ((components path).dropLast ++ [editName suffix]) = none

theorem Editable.read (editable : Editable faults workspace suffix path bytes) :
    readForEdit library faults followed workspace path = .ok bytes := by
  obtain ⟨inode, found, -⟩ := Volume.content_eq_some_iff.mp editable.held
  have isPath : (components path).dropLast ++
      [(components path).getLastD []] = components path :=
    splitParent_target path
  have resolved : resolveFile followed workspace (components path) =
      .ok (components path) := by
    unfold resolveFile
    rw [editable.entered]
    dsimp only
    rw [isPath, found]
  unfold readForEdit
  rw [editable.valid, editable.faultless, resolved, editable.faultless]
  dsimp only [Bind.bind, Except.bind]
  rw [editable.held]
  dsimp only
  rw [if_neg (Nat.not_lt_of_le editable.size), editable.faultless]

/-- Of such a file, exactly the edits that fit it are answered. -/
theorem Editable.answered_iff
    (editable : Editable faults workspace suffix path bytes) :
    (∃ response, (fileEdit library faults followed workspace suffix path
        expectedDigest edits).1 = some (.ok response)) ↔
      EditsFit library bytes expectedDigest edits := by
  obtain ⟨inode, found, -⟩ := Volume.content_eq_some_iff.mp editable.held
  have replaced : ∀ new, (atomicReplace library faults workspace suffix path
      new).1 = .ok () := fun new =>
    atomicReplace_faultless editable.faultless editable.valid editable.entered
      found editable.free
  unfold fileEdit
  rw [editable.read]
  dsimp only
  cases editBytes_cases library bytes expectedDigest edits with
  | inl failed =>
      obtain ⟨misfit, failure, failed⟩ := failed
      rw [failed]
      refine iff_of_false ?_ misfit
      rintro ⟨response, isOk⟩
      cases isOk
  | inr edited =>
      obtain ⟨fit, new, response, isEdited, -⟩ := edited
      rw [isEdited]
      refine iff_of_true ⟨response, ?_⟩ fit
      have published := replaced new
      dsimp only
      split
      · rename_i failed
        rw [failed] at published
        cases published
      · rfl

/-- The order of an accepted list does not matter. -/
theorem fileEdit_perm (accepted : AcceptedEdits edits)
    {other : List EditSpec} (perm : other.Perm edits) :
    fileEdit library faults followed workspace suffix path expectedDigest
        other =
      fileEdit library faults followed workspace suffix path expectedDigest
        edits := by
  unfold fileEdit
  cases readForEdit library faults followed workspace path with
  | error failure => rfl
  | ok bytes =>
      dsimp only
      rw [editBytes_perm accepted perm]

end Request

/-- Line edits compute the file that they specify, whatever their order, a
request that fails before the renaming changes no file, and edits that fit a
file are accepted. -/
theorem line_edits_compute (library : WriteLibrary) (faults : Faults)
    (followed : Workspace → Path → Except IoError Path)
    (workspace : Workspace) (suffix path expectedDigest : Text)
    (edits : List EditSpec) :
    let outcome := fileEdit library faults followed workspace suffix path
      expectedDigest edits
    (∀ response, outcome.1 = some (.ok response) →
      ∃ new, Edited library faults followed workspace outcome.2
          (components path) edits new response ∧
        ∀ other : List EditSpec, other.Perm edits →
          fileEdit library faults followed workspace suffix path
            expectedDigest other = outcome) ∧
    (∀ failure, outcome.1 = some (.error failure) →
      Preserves workspace outcome.2 ∨
        faults.fails .syncDirectory ≠ none ∧ ∃ new response,
          Edited library faults followed workspace outcome.2
            (components path) edits new response) ∧
    outcome.1 ≠ none ∧
    ∀ bytes, Editable faults workspace suffix path bytes →
      ((∃ response, outcome.1 = some (.ok response)) ↔
        EditsFit library bytes expectedDigest edits) := by
  dsimp only
  have accepts : ∀ bytes, Editable faults workspace suffix path bytes →
      ((∃ response, (fileEdit library faults followed workspace suffix path
          expectedDigest edits).1 = some (.ok response)) ↔
        EditsFit library bytes expectedDigest edits) :=
    fun bytes editable => editable.answered_iff
  cases answered : fileEdit library faults followed workspace suffix path
      expectedDigest edits with
  | mk answer after =>
      rw [answered] at accepts
      cases fileEdit_cases answered with
      | inl failed =>
          obtain ⟨failure, isError, preserves⟩ := failed
          subst isError
          refine ⟨?_, ?_, Option.some_ne_none _, accepts⟩
          · intro response isOk
            cases isOk
          · intro failure isError
            exact .inl preserves
      | inr done =>
          obtain ⟨new, response, edited, isAnswer⟩ := done
          obtain ⟨name, bytes, -, -, -, computed⟩ := edited.original
          cases isAnswer with
          | inl isOk =>
              subst isOk
              refine ⟨?_, ?_, Option.some_ne_none _, accepts⟩
              · intro response isOk
                cases isOk
                refine ⟨new, edited, ?_⟩
                intro other perm
                rw [fileEdit_perm computed.accepted perm, answered]
              · intro failure isError
                cases isError
          | inr unsynced =>
              obtain ⟨fails, failure, isError⟩ := unsynced
              subst isError
              refine ⟨?_, ?_, Option.some_ne_none _, accepts⟩
              · intro response isOk
                cases isOk
              · intro failure isError
                exact .inr ⟨fails, new, response, edited⟩

/-! ### Three edits of a file of four lines -/

private def fourLines : Bytes := Utf8.encode "a\nb\nc\nd".toList

private def threeLines : Bytes := Utf8.encode "é\na\nx\n".toList

private def linesLibrary : WriteLibrary where
  sha256 bytes :=
    if bytes = fourLines then
      { hex :=
          "f729ae0cbcc8241ebb6918af712a88d5ca2c13f7fbe08f809aa297bfdf99fbe4"
        isHex := by decide }
    else if bytes = threeLines then
      { hex :=
          "a1566a9c532b65457d4e2e387cac090bab8fda28a4a54fad16eb1366456b0ba9"
        isHex := by decide }
    else .ofNothing
  chunk := .canonical
  quoted path := String.ofList ('"' :: (path ++ ['"']))

/-- The file `d/f`. -/
private def linesWorkspace : Workspace :=
  ((Volume.empty.makeDirectory [['d']]).create [['d'], ['f']]).append 0
    fourLines

private def lineEdits : List EditSpec :=
  [{ kind := "delete", startLine := 4, endLine := some 4 },
    { kind := "insert_before", startLine := 1, content := some ['é', '\n'] },
    { kind := "replace", startLine := 2, endLine := some 3,
      content := some ['x', '\n'] }]

private def editSuffix : Text := "8c1f0a52-3f4e-4c35-9b0a-0f2f5d3c7a11".toList

private theorem linesWorkspace_editable :
    Editable .none linesWorkspace editSuffix "d/f".toList fourLines where
  faultless _ := rfl
  valid := by decide
  entered := by decide
  held := by decide
  size := by decide
  free := by decide

private theorem lineEdits_fit :
    EditsFit linesLibrary fourLines (fileDigest linesLibrary fourLines)
      lineEdits where
  expected := rfl
  text := by decide
  short := by decide
  accepted :=
    { disjoint := by
        simp [lineEdits, EditSpec.Disjoint, EditSpec.lastLine]
      positive := by decide
      ordered := by decide
      shape := by
        intro edit member
        simp only [lineEdits, List.mem_cons, List.not_mem_nil, or_false]
          at member
        obtain rfl | rfl | rfl := member
        · exact .delete rfl rfl rfl
        · exact .insertBefore rfl rfl rfl
        · exact .replace rfl rfl rfl }
  inside := by decide
  size := by decide

/-- The last line goes, a line comes in front of the first one, and one line
takes the place of the two between. -/
theorem line_edits_compute_sample :
    ∃ response after,
      fileEdit linesLibrary .none (fun _ _ => .error .loop) linesWorkspace
          editSuffix "d/f".toList (fileDigest linesLibrary fourLines)
          lineEdits = (some (.ok response), after) ∧
        after.content [['d'], ['f']] = some threeLines ∧
        response.linesBefore = some 4 ∧ response.linesAfter = some 3 ∧
        response.digest = some ("sha256:" ++ "a1566a9c532b65457d4e2e387cac090" ++
          "bab8fda28a4a54fad16eb1366456b0ba9").toList := by
  obtain ⟨computes, -, -, accepts⟩ := line_edits_compute linesLibrary .none
    (fun _ _ => .error .loop) linesWorkspace editSuffix "d/f".toList
    (fileDigest linesLibrary fourLines) lineEdits
  obtain ⟨response, answered⟩ :=
    (accepts _ linesWorkspace_editable).mpr lineEdits_fit
  obtain ⟨new, ⟨⟨name, bytes, resolved, direct, held, outcome⟩, published, -⟩,
    -⟩ := computes response answered
  have isName : name = [['d'], ['f']] := by
    obtain isPath | missing := direct
    · rw [isPath]
      decide
    · cases missing
  have isFile : bytes = fourLines := by
    have isHeld : linesWorkspace.content [['d'], ['f']] = some fourLines := by
      decide
    rw [isName, isHeld] at held
    exact (Option.some.inj held).symm
  have isNew : new = threeLines := by
    rw [outcome.isEdited, isFile]
    decide
  refine ⟨response, _, Prod.ext answered rfl, ?_, ?_, ?_, ?_⟩
  · rw [← isNew]
    exact published
  · rw [outcome.linesBefore, isFile]
    decide
  · rw [outcome.linesAfter, isNew]
    decide
  · rw [outcome.digest, isNew]
    decide

end Electrosphere.Agent
