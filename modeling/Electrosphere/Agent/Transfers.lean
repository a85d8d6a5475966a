import Electrosphere.Agent.FileWrite

/-!
# What a transfer request does

Each request of a write either fails and leaves every file as it was, or
changes the temporary file of its transfer; a commit moves this file to the
target.  `FileWriter.Sound` says that a transfer has its temporary file for
itself.
-/

namespace Electrosphere.Agent

open Foundation

/-! ## Paths -/

theorem components_ne_nil (path : Text) : components path ≠ [] :=
  List.splitOn_ne_nil _ _

theorem splitParent_target (path : Text) :
    (splitParent path).1 ++ [(splitParent path).2] = components path := by
  rw [splitParent, List.getLastD_eq_getLast?,
    List.getLast?_eq_some_getLast (components_ne_nil path)]
  exact List.dropLast_append_getLast (components_ne_nil path)

theorem temporaryPath_injective {id other path otherPath : Text}
    (same : temporaryPath id path = temporaryPath other otherPath) :
    id = other := by
  have names := (List.append_inj' same rfl).2
  rw [List.singleton_inj] at names
  exact List.append_cancel_left (List.append_cancel_right names)

section Opening

variable {library : WriteLibrary} {faults : Faults} {workspace after : Workspace}
  {directory path opened : Path}

theorem enter_ok {component : Text}
    (entered : enter workspace directory component = .ok opened) :
    opened = directory ++ [component] := by
  unfold enter at entered
  dsimp only at entered
  split at entered <;> cases entered
  rfl

theorem foldlM_enter_ok
    (entered : path.foldlM (enter workspace) directory = .ok opened) :
    opened = directory ++ path := by
  induction path generalizing directory with
  | nil =>
      cases entered
      exact (List.append_nil _).symm
  | cons component path induction =>
      rw [List.foldlM_cons] at entered
      cases first : enter workspace directory component with
      | error error =>
          rw [first] at entered
          cases entered
      | ok middle =>
          rw [first] at entered
          rw [induction entered, enter_ok first, List.append_assoc,
            List.singleton_append]

theorem openDirectory_ok
    (isOpened : openDirectory library faults workspace directory path =
      .ok opened) : opened = directory ++ path := by
  unfold openDirectory at isOpened
  split at isOpened
  · cases isOpened
  · split at isOpened
    · cases isOpened
    · rename_i entered
      cases isOpened
      exact foldlM_enter_ok entered

theorem mkdirAt_sameFiles {error : Option IoError}
    (made : mkdirAt faults workspace path = (error, after)) :
    workspace.SameFiles after := by
  unfold mkdirAt at made
  split at made
  · cases made
    exact .refl _
  · split at made
    · cases made
      exact .refl _
    · rename_i absent
      cases made
      exact Volume.sameFiles_makeDirectory absent

theorem openParents_spec {result : FileResult Path}
    (isOpened : openParents library faults workspace directory path =
      (result, after)) :
    workspace.SameFiles after ∧
      ∀ opened, result = .ok opened → opened = directory ++ path := by
  induction path generalizing workspace directory with
  | nil =>
      cases isOpened
      refine ⟨.refl _, ?_⟩
      intro opened same
      cases same
      exact (List.append_nil _).symm
  | cons component path induction =>
      rw [openParents] at isOpened
      cases made : mkdirAt faults workspace (directory ++ [component]) with
      | mk error middle =>
          have same := mkdirAt_sameFiles made
          rw [made] at isOpened
          dsimp only at isOpened
          split at isOpened
          · cases isOpened
            refine ⟨same, ?_⟩
            intro opened isOk
            cases isOk
          · split at isOpened
            · cases isOpened
              refine ⟨same, ?_⟩
              intro opened isOk
              cases isOk
            · rename_i inside entered
              obtain ⟨later, isPath⟩ := induction isOpened
              refine ⟨same.trans later, ?_⟩
              intro opened isOk
              rw [isPath opened isOk, openDirectory_ok entered,
                List.append_assoc, List.singleton_append]

theorem openParent_spec {text : Text} {createParents : Bool}
    {result : FileResult (Path × Text)}
    (isOpened : openParent library faults workspace text createParents =
      (result, after)) :
    workspace.SameFiles after ∧
      ∀ opened, result = .ok opened → opened = splitParent text := by
  have refused : ∀ failure, (Except.error failure, workspace) =
      (result, after) → workspace.SameFiles after ∧
        ∀ opened, result = .ok opened → opened = splitParent text := by
    intro failure same
    cases same
    refine ⟨.refl _, ?_⟩
    intro opened isOk
    cases isOk
  unfold openParent at isOpened
  split at isOpened
  · exact refused _ isOpened
  · dsimp only at isOpened
    split at isOpened
    · split at isOpened
      · exact refused _ isOpened
      · rename_i entered
        cases isOpened
        refine ⟨.refl _, ?_⟩
        intro opened isOk
        cases isOk
        rw [openDirectory_ok entered, List.nil_append]
    · split at isOpened
      · exact refused _ isOpened
      · split at isOpened
        · rename_i failed
          cases isOpened
          refine ⟨(openParents_spec failed).1, ?_⟩
          intro opened isOk
          cases isOk
        · rename_i entered
          obtain ⟨same, isPath⟩ := openParents_spec entered
          cases isOpened
          refine ⟨same, ?_⟩
          intro opened isOk
          cases isOk
          rw [isPath _ rfl, List.nil_append]

end Opening

/-! ## Transfers -/

/-- A transfer has its temporary file for itself, and has counted what it has
hashed. -/
structure FileWriter.Sound (writer : FileWriter) : Prop where
  sole : ∀ id pending, writer.writes.lookup id = some pending →
    writer.workspace.Sole pending.file pending.temporary
  distinct : ∀ id other first second,
    writer.writes.lookup id = some first →
    writer.writes.lookup other = some second →
    first.temporary = second.temporary → id = other
  counted : ∀ id pending, writer.writes.lookup id = some pending →
    pending.bytes = pending.hasher.length
  few : writer.writes.entries.length ≤ maxPendingWrites

/-- The transfer that begins. -/
def startedWrite (file : Nat) (transferId path : Text) : PendingFileWrite where
  file
  parent := (splitParent path).1
  temporaryName := temporaryName transferId
  targetName := (splitParent path).2
  bytes := 0
  hasher := []

namespace FileWriter

variable {library : WriteLibrary} {faults : Faults} {writer after : FileWriter}
  {id path data : Text} {createParents : Bool}
  {answer : FileResult FileResponse} {pending : PendingFileWrite}

/-- A refused transfer leaves the files and the transfers alone; otherwise the
temporary file is new. -/
theorem fileWriteBegin_cases
    (begun : writer.fileWriteBegin library faults id path createParents =
      (answer, after)) :
    (∃ failure, answer = .error failure ∧ after.writes = writer.writes ∧
      writer.workspace.SameFiles after.workspace) ∨
    ∃ workspace : Workspace, writer.workspace.SameFiles workspace ∧
      workspace.links.lookup (temporaryPath id path) = none ∧
      writer.writes.lookup id = none ∧
      writer.writes.entries.length < maxPendingWrites ∧
      answer = .ok {} ∧
      after =
        { workspace := workspace.create (temporaryPath id path)
          writes := writer.writes.insert id
            (startedWrite workspace.inodes.length id path) } := by
  have refused : ∀ failure workspace,
      writer.workspace.SameFiles workspace →
      (Except.error failure, { writer with workspace }) =
        (answer, after) →
      ∃ failure, answer = .error failure ∧ after.writes = writer.writes ∧
        writer.workspace.SameFiles after.workspace := by
    intro failure workspace same isAnswer
    cases isAnswer
    exact ⟨failure, rfl, rfl, same⟩
  unfold fileWriteBegin at begun
  split at begun
  case isTrue => exact .inl (refused _ _ (.refl _) begun)
  case isFalse =>
    split at begun
    case isTrue => exact .inl (refused _ _ (.refl _) begun)
    case isFalse unknown =>
      split at begun
      case isTrue => exact .inl (refused _ _ (.refl _) begun)
      case isFalse few =>
        split at begun
        · rename_i failed
          exact .inl (refused _ _ (openParent_spec failed).1 begun)
        · rename_i parent targetName workspace isOpened
          obtain ⟨same, isParent⟩ := openParent_spec isOpened
          have isSplit := isParent _ rfl
          split at begun
          · exact .inl (refused _ _ same begun)
          · split at begun
            · exact .inl (refused _ _ same begun)
            · rename_i file created isCreated
              right
              have isPath : parent ++ [temporaryName id] =
                  temporaryPath id path := by
                rw [temporaryPath, ← isSplit]
              rw [isPath] at isCreated
              unfold createAt at isCreated
              split at isCreated
              · cases isCreated
              · split at isCreated
                · cases isCreated
                · rename_i absent
                  cases isCreated
                  cases begun
                  refine ⟨workspace, same, absent, ?_, by omega, rfl, ?_⟩
                  · rw [Option.not_isSome_iff_eq_none] at unknown
                    exact unknown
                  · rw [startedWrite, ← isSplit]

theorem unlinkAt_sole {workspace : Workspace} {file : Nat} {name : Path}
    (unlinks : faults.fails .unlink = none) (sole : workspace.Sole file name) :
    unlinkAt faults workspace name = (none, workspace.unlink name) := by
  rw [unlinkAt, unlinks]
  dsimp only
  rw [sole.found]

theorem abortWrite_spec (sound : writer.Sound)
    (unlinks : faults.fails .unlink = none)
    (found : writer.writes.lookup id = some pending) :
    writer.abortWrite faults id =
      (.ok (),
        { workspace := writer.workspace.unlink pending.temporary
          writes := writer.writes.erase id }) := by
  rw [abortWrite, found]
  dsimp only
  rw [unlinkAt_sole unlinks (sound.sole id pending found)]
  rfl

theorem fileWriteAbort_cases (sound : writer.Sound)
    (unlinks : faults.fails .unlink = none)
    (aborted : writer.fileWriteAbort faults id = (answer, after)) :
    (writer.writes.lookup id = none ∧ after = writer) ∨
    ∃ pending, writer.writes.lookup id = some pending ∧
      after =
        { workspace := writer.workspace.unlink pending.temporary
          writes := writer.writes.erase id } := by
  rw [fileWriteAbort] at aborted
  cases found : writer.writes.lookup id with
  | none =>
      rw [abortWrite, found] at aborted
      cases aborted
      exact .inl ⟨rfl, rfl⟩
  | some pending =>
      rw [abortWrite_spec sound unlinks found] at aborted
      cases aborted
      exact .inr ⟨pending, rfl, rfl⟩

/-- A chunk is refused, ends its transfer, is written in part or is written
whole. -/
theorem fileWriteChunk_cases (sound : writer.Sound)
    (unlinks : faults.fails .unlink = none) {piece : Bytes}
    (written : writer.fileWriteChunk library faults id
      (Base64.encodeStandard piece) = (answer, after)) :
    (∃ failure, answer = .error failure ∧ after = writer) ∨
    ∃ pending, writer.writes.lookup id = some pending ∧
      ((∃ failure, answer = .error failure ∧
        after =
          { workspace := writer.workspace.unlink pending.temporary
            writes := writer.writes.erase id }) ∨
      (∃ failure, answer = .error failure ∧
        after =
          { writer with
            workspace := writer.workspace.append pending.file
              (piece.take faults.written) }) ∨
      (answer = .ok {} ∧
        after =
          { workspace := writer.workspace.append pending.file piece
            writes := writer.writes.insert id
              { pending with
                hasher := pending.hasher ++ piece
                bytes := (pending.hasher ++ piece).length } })) := by
  rw [fileWriteChunk, library.chunk.decode_encode] at written
  dsimp only at written
  split at written
  case isTrue =>
    cases written
    exact .inl ⟨_, rfl, rfl⟩
  case isFalse =>
    split at written
    · cases written
      exact .inl ⟨_, rfl, rfl⟩
    · rename_i pending found
      right
      refine ⟨pending, found, ?_⟩
      split at written
      case isTrue =>
        left
        rw [abortWrite_spec sound unlinks found] at written
        cases written
        exact ⟨_, rfl, rfl⟩
      case isFalse small =>
        right
        unfold writeAll at written
        split at written
        · rename_i failed
          split at failed
          · cases failed
            cases written
            exact .inl ⟨_, rfl, rfl⟩
          · cases failed
        · rename_i succeeded
          split at succeeded
          · cases succeeded
          · cases succeeded
            cases written
            right
            refine ⟨rfl, ?_⟩
            have total : min (pending.bytes + piece.length) usizeMax =
                (pending.hasher ++ piece).length := by
              rw [List.length_append, ← sound.counted id pending found]
              rw [usizeMax] at small ⊢
              rw [maxFileWriteBytes] at small
              omega
            rw [total]

theorem renameAt_failed {workspace renamed : Workspace} {file : Nat}
    {source target : Path} {error : IoError}
    (sole : workspace.Sole file source)
    (failed : renameAt faults workspace source target = (some error, renamed)) :
    renamed = workspace := by
  rw [renameAt, sole.found] at failed
  dsimp only at failed
  split at failed
  · cases failed
    rfl
  · split at failed
    · cases failed
      rfl
    · cases failed

theorem renameAt_succeeded {workspace renamed : Workspace}
    {source target : Path}
    (succeeded : renameAt faults workspace source target = (none, renamed)) :
    renamed = workspace.rename source target := by
  unfold renameAt at succeeded
  split at succeeded
  · cases succeeded
  · split at succeeded
    · cases succeeded
    · split at succeeded
      · cases succeeded
      · exact (congrArg Prod.snd succeeded).symm

/-- Publishing fails before the renaming, or renames the file. -/
theorem publish_cases {workspace renamed : Workspace}
    (sole : workspace.Sole pending.file pending.temporary)
    (published : publish library faults workspace pending =
      (answer, renamed)) :
    (∃ failure, answer = .error failure ∧ renamed = workspace) ∨
      renamed = workspace.rename pending.temporary pending.target ∧
        ∀ response, answer = .ok response →
          response =
            { size := some pending.bytes
              digest :=
                some (library.sha256 pending.hasher).text.toList } := by
  unfold publish at published
  split at published
  · cases published
    exact .inl ⟨_, rfl, rfl⟩
  · split at published
    · cases published
      exact .inl ⟨_, rfl, rfl⟩
    · split at published
      · rename_i failed
        cases published
        exact .inl ⟨_, rfl, renameAt_failed sole failed⟩
      · rename_i succeeded
        have isRenamed := renameAt_succeeded succeeded
        right
        rw [isRenamed] at published
        split at published
        · cases published
          refine ⟨rfl, ?_⟩
          intro response isOk
          cases isOk
        · cases published
          refine ⟨rfl, ?_⟩
          intro response isOk
          cases isOk
          rfl

/-- A commit that fails before the renaming removes the temporary file. -/
theorem fileWriteCommit_cases (sound : writer.Sound)
    (unlinks : faults.fails .unlink = none)
    (apart : ∀ pending, writer.writes.lookup id = some pending →
      pending.temporary ≠ pending.target)
    (committed : writer.fileWriteCommit library faults id = (answer, after)) :
    (∃ failure, answer = .error failure ∧ after = writer ∧
      writer.writes.lookup id = none) ∨
    ∃ pending, writer.writes.lookup id = some pending ∧
      ((∃ failure, answer = .error failure ∧
        after =
          { workspace := writer.workspace.unlink pending.temporary
            writes := writer.writes.erase id }) ∨
      (after =
          { workspace := writer.workspace.rename pending.temporary
              pending.target
            writes := writer.writes.erase id } ∧
        ∀ response, answer = .ok response →
          response =
            { size := some pending.bytes
              digest := some (library.sha256 pending.hasher).text.toList })) := by
  rw [fileWriteCommit] at committed
  cases found : writer.writes.lookup id with
  | none =>
      rw [found] at committed
      cases committed
      exact .inl ⟨_, rfl, rfl, rfl⟩
  | some pending =>
      right
      refine ⟨pending, rfl, ?_⟩
      rw [found] at committed
      dsimp only at committed
      have sole := sound.sole id pending found
      have removed := unlinkAt_sole unlinks sole
      have unpublished : ∀ failure,
          (Except.error failure,
            { workspace := (unlinkAt faults writer.workspace
                pending.temporary).2
              writes := writer.writes.erase id }) = (answer, after) →
          ∃ failure, answer = .error failure ∧
            after =
              { workspace := writer.workspace.unlink pending.temporary
                writes := writer.writes.erase id } := by
        intro failure same
        rw [removed] at same
        cases same
        exact ⟨failure, rfl, rfl⟩
      have absent : (writer.workspace.rename pending.temporary
          pending.target).links.lookup pending.temporary = none := by
        rw [Volume.links_rename sole (apart pending found),
          AList.lookup_erase_if, if_pos rfl]
      have gone : (unlinkAt faults (writer.workspace.rename pending.temporary
          pending.target) pending.temporary).2 =
            writer.workspace.rename pending.temporary pending.target := by
        rw [unlinkAt, unlinks]
        dsimp only
        rw [absent]
      cases published : publish library faults writer.workspace pending with
      | mk outcome renamed =>
          rw [published] at committed
          rcases publish_cases sole published with
            ⟨failure, isError, unchanged⟩ | ⟨isRenamed, isResponse⟩
          · left
            subst isError unchanged
            exact unpublished failure committed
          · right
            subst isRenamed
            cases outcome with
            | error failure =>
                dsimp only at committed
                rw [gone] at committed
                cases committed
                refine ⟨rfl, ?_⟩
                intro response isOk
                cases isOk
            | ok response =>
                cases committed
                exact ⟨rfl, isResponse⟩

end FileWriter

/-! ## What changes -/

/-- The transfer of a call. -/
def PendingFileWrite.For (pending : PendingFileWrite) (id path : Text) :
    Prop :=
  pending.temporary = temporaryPath id path ∧ pending.target = components path

namespace FileWriter

/-- The transfer `id` changes: other transfers stay, and so does every file
but the temporary one, unless the target gets a whole content. -/
structure Touches (id path : Text) (whole : Bytes → Prop)
    (before after : FileWriter) : Prop where
  sound : after.Sound
  others : ∀ other, other ≠ id →
    after.writes.lookup other = before.writes.lookup other
  own : ∀ pending, after.writes.lookup id = some pending → pending.For id path
  elsewhere : ∀ name, name ≠ temporaryPath id path →
    after.workspace.content name = before.workspace.content name ∨
    name = components path ∧
      ∃ bytes, whole bytes ∧ after.workspace.content name = some bytes
  temporary : ∀ bytes,
    after.workspace.content (temporaryPath id path) = some bytes →
    before.workspace.content (temporaryPath id path) = some bytes ∧
      after.writes = before.writes ∨
    ∃ pending, after.writes.lookup id = some pending

section Touching

variable {writer after : FileWriter} {id path : Text} {whole : Bytes → Prop}
  {pending : PendingFileWrite}

theorem touches_sameFiles (sound : writer.Sound)
    (own : ∀ pending, writer.writes.lookup id = some pending →
      pending.For id path)
    (writes : after.writes = writer.writes)
    (same : writer.workspace.SameFiles after.workspace) :
    Touches id path whole writer after where
  sound :=
    { sole := by
        intro other found isFound
        rw [writes] at isFound
        exact same.sole (sound.sole other found isFound)
      distinct := by
        rw [writes]
        exact sound.distinct
      counted := by
        rw [writes]
        exact sound.counted
      few := by
        rw [writes]
        exact sound.few }
  others other _ := by rw [writes]
  own := by
    rw [writes]
    exact own
  elsewhere name _ := .inl (same.content name)
  temporary bytes held := by
    rw [same.content] at held
    exact .inl ⟨held, writes⟩

theorem target_startedWrite (file : Nat) :
    (startedWrite file id path).target = components path :=
  splitParent_target path

theorem touches_start {workspace : Workspace} (sound : writer.Sound)
    (same : writer.workspace.SameFiles workspace)
    (absent : workspace.links.lookup (temporaryPath id path) = none)
    (unknown : writer.writes.lookup id = none)
    (few : writer.writes.entries.length < maxPendingWrites) :
    Touches id path whole writer
      { workspace := workspace.create (temporaryPath id path)
        writes := writer.writes.insert id
          (startedWrite workspace.inodes.length id path) } where
  sound := by
    have taken : ∀ other found, writer.writes.lookup other = some found →
        found.temporary ≠ temporaryPath id path := by
      intro other found isFound isTemporary
      have inside := (same.sole (sound.sole other found isFound)).found
      rw [isTemporary, absent] at inside
      cases inside
    constructor
    · intro other found isFound
      rw [AList.lookup_insert_if] at isFound
      split at isFound
      · cases isFound
        exact Volume.sole_create
      · exact (same.sole (sound.sole other found isFound)).create absent
    · intro first second one two isOne isTwo same
      rw [AList.lookup_insert_if] at isOne isTwo
      split at isOne <;> split at isTwo
      · rename_i isFirst isSecond
        exact isFirst.trans isSecond.symm
      · cases isOne
        exact absurd same.symm (taken second two isTwo)
      · cases isTwo
        exact absurd same (taken first one isOne)
      · exact sound.distinct first second one two isOne isTwo same
    · intro other found isFound
      rw [AList.lookup_insert_if] at isFound
      split at isFound
      · cases isFound
        rfl
      · exact sound.counted other found isFound
    · rw [AList.insert_of_notMem (AList.lookup_eq_none.mp unknown)]
      exact few
  others other different := AList.lookup_insert_ne different
  own := by
    intro pending found
    rw [AList.lookup_insert] at found
    cases found
    exact ⟨rfl, target_startedWrite _⟩
  elsewhere := by
    intro name different
    left
    rw [Volume.content_create, if_neg different]
    exact same.content name
  temporary := by
    intro bytes _
    right
    exact ⟨_, AList.lookup_insert _⟩

theorem touches_append {data hashed : Bytes} (sound : writer.Sound)
    (found : writer.writes.lookup id = some pending)
    (own : pending.For id path) :
    Touches id path whole writer
      { workspace := writer.workspace.append pending.file data
        writes := writer.writes.insert id
          { pending with hasher := hashed, bytes := hashed.length } } where
  sound := by
    constructor
    · intro other next isNext
      rw [AList.lookup_insert_if] at isNext
      split at isNext
      · cases isNext
        exact (sound.sole id pending found).append _
      · exact (sound.sole other next isNext).append _
    · intro first second one two isOne isTwo same
      have before : ∀ other next,
          (writer.writes.insert id { pending with
            hasher := hashed, bytes := hashed.length }).lookup other =
              some next →
          ∃ earlier, writer.writes.lookup other = some earlier ∧
            earlier.temporary = next.temporary := by
        intro other next isNext
        rw [AList.lookup_insert_if] at isNext
        split at isNext
        case isTrue isId =>
          cases isNext
          rw [isId]
          exact ⟨pending, found, rfl⟩
        case isFalse => exact ⟨next, isNext, rfl⟩
      obtain ⟨earlierOne, isEarlierOne, sameOne⟩ := before first one isOne
      obtain ⟨earlierTwo, isEarlierTwo, sameTwo⟩ := before second two isTwo
      exact sound.distinct first second earlierOne earlierTwo isEarlierOne
        isEarlierTwo (sameOne.trans (same.trans sameTwo.symm))
    · intro other next isNext
      rw [AList.lookup_insert_if] at isNext
      split at isNext
      · cases isNext
        rfl
      · exact sound.counted other next isNext
    · rw [AList.length_insert_of_found found]
      exact sound.few
  others other different := AList.lookup_insert_ne different
  own := by
    intro next isNext
    rw [AList.lookup_insert] at isNext
    cases isNext
    exact own
  elsewhere := by
    intro name different
    left
    rw [← own.1] at different
    rw [Volume.content_append (sound.sole id pending found),
      if_neg different]
  temporary := by
    intro bytes _
    right
    exact ⟨_, AList.lookup_insert _⟩

/-- A part of a chunk is written, and not counted. -/
theorem touches_part {data : Bytes} (sound : writer.Sound)
    (found : writer.writes.lookup id = some pending)
    (own : pending.For id path) :
    Touches id path whole writer
      { writer with
        workspace := writer.workspace.append pending.file data } where
  sound :=
    { sole := by
        intro other next isNext
        exact (sound.sole other next isNext).append _
      distinct := sound.distinct
      counted := sound.counted
      few := sound.few }
  others _ _ := rfl
  own := by
    intro next isNext
    rw [found] at isNext
    cases isNext
    exact own
  elsewhere := by
    intro name different
    left
    rw [← own.1] at different
    rw [Volume.content_append (sound.sole id pending found),
      if_neg different]
  temporary := by
    intro bytes _
    exact .inr ⟨pending, found⟩

/-- The transfers that are left when one is removed, and the files that have
their temporary names. -/
theorem sound_erase {workspace : Workspace} (sound : writer.Sound)
    (sole : ∀ other next, writer.writes.lookup other = some next →
      other ≠ id → workspace.Sole next.file next.temporary) :
    Sound { workspace, writes := writer.writes.erase id } where
  sole := by
    intro other next isNext
    rw [AList.lookup_erase_if] at isNext
    split at isNext
    · cases isNext
    · rename_i different
      exact sole other next isNext different
  distinct := by
    intro first second one two isOne isTwo same
    rw [AList.lookup_erase_if] at isOne isTwo
    split at isOne
    · cases isOne
    · split at isTwo
      · cases isTwo
      · exact sound.distinct first second one two isOne isTwo same
  counted := by
    intro other next isNext
    rw [AList.lookup_erase_if] at isNext
    split at isNext
    · cases isNext
    · exact sound.counted other next isNext
  few := Nat.le_trans (AList.length_erase_le _ _) sound.few

theorem Sound.temporary_ne (sound : writer.Sound)
    (found : writer.writes.lookup id = some pending) {other : Text}
    {next : PendingFileWrite} (isNext : writer.writes.lookup other = some next)
    (different : other ≠ id) : next.temporary ≠ pending.temporary := by
  intro same
  exact different (sound.distinct other id next pending isNext found same)

theorem touches_remove (sound : writer.Sound)
    (found : writer.writes.lookup id = some pending)
    (own : pending.For id path) :
    Touches id path whole writer
      { workspace := writer.workspace.unlink pending.temporary
        writes := writer.writes.erase id } where
  sound := by
    apply sound_erase sound
    intro other next isNext different
    exact (sound.sole other next isNext).unlink
      (sound.temporary_ne found isNext different)
  others other different := AList.lookup_erase_ne different
  own := by
    intro next isNext
    rw [AList.lookup_erase] at isNext
    cases isNext
  elsewhere := by
    intro name different
    left
    rw [← own.1] at different
    rw [Volume.content_unlink, if_neg different]
  temporary := by
    intro bytes held
    rw [Volume.content_unlink, if_pos own.1.symm] at held
    cases held

/-- The target gets what the temporary file holds. -/
theorem touches_publish {bytes : Bytes} (sound : writer.Sound)
    (found : writer.writes.lookup id = some pending)
    (own : pending.For id path)
    (apart : ∀ other next, writer.writes.lookup other = some next →
      next.temporary ≠ components path)
    (held : writer.workspace.content (temporaryPath id path) = some bytes)
    (isWhole : whole bytes) :
    Touches id path whole writer
      { workspace := writer.workspace.rename pending.temporary pending.target
        writes := writer.writes.erase id } where
  sound := by
    apply sound_erase sound
    intro other next isNext different
    apply (sound.sole other next isNext).rename (sound.sole id pending found)
    · intro same
      have inside := (sound.sole other next isNext).found
      rw [← same] at inside
      exact sound.temporary_ne found isNext different
        ((sound.sole id pending found).name_eq inside)
    · rw [own.2]
      exact apart other next isNext
    · rw [own.2]
      exact apart id pending found
  others other different := AList.lookup_erase_ne different
  own := by
    intro next isNext
    rw [AList.lookup_erase] at isNext
    cases isNext
  elsewhere := by
    intro name different
    have away : pending.temporary ≠ pending.target := by
      rw [own.2]
      exact apart id pending found
    rw [Volume.content_rename (sound.sole id pending found) away, own.1, own.2]
    split
    case isTrue same => exact .inr ⟨same, bytes, isWhole, held⟩
    case isFalse => exact .inl rfl
  temporary := by
    intro content isContent
    have away : pending.temporary ≠ pending.target := by
      rw [own.2]
      exact apart id pending found
    rw [Volume.content_rename (sound.sole id pending found) away, ← own.1,
      if_neg away, if_pos rfl] at isContent
    cases isContent

end Touching

end FileWriter

end Electrosphere.Agent
