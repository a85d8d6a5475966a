import Electrosphere.Agent.FileWrite
import Electrosphere.Agent.WorkspaceExport
import Electrosphere.Backends.AgentFiles
import Electrosphere.Foundation.Transition

/-!
# Fetching a snapshot from the guest

The guest keeps one snapshot file at a time and the offset of the next read.
`snapshot` of the backends asks for the file, reads it piece by piece into a
staged file, and ends the transfer whatever has happened before.  A request may
be lost, and so may its answer.
-/

namespace Electrosphere

open Foundation Agent

/-! ## The guest -/

def maxSnapshotBytes : Nat := 1024 * 1024 * 1024

structure PendingSnapshot where
  id : Text
  file : Bytes
  size : Nat
  digest : Text
  nextOffset : Nat
  deriving DecidableEq

/-- The field `snapshot` of `FileService`. -/
abbrev SnapshotSlot := Option PendingSnapshot

/-- The failure for what `export_workspace_file` reports. -/
def exportFailure (message : String) : FileFailure :=
  if "snapshot limit".toList <:+: message.toList ∨
      "exceeds total limit".toList <:+: message.toList then
    .coded "SNAPSHOT_LIMIT" message
  else .coded "SNAPSHOT_UNSUPPORTED_ENTRY" message

def alreadyActive : FileFailure :=
  .coded "TRANSFER_CAPACITY" "A snapshot transfer is already active"

/-- The arguments after the hash are the outcomes of the export and of opening
the exported file. -/
def snapshotBegin (sha256 : Bytes → Digest)
    (exported : Agent.Snapshot.SnapshotResult Bytes) (opening : Option IoError)
    (slot : SnapshotSlot) (snapshotId format : Text) :
    FileResult FileResponse × SnapshotSlot :=
  if format ≠ "cfs-v1".toList ∨ validTransferId snapshotId = false then
    (.error (.coded "INVALID_ARGUMENT" "Snapshot request is invalid"), slot)
  else if slot.isSome then (.error alreadyActive, slot)
  else
    match exported with
    | .error message => (.error (exportFailure message), slot)
    | .ok bytes =>
        if maxSnapshotBytes < bytes.length then
          (.error (.coded "SNAPSHOT_LIMIT" "Snapshot exceeds total size limit"),
            slot)
        else
          match opening with
          | some error => (.error (ioFailure error "Open snapshot transfer"), slot)
          | none =>
              let digest := (sha256 bytes).text.toList
              (.ok { size := some bytes.length, digest := some digest },
                some
                  { id := snapshotId
                    file := bytes
                    size := bytes.length
                    digest
                    nextOffset := 0 })

/-- `seek` and `read` may fail, and a read may return less than was
requested. -/
def snapshotRead (seek : Option IoError) (read : Except IoError Nat)
    (slot : SnapshotSlot) (snapshotId : Text) (offset limit : Nat) :
    FileResult FileResponse × SnapshotSlot :=
  if limit = 0 ∨ maxFileChunkBytes < limit then
    (.error (.coded "INVALID_ARGUMENT" "Snapshot read limit is invalid"), slot)
  else
    match slot with
    | none =>
        (.error (.coded "TRANSFER_NOT_FOUND" "Snapshot transfer not found"), slot)
    | some snapshot =>
        if snapshot.id ≠ snapshotId then
          (.error (.coded "TRANSFER_NOT_FOUND" "Snapshot transfer not found"),
            slot)
        else if offset ≠ snapshot.nextOffset then
          (.error (.coded "INVALID_ARGUMENT"
            "Snapshot reads must use consecutive offsets"), slot)
        else
          match seek, read with
          | some error, _ =>
              (.error (ioFailure error "Seek snapshot transfer"), slot)
          | none, .error error =>
              (.error (ioFailure error "Read snapshot transfer"), slot)
          | none, .ok count =>
              let requested := min limit (snapshot.size - offset)
              let buffer :=
                ((snapshot.file.drop offset).take requested).take count
              let next := snapshot.nextOffset + buffer.length
              (.ok
                { data := some (Base64.encodeStandard buffer)
                  size := some snapshot.size
                  digest := some snapshot.digest
                  eof := some (decide (snapshot.size ≤ next)) },
                some { snapshot with nextOffset := next })

/-- The argument is the outcome of removing the file. -/
def snapshotEnd (removal : Option IoError) (slot : SnapshotSlot)
    (snapshotId : Text) : FileResult FileResponse × SnapshotSlot :=
  if slot.any fun value => value.id != snapshotId then (.ok {}, slot)
  else if slot.isSome then
    match removal with
    | some error => (.error (ioFailure error "Remove snapshot transfer"), none)
    | none => (.ok {}, none)
  else (.ok {}, slot)

/-! ## Requests -/

inductive Delivery where
  /-- The request does not reach the guest. -/
  | lost (error : Thrown)
  /-- The guest takes up the request, and its answer does not come back. -/
  | unanswered (error : Thrown)
  | answered

def Delivery.reached : Delivery → Bool
  | .lost _ => false
  | _ => true

/-- What a request comes to, given what the guest makes of it. -/
def exchange (delivery : Delivery) (slot : SnapshotSlot)
    (taken : FileResult FileResponse × SnapshotSlot) :
    Except Thrown (FileResult FileResponse) × SnapshotSlot :=
  match delivery with
  | .lost error => (.error error, slot)
  | .unanswered error => (.error error, taken.2)
  | .answered => (.ok taken.1, taken.2)

/-! ## The host -/

/-- The most that one read asks for. -/
def snapshotChunkBytes : Nat := 384 * 1024

structure SnapshotResult where
  workspacePath : Text
  cfsPath : Text
  treeDigest : Text
  deriving DecidableEq

def beginFailed : Thrown :=
  .coded .backendError "Guest agent snapshot begin failed"

def checkBegun : FileResult FileResponse → Except Thrown (Nat × Text)
  | .error failure =>
      .error (.coded
        (if failure.code = some "SNAPSHOT_LIMIT" then .snapshotLimit
        else if failure.code = some "SNAPSHOT_UNSUPPORTED_ENTRY" then
          .snapshotUnsupportedEntry
        else .backendError) failure.message)
  | .ok begun =>
      match begun.size, begun.digest with
      | some size, some digest =>
          if size ≤ maxSafeInteger ∧ size ≤ maxSnapshotBytes ∧
              isDigest digest then
            .ok (size, digest)
          else .error beginFailed
      | _, _ => .error beginFailed

/-- The checks of an answer to a read: the chunk and whether it is the last. -/
def checkChunk (size offset : Nat) :
    FileResult FileResponse → Except Thrown (Bytes × Bool)
  | .error failure => .error (.coded .backendError failure.message)
  | .ok response =>
      match response.data with
      | none =>
          .error (.coded .backendError "Guest agent snapshot read failed")
      | some data =>
          if response.size ≠ some size then
            .error (.coded .backendError "Guest agent snapshot read failed")
          else
            let chunk := Base64.decodeStandard data
            if chunk = [] ∨ snapshotChunkBytes < chunk.length ∨
                size < offset + chunk.length then
              .error (.coded .backendError
                "Guest agent returned an invalid snapshot chunk")
            else .ok (chunk, response.eof.getD false)

/-- The variables of the loop.  What has been given to the hash stands for its
state. -/
structure SnapshotProgress where
  size : Nat
  digest : Text
  offset : Nat
  hashed : Bytes
  deriving DecidableEq

inductive SnapshotStage where
  | beginning
  /-- Before the directory and the staged file are made. -/
  | opening (size : Nat) (digest : Text)
  | reading (progress : SnapshotProgress)
  /-- After the loop. -/
  | checking (progress : SnapshotProgress)
  /-- In the `finally` block. -/
  | ending (outcome : Except Thrown SnapshotResult)
  | settled (outcome : Except Thrown SnapshotResult) (delivered : Bool)

/-- The head of the loop. -/
def SnapshotProgress.loop (progress : SnapshotProgress) (eof : Bool) :
    SnapshotStage :=
  if eof = false ∧ progress.offset < progress.size then .reading progress
  else .checking progress

/-- `write` at a position. -/
def writeAt (content : Bytes) (position : Nat) (chunk : Bytes) : Bytes :=
  (content ++ List.replicate (position - content.length) 0).take position ++
    chunk ++ content.drop (position + chunk.length)

/-- One call of `snapshot`, the file it stages, and the guest. -/
structure SnapshotTransfer where
  slot : SnapshotSlot
  staged : Option Bytes
  stage : SnapshotStage

inductive SnapshotEvent where
  | begin (delivery : Delivery) (opening : Option IoError)
  /-- `mkdir` and `open`. -/
  | create (failure : Option Thrown)
  | read (delivery : Delivery) (seek : Option IoError)
      (read : Except IoError Nat) (write : Option Thrown)
  /-- `sync` and `close`. -/
  | close (failure : Option Thrown)
  | finish (delivery : Delivery) (removal : Option IoError)

/-- What a transfer is about: the outcome of the export, the identifier, and
the paths in the result. -/
structure SnapshotSetting where
  sha256 : Bytes → Digest
  exported : Agent.Snapshot.SnapshotResult Bytes
  snapshotId : Text
  workspacePath : Text
  cfsPath : Text

namespace SnapshotSetting

variable (setting : SnapshotSetting)

def afterBegin :
    Except Thrown (FileResult FileResponse) → SnapshotStage
  | .error thrown => .ending (.error thrown)
  | .ok answer =>
      match checkBegun answer with
      | .error thrown => .ending (.error thrown)
      | .ok (size, digest) => .opening size digest

/-- The rest of one turn of the loop. -/
def afterRead (progress : SnapshotProgress) (staged : Option Bytes)
    (write : Option Thrown) :
    Except Thrown (FileResult FileResponse) → Option Bytes × SnapshotStage
  | .error thrown => (staged, .ending (.error thrown))
  | .ok answer =>
      match checkChunk progress.size progress.offset answer with
      | .error thrown => (staged, .ending (.error thrown))
      | .ok (chunk, eof) =>
          match write with
          | some thrown => (staged, .ending (.error thrown))
          | none =>
              (staged.map fun content => writeAt content progress.offset chunk,
                SnapshotProgress.loop
                  { progress with
                    offset := progress.offset + chunk.length
                    hashed := progress.hashed ++ chunk }
                  eof)

def afterLoop (progress : SnapshotProgress) (failure : Option Thrown) :
    Except Thrown SnapshotResult :=
  if progress.offset ≠ progress.size ∨
      (setting.sha256 progress.hashed).text.toList ≠ progress.digest then
    .error (.coded .backendError "Guest snapshot size or digest mismatch")
  else
    match failure with
    | some thrown => .error thrown
    | none =>
        .ok
          { workspacePath := setting.workspacePath
            cfsPath := setting.cfsPath
            treeDigest := progress.digest }

/-- The staged file after the `finally` block. -/
def kept (staged : Option Bytes) : Except Thrown SnapshotResult → Option Bytes
  | .ok _ => staged
  | .error _ => none

def step (transfer : SnapshotTransfer) :
    SnapshotEvent → Option SnapshotTransfer
  | .begin delivery opening =>
      match transfer.stage with
      | .beginning =>
          let (answer, slot) := exchange delivery transfer.slot
            (snapshotBegin setting.sha256 setting.exported opening
              transfer.slot setting.snapshotId "cfs-v1".toList)
          some { transfer with slot, stage := afterBegin answer }
      | _ => none
  | .create failure =>
      match transfer.stage with
      | .opening size digest =>
          match failure with
          | some thrown =>
              some { transfer with stage := .ending (.error thrown) }
          | none =>
              some
                { transfer with
                  staged := some []
                  stage := SnapshotProgress.loop
                    { size, digest, offset := 0, hashed := [] } false }
      | _ => none
  | .read delivery seek read write =>
      match transfer.stage with
      | .reading progress =>
          let (answer, slot) := exchange delivery transfer.slot
            (snapshotRead seek read transfer.slot setting.snapshotId
              progress.offset snapshotChunkBytes)
          let (staged, stage) :=
            afterRead progress transfer.staged write answer
          some { slot, staged, stage }
      | _ => none
  | .close failure =>
      match transfer.stage with
      | .checking progress =>
          some
            { transfer with
              stage := .ending (setting.afterLoop progress failure) }
      | _ => none
  | .finish delivery removal =>
      match transfer.stage with
      | .ending outcome =>
          let (_, slot) := exchange delivery transfer.slot
            (snapshotEnd removal transfer.slot setting.snapshotId)
          some
            { slot
              staged := kept transfer.staged outcome
              stage := .settled outcome delivery.reached }
      | _ => none

/-- No snapshot is pending in the guest, and nothing is staged. -/
def start : SnapshotTransfer :=
  { slot := none, staged := none, stage := .beginning }

end SnapshotSetting

/-! ## What one request does to the guest -/

/-- The guest holds nothing that another snapshot call has begun. -/
def Own (snapshotId : Text) (slot : SnapshotSlot) : Prop :=
  ∀ pending, slot = some pending → pending.id = snapshotId

/-- The transfer of an archive that has got to an offset. -/
def SnapshotSetting.pending (setting : SnapshotSetting) (archive : Bytes)
    (offset : Nat) : PendingSnapshot where
  id := setting.snapshotId
  file := archive
  size := archive.length
  digest := (setting.sha256 archive).text.toList
  nextOffset := offset

section Requests

variable {setting : SnapshotSetting} {archive : Bytes} {slot : SnapshotSlot}
  {delivery : Delivery} {offset : Nat}

theorem own_none (snapshotId : Text) : Own snapshotId none := by
  intro pending isPending
  cases isPending

theorem own_pending (setting : SnapshotSetting) (archive : Bytes)
    (offset : Nat) :
    Own setting.snapshotId (some (setting.pending archive offset)) := by
  intro pending isPending
  cases isPending
  rfl

/-- `snapshotBegin` takes the slot for the archive, or leaves it. -/
theorem snapshotBegin_cases (setting : SnapshotSetting)
    (opening : Option IoError) :
    (∃ failure, snapshotBegin setting.sha256 setting.exported opening none
        setting.snapshotId "cfs-v1".toList = (.error failure, none)) ∨
      ∃ archive, setting.exported = .ok archive ∧
        snapshotBegin setting.sha256 setting.exported opening none
          setting.snapshotId "cfs-v1".toList =
          (.ok
            { size := some archive.length
              digest := some (setting.sha256 archive).text.toList },
            some (setting.pending archive 0)) := by
  rw [snapshotBegin.eq_def]
  split
  · exact .inl ⟨_, rfl⟩
  · rw [if_neg (by simp)]
    cases setting.exported with
    | error message => exact .inl ⟨_, rfl⟩
    | ok archive =>
        dsimp only
        split
        · exact .inl ⟨_, rfl⟩
        · cases opening with
          | some error => exact .inl ⟨_, rfl⟩
          | none => exact .inr ⟨archive, rfl, rfl⟩

/-- `snapshotRead` returns what stands at the offset, or leaves the slot. -/
theorem snapshotRead_cases (setting : SnapshotSetting) (archive : Bytes)
    (offset limit : Nat) (seek : Option IoError) (read : Except IoError Nat) :
    (∃ failure, snapshotRead seek read (some (setting.pending archive offset))
        setting.snapshotId offset limit =
          (.error failure, some (setting.pending archive offset))) ∨
      ∃ buffer response, buffer <+: archive.drop offset ∧
        snapshotRead seek read (some (setting.pending archive offset))
          setting.snapshotId offset limit =
          (.ok response,
            some (setting.pending archive (offset + buffer.length))) ∧
        response.data = some (Base64.encodeStandard buffer) ∧
        response.eof = some (decide (archive.length ≤ offset + buffer.length)) := by
  rw [snapshotRead.eq_def]
  split
  · exact .inl ⟨_, rfl⟩
  · dsimp only
    rw [if_neg (by simp [SnapshotSetting.pending]),
      if_neg (by simp [SnapshotSetting.pending])]
    cases seek with
    | some error => exact .inl ⟨_, rfl⟩
    | none =>
        cases read with
        | error error => exact .inl ⟨_, rfl⟩
        | ok count =>
            right
            refine ⟨_, _, ?_, rfl, rfl, rfl⟩
            exact (List.take_prefix _ _).trans (List.take_prefix _ _)

theorem snapshotEnd_none {snapshotId : Text} (removal : Option IoError)
    (own : Own snapshotId slot) :
    (snapshotEnd removal slot snapshotId).2 = none := by
  cases slot with
  | none => rfl
  | some pending =>
      have same := own pending rfl
      rw [snapshotEnd.eq_def, if_neg (by simp [same]),
        if_pos Option.isSome_some]
      cases removal with
      | some error => rfl
      | none => rfl

theorem slot_of_reached {taken : FileResult FileResponse × SnapshotSlot}
    (reached : delivery.reached = true) :
    (exchange delivery slot taken).2 = taken.2 := by
  cases delivery with
  | lost error => cases reached
  | unanswered error => rfl
  | answered => rfl

end Requests

/-! ## Both sides in step -/

/-- The loop of the host has got as far as the guest, and what it has staged
and hashed is the archive up to there. -/
structure SnapshotProgress.Tracks (progress : SnapshotProgress)
    (setting : SnapshotSetting) (archive : Bytes) (slot : SnapshotSlot)
    (staged : Option Bytes) : Prop where
  exported : setting.exported = .ok archive
  slot : slot = some (setting.pending archive progress.offset)
  staged : staged = some (archive.take progress.offset)
  hashed : progress.hashed = archive.take progress.offset
  size : progress.size = archive.length
  digest : progress.digest = (setting.sha256 archive).text.toList
  inside : progress.offset ≤ archive.length

/-- The result is the archive's, which is staged. -/
structure Delivers (setting : SnapshotSetting) (result : SnapshotResult)
    (staged : Option Bytes) : Prop where
  archived : ∃ archive, setting.exported = .ok archive ∧
    staged = some archive ∧
    result.treeDigest = (setting.sha256 archive).text.toList
  path : result.cfsPath = setting.cfsPath
  workspace : result.workspacePath = setting.workspacePath

def Told (setting : SnapshotSetting) (staged : Option Bytes) :
    Except Thrown SnapshotResult → Prop
  | .ok result => Delivers setting result staged
  | .error _ => True

namespace SnapshotTransfer

/-- The invariant, by the stage of the call. -/
def Invariant (setting : SnapshotSetting) (transfer : SnapshotTransfer) : Prop :=
  match transfer.stage with
  | .beginning => transfer.slot = none ∧ transfer.staged = none
  | .opening size digest =>
      ∃ archive, setting.exported = .ok archive ∧
        transfer.slot = some (setting.pending archive 0) ∧
        size = archive.length ∧
        digest = (setting.sha256 archive).text.toList
  | .reading progress =>
      progress.offset < progress.size ∧
        ∃ archive, progress.Tracks setting archive transfer.slot transfer.staged
  | .checking progress =>
      ∃ archive, progress.Tracks setting archive transfer.slot transfer.staged
  | .ending outcome =>
      Own setting.snapshotId transfer.slot ∧ Told setting transfer.staged outcome
  | .settled outcome delivered =>
      (delivered = true → transfer.slot = none) ∧
        transfer.staged = SnapshotSetting.kept transfer.staged outcome ∧
        Told setting transfer.staged outcome

section Steps

variable {setting : SnapshotSetting} {transfer next : SnapshotTransfer}
  {archive : Bytes}

theorem invariant_start (setting : SnapshotSetting) :
    Invariant setting SnapshotSetting.start :=
  ⟨rfl, rfl⟩

/-- A failure leads to the `finally` block with a slot of one's own. -/
theorem invariant_failed {slot : SnapshotSlot} {staged : Option Bytes}
    {thrown : Thrown} (own : Own setting.snapshotId slot) :
    Invariant setting { slot, staged, stage := .ending (.error thrown) } :=
  ⟨own, trivial⟩

theorem invariant_loop {progress : SnapshotProgress} {slot : SnapshotSlot}
    {staged : Option Bytes} {eof : Bool}
    (tracks : progress.Tracks setting archive slot staged) :
    Invariant setting { slot, staged, stage := progress.loop eof } := by
  rw [SnapshotProgress.loop]
  split
  · next more => exact ⟨more.2, archive, tracks⟩
  · exact ⟨archive, tracks⟩

theorem checkBegun_eq {response : FileResponse} {size : Nat} {digest : Text}
    (checks : checkBegun (.ok response) = .ok (size, digest)) :
    response.size = some size ∧ response.digest = some digest := by
  rw [checkBegun] at checks
  split at checks
  · next isSize isDigest =>
      split at checks
      · cases checks
        exact ⟨isSize, isDigest⟩
      · cases checks
  · cases checks

theorem invariant_begin {delivery : Delivery} {opening : Option IoError}
    (invariant : Invariant setting transfer)
    (taken : setting.step transfer (.begin delivery opening) = some next) :
    Invariant setting next := by
  rw [SnapshotSetting.step] at taken
  split at taken
  · next isStage =>
      rw [Invariant, isStage] at invariant
      obtain ⟨noSlot, noFile⟩ := invariant
      rw [noSlot] at taken
      rcases snapshotBegin_cases setting opening with
        ⟨failure, refuses⟩ | ⟨archive, exported, begins⟩
      · rw [refuses] at taken
        have own := own_none setting.snapshotId
        cases delivery with
        | lost error =>
            cases taken
            exact invariant_failed own
        | unanswered error =>
            cases taken
            exact invariant_failed own
        | answered =>
            cases taken
            exact invariant_failed own
      · rw [begins] at taken
        have own := own_pending setting archive 0
        cases delivery with
        | lost error =>
            cases taken
            exact invariant_failed (own_none setting.snapshotId)
        | unanswered error =>
            cases taken
            exact invariant_failed own
        | answered =>
            cases taken
            dsimp only [exchange]
            rw [SnapshotSetting.afterBegin]
            split
            · exact invariant_failed own
            · next size digest checks =>
                obtain ⟨isSize, isDigest⟩ := checkBegun_eq checks
                cases isSize
                cases isDigest
                exact ⟨archive, exported, rfl, rfl, rfl⟩
  · cases taken

theorem invariant_create {failure : Option Thrown}
    (invariant : Invariant setting transfer)
    (taken : setting.step transfer (.create failure) = some next) :
    Invariant setting next := by
  rw [SnapshotSetting.step] at taken
  split at taken
  · next size digest isStage =>
      rw [Invariant, isStage] at invariant
      obtain ⟨archive, exported, isSlot, rfl, rfl⟩ := invariant
      cases failure with
      | some thrown =>
          cases taken
          apply invariant_failed
          rw [isSlot]
          exact own_pending setting archive 0
      | none =>
          cases taken
          refine @invariant_loop setting archive _ _ _ _ ?_
          constructor
          · exact exported
          · exact isSlot
          · rfl
          · rfl
          · rfl
          · rfl
          · exact Nat.zero_le _
  · cases taken

theorem writeAt_end (content chunk : Bytes) {position : Nat}
    (atEnd : position = content.length) :
    writeAt content position chunk = content ++ chunk := by
  rw [writeAt, atEnd, Nat.sub_self, List.replicate_zero, List.append_nil,
    List.take_length, List.drop_eq_nil_of_le (Nat.le_add_right _ _),
    List.append_nil]

theorem take_append_of_prefix_drop {buffer : Bytes} {offset : Nat}
    (inside : buffer <+: archive.drop offset) :
    archive.take (offset + buffer.length) = archive.take offset ++ buffer := by
  rw [List.take_add]
  congr 1
  exact (List.prefix_iff_eq_take.mp inside).symm

/-- What the host takes from an answer of the guest. -/
theorem checkChunk_eq {size offset : Nat} {response : FileResponse}
    {buffer chunk : Bytes} {eof : Bool}
    (isData : response.data = some (Base64.encodeStandard buffer))
    (checks : checkChunk size offset (.ok response) = .ok (chunk, eof)) :
    chunk = buffer := by
  rw [checkChunk, isData] at checks
  dsimp only at checks
  split at checks
  · cases checks
  · rw [Base64.decodeStandard_encodeStandard] at checks
    split at checks
    · cases checks
    · cases checks
      rfl

theorem chunk_ne_nil {size offset : Nat} {answer : FileResult FileResponse}
    {chunk : Bytes} {eof : Bool}
    (checks : checkChunk size offset answer = .ok (chunk, eof)) :
    chunk ≠ [] := by
  rw [checkChunk.eq_def] at checks
  split at checks
  · cases checks
  · split at checks
    · cases checks
    · split at checks
      · cases checks
      · dsimp only at checks
        split at checks
        · cases checks
        · next accepted =>
            cases checks
            exact (not_or.mp accepted).1

/-- One chunk brings both sides forward by its length. -/
theorem tracks_chunk {progress : SnapshotProgress} {slot : SnapshotSlot}
    {staged : Option Bytes} {buffer : Bytes}
    (tracks : progress.Tracks setting archive slot staged)
    (inside : buffer <+: archive.drop progress.offset) :
    SnapshotProgress.Tracks
      { progress with
        offset := progress.offset + buffer.length
        hashed := progress.hashed ++ buffer }
      setting archive
      (some (setting.pending archive (progress.offset + buffer.length)))
      (staged.map fun content => writeAt content progress.offset buffer) := by
  have longer := take_append_of_prefix_drop inside
  have bound := inside.length_le
  rw [List.length_drop] at bound
  have reached := tracks.inside
  constructor
  · exact tracks.exported
  · rfl
  · dsimp only
    rw [tracks.staged, Option.map_some, writeAt_end _ _ (by simp [reached]),
      longer]
  · dsimp only
    rw [tracks.hashed, longer]
  · exact tracks.size
  · exact tracks.digest
  · dsimp only
    omega

theorem invariant_read {delivery : Delivery} {seek : Option IoError}
    {read : Except IoError Nat} {write : Option Thrown}
    (invariant : Invariant setting transfer)
    (taken : setting.step transfer (.read delivery seek read write) =
      some next) :
    Invariant setting next := by
  rw [SnapshotSetting.step] at taken
  split at taken
  · next progress isStage =>
      rw [Invariant, isStage] at invariant
      obtain ⟨-, archive, tracks⟩ := invariant
      rw [tracks.slot] at taken
      have own := own_pending setting archive progress.offset
      rcases snapshotRead_cases setting archive progress.offset
          snapshotChunkBytes seek read with
        ⟨failure, refuses⟩ | ⟨buffer, response, inside, reads, isData, -⟩
      · rw [refuses] at taken
        cases delivery with
        | lost error =>
            cases taken
            exact invariant_failed own
        | unanswered error =>
            cases taken
            exact invariant_failed own
        | answered =>
            cases taken
            exact invariant_failed own
      · rw [reads] at taken
        have later := own_pending setting archive
          (progress.offset + buffer.length)
        cases delivery with
        | lost error =>
            cases taken
            exact invariant_failed own
        | unanswered error =>
            cases taken
            exact invariant_failed later
        | answered =>
            cases taken
            dsimp only [exchange, SnapshotSetting.afterRead]
            cases checks : checkChunk progress.size progress.offset
                (.ok response) with
            | error thrown => exact invariant_failed later
            | ok accepted =>
                obtain ⟨chunk, eof⟩ := accepted
                obtain rfl := checkChunk_eq isData checks
                cases write with
                | some thrown => exact invariant_failed later
                | none => exact invariant_loop (tracks_chunk tracks inside)
  · cases taken

theorem invariant_close {failure : Option Thrown}
    (invariant : Invariant setting transfer)
    (taken : setting.step transfer (.close failure) = some next) :
    Invariant setting next := by
  rw [SnapshotSetting.step] at taken
  split at taken
  · next progress isStage =>
      rw [Invariant, isStage] at invariant
      obtain ⟨archive, tracks⟩ := invariant
      cases taken
      have own : Own setting.snapshotId transfer.slot := by
        rw [tracks.slot]
        exact own_pending setting archive progress.offset
      rw [SnapshotSetting.afterLoop.eq_def]
      split
      · exact invariant_failed own
      · next matched =>
          cases failure with
          | some thrown => exact invariant_failed own
          | none =>
              have whole : progress.offset = archive.length := by
                rw [← tracks.size]
                exact not_not.mp (not_or.mp matched).1
              have isFile := tracks.staged
              rw [whole, List.take_length] at isFile
              refine ⟨own, ?_, rfl, rfl⟩
              exact ⟨archive, tracks.exported, isFile, tracks.digest⟩
  · cases taken

theorem invariant_finish {delivery : Delivery} {removal : Option IoError}
    (invariant : Invariant setting transfer)
    (taken : setting.step transfer (.finish delivery removal) = some next) :
    Invariant setting next := by
  rw [SnapshotSetting.step] at taken
  split at taken
  · next outcome isStage =>
      rw [Invariant, isStage] at invariant
      obtain ⟨own, told⟩ := invariant
      cases taken
      refine ⟨?_, ?_, ?_⟩
      · intro reached
        have ends : (exchange delivery transfer.slot (snapshotEnd removal
            transfer.slot setting.snapshotId)).2 = _ := slot_of_reached reached
        exact ends.trans (snapshotEnd_none removal own)
      · cases outcome with
        | ok result => rfl
        | error thrown => rfl
      · cases outcome with
        | ok result => exact told
        | error thrown => trivial
  · cases taken

theorem invariant_step {event : SnapshotEvent}
    (invariant : Invariant setting transfer)
    (taken : setting.step transfer event = some next) :
    Invariant setting next := by
  cases event with
  | begin delivery opening => exact invariant_begin invariant taken
  | create failure => exact invariant_create invariant taken
  | read delivery seek read write => exact invariant_read invariant taken
  | close failure => exact invariant_close invariant taken
  | finish delivery removal => exact invariant_finish invariant taken

theorem invariant_run {events : List SnapshotEvent}
    (invariant : Invariant setting transfer)
    (replay : run setting.step transfer events = some next) :
    Invariant setting next := by
  induction events generalizing transfer with
  | nil =>
      cases replay
      exact invariant
  | cons event events induction =>
      obtain ⟨middle, taken, rest⟩ := Option.bind_eq_some_iff.mp replay
      exact induction (invariant_step invariant taken) rest

/-! ## The loop ends -/

/-- How many steps remain at most. -/
def remaining (setting : SnapshotSetting) (transfer : SnapshotTransfer) : Nat :=
  match transfer.stage with
  | .beginning => setting.exported.toOption.elim 0 List.length + 4
  | .opening size _ => size + 3
  | .reading progress => progress.size - progress.offset + 2
  | .checking _ => 2
  | .ending _ => 1
  | .settled _ _ => 0

theorem remaining_loop {progress : SnapshotProgress} {slot : SnapshotSlot}
    {staged : Option Bytes} {eof : Bool} :
    remaining setting { slot, staged, stage := progress.loop eof } ≤
      progress.size - progress.offset + 2 := by
  rw [SnapshotProgress.loop]
  split
  · exact Nat.le_refl _
  · exact Nat.le_add_left _ _

theorem remaining_afterRead {progress : SnapshotProgress} {slot : SnapshotSlot}
    {staged file : Option Bytes} {write : Option Thrown} {stage : SnapshotStage}
    {answer : Except Thrown (FileResult FileResponse)}
    (more : progress.offset < progress.size)
    (after : SnapshotSetting.afterRead progress staged write answer =
      (file, stage)) :
    remaining setting { slot, staged := file, stage } <
      progress.size - progress.offset + 2 := by
  have early : 1 < progress.size - progress.offset + 2 := by omega
  rw [SnapshotSetting.afterRead.eq_def] at after
  split at after
  · cases after
    exact early
  · split at after
    · cases after
      exact early
    · next chunk eof checks =>
        split at after
        · cases after
          exact early
        · cases after
          have some := List.length_pos_of_ne_nil (chunk_ne_nil checks)
          apply Nat.lt_of_le_of_lt remaining_loop
          dsimp only
          omega

theorem remaining_afterBegin {slot : SnapshotSlot} {staged : Option Bytes}
    {delivery : Delivery} {opening : Option IoError} :
    remaining setting
        { slot, staged
          stage := SnapshotSetting.afterBegin (exchange delivery none
            (snapshotBegin setting.sha256 setting.exported opening none
              setting.snapshotId "cfs-v1".toList)).1 } <
      setting.exported.toOption.elim 0 List.length + 4 := by
  have early : 1 < setting.exported.toOption.elim 0 List.length + 4 := by omega
  rcases snapshotBegin_cases setting opening with
    ⟨failure, refuses⟩ | ⟨archive, exported, begins⟩
  · rw [refuses]
    cases delivery with
    | lost error => exact early
    | unanswered error => exact early
    | answered => exact early
  · rw [begins]
    cases delivery with
    | lost error => exact early
    | unanswered error => exact early
    | answered =>
        dsimp only [exchange, SnapshotSetting.afterBegin]
        split
        · exact early
        · next size digest checks =>
            have isSize := (checkBegun_eq checks).1
            cases isSize
            rw [exported]
            exact Nat.lt_succ_self _

/-- Every step brings the end closer. -/
theorem remaining_step {event : SnapshotEvent}
    (invariant : Invariant setting transfer)
    (taken : setting.step transfer event = some next) :
    remaining setting next < remaining setting transfer := by
  rw [remaining.eq_def setting transfer]
  cases event with
  | begin delivery opening =>
      rw [SnapshotSetting.step] at taken
      split at taken
      · next isStage =>
          rw [Invariant, isStage] at invariant
          rw [invariant.1] at taken
          cases taken
          rw [isStage]
          exact remaining_afterBegin
      · cases taken
  | create failure =>
      rw [SnapshotSetting.step] at taken
      split at taken
      · next size digest isStage =>
          rw [isStage]
          cases failure with
          | some thrown =>
              cases taken
              exact Nat.le_add_left 2 (size + 1)
          | none =>
              cases taken
              exact Nat.lt_succ_of_le remaining_loop
      · cases taken
  | read delivery seek read write =>
      rw [SnapshotSetting.step] at taken
      split at taken
      · next progress isStage =>
          rw [Invariant, isStage] at invariant
          cases taken
          rw [isStage]
          exact remaining_afterRead invariant.1 rfl
      · cases taken
  | close failure =>
      rw [SnapshotSetting.step] at taken
      split at taken
      · next progress isStage =>
          cases taken
          rw [isStage]
          exact Nat.one_lt_two
      · cases taken
  | finish delivery removal =>
      rw [SnapshotSetting.step] at taken
      split at taken
      · next outcome isStage =>
          cases taken
          rw [isStage]
          exact Nat.one_pos
      · cases taken

theorem length_run_le {events : List SnapshotEvent}
    (invariant : Invariant setting transfer)
    (replay : run setting.step transfer events = some next) :
    events.length + remaining setting next ≤ remaining setting transfer := by
  induction events generalizing transfer with
  | nil =>
      cases replay
      exact Nat.le_of_eq (Nat.zero_add _)
  | cons event events induction =>
      obtain ⟨middle, taken, rest⟩ := Option.bind_eq_some_iff.mp replay
      have later := induction (invariant_step invariant taken) rest
      have closer := remaining_step invariant taken
      rw [List.length_cons]
      omega

end Steps

/-! ## The transfer as a whole -/

/-- What a call of `snapshot` owes its caller and the guest at any time. -/
structure Sound (setting : SnapshotSetting) (transfer : SnapshotTransfer) :
    Prop where
  /-- Host and guest agree on the offset whenever a chunk is asked for, and
  when the loop has ended. -/
  lockstep : ∀ progress,
    transfer.stage = .reading progress ∨ transfer.stage = .checking progress →
    ∃ pending, transfer.slot = some pending ∧
      pending.nextOffset = progress.offset
  resolved : ∀ result delivered,
    transfer.stage = .settled (.ok result) delivered →
    Delivers setting result transfer.staged
  rejected : ∀ thrown delivered,
    transfer.stage = .settled (.error thrown) delivered →
    transfer.staged = none
  freed : ∀ outcome, transfer.stage = .settled outcome true →
    transfer.slot = none
  /-- A call that is not settled goes on, whatever becomes of its requests. -/
  continues : (∃ outcome delivered, transfer.stage = .settled outcome delivered) ∨
    ∃ event next, setting.step transfer event = some next

theorem continues (setting : SnapshotSetting) (transfer : SnapshotTransfer) :
    (∃ outcome delivered, transfer.stage = .settled outcome delivered) ∨
      ∃ event next, setting.step transfer event = some next := by
  obtain ⟨slot, staged, stage⟩ := transfer
  cases stage with
  | beginning => exact .inr ⟨.begin .answered none, _, rfl⟩
  | opening size digest => exact .inr ⟨.create none, _, rfl⟩
  | reading progress =>
      exact .inr ⟨.read .answered none (.ok 1) none, _, rfl⟩
  | checking progress => exact .inr ⟨.close none, _, rfl⟩
  | ending outcome => exact .inr ⟨.finish .answered none, _, rfl⟩
  | settled outcome delivered => exact .inl ⟨outcome, delivered, rfl⟩

theorem Invariant.sound {setting : SnapshotSetting}
    {transfer : SnapshotTransfer} (invariant : Invariant setting transfer) :
    Sound setting transfer := by
  rw [Invariant] at invariant
  constructor
  · rintro progress (isStage | isStage)
    · rw [isStage] at invariant
      obtain ⟨-, archive, tracks⟩ := invariant
      exact ⟨_, tracks.slot, rfl⟩
    · rw [isStage] at invariant
      obtain ⟨archive, tracks⟩ := invariant
      exact ⟨_, tracks.slot, rfl⟩
  · intro result delivered isStage
    rw [isStage] at invariant
    exact invariant.2.2
  · intro thrown delivered isStage
    rw [isStage] at invariant
    exact invariant.2.1
  · intro outcome isStage
    rw [isStage] at invariant
    exact invariant.1 rfl
  · exact continues setting transfer

end SnapshotTransfer

/-! ### The slot is free again -/

theorem exportFailure_cases (message : String) :
    (exportFailure message).code = some "SNAPSHOT_LIMIT" ∨
      (exportFailure message).code = some "SNAPSHOT_UNSUPPORTED_ENTRY" := by
  unfold exportFailure
  split
  · exact .inl rfl
  · exact .inr rfl

theorem code_exportFailure (message : String) :
    (exportFailure message).code ≠ alreadyActive.code := by
  rcases exportFailure_cases message with code | code
  · rw [code]
    decide
  · rw [code]
    decide

theorem code_ioFailure (error : IoError) (context : String) :
    (ioFailure error context).code ≠ alreadyActive.code := by
  intro code
  rw [ioFailure.eq_def] at code
  split at code
  · change some "FILE_NOT_FOUND" = some "TRANSFER_CAPACITY" at code
    exact absurd code (by decide)
  · change some "STORAGE_EXHAUSTED" = some "TRANSFER_CAPACITY" at code
    exact absurd code (by decide)
  · change some "STORAGE_EXHAUSTED" = some "TRANSFER_CAPACITY" at code
    exact absurd code (by decide)
  · change some "BACKEND_UNAVAILABLE" = some "TRANSFER_CAPACITY" at code
    exact absurd code (by decide)
  · cases code

/-- A request for a free slot is not refused because of another transfer. -/
theorem snapshotBegin_of_free (sha256 : Bytes → Digest)
    (exported : Agent.Snapshot.SnapshotResult Bytes) (opening : Option IoError)
    (snapshotId format : Text) :
    (snapshotBegin sha256 exported opening none snapshotId format).1 ≠
      .error alreadyActive := by
  intro same
  rw [snapshotBegin.eq_def] at same
  split at same
  · exact absurd (Except.error.inj same) (by decide)
  · rw [if_neg (by simp)] at same
    cases exported with
    | error message =>
        exact code_exportFailure message
          (congrArg FileFailure.code (Except.error.inj same))
    | ok bytes =>
        dsimp only at same
        split at same
        · exact absurd (Except.error.inj same) (by decide)
        · cases opening with
          | some error =>
              exact code_ioFailure error _
                (congrArg FileFailure.code (Except.error.inj same))
          | none => cases same

/-- In every run the two sides stay in step, the staged file is the archive or
is gone, the guest is free again once `SnapshotEnd` has reached it, and the run
ends. -/
theorem snapshot_transfer (setting : SnapshotSetting)
    (events : List SnapshotEvent) (transfer : SnapshotTransfer)
    (replay : run setting.step SnapshotSetting.start events = some transfer) :
    transfer.Sound setting ∧
      events.length ≤ setting.exported.toOption.elim 0 List.length + 4 ∧
      ∀ outcome, transfer.stage = .settled outcome true →
        ∀ sha256 exported opening snapshotId format,
          (snapshotBegin sha256 exported opening transfer.slot snapshotId
            format).1 ≠ .error alreadyActive := by
  have started := SnapshotTransfer.invariant_start setting
  have invariant := SnapshotTransfer.invariant_run started replay
  have sound := invariant.sound
  refine ⟨sound, ?_, ?_⟩
  · have bound := SnapshotTransfer.length_run_le started replay
    exact (Nat.le_add_right _ _).trans bound
  · intro outcome isStage sha256 exported opening snapshotId format
    rw [sound.freed outcome isStage]
    exact snapshotBegin_of_free sha256 exported opening snapshotId format

/-- An archive of three bytes in two reads. -/
private def shortSetting : SnapshotSetting where
  sha256 bytes :=
    if bytes = [1, 2, 3] then
      { hex :=
          "039058c6f2c0cb492c533b0a4d14ef77cc0f78abccced5287d84a1a2011cfb81"
        isHex := by decide }
    else .ofNothing
  exported := .ok [1, 2, 3]
  snapshotId := ['s']
  workspacePath := ['w']
  cfsPath := ['c']

private def shortEvents : List SnapshotEvent :=
  [.begin .answered none, .create none, .read .answered none (.ok 1) none,
    .read .answered none (.ok 5) none, .close none, .finish .answered none]

theorem snapshot_transfer_short :
    ∃ transfer, run shortSetting.step SnapshotSetting.start shortEvents =
        some transfer ∧ transfer.staged = some [1, 2, 3] ∧
      transfer.Sound shortSetting := by
  have settles : (run shortSetting.step SnapshotSetting.start shortEvents).any
      (fun transfer => transfer.staged == some [1, 2, 3]) = true := by
    decide +kernel
  obtain ⟨transfer, replay, staged⟩ := (Option.any_eq_true _ _).mp settles
  exact ⟨transfer, replay, by simpa using staged,
    (snapshot_transfer shortSetting shortEvents transfer replay).1⟩

end Electrosphere
