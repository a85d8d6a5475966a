import Electrosphere.Storage.Artifacts

/-!
# How long an artifact stays readable

A put that fails after it has linked its file removes the file again, without
asking who else has been given it in the meantime.  A returned reference
stays readable exactly as long as no such removal hits its digest.
-/

namespace Electrosphere

open Foundation

/-! ## Reading back -/

theorem ArtifactStorage.readStream_eq (content : Bytes)
    (position remaining : Nat)
    (inside : position + remaining ≤ content.length) :
    readStream content position remaining =
      .ok ((content.drop position).take remaining) := by
  induction remaining using Nat.strong_induction_on generalizing position with
  | _ remaining induction =>
      unfold readStream
      by_cases exhausted : remaining = 0
      · simp [exhausted]
      · let size := min streamChunkBytes remaining
        have chunk : ((content.drop position).take size).length = size := by
          have fits : size ≤ remaining := Nat.min_le_right _ _
          rw [List.length_take, List.length_drop]
          omega
        have positive : 0 < size :=
          Nat.lt_min.mpr ⟨by decide, Nat.pos_of_ne_zero exhausted⟩
        have fits : size ≤ remaining := Nat.min_le_right _ _
        rw [if_neg exhausted]
        dsimp only
        rw [chunk, if_neg positive.ne',
          induction (remaining - size) (by omega) (position + size) (by omega)]
        have split : remaining = size + (remaining - size) := by omega
        conv_rhs => rw [split, List.take_add, List.drop_drop]
        rfl

/-! ## The steps of a put -/

/-- The reference that a put has returned. -/
def PutStage.returned : PutStage → Option ArtifactRef
  | .settled (.ok ref) => some ref
  | _ => none

/-- The row whose file a put is looking at. -/
def PutStage.looking : PutStage → Option (Digest × ArtifactRow)
  | .stat digest row => some (digest, row)
  | _ => none

/-- What a put does to the storage between two awaits. -/
inductive PutStep (store : LocalArtifactStore) (storage : ArtifactStorage)
    (call : PutCall) : ArtifactStorage → PutStage → Prop where
  | quiet {stage : PutStage} : stage.returned = none → stage.looking = none →
      PutStep store storage call storage stage
  | linked {content : ArtifactContent} :
      storage.files.lookup (store.destination (store.digest content)) = none →
      PutStep store storage call
        { storage with
          files := storage.files.insert
            (store.destination (store.digest content)) content }
        (.chmod content)
  | recorded {content : ArtifactContent} {stage : PutStage} :
      stage.returned = none →
      (∀ digest row, stage.looking = some (digest, row) →
        digest = store.digest content ∧
          (storage.putArtifactAndGrant call.threadId (store.digest content)
            (store.row content call.metadata)).getGrantedArtifact
              call.threadId digest = some row) →
      PutStep store storage call
        (storage.putArtifactAndGrant call.threadId (store.digest content)
          (store.row content call.metadata)) stage
  | resolved {digest : Digest} {row : ArtifactRow} :
      call.stage = .stat digest row →
      PutStep store storage call storage
        (.settled (storage.statArtifact digest row))
  | removed {digest : Digest} {error : Thrown} :
      call.stage = .cleanDestination error digest →
      call.environment.cleanDestination = .ok () →
      PutStep store storage call
        { storage with
          files := storage.files.erase (store.destination digest) }
        (.settled (.error error))

theorem LocalArtifactStore.advancePut_step {store : LocalArtifactStore}
    {storage next : ArtifactStorage} {call : PutCall} {stage : PutStage}
    (advanced : store.advancePut storage call = some (next, stage)) :
    PutStep store storage call next stage := by
  unfold advancePut at advanced
  split at advanced
  case h_1 | h_2 | h_3 | h_4 =>
    split at advanced <;> cases advanced <;> exact .quiet rfl rfl
  case h_5 content _ =>
    dsimp only at advanced
    split at advanced
    case h_1 =>
      cases advanced
      exact .quiet rfl rfl
    case h_2 =>
    split at advanced
    case isTrue =>
      cases advanced
      exact .quiet rfl rfl
    case isFalse absent =>
      cases advanced
      exact .linked (by simpa using absent)
  case h_6 =>
    split at advanced <;> cases advanced <;> exact .quiet rfl rfl
  case h_7 content installed _ =>
    split at advanced
    case h_2 =>
      cases advanced
      exact .quiet rfl rfl
    case h_1 =>
    rw [Option.some.injEq] at advanced
    unfold recordAndResolve at advanced
    dsimp only at advanced
    split at advanced
    case h_1 =>
      cases advanced
      exact .quiet rfl rfl
    case h_2 =>
    split at advanced
    case h_1 row found =>
      cases advanced
      refine .recorded rfl ?_
      rintro _ _ ⟨⟩
      exact ⟨rfl, found⟩
    case h_2 =>
      cases advanced
      exact .recorded rfl (by simp [PutStage.looking])
  case h_8 isStage =>
    split at advanced
    case h_1 =>
      cases advanced
      exact .resolved isStage
    case h_2 =>
      cases advanced
      exact .quiet rfl rfl
  case h_9 =>
    cases advanced
    exact .quiet rfl rfl
  case h_10 =>
    split at advanced
    case h_1 =>
      cases advanced
      exact .quiet rfl rfl
    case h_2 =>
      split at advanced <;> cases advanced <;> exact .quiet rfl rfl
  case h_11 isStage =>
    split at advanced
    case h_1 =>
      cases advanced
      exact .quiet rfl rfl
    case h_2 removed =>
      cases advanced
      exact .removed isStage removed
  case h_12 => cases advanced

/-! ## What holds whatever fails -/

namespace ArtifactStorage

variable {store : LocalArtifactStore} {storage : ArtifactStorage}

/-- Files and rows are those of some content with the right digest. -/
structure Tidy (store : LocalArtifactStore) (storage : ArtifactStorage) :
    Prop where
  files : ∀ path content, storage.files.lookup path = some content →
    path = store.destination (store.digest content)
  rows : ∀ digest row, storage.artifacts.lookup digest = some row →
    ∃ content, store.digest content = digest ∧ row.kind = "tool" ∧
      row.path = store.destination digest ∧
      row.sizeBytes = content.bytes.length

theorem getGrantedArtifact_eq {threadId : ThreadId} {digest : Digest}
    {row : ArtifactRow}
    (found : storage.getGrantedArtifact threadId digest = some row) :
    storage.granted threadId digest = true ∧
      storage.artifacts.lookup digest = some row := by
  unfold getGrantedArtifact at found
  split at found
  case isTrue granted =>
    obtain ⟨isRow, _⟩ := Option.filter_eq_some_iff.mp found
    exact ⟨granted, isRow⟩
  case isFalse => cases found

/-- A put keeps what has been granted. -/
theorem getGrantedArtifact_put {threadId other : ThreadId}
    {digest otherDigest : Digest} {row otherRow : ArtifactRow}
    (found : storage.getGrantedArtifact other otherDigest = some otherRow) :
    (storage.putArtifactAndGrant threadId digest row).getGrantedArtifact
      other otherDigest = some otherRow := by
  obtain ⟨granted, isRow⟩ := getGrantedArtifact_eq found
  have later : (storage.putArtifactAndGrant threadId digest row).granted
      other otherDigest = true := by
    unfold ArtifactStorage.granted putArtifactAndGrant at *
    dsimp only
    rw [AList.lookup_insert_if]
    split
    · rfl
    · exact granted
  have same : (storage.putArtifactAndGrant threadId digest
      row).artifacts.lookup otherDigest =
        storage.artifacts.lookup otherDigest := by
    unfold putArtifactAndGrant
    dsimp only
    split
    · rfl
    · rename_i absent
      rw [AList.lookup_insert_if]
      split
      · rename_i isDigest
        rw [isDigest] at isRow
        simp [isRow] at absent
      · rfl
  unfold getGrantedArtifact at found ⊢
  rw [if_pos granted] at found
  rw [if_pos later, same]
  exact found

theorem Tidy.put (tidy : storage.Tidy store) (threadId : ThreadId)
    (content : ArtifactContent) (metadata : PutMetadata) :
    (storage.putArtifactAndGrant threadId (store.digest content)
      (store.row content metadata)).Tidy store := by
  refine ⟨tidy.files, ?_⟩
  intro digest row found
  unfold putArtifactAndGrant at found
  dsimp only at found
  split at found
  case isTrue => exact tidy.rows digest row found
  case isFalse =>
    rw [AList.lookup_insert_if] at found
    split at found
    case isTrue same =>
      cases found
      exact ⟨content, same.symm, rfl, by rw [same]; rfl, rfl⟩
    case isFalse => exact tidy.rows digest row found

theorem Tidy.link (tidy : storage.Tidy store) (content : ArtifactContent) :
    Tidy store { storage with
      files := storage.files.insert
        (store.destination (store.digest content)) content } := by
  refine ⟨?_, tidy.rows⟩
  intro path other found
  dsimp only at found
  rw [AList.lookup_insert_if] at found
  split at found
  case isTrue same =>
    cases found
    exact same
  case isFalse => exact tidy.files path other found

theorem Tidy.remove (tidy : storage.Tidy store) (path : String) :
    Tidy store { storage with files := storage.files.erase path } := by
  refine ⟨?_, tidy.rows⟩
  intro other content found
  dsimp only at found
  rw [AList.lookup_erase_if] at found
  split at found
  case isTrue => cases found
  case isFalse => exact tidy.files other content found

/-- The granted row of a digest and its file, if there is one, agree. -/
theorem Tidy.row_content (tidy : storage.Tidy store) {threadId : ThreadId}
    {digest : Digest} {row : ArtifactRow}
    (found : storage.getGrantedArtifact threadId digest = some row) :
    ∃ content, store.digest content = digest ∧
      row.path = store.destination digest ∧
      row.sizeBytes = content.bytes.length := by
  obtain ⟨content, isDigest, _, path, size⟩ :=
    tidy.rows digest row (getGrantedArtifact_eq found).2
  exact ⟨content, isDigest, path, size⟩

/-- The file of a digest has the content of that digest. -/
theorem Tidy.file_content (tidy : storage.Tidy store)
    {content other : ArtifactContent}
    (found : storage.files.lookup
      (store.destination (store.digest content)) = some other) :
    other = content := by
  have same := store.destination_injective (tidy.files _ other found)
  exact store.digest_injective same.symm

end ArtifactStorage

section Steps

variable {store : LocalArtifactStore} {storage next : ArtifactStorage}
  {call : PutCall} {stage : PutStage}

theorem PutStep.tidy (step : PutStep store storage call next stage)
    (tidy : storage.Tidy store) : next.Tidy store := by
  cases step with
  | quiet | resolved => exact tidy
  | linked => exact tidy.link _
  | recorded => exact tidy.put _ _ _
  | removed => exact tidy.remove _

/-- What has been granted stays granted. -/
theorem PutStep.granted (step : PutStep store storage call next stage)
    {threadId : ThreadId} {digest : Digest} {row : ArtifactRow}
    (found : storage.getGrantedArtifact threadId digest = some row) :
    next.getGrantedArtifact threadId digest = some row := by
  cases step with
  | quiet | resolved | linked | removed => exact found
  | recorded => exact ArtifactStorage.getGrantedArtifact_put found

/-- A put looks at the row that its thread has been granted. -/
theorem PutStep.looking (step : PutStep store storage call next stage)
    {digest : Digest} {row : ArtifactRow}
    (isLooking : stage.looking = some (digest, row)) :
    next.getGrantedArtifact call.threadId digest = some row := by
  cases step with
  | quiet _ absent =>
      rw [absent] at isLooking
      cases isLooking
  | linked | resolved | removed => cases isLooking
  | recorded _ looks => exact (looks digest row isLooking).2

/-- A put returns what it has looked at. -/
theorem PutStep.returned (step : PutStep store storage call next stage)
    {ref : ArtifactRef} (isReturned : stage.returned = some ref) :
    ∃ row, call.stage.looking = some (ref.digest, row) ∧ next = storage ∧
      ∃ content, storage.files.lookup row.path = some content := by
  cases step with
  | quiet absent | recorded absent =>
      rw [absent] at isReturned
      cases isReturned
  | linked | removed => cases isReturned
  | @resolved digest row isStage =>
      unfold ArtifactStorage.statArtifact at isReturned
      split at isReturned
      case h_1 => cases isReturned
      case h_2 content found =>
      split at isReturned
      case isFalse => cases isReturned
      case isTrue =>
        cases isReturned
        refine ⟨row, ?_, rfl, content, found⟩
        rw [isStage]
        rfl

/-- Only the removal at the end of a catch block takes a file away. -/
theorem PutStep.files (step : PutStep store storage call next stage)
    (digest : Digest)
    (spared : ∀ error, call.stage = .cleanDestination error digest →
      call.environment.cleanDestination ≠ .ok ())
    {content : ArtifactContent}
    (found : storage.files.lookup (store.destination digest) =
      some content) :
    next.files.lookup (store.destination digest) = some content := by
  cases step with
  | quiet | resolved | recorded => exact found
  | linked absent =>
      dsimp only
      rw [AList.lookup_insert_if]
      split
      · rename_i same
        rw [same, absent] at found
        cases found
      · exact found
  | @removed other error isStage removed =>
      dsimp only
      rw [AList.lookup_erase_if]
      split
      · rename_i same
        rw [store.destination_injective same] at spared
        exact (spared error isStage removed).elim
      · exact found

end Steps

namespace ArtifactWorld

variable {store : LocalArtifactStore} {world after : ArtifactWorld}

/-- A put of the thread has returned the reference. -/
def Returned (world : ArtifactWorld) (threadId : ThreadId)
    (ref : ArtifactRef) : Prop :=
  ∃ id call, world.calls.lookup id = some call ∧
    call.threadId = threadId ∧ call.stage.returned = some ref

structure Tidy (store : LocalArtifactStore) (world : ArtifactWorld) :
    Prop where
  storage : world.storage.Tidy store
  looking : ∀ id call digest row, world.calls.lookup id = some call →
    call.stage.looking = some (digest, row) →
    world.storage.getGrantedArtifact call.threadId digest = some row
  returned : ∀ threadId ref, world.Returned threadId ref → ∃ row,
    world.storage.getGrantedArtifact threadId ref.digest = some row
  fresh : ∀ id, world.nextUuid ≤ id → world.calls.lookup id = none

theorem Tidy.empty : empty.Tidy store := by
  refine ⟨⟨?_, ?_⟩, ?_, ?_, ?_⟩ <;>
    simp [ArtifactWorld.empty, ArtifactStorage.empty, Returned]

/-- What an event has done. -/
inductive Stepped (store : LocalArtifactStore) (world : ArtifactWorld) :
    ArtifactEvent → ArtifactWorld → Prop where
  | putStream (threadId : ThreadId) (metadata : PutMetadata)
      (environment : PutEnvironment) :
      Stepped store world (.putStream threadId metadata environment)
        { world with
          calls := world.calls.insert world.nextUuid
            { threadId, metadata, environment, stage := .makingDirectory }
          nextUuid := world.nextUuid + 1 }
  | resume {id : Uuid} {call : PutCall} {storage : ArtifactStorage}
      {stage : PutStage} :
      world.calls.lookup id = some call → call.stage.returned = none →
      PutStep store world.storage call storage stage →
      Stepped store world (.resume id) { world with
        storage, calls := world.calls.insert id { call with stage } }

theorem stepped {event : ArtifactEvent}
    (taken : world.step store event = some after) :
    Stepped store world event after := by
  cases event with
  | putStream threadId metadata environment =>
      cases taken
      exact .putStream threadId metadata environment
  | resume id =>
      unfold step ArtifactWorld.resume at taken
      dsimp only at taken
      split at taken
      case h_1 => cases taken
      case h_2 call found =>
      obtain ⟨⟨storage, stage⟩, advanced, rfl⟩ :=
        Option.map_eq_some_iff.mp taken
      refine .resume found ?_ (LocalArtifactStore.advancePut_step advanced)
      cases isStage : call.stage with
      | settled =>
          unfold LocalArtifactStore.advancePut at advanced
          rw [isStage] at advanced
          cases advanced
      | _ => rfl

/-- A reference was there before the event or is returned by it. -/
theorem Stepped.returned {event : ArtifactEvent}
    (stepped : Stepped store world event after) {threadId : ThreadId}
    {ref : ArtifactRef} (isReturned : after.Returned threadId ref) :
    world.Returned threadId ref ∨ ∃ id call row content,
      event = .resume id ∧ world.calls.lookup id = some call ∧
      call.threadId = threadId ∧
      call.stage.looking = some (ref.digest, row) ∧
      after.storage = world.storage ∧
      world.storage.files.lookup row.path = some content := by
  obtain ⟨other, found, isFound, isThread, isRef⟩ := isReturned
  cases stepped with
  | putStream =>
      dsimp only at isFound
      rw [AList.lookup_insert_if] at isFound
      split at isFound
      · cases isFound
        cases isRef
      · exact .inl ⟨other, found, isFound, isThread, isRef⟩
  | @resume id call storage stage isCall pending step =>
      dsimp only at isFound
      rw [AList.lookup_insert_if] at isFound
      split at isFound
      · cases isFound
        obtain ⟨row, isLooking, same, content, isFile⟩ := step.returned isRef
        exact .inr ⟨id, call, row, content, rfl, isCall, isThread, isLooking,
          same, isFile⟩
      · exact .inl ⟨other, found, isFound, isThread, isRef⟩

theorem Tidy.step (tidy : world.Tidy store) {event : ArtifactEvent}
    (stepped : Stepped store world event after) : after.Tidy store := by
  have returned : ∀ threadId ref, after.Returned threadId ref → ∃ row,
      world.storage.getGrantedArtifact threadId ref.digest = some row := by
    intro threadId ref isReturned
    rcases stepped.returned isReturned with
      before | ⟨id, call, row, _, _, found, rfl, isLooking, _⟩
    · exact tidy.returned threadId ref before
    · exact ⟨row, tidy.looking id call ref.digest row found isLooking⟩
  cases stepped with
  | putStream threadId metadata environment =>
      refine ⟨tidy.storage, ?_, returned, ?_⟩
      · intro id call digest row found isLooking
        dsimp only at found
        rw [AList.lookup_insert_if] at found
        split at found
        · cases found
          cases isLooking
        · exact tidy.looking id call digest row found isLooking
      · intro id later
        dsimp only
        rw [AList.lookup_insert_if, if_neg]
        · exact tidy.fresh id (Nat.le_of_succ_le later)
        · exact (Nat.lt_of_succ_le later).ne'
  | @resume id call storage stage found _ step =>
      refine ⟨step.tidy tidy.storage, ?_, ?_, ?_⟩
      · intro other otherCall digest row isCall isLooking
        dsimp only at isCall
        rw [AList.lookup_insert_if] at isCall
        split at isCall
        · cases isCall
          exact step.looking isLooking
        · exact step.granted
            (tidy.looking other otherCall digest row isCall isLooking)
      · intro threadId ref isReturned
        obtain ⟨row, granted⟩ := returned threadId ref isReturned
        exact ⟨row, step.granted granted⟩
      · intro other later
        dsimp only
        rw [AList.lookup_insert_if]
        split
        · rename_i same
          subst same
          rw [tidy.fresh other later] at found
          cases found
        · exact tidy.fresh other later

/-- A reference once returned is returned for good. -/
theorem Tidy.keeps_returned (tidy : world.Tidy store) {event : ArtifactEvent}
    (stepped : Stepped store world event after) {threadId : ThreadId}
    {ref : ArtifactRef} (isReturned : world.Returned threadId ref) :
    after.Returned threadId ref := by
  obtain ⟨other, found, isFound, isThread, isRef⟩ := isReturned
  refine ⟨other, found, ?_, isThread, isRef⟩
  cases stepped with
  | putStream =>
      dsimp only
      rw [AList.lookup_insert_if, if_neg]
      · exact isFound
      · rintro rfl
        rw [tidy.fresh _ le_rfl] at isFound
        cases isFound
  | @resume id call storage stage isCall pending step =>
      dsimp only
      rw [AList.lookup_insert_if]
      split
      · rename_i same
        subst same
        cases isFound.symm.trans isCall
        rw [pending] at isRef
        cases isRef
      · exact isFound

/-- The event does not remove the file of a digest that some put has
returned. -/
def Spares (world : ArtifactWorld) : ArtifactEvent → Prop
  | .putStream _ _ _ => True
  | .resume id => ∀ call error digest, world.calls.lookup id = some call →
      call.stage = .cleanDestination error digest →
      call.environment.cleanDestination = .ok () →
      ∀ threadId ref, world.Returned threadId ref → ref.digest ≠ digest

/-- The file of every reference that a put has returned is there. -/
def Present (store : LocalArtifactStore) (world : ArtifactWorld) : Prop :=
  ∀ threadId ref, world.Returned threadId ref → ∃ content,
    world.storage.files.lookup (store.destination ref.digest) = some content

theorem Present.step (tidy : world.Tidy store) (present : world.Present store)
    {event : ArtifactEvent} (stepped : Stepped store world event after)
    (spares : world.Spares event) : after.Present store := by
  intro threadId ref isReturned
  rcases stepped.returned isReturned with
    before | ⟨id, call, row, content, _, found, _, isLooking, same, isFile⟩
  · obtain ⟨content, isFile⟩ := present threadId ref before
    refine ⟨content, ?_⟩
    cases stepped with
    | putStream => exact isFile
    | @resume id call storage stage found _ step =>
        refine step.files ref.digest ?_ isFile
        intro error isStage removed
        exact spares call error ref.digest found isStage removed threadId ref
          before rfl
  · have granted := tidy.looking id call ref.digest row found isLooking
    obtain ⟨_, _, path, _⟩ := tidy.storage.row_content granted
    rw [same, ← path]
    exact ⟨content, isFile⟩

/-- A run of events that spare what has been returned keeps it there. -/
theorem Present.run {labels : List ArtifactEvent}
    (tidy : world.Tidy store) (present : world.Present store)
    (spares : ∀ before event rest middle,
      labels = before ++ event :: rest →
      Foundation.run (ArtifactWorld.step store) world before = some middle →
      middle.Spares event)
    (replay : Foundation.run (ArtifactWorld.step store) world labels =
      some after) : after.Tidy store ∧ after.Present store := by
  induction labels generalizing world with
  | nil =>
      cases replay
      exact ⟨tidy, present⟩
  | cons event events induction =>
      obtain ⟨next, taken, rest⟩ := Option.bind_eq_some_iff.mp replay
      have taking := stepped taken
      refine induction (tidy.step taking)
        (present.step tidy taking (spares [] event events world rfl rfl)) ?_
        rest
      intro before other later middle split isMiddle
      refine spares (event :: before) other later middle ?_ ?_
      · rw [split, List.cons_append]
      · rw [Foundation.run, taken]
        exact isMiddle

theorem Tidy.run {labels : List ArtifactEvent} (tidy : world.Tidy store)
    (replay : Foundation.run (ArtifactWorld.step store) world labels =
      some after) :
    after.Tidy store ∧ ∀ threadId ref, world.Returned threadId ref →
      after.Returned threadId ref := by
  induction labels generalizing world with
  | nil =>
      cases replay
      exact ⟨tidy, fun _ _ => id⟩
  | cons event events induction =>
      obtain ⟨next, taken, rest⟩ := Option.bind_eq_some_iff.mp replay
      have taking := stepped taken
      obtain ⟨later, kept⟩ := induction (tidy.step taking) rest
      refine ⟨later, fun threadId ref isReturned => ?_⟩
      exact kept threadId ref (tidy.keeps_returned taking isReturned)

end ArtifactWorld

/-! ## What was given stays readable -/

/-- The bytes that a range asks for. -/
def ArtifactContent.slice (content : ArtifactContent) :
    Option ArtifactStorage.ByteRange → Bytes
  | none => content.bytes
  | some range =>
      (content.bytes.drop range.offset.toNat).take range.limit.toNat

/-- A range that `open` does not refuse. -/
def ArtifactContent.Admits (content : ArtifactContent) :
    Option ArtifactStorage.ByteRange → Prop
  | none => True
  | some range => 0 ≤ range.offset ∧ range.offset ≤ content.bytes.length ∧
      0 ≤ range.limit ∧ range.limit ≤ (maxSafeInteger : Int)

/-- `resolve` and `open` of a digest succeed with its bytes.  The storages
are those of the call and of its two awaits. -/
def Readable (store : LocalArtifactStore)
    (atCall atStat atOpen : ArtifactStorage) (threadId : ThreadId)
    (digest : Digest) : Prop :=
  ∃ content : ArtifactContent, store.digest content = digest ∧
    (∃ ref, atCall.resolve atStat threadId digest = .ok ref ∧
      ref.digest = digest ∧ ref.sizeBytes = content.bytes.length) ∧
    ∀ range, content.Admits range → ∃ opened,
      atCall.openArtifact atStat atOpen threadId digest range = .ok opened ∧
      opened.sizeBytes = content.bytes.length ∧
      opened.bytes = .ok (content.slice range)

section Reading

variable {store : LocalArtifactStore}
  {atCall atStat atOpen : ArtifactStorage} {threadId : ThreadId}

theorem resolve_eq {content : ArtifactContent} {row : ArtifactRow}
    (granted : atCall.getGrantedArtifact threadId (store.digest content) =
      some row)
    (path : row.path = store.destination (store.digest content))
    (size : row.sizeBytes = content.bytes.length)
    (isFile : atStat.files.lookup
      (store.destination (store.digest content)) = some content) :
    atCall.resolve atStat threadId (store.digest content) = .ok
      { digest := store.digest content
        path := store.destination (store.digest content)
        sizeBytes := content.bytes.length
        mediaType := row.metadataJson.mediaType } := by
  unfold ArtifactStorage.resolve ArtifactStorage.statArtifact
  rw [granted]
  dsimp only
  rw [path, isFile]
  simp [size]

theorem readable_of_present (tidyCall : atCall.Tidy store)
    (tidyStat : atStat.Tidy store) (tidyOpen : atOpen.Tidy store)
    {digest : Digest} {row : ArtifactRow}
    (granted : atCall.getGrantedArtifact threadId digest = some row)
    (atStatFile : ∃ content,
      atStat.files.lookup (store.destination digest) = some content)
    (atOpenFile : ∃ content,
      atOpen.files.lookup (store.destination digest) = some content) :
    Readable store atCall atStat atOpen threadId digest := by
  obtain ⟨content, rfl, path, size⟩ := tidyCall.row_content granted
  obtain ⟨other, isStat⟩ := atStatFile
  cases tidyStat.file_content isStat
  obtain ⟨other, isOpen⟩ := atOpenFile
  cases tidyOpen.file_content isOpen
  have resolved := resolve_eq granted path size isStat
  refine ⟨content, rfl, ⟨_, resolved, rfl, rfl⟩, ?_⟩
  intro range admitted
  have counted := content.counted
  unfold ArtifactStorage.openArtifact
  rw [resolved]
  dsimp only
  cases range with
  | none =>
      rw [if_neg]
      · rw [isOpen]
        refine ⟨_, rfl, rfl, ?_⟩
        simp only [Option.map_none, Option.getD_none, Int.toNat_zero]
        rw [ArtifactStorage.readStream_eq]
        · simp [ArtifactContent.slice]
        · simp
      · simp
        omega
  | some range =>
      obtain ⟨started, inside, positive, small⟩ := admitted
      rw [if_neg]
      · rw [isOpen]
        refine ⟨_, rfl, rfl, ?_⟩
        simp only [Option.map_some, Option.getD_some]
        rw [ArtifactStorage.readStream_eq]
        · unfold ArtifactContent.slice
          simp [List.take_eq_take_iff]
        · omega
      · simp
        omega

end Reading

/-- After any part of the run, whoever has been given a reference can resolve
it and open it, wherever the awaits of these calls fall in the rest. -/
def StaysReadable (store : LocalArtifactStore)
    (events : List ArtifactEvent) : Prop :=
  ∀ before first second third rest given atCall atStat atOpen,
    events = before ++ first ++ second ++ third ++ rest →
    run (ArtifactWorld.step store) .empty before = some given →
    run (ArtifactWorld.step store) given first = some atCall →
    run (ArtifactWorld.step store) atCall second = some atStat →
    run (ArtifactWorld.step store) atStat third = some atOpen →
    ∀ threadId ref, given.Returned threadId ref →
      Readable store atCall.storage atStat.storage atOpen.storage threadId
        ref.digest

/-- No event of the run removes the file of a reference that has been
returned. -/
def SparesReturned (store : LocalArtifactStore)
    (events : List ArtifactEvent) : Prop :=
  ∀ before event rest world, events = before ++ event :: rest →
    run (ArtifactWorld.step store) .empty before = some world →
    world.Spares event

section Lifetime

variable {store : LocalArtifactStore} {events : List ArtifactEvent}

theorem staysReadable_of_spares (spares : SparesReturned store events) :
    StaysReadable store events := by
  intro before first second third rest given atCall atStat atOpen split
    isGiven isCall isStat isOpen threadId ref isReturned
  have prefixes : ∀ {labels tail : List ArtifactEvent} {world},
      events = labels ++ tail →
      run (ArtifactWorld.step store) .empty labels = some world →
      world.Tidy store ∧ world.Present store := by
    intro labels tail world isEvents replay
    refine ArtifactWorld.Present.run ArtifactWorld.Tidy.empty ?_ ?_ replay
    · rintro _ _ ⟨_, _, impossible, _⟩
      cases impossible
    · intro earlier event later middle isLabels
      refine spares earlier event (later ++ tail) middle ?_
      rw [isEvents, isLabels, List.append_assoc, List.cons_append]
  have runFirst := run_append (ArtifactWorld.step store) .empty before first
  rw [isGiven, Option.bind_some, isCall] at runFirst
  have runSecond := run_append (ArtifactWorld.step store) .empty
    (before ++ first) second
  rw [runFirst, Option.bind_some, isStat] at runSecond
  have runThird := run_append (ArtifactWorld.step store) .empty
    (before ++ first ++ second) third
  rw [runSecond, Option.bind_some, isOpen] at runThird
  have kept : ∀ {world labels later}, world.Tidy store →
      run (ArtifactWorld.step store) world labels = some later →
      world.Returned threadId ref → later.Returned threadId ref :=
    fun tidy replay => (tidy.run replay).2 threadId ref
  have tidyGiven := (ArtifactWorld.Tidy.empty.run isGiven).1
  have known := prefixes (by simpa using split) runFirst
  have knownStat := prefixes (by simpa using split) runSecond
  have knownOpen := prefixes (by simpa using split) runThird
  have returnedCall := kept tidyGiven isCall isReturned
  have returnedStat := kept known.1 isStat returnedCall
  obtain ⟨row, granted⟩ := known.1.returned threadId ref returnedCall
  apply readable_of_present known.1.storage knownStat.1.storage
    knownOpen.1.storage granted
  · exact knownStat.2 threadId ref returnedStat
  · exact knownOpen.2 threadId ref (kept knownStat.1 isOpen returnedStat)

/-- Removing a file takes the reference back. -/
theorem spares_of_staysReadable (readable : StaysReadable store events) :
    SparesReturned store events := by
  intro before event rest world split replay
  cases event with
  | putStream => trivial
  | resume id =>
      rintro call error digest found isStage removes threadId ref isReturned
        rfl
      let after : ArtifactWorld := { world with
        storage := { world.storage with
          files := world.storage.files.erase
            (store.destination ref.digest) }
        calls := world.calls.insert id
          { call with stage := .settled (.error error) } }
      have taken : world.step store (.resume id) = some after := by
        simp [ArtifactWorld.step, ArtifactWorld.resume, found,
          LocalArtifactStore.advancePut, isStage, removes, after]
      have isAfter := run_append (ArtifactWorld.step store) .empty before
        [.resume id]
      rw [replay, Option.bind_some, run, taken, Option.bind_some, run]
        at isAfter
      have tidy := (ArtifactWorld.Tidy.empty.run replay).1
      have later := tidy.keeps_returned (ArtifactWorld.stepped taken)
        isReturned
      have tidyAfter := tidy.step (ArtifactWorld.stepped taken)
      obtain ⟨row, granted⟩ := tidyAfter.returned threadId ref later
      obtain ⟨_, _, path, _⟩ := tidyAfter.storage.row_content granted
      obtain ⟨_, _, ⟨found, resolved, _⟩, _⟩ := readable (before ++
        [.resume id]) [] [] [] rest after after after after (by simpa using
        split) isAfter rfl rfl rfl threadId ref later
      have gone : after.storage.files.lookup row.path = none := by
        rw [path]
        exact AList.lookup_erase _ _
      unfold ArtifactStorage.resolve ArtifactStorage.statArtifact at resolved
      rw [granted] at resolved
      dsimp only at resolved
      rw [gone] at resolved
      cases resolved

end Lifetime

/-- What has been given stays readable in exactly the runs in which no failed
put removes it. -/
theorem artifact_stays_readable_iff (store : LocalArtifactStore)
    (events : List ArtifactEvent) :
    StaysReadable store events ↔ SparesReturned store events :=
  ⟨spares_of_staysReadable, staysReadable_of_spares⟩

private def oneByte : PutEnvironment :=
  { source := .ok { chunks := [[7]] } }

/-- The first put links the file and the second is given it; then the
database refuses the first. -/
private def overlappingPuts : List ArtifactEvent :=
  [.putStream "first" {}
      { oneByte with record := .error (.plain "database is locked") },
    .putStream "second" {} oneByte] ++
    List.replicate 5 (.resume 0) ++ List.replicate 7 (.resume 1) ++
    List.replicate 4 (.resume 0)

/-- The put is about to remove the file of the letter. -/
private def removesSeven (call : PutCall) : Bool :=
  match call.stage, call.environment.cleanDestination with
  | .cleanDestination _ digest, .ok () =>
      decide (digest = LocalArtifactStore.transparent.sha256 [7])
  | _, _ => false

theorem artifact_removed_by_other_thread :
    ¬ ∀ events, StaysReadable LocalArtifactStore.transparent events := by
  intro readable
  have spares := spares_of_staysReadable
    (readable (overlappingPuts ++ [.resume 0]))
  have replay : (run (ArtifactWorld.step LocalArtifactStore.transparent)
      .empty overlappingPuts).any (fun world =>
        (world.calls.lookup 1).any (fun call =>
          call.stage.returned.any fun ref => decide (ref.digest =
            LocalArtifactStore.transparent.sha256 [7])) &&
        (world.calls.lookup 0).any removesSeven) = true := by
    decide +kernel
  obtain ⟨world, isWorld, state⟩ := (Option.any_eq_true _ _).mp replay
  simp only [Bool.and_eq_true, Option.any_eq_true, decide_eq_true_eq]
    at state
  obtain ⟨⟨second, isSecond, ref, isReturned, isDigest⟩,
    ⟨first, isFirst, removing⟩⟩ := state
  unfold removesSeven at removing
  split at removing
  case h_2 => cases removing
  case h_1 error digest isStage removes =>
  have spared := spares overlappingPuts (.resume 0) [] world rfl isWorld
  refine spared first error digest isFirst isStage removes second.threadId
    ref ⟨1, second, isSecond, rfl, isReturned⟩ ?_
  exact isDigest.trans (of_decide_eq_true removing).symm

end Electrosphere
