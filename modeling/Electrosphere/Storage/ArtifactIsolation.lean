import Electrosphere.Storage.ArtifactLifetime

/-!
# What one thread sees of the artifacts of others

Without failures the store is a function of the puts made so far.  A thread
sees whether it has put a digest, and the media type of the first put of that
digest, whoever made it.
-/

namespace Electrosphere

open Foundation

/-! ## Histories -/

inductive ArtifactOperation where
  | putStream (source : ArtifactSource) (metadata : PutMetadata)
  | resolve (digest : Digest)
  | openRange (digest : Digest) (range : Option ArtifactStorage.ByteRange)

inductive ArtifactResult where
  | reference (result : Except Thrown ArtifactRef)
  | opened (result : Except Thrown ArtifactStorage.OpenedArtifact)

/-- The digest that an operation is about. -/
def ArtifactOperation.digest (store : LocalArtifactStore) :
    ArtifactOperation → Digest
  | .putStream source _ => store.digest source.content
  | .resolve digest | .openRange digest _ => digest

/-- The media type that a successful result tells. -/
def ArtifactResult.mediaType : ArtifactResult → Option String
  | .reference (.ok ref) => some ref.mediaType
  | .opened (.ok artifact) => some artifact.mediaType
  | _ => none

/-- Operations with the threads that make them, in order. -/
abbrev ArtifactHistory := List (ThreadId × ArtifactOperation)

namespace LocalArtifactStore

/-- Linking the temporary file, which an existing file prevents. -/
def install (store : LocalArtifactStore) (storage : ArtifactStorage)
    (content : ArtifactContent) : ArtifactStorage :=
  let destination := store.destination (store.digest content)
  if (storage.files.lookup destination).isSome then storage
  else { storage with files := storage.files.insert destination content }

/-- `putStream` when nothing fails and no other call is in between. -/
def putStream (store : LocalArtifactStore) (storage : ArtifactStorage)
    (threadId : ThreadId) (content : ArtifactContent)
    (metadata : PutMetadata) : ArtifactStorage × Except Thrown ArtifactRef :=
  let recorded := (store.install storage content).putArtifactAndGrant threadId
    (store.digest content) (store.row content metadata)
  (recorded, recorded.resolve recorded threadId (store.digest content))

def perform (store : LocalArtifactStore) (storage : ArtifactStorage)
    (threadId : ThreadId) :
    ArtifactOperation → ArtifactStorage × ArtifactResult
  | .putStream source metadata =>
      let (recorded, result) :=
        store.putStream storage threadId source.content metadata
      (recorded, .reference result)
  | .resolve digest =>
      (storage, .reference (storage.resolve storage threadId digest))
  | .openRange digest range =>
      (storage, .opened
        (storage.openArtifact storage storage threadId digest range))

/-- The storage after some operations. -/
def replay (store : LocalArtifactStore) :
    ArtifactStorage → ArtifactHistory → ArtifactStorage
  | storage, [] => storage
  | storage, (threadId, operation) :: rest =>
      store.replay (store.perform storage threadId operation).1 rest

/-- The results that one thread gets. -/
def results (store : LocalArtifactStore) (threadId : ThreadId) :
    ArtifactStorage → ArtifactHistory → List ArtifactResult
  | _, [] => []
  | storage, (actor, operation) :: rest =>
      let (next, result) := store.perform storage actor operation
      if actor = threadId then result :: store.results threadId next rest
      else store.results threadId next rest

end LocalArtifactStore

/-! ## A put on its own -/

/-- Resumed often enough, the call settles. -/
def ArtifactWorld.Settles (store : LocalArtifactStore) (world : ArtifactWorld)
    (id : Uuid) (storage : ArtifactStorage)
    (result : Except Thrown ArtifactRef) : Prop :=
  ∃ steps after call, run (ArtifactWorld.step store) world
      (List.replicate steps (.resume id)) = some after ∧
    after.storage = storage ∧ after.calls.lookup id = some call ∧
    call.stage = .settled result

section Settling

variable {store : LocalArtifactStore} {world : ArtifactWorld} {id : Uuid}
  {call : PutCall} {storage : ArtifactStorage}
  {result : Except Thrown ArtifactRef}

theorem ArtifactWorld.Settles.done
    (found : world.calls.lookup id = some call)
    (settled : call.stage = .settled result) :
    world.Settles store id world.storage result :=
  ⟨0, world, call, rfl, rfl, found, settled⟩

theorem ArtifactWorld.Settles.step
    (found : world.calls.lookup id = some call)
    {next : ArtifactStorage} {stage : PutStage}
    (advanced : store.advancePut world.storage call = some (next, stage))
    (rest : ArtifactWorld.Settles store { world with
      storage := next
      calls := world.calls.insert id { call with stage } } id storage result) :
    world.Settles store id storage result := by
  obtain ⟨steps, after, last, replay, sameStorage, isLast, settled⟩ := rest
  refine ⟨steps + 1, after, last, ?_, sameStorage, isLast, settled⟩
  have taken : world.step store (.resume id) = some { world with
      storage := next
      calls := world.calls.insert id { call with stage } } := by
    unfold ArtifactWorld.step ArtifactWorld.resume
    simp only [found, advanced, Option.map_some]
  rw [List.replicate_succ, run, taken]
  exact replay

/-- From the removal of its temporary file on. -/
theorem settles_recorded (call : PutCall)
    (found : world.calls.lookup id = some call)
    {content : ArtifactContent} {installed : Bool}
    (isStage : call.stage = .removingTemporary content installed)
    (removes : call.environment.removeTemporary = .ok ())
    (records : call.environment.record = .ok ())
    (stats : call.environment.stat = .ok ()) {recorded : ArtifactStorage}
    (isRecorded : world.storage.putArtifactAndGrant call.threadId
      (store.digest content) (store.row content call.metadata) = recorded) :
    world.Settles store id recorded
      (recorded.resolve recorded call.threadId (store.digest content)) := by
  cases granted : recorded.getGrantedArtifact call.threadId
      (store.digest content) with
  | none =>
      have resolved : recorded.resolve recorded call.threadId
          (store.digest content) =
            .error (.coded .notFound "Artifact not found") := by
        unfold ArtifactStorage.resolve
        rw [granted]
      have advanced : store.advancePut world.storage call = some (recorded,
          .settled (.error (.coded .notFound "Artifact not found"))) := by
        unfold LocalArtifactStore.advancePut
          LocalArtifactStore.recordAndResolve
        simp only [isStage, removes, records, isRecorded]
        rw [granted]
      rw [resolved]
      exact .step found advanced (.done (AList.lookup_insert _) rfl)
  | some row =>
      have resolved : recorded.resolve recorded call.threadId
          (store.digest content) =
            recorded.statArtifact (store.digest content) row := by
        unfold ArtifactStorage.resolve
        rw [granted]
      have advanced : store.advancePut world.storage call = some (recorded,
          .stat (store.digest content) row) := by
        unfold LocalArtifactStore.advancePut
          LocalArtifactStore.recordAndResolve
        simp only [isStage, removes, records, isRecorded]
        rw [granted]
      rw [resolved]
      refine .step found advanced ?_
      refine .step (AList.lookup_insert _) ?_
        (.done (AList.lookup_insert _) rfl)
      unfold LocalArtifactStore.advancePut
      simp only [stats]

/-- The link of a put, when the destination exists. -/
theorem advancePut_exists {content : ArtifactContent}
    (isStage : call.stage = .linking content)
    (links : call.environment.link = .ok ())
    (present : (storage.files.lookup
      (store.destination (store.digest content))).isSome = true) :
    store.advancePut storage call =
      some (storage, .removingTemporary content false) := by
  unfold LocalArtifactStore.advancePut
  simp only [isStage, links]
  rw [if_pos present]

/-- The link of a put, when it does not. -/
theorem advancePut_links {content : ArtifactContent}
    (isStage : call.stage = .linking content)
    (links : call.environment.link = .ok ())
    (absent : ¬ (storage.files.lookup
      (store.destination (store.digest content))).isSome = true) :
    store.advancePut storage call =
      some ({ storage with
        files := storage.files.insert
          (store.destination (store.digest content)) content },
        .chmod content) := by
  unfold LocalArtifactStore.advancePut
  simp only [isStage, links]
  rw [if_neg absent]

end Settling

/-! ## The store as a function of the puts -/

structure ArtifactPut where
  threadId : ThreadId
  content : ArtifactContent
  metadata : PutMetadata

/-- The put of the digest that an operation makes, if it makes one. -/
def LocalArtifactStore.putOf (store : LocalArtifactStore) (digest : Digest) :
    ThreadId × ArtifactOperation → Option ArtifactPut
  | (threadId, .putStream source metadata) =>
      if store.digest source.content = digest then
        some { threadId, content := source.content, metadata }
      else none
  | _ => none

/-- The puts of a digest, the earliest first. -/
def LocalArtifactStore.puts (store : LocalArtifactStore)
    (history : ArtifactHistory) (digest : Digest) : List ArtifactPut :=
  history.filterMap (store.putOf digest)

/-- The operations of one thread. -/
def ownOperations (threadId : ThreadId) (history : ArtifactHistory) :
    ArtifactHistory :=
  history.filter fun entry => decide (entry.1 = threadId)

structure ArtifactStorage.Reflects (store : LocalArtifactStore)
    (storage : ArtifactStorage) (history : ArtifactHistory) : Prop where
  files : ∀ digest, storage.files.lookup (store.destination digest) =
    (store.puts history digest).head?.map ArtifactPut.content
  rows : ∀ digest, storage.artifacts.lookup digest =
    (store.puts history digest).head?.map fun put =>
      store.row put.content put.metadata
  grants : ∀ threadId digest, storage.granted threadId digest =
    (store.puts history digest).any fun put =>
      decide (put.threadId = threadId)

section Reflection

variable {store : LocalArtifactStore} {storage : ArtifactStorage}
  {history : ArtifactHistory}

theorem LocalArtifactStore.puts_append (first second : ArtifactHistory)
    (digest : Digest) : store.puts (first ++ second) digest =
      store.puts first digest ++ store.puts second digest :=
  List.filterMap_append

theorem LocalArtifactStore.digest_of_mem_puts {digest : Digest}
    {put : ArtifactPut} (member : put ∈ store.puts history digest) :
    store.digest put.content = digest := by
  obtain ⟨⟨threadId, operation⟩, _, isPut⟩ := List.mem_filterMap.mp member
  cases operation with
  | putStream source metadata =>
      dsimp only [putOf] at isPut
      split at isPut
      case isTrue same =>
        cases isPut
        exact same
      case isFalse => cases isPut
  | resolve | openRange => cases isPut

theorem ArtifactStorage.Reflects.empty :
    ArtifactStorage.empty.Reflects store [] := by
  constructor <;>
    simp [ArtifactStorage.empty, LocalArtifactStore.puts,
      ArtifactStorage.granted]

/-- An operation that puts nothing. -/
theorem ArtifactStorage.Reflects.quiet (reflects : storage.Reflects store history)
    {entry : ThreadId × ArtifactOperation}
    (noPut : ∀ digest, store.putOf digest entry = none) :
    storage.Reflects store (history ++ [entry]) := by
  have same : ∀ digest, store.puts (history ++ [entry]) digest =
      store.puts history digest := by
    intro digest
    rw [LocalArtifactStore.puts_append]
    simp [LocalArtifactStore.puts, noPut]
  constructor
  · intro digest
    rw [same]
    exact reflects.files digest
  · intro digest
    rw [same]
    exact reflects.rows digest
  · intro threadId digest
    rw [same]
    exact reflects.grants threadId digest

theorem ArtifactStorage.Reflects.put (reflects : storage.Reflects store history)
    (threadId : ThreadId) (source : ArtifactSource) (metadata : PutMetadata) :
    (store.putStream storage threadId source.content metadata).1.Reflects store
      (history ++ [(threadId, .putStream source metadata)]) := by
  let put : ArtifactPut := { threadId, content := source.content, metadata }
  have later : ∀ digest,
      store.puts (history ++ [(threadId, .putStream source metadata)])
        digest = store.puts history digest ++
          if store.digest source.content = digest then [put] else [] := by
    intro digest
    rw [LocalArtifactStore.puts_append]
    congr 1
    simp only [LocalArtifactStore.puts, LocalArtifactStore.putOf,
      List.filterMap_cons, List.filterMap_nil]
    split <;> simp_all [put]
  have isFile := reflects.files (store.digest source.content)
  have isRow := reflects.rows (store.digest source.content)
  unfold LocalArtifactStore.putStream LocalArtifactStore.install
    ArtifactStorage.putArtifactAndGrant
  constructor
  · intro digest
    have before := reflects.files digest
    rw [later]
    dsimp only
    by_cases same : store.digest source.content = digest
    · subst same
      rw [if_pos rfl]
      cases puts : store.puts history (store.digest source.content) with
      | nil =>
          rw [puts] at isFile
          simp [isFile, put]
      | cons first rest =>
          rw [puts] at isFile
          simp [isFile]
    · have different : store.destination digest ≠
          store.destination (store.digest source.content) := by
        intro equal
        exact same (store.destination_injective equal).symm
      rw [if_neg same, List.append_nil, ← before]
      split
      · rfl
      · rw [AList.lookup_insert_if, if_neg different]
  · intro digest
    have before := reflects.rows digest
    rw [later]
    have installed : ∀ {condition : Prop} [Decidable condition] {files},
        (if condition then storage else { storage with files }).artifacts =
          storage.artifacts := by
      intro condition _ files
      split <;> rfl
    dsimp only
    rw [installed]
    by_cases same : store.digest source.content = digest
    · subst same
      rw [if_pos rfl]
      cases puts : store.puts history (store.digest source.content) with
      | nil =>
          rw [puts] at isRow
          simp [isRow, put]
      | cons first rest =>
          rw [puts] at isRow
          simp [isRow]
    · rw [if_neg same, List.append_nil, ← before]
      split
      · rfl
      · rw [AList.lookup_insert_if, if_neg (Ne.symm same)]
  · intro other digest
    have before := reflects.grants other digest
    rw [later, List.any_append, ← before]
    have installed : ∀ {condition : Prop} [Decidable condition] {files},
        (if condition then storage else { storage with files }).grants =
          storage.grants := by
      intro condition _ files
      split <;> rfl
    unfold ArtifactStorage.granted
    dsimp only
    rw [installed, AList.lookup_insert_if]
    by_cases same : store.digest source.content = digest
    · rw [if_pos same]
      by_cases isThread : other = threadId
      · simp [same, isThread, put]
      · simp [isThread, put, Ne.symm isThread]
    · rw [if_neg same, if_neg]
      · simp
      · rintro ⟨⟩
        exact same rfl

theorem ArtifactStorage.Reflects.perform
    (reflects : storage.Reflects store history) (threadId : ThreadId)
    (operation : ArtifactOperation) :
    (store.perform storage threadId operation).1.Reflects store
      (history ++ [(threadId, operation)]) := by
  cases operation with
  | putStream source metadata => exact reflects.put threadId source metadata
  | resolve | openRange => exact reflects.quiet fun _ => rfl

theorem ArtifactStorage.Reflects.replay
    (reflects : storage.Reflects store history) (later : ArtifactHistory) :
    (store.replay storage later).Reflects store (history ++ later) := by
  induction later generalizing storage history with
  | nil =>
      rw [List.append_nil]
      exact reflects
  | cons entry later induction =>
      have next := induction (reflects.perform entry.1 entry.2)
      rw [List.append_assoc] at next
      exact next

end Reflection

/-! ## What a thread is told -/

/-- The content and the media type of a put. -/
def ArtifactPut.told (put : ArtifactPut) : ArtifactContent × String :=
  (put.content, put.metadata.stored.mediaType)

namespace LocalArtifactStore

variable (store : LocalArtifactStore)

/-- What a thread is told about a digest once it has put it. -/
def told (history : ArtifactHistory) (threadId : ThreadId)
    (digest : Digest) : Option (ArtifactContent × String) :=
  if (store.puts history digest).any
      fun put => decide (put.threadId = threadId) then
    (store.puts history digest).head?.map ArtifactPut.told
  else none

/-- What the thread itself has said about the digest first. -/
def supplied (history : ArtifactHistory) (threadId : ThreadId)
    (digest : Digest) : Option (ArtifactContent × String) :=
  ((store.puts history digest).find?
    fun put => decide (put.threadId = threadId)).map ArtifactPut.told

/-- The first put of whatever the thread puts, by whichever thread, supplies
the media type of the thread's own first put of it. -/
def SuppliesFirst (threadId : ThreadId) (history : ArtifactHistory) : Prop :=
  ∀ digest own first,
    (store.puts history digest).find?
      (fun put => decide (put.threadId = threadId)) = some own →
    (store.puts history digest).head? = some first →
    first.metadata.stored.mediaType = own.metadata.stored.mediaType

end LocalArtifactStore

section Telling

variable {store : LocalArtifactStore} {storage : ArtifactStorage}
  {history : ArtifactHistory} {threadId : ThreadId}

theorem ArtifactStorage.Reflects.resolve_eq
    (reflects : storage.Reflects store history) (threadId : ThreadId)
    (digest : Digest) :
    storage.resolve storage threadId digest =
      match store.told history threadId digest with
      | none => .error (.coded .notFound "Artifact not found")
      | some (content, mediaType) => .ok
          { digest
            path := store.destination digest
            sizeBytes := content.bytes.length
            mediaType } := by
  unfold ArtifactStorage.resolve ArtifactStorage.getGrantedArtifact
    LocalArtifactStore.told
  rw [reflects.grants, reflects.rows]
  split
  case h_1 absent =>
    split at absent
    case isFalse no =>
      rw [if_neg no]
    case isTrue yes =>
      rw [if_pos yes]
      cases puts : store.puts history digest with
      | nil => rw [puts] at yes; cases yes
      | cons first rest =>
          rw [puts] at absent
          simp [LocalArtifactStore.row] at absent
  case h_2 row found =>
    split at found
    case isFalse => cases found
    case isTrue yes =>
      rw [if_pos yes]
      cases puts : store.puts history digest with
      | nil => rw [puts] at yes; cases yes
      | cons first rest =>
          have member : first ∈ store.puts history digest := by
            rw [puts]
            exact List.mem_cons_self
          have isDigest := LocalArtifactStore.digest_of_mem_puts member
          have isFile := reflects.files digest
          rw [puts] at found isFile
          simp [LocalArtifactStore.row] at found
          obtain ⟨rfl, _⟩ := found
          unfold ArtifactStorage.statArtifact
          dsimp only
          rw [isDigest, isFile]
          simp [ArtifactPut.told]

theorem ArtifactStorage.Reflects.file_eq
    (reflects : storage.Reflects store history) {digest : Digest}
    {content : ArtifactContent} {mediaType : String}
    (isTold : store.told history threadId digest =
      some (content, mediaType)) :
    storage.files.lookup (store.destination digest) = some content := by
  rw [reflects.files]
  unfold LocalArtifactStore.told at isTold
  split at isTold
  case isFalse => cases isTold
  case isTrue =>
    obtain ⟨first, isFirst, isPair⟩ := Option.map_eq_some_iff.mp isTold
    rw [isFirst]
    exact congrArg some (congrArg Prod.fst isPair)

/-- The results of an operation are what the thread is told after it. -/
theorem perform_congr {other : ArtifactStorage} {otherHistory : ArtifactHistory}
    (reflects : storage.Reflects store history)
    (otherReflects : other.Reflects store otherHistory)
    (operation : ArtifactOperation)
    (agree : ∀ digest,
      store.told (history ++ [(threadId, operation)]) threadId digest =
        store.told (otherHistory ++ [(threadId, operation)]) threadId
          digest) :
    (store.perform storage threadId operation).2 =
      (store.perform other threadId operation).2 := by
  have after := reflects.perform threadId operation
  have otherAfter := otherReflects.perform threadId operation
  cases operation with
  | putStream source metadata =>
      have left := after.resolve_eq threadId
        (store.digest source.content)
      have right := otherAfter.resolve_eq threadId
        (store.digest source.content)
      rw [agree] at left
      exact congrArg ArtifactResult.reference (left.trans right.symm)
  | resolve digest =>
      have left := after.resolve_eq threadId digest
      have right := otherAfter.resolve_eq threadId digest
      rw [agree] at left
      exact congrArg ArtifactResult.reference (left.trans right.symm)
  | openRange digest range =>
      have left := after.resolve_eq threadId digest
      have right := otherAfter.resolve_eq threadId digest
      apply congrArg ArtifactResult.opened
      dsimp only [LocalArtifactStore.perform] at left right
      unfold ArtifactStorage.openArtifact
      rw [left, right]
      specialize agree digest
      cases isTold : store.told (otherHistory ++
          [(threadId, .openRange digest range)]) threadId digest with
      | none =>
          rw [agree, isTold]
      | some pair =>
          have isFile := otherAfter.file_eq isTold
          rw [isTold] at agree
          have sameFile := after.file_eq agree
          dsimp only [LocalArtifactStore.perform] at isFile sameFile
          rw [agree]
          dsimp only
          rw [isFile, sameFile]

/-- A thread is told what it has supplied, if that came first. -/
theorem told_eq_supplied {later : ArtifactHistory}
    (first : store.SuppliesFirst threadId (history ++ later))
    (digest : Digest) :
    store.told history threadId digest =
      store.supplied history threadId digest := by
  unfold LocalArtifactStore.told LocalArtifactStore.supplied
  cases isOwn : (store.puts history digest).find?
      fun put => decide (put.threadId = threadId) with
  | none =>
      rw [if_neg]
      · rfl
      · rw [Bool.not_eq_true, List.any_eq_false]
        intro put member
        exact List.find?_eq_none.mp isOwn put member
  | some own =>
      have member := List.mem_of_find?_eq_some isOwn
      have isThread := List.find?_some isOwn
      rw [if_pos (List.any_eq_true.mpr ⟨own, member, isThread⟩)]
      cases puts : store.puts history digest with
      | nil =>
          rw [puts] at member
          cases member
      | cons head rest =>
          have isHead : head ∈ store.puts history digest := by
            rw [puts]
            exact List.mem_cons_self
          have same : head.content = own.content := by
            apply store.digest_injective
            rw [LocalArtifactStore.digest_of_mem_puts isHead,
              LocalArtifactStore.digest_of_mem_puts member]
          have whole : store.puts (history ++ later) digest = _ :=
            LocalArtifactStore.puts_append history later digest
          have typed := first digest own head (by
            rw [whole, List.find?_append, isOwn]
            rfl) (by
            rw [whole, puts]
            rfl)
          simp [ArtifactPut.told, same, typed]

theorem puts_own (digest : Digest) :
    store.puts (ownOperations threadId history) digest =
      (store.puts history digest).filter
        fun put => decide (put.threadId = threadId) := by
  unfold LocalArtifactStore.puts ownOperations
  rw [List.filterMap_filter, List.filter_filterMap]
  congr 1
  funext ⟨actor, operation⟩
  cases operation with
  | putStream source metadata =>
      dsimp only [LocalArtifactStore.putOf]
      by_cases isDigest : store.digest source.content = digest <;>
        by_cases same : actor = threadId <;>
          simp [isDigest, same, Option.filter]
  | resolve | openRange => simp [LocalArtifactStore.putOf]

theorem supplied_own (digest : Digest) :
    store.supplied (ownOperations threadId history) threadId digest =
      store.supplied history threadId digest := by
  unfold LocalArtifactStore.supplied
  rw [puts_own, List.find?_filter]
  simp

/-- A history of one thread supplies everything itself. -/
theorem suppliesFirst_own :
    store.SuppliesFirst threadId (ownOperations threadId history) := by
  intro digest own first isOwn isFirst
  rw [puts_own] at isOwn isFirst
  have same : ((store.puts history digest).filter fun put =>
      decide (put.threadId = threadId)).find?
        (fun put => decide (put.threadId = threadId)) =
      ((store.puts history digest).filter fun put =>
        decide (put.threadId = threadId)).head? := by
    rw [List.find?_filter, List.head?_filter]
    simp
  rw [same, isFirst] at isOwn
  cases isOwn
  rfl

end Telling

/-! ## Isolation -/

/-- What the thread sees of one history: it resolves exactly what it has put,
and each media type that it gets is one that it has supplied. -/
structure Unaffected (store : LocalArtifactStore) (threadId : ThreadId)
    (history : ArtifactHistory) : Prop where
  resolves : ∀ before digest after,
    history = before ++ (threadId, .resolve digest) :: after →
    (∀ source metadata, (threadId, .putStream source metadata) ∈ before →
      store.digest source.content = digest →
      ∃ ref, (store.replay .empty before).resolve (store.replay .empty before)
          threadId digest = .ok ref ∧
        ref.digest = digest ∧
        ref.sizeBytes = source.content.bytes.length) ∧
    ((∀ source metadata, (threadId, .putStream source metadata) ∈ before →
      store.digest source.content ≠ digest) →
      (store.replay .empty before).resolve (store.replay .empty before)
        threadId digest = .error (.coded .notFound "Artifact not found"))
  supplied : ∀ before operation after mediaType,
    history = before ++ (threadId, operation) :: after →
    (store.perform (store.replay .empty before) threadId
      operation).2.mediaType = some mediaType →
    ∃ source metadata, (threadId, .putStream source metadata) ∈
        before ++ [(threadId, operation)] ∧
      store.digest source.content = operation.digest store ∧
      metadata.stored.mediaType = mediaType

/-- The thread gets the same results in both histories, as if it were alone. -/
structure Isolated (store : LocalArtifactStore) (threadId : ThreadId)
    (left right : ArtifactHistory) : Prop where
  same : store.results threadId .empty left =
    store.results threadId .empty right
  left : Unaffected store threadId left
  right : Unaffected store threadId right

section Isolation

variable {store : LocalArtifactStore} {threadId : ThreadId}

/-- The results of a thread are those it would get alone. -/
theorem results_own {storage alone : ArtifactStorage}
    {history later : ArtifactHistory}
    (reflects : storage.Reflects store history)
    (aloneReflects : alone.Reflects store (ownOperations threadId history))
    (first : store.SuppliesFirst threadId (history ++ later)) :
    store.results threadId storage later =
      store.results threadId alone (ownOperations threadId later) := by
  induction later generalizing storage alone history with
  | nil => rfl
  | cons entry later induction =>
      obtain ⟨actor, operation⟩ := entry
      have next := reflects.perform actor operation
      have rest : store.SuppliesFirst threadId
          ((history ++ [(actor, operation)]) ++ later) := by
        rw [List.append_assoc]
        exact first
      unfold LocalArtifactStore.results
      by_cases same : actor = threadId
      · subst same
        have kept : ownOperations actor ((actor, operation) :: later) =
            (actor, operation) :: ownOperations actor later := by
          simp [ownOperations]
        have ownNext : ownOperations actor
            (history ++ [(actor, operation)]) =
              ownOperations actor history ++ [(actor, operation)] := by
          simp [ownOperations]
        have aloneNext := aloneReflects.perform actor operation
        rw [kept]
        dsimp only
        rw [if_pos rfl, if_pos rfl]
        have result := perform_congr reflects aloneReflects operation (by
          intro digest
          rw [told_eq_supplied rest, ← ownNext, ← supplied_own,
            @told_eq_supplied store _ _ []]
          rw [List.append_nil]
          exact suppliesFirst_own)
        rw [result, induction next (ownNext ▸ aloneNext) rest]
      · have dropped : ownOperations threadId
            ((actor, operation) :: later) = ownOperations threadId later := by
          simp [ownOperations, same]
        have ownNext : ownOperations threadId
            (history ++ [(actor, operation)]) = ownOperations threadId history := by
          simp [ownOperations, same]
        rw [dropped]
        dsimp only
        rw [if_neg same, induction next (ownNext ▸ aloneReflects) rest]
        cases ownOperations threadId later <;> rfl

theorem mem_puts_iff {history : ArtifactHistory} {digest : Digest} :
    (∃ put ∈ store.puts history digest, put.threadId = threadId) ↔
      ∃ source metadata, (threadId, .putStream source metadata) ∈ history ∧
        store.digest source.content = digest := by
  constructor
  · rintro ⟨put, member, rfl⟩
    obtain ⟨⟨actor, operation⟩, inside, isPut⟩ := List.mem_filterMap.mp member
    cases operation with
    | putStream source metadata =>
        dsimp only [LocalArtifactStore.putOf] at isPut
        split at isPut
        case isTrue same =>
          cases isPut
          exact ⟨source, metadata, inside, same⟩
        case isFalse => cases isPut
    | resolve | openRange => cases isPut
  · rintro ⟨source, metadata, inside, same⟩
    refine ⟨⟨threadId, source.content, metadata⟩, ?_, rfl⟩
    refine List.mem_filterMap.mpr ⟨_, inside, ?_⟩
    simp [LocalArtifactStore.putOf, same]

theorem replay_reflects (history : ArtifactHistory) :
    (store.replay .empty history).Reflects store history :=
  ArtifactStorage.Reflects.empty.replay history

/-- The digest and the media type of a successful result are what the thread
is told after it. -/
theorem told_of_mediaType {before : ArtifactHistory}
    {operation : ArtifactOperation} {mediaType : String}
    (isResult : (store.perform (store.replay .empty before) threadId
      operation).2.mediaType = some mediaType) :
    ∃ content, store.told (before ++ [(threadId, operation)]) threadId
      (operation.digest store) = some (content, mediaType) := by
  have whole : (store.replay .empty before).Reflects store before :=
    replay_reflects before
  have after := whole.perform threadId operation
  have resolved := after.resolve_eq threadId (operation.digest store)
  cases isTold : store.told (before ++ [(threadId, operation)]) threadId
      (operation.digest store) with
  | none =>
      rw [isTold] at resolved
      cases operation with
      | putStream source metadata =>
          have result : (store.perform (store.replay .empty before) threadId
              (.putStream source metadata)).2 = .reference (.error
                (.coded .notFound "Artifact not found")) :=
            congrArg ArtifactResult.reference resolved
          rw [result] at isResult
          cases isResult
      | resolve digest =>
          have result : (store.perform (store.replay .empty before) threadId
              (.resolve digest)).2 = .reference (.error
                (.coded .notFound "Artifact not found")) :=
            congrArg ArtifactResult.reference resolved
          rw [result] at isResult
          cases isResult
      | openRange digest range =>
          dsimp only [LocalArtifactStore.perform,
            ArtifactOperation.digest] at resolved isResult
          unfold ArtifactStorage.openArtifact at isResult
          rw [resolved] at isResult
          cases isResult
  | some pair =>
      obtain ⟨content, stored⟩ := pair
      rw [isTold] at resolved
      refine ⟨content, ?_⟩
      have same : stored = mediaType := by
        cases operation with
        | putStream source metadata =>
            have result : (store.perform (store.replay .empty before) threadId
                (.putStream source metadata)).2 = .reference (.ok _) :=
              congrArg ArtifactResult.reference resolved
            rw [result] at isResult
            exact Option.some.inj isResult
        | resolve digest =>
            have result : (store.perform (store.replay .empty before) threadId
                (.resolve digest)).2 = .reference (.ok _) :=
              congrArg ArtifactResult.reference resolved
            rw [result] at isResult
            exact Option.some.inj isResult
        | openRange digest range =>
            dsimp only [LocalArtifactStore.perform,
              ArtifactOperation.digest] at resolved isResult
            unfold ArtifactStorage.openArtifact at isResult
            rw [resolved] at isResult
            dsimp only at isResult
            split at isResult
            case isTrue => cases isResult
            case isFalse =>
              split at isResult
              case h_1 => cases isResult
              case h_2 => exact Option.some.inj isResult
      rw [same]

/-- A thread is told something of exactly the digests it has put. -/
theorem told_of_put {history : ArtifactHistory} {source : ArtifactSource}
    {metadata : PutMetadata}
    (inside : (threadId, .putStream source metadata) ∈ history) :
    ∃ mediaType, store.told history threadId (store.digest source.content) =
      some (source.content, mediaType) := by
  obtain ⟨put, member, isThread⟩ :=
    mem_puts_iff.mpr ⟨source, metadata, inside, rfl⟩
  unfold LocalArtifactStore.told
  rw [if_pos (List.any_eq_true.mpr ⟨put, member, by simp [isThread]⟩)]
  cases puts : store.puts history (store.digest source.content) with
  | nil =>
      rw [puts] at member
      cases member
  | cons first rest =>
      have isFirst : first ∈ store.puts history
          (store.digest source.content) := by
        rw [puts]
        exact List.mem_cons_self
      have same := store.digest_injective
        (LocalArtifactStore.digest_of_mem_puts isFirst)
      exact ⟨first.metadata.stored.mediaType,
        congrArg some (congrArg (·, _) same)⟩

theorem told_eq_none {history : ArtifactHistory} {digest : Digest}
    (absent : ∀ source metadata,
      (threadId, .putStream source metadata) ∈ history →
      store.digest source.content ≠ digest) :
    store.told history threadId digest = none := by
  unfold LocalArtifactStore.told
  rw [if_neg]
  intro some
  obtain ⟨put, member, isThread⟩ := List.any_eq_true.mp some
  obtain ⟨source, metadata, inside, same⟩ :=
    mem_puts_iff.mp ⟨put, member, of_decide_eq_true isThread⟩
  exact absent source metadata inside same

theorem unaffected_of_suppliesFirst {history : ArtifactHistory}
    (first : store.SuppliesFirst threadId history) :
    Unaffected store threadId history := by
  constructor
  · rintro before digest after rfl
    have whole : (store.replay .empty before).Reflects store before :=
      replay_reflects before
    have resolved := whole.resolve_eq threadId digest
    constructor
    · rintro source metadata inside rfl
      obtain ⟨mediaType, isTold⟩ := @told_of_put store _ _ _ _ inside
      rw [isTold] at resolved
      exact ⟨_, resolved, rfl, rfl⟩
    · intro absent
      rw [told_eq_none absent] at resolved
      exact resolved
  · intro before operation after mediaType split isResult
    obtain ⟨content, isTold⟩ := told_of_mediaType isResult
    rw [split, ← List.singleton_append, ← List.append_assoc] at first
    rw [told_eq_supplied first] at isTold
    obtain ⟨put, isOwn, isPair⟩ := Option.map_eq_some_iff.mp isTold
    have member := List.mem_of_find?_eq_some isOwn
    have isThread := List.find?_some isOwn
    obtain ⟨⟨actor, other⟩, inside, isPut⟩ := List.mem_filterMap.mp member
    cases other with
    | putStream source metadata =>
        dsimp only [LocalArtifactStore.putOf] at isPut
        split at isPut
        case isFalse => cases isPut
        case isTrue same =>
          cases isPut
          cases of_decide_eq_true isThread
          exact ⟨source, metadata, inside, same, congrArg Prod.snd isPair⟩
    | resolve | openRange => cases isPut

/-- The first put of the thread tells it who came first. -/
theorem suppliesFirst_of_unaffected {history : ArtifactHistory}
    (unaffected : Unaffected store threadId history) :
    store.SuppliesFirst threadId history := by
  intro digest own first isOwn isFirst
  obtain ⟨isThread, earlier, later, split, none⟩ :=
    List.find?_eq_some_iff_append.mp isOwn
  obtain ⟨before, rest, isHistory, isEarlier, isLater⟩ :=
    List.filterMap_eq_append_iff.mp split
  obtain ⟨between, ⟨actor, operation⟩, after, isRest, absent, isPut, _⟩ :=
    List.filterMap_eq_cons_iff.mp isLater
  cases operation with
  | resolve | openRange => cases isPut
  | putStream source metadata =>
  dsimp only [LocalArtifactStore.putOf] at isPut
  split at isPut
  case isFalse => cases isPut
  case isTrue same =>
  cases isPut
  have isActor : actor = threadId := of_decide_eq_true isThread
  subst isActor
  let put : ArtifactPut := ⟨actor, source.content, metadata⟩
  have puts : store.puts (before ++ between) digest = earlier := by
    rw [LocalArtifactStore.puts_append]
    have nothing : store.puts between digest = [] :=
      List.filterMap_eq_nil_iff.mpr absent
    rw [nothing, List.append_nil]
    exact isEarlier
  have whole : history = (before ++ between) ++
      (actor, .putStream source metadata) :: after := by
    rw [isHistory, isRest, List.append_assoc]
  have putsLater : store.puts ((before ++ between) ++
      [(actor, .putStream source metadata)]) digest = earlier ++ [put] := by
    rw [LocalArtifactStore.puts_append, puts]
    simp [LocalArtifactStore.puts, LocalArtifactStore.putOf, same, put]
  -- the put itself is told the media type of the first put
  have isTold : store.told ((before ++ between) ++
      [(actor, .putStream source metadata)]) actor digest =
        some first.told := by
    unfold LocalArtifactStore.told
    rw [putsLater, if_pos (by simp [put])]
    rw [split] at isFirst
    cases earlier with
    | nil =>
        cases isFirst
        rfl
    | cons head tail =>
        cases isFirst
        rfl
  have reflects : (store.replay .empty (before ++ between)).Reflects store
      (before ++ between) := replay_reflects (before ++ between)
  have resolved := (reflects.perform actor
    (.putStream source metadata)).resolve_eq actor digest
  rw [isTold, ← same] at resolved
  have result : (store.perform (store.replay .empty (before ++ between))
      actor (.putStream source metadata)).2 = .reference (.ok _) :=
    congrArg ArtifactResult.reference resolved
  obtain ⟨otherSource, other, inside, sameDigest, isType⟩ :=
    unaffected.supplied _ _ _ first.metadata.stored.mediaType whole
      (by rw [result]; rfl)
  rw [← isType]
  rcases List.mem_append.mp inside with earlierPut | itself
  · obtain ⟨found, member, isOwn⟩ :=
      (@mem_puts_iff store _ _ _).mpr
      ⟨otherSource, other, earlierPut, sameDigest.trans same⟩
    rw [puts] at member
    have differs := none found member
    simp [isOwn] at differs
  · cases List.mem_singleton.mp itself
    rfl

/-- Two histories that differ in the operations of other threads tell the
thread the same, and only what it has said itself, exactly when nobody has
put its contents before it under another media type. -/
theorem artifacts_isolated_iff (store : LocalArtifactStore)
    {threadId : ThreadId} {left right : ArtifactHistory}
    (same : ownOperations threadId left = ownOperations threadId right) :
    Isolated store threadId left right ↔
      store.SuppliesFirst threadId left ∧
        store.SuppliesFirst threadId right := by
  constructor
  · intro isolated
    exact ⟨suppliesFirst_of_unaffected isolated.left,
      suppliesFirst_of_unaffected isolated.right⟩
  · rintro ⟨leftFirst, rightFirst⟩
    have alone : ∀ {history : ArtifactHistory},
        store.SuppliesFirst threadId history →
        store.results threadId .empty history =
          store.results threadId .empty (ownOperations threadId history) := by
      intro history first
      exact results_own ArtifactStorage.Reflects.empty
        ArtifactStorage.Reflects.empty first
    refine ⟨?_, unaffected_of_suppliesFirst leftFirst,
      unaffected_of_suppliesFirst rightFirst⟩
    rw [alone leftFirst, alone rightFirst, same]

end Isolation

private theorem sevenByte_counted :
    ([[7]] : List Bytes).flatten.length ≤ maxSafeInteger := by decide

private def sevenByte : ArtifactSource :=
  { chunks := [[7]], counted := sevenByte_counted }

/-- Another thread puts the bytes first, as text. -/
private def sharedHistory : ArtifactHistory :=
  [("other", .putStream sevenByte { mediaType := some "text/plain" }),
    ("mine", .putStream sevenByte { mediaType := some "image/png" })]

private def privateHistory : ArtifactHistory :=
  [("mine", .putStream sevenByte { mediaType := some "image/png" })]

theorem artifact_media_type_leaks :
    ¬ ∀ (threadId : ThreadId) (left right : ArtifactHistory),
      ownOperations threadId left = ownOperations threadId right →
      Isolated LocalArtifactStore.transparent threadId left right := by
  intro isolated
  have first := suppliesFirst_of_unaffected
    (isolated "mine" sharedHistory privateHistory rfl).left
  have types := first (LocalArtifactStore.transparent.digest
    sevenByte.content) _ _ rfl rfl
  revert types
  decide

theorem artifacts_isolated_sample :
    ownOperations "mine" sharedHistory.reverse =
        ownOperations "mine" privateHistory ∧
      Isolated LocalArtifactStore.transparent "mine" sharedHistory.reverse
        privateHistory := by
  have same : ownOperations "mine" sharedHistory.reverse =
      ownOperations "mine" privateHistory := rfl
  refine ⟨same, (artifacts_isolated_iff _ same).mpr ⟨?_, ?_⟩⟩
  · intro digest own first isOwn isFirst
    by_cases same : LocalArtifactStore.transparent.digest
        sevenByte.content = digest <;>
      simp [LocalArtifactStore.puts, LocalArtifactStore.putOf, sharedHistory,
        same] at isOwn isFirst
    rw [← isOwn, ← isFirst]
  · have alone : LocalArtifactStore.transparent.SuppliesFirst "mine"
        (ownOperations "mine" privateHistory) := suppliesFirst_own
    exact alone

end Electrosphere
