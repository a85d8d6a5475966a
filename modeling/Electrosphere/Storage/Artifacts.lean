import Electrosphere.Foundation.Transition
import Electrosphere.Storage.CommitDigest

/-!
# The artifact store

Artifacts are files named by the digest of their bytes, one row for each
digest, and grants that say which thread may read which digest.  `putStream`
is cut at its awaits and may fail at each of them; a stage says what the call
is waiting for.  `resolve` and `open` only read.
-/

namespace Electrosphere

open Foundation

abbrev Bytes := List UInt8

/-- `Number.MAX_SAFE_INTEGER`. -/
def maxSafeInteger : Nat := 9007199254740991

/-- The bytes of an artifact.  There are few enough for a number to count
them exactly. -/
structure ArtifactContent where
  bytes : Bytes
  counted : bytes.length ≤ maxSafeInteger

theorem ArtifactContent.ext {left right : ArtifactContent}
    (same : left.bytes = right.bytes) : left = right := by
  cases left
  cases right
  simpa using same

/-- The chunks that a stream yields before it ends. -/
structure ArtifactSource where
  chunks : List Bytes
  counted : chunks.flatten.length ≤ maxSafeInteger := by decide

def ArtifactSource.content (source : ArtifactSource) : ArtifactContent :=
  { bytes := source.chunks.flatten, counted := source.counted }

/-- `LocalArtifactStore`: its directory and the hash that names its files,
which is taken to be free of collisions. -/
structure LocalArtifactStore where
  root : String
  sha256 : Bytes → Digest
  collisionFree : Function.Injective sha256

namespace LocalArtifactStore

/-- The digest that `putStream` computes. -/
def digest (store : LocalArtifactStore) (content : ArtifactContent) : Digest :=
  store.sha256 content.bytes

theorem digest_injective (store : LocalArtifactStore) :
    Function.Injective store.digest := by
  intro left right same
  exact ArtifactContent.ext (store.collisionFree same)

/-- The file of a digest. -/
def destination (store : LocalArtifactStore) (digest : Digest) : String :=
  store.root ++ "/" ++ digest.hex

theorem destination_injective (store : LocalArtifactStore) :
    Function.Injective store.destination := by
  intro left right same
  apply Digest.ext
  have lists := congrArg String.toList same
  simp only [destination, String.toList_append,
    List.append_cancel_left_eq] at lists
  exact String.toList_inj.mp lists

/-- The bytes themselves, written in hexadecimal. -/
def transparent : LocalArtifactStore where
  root := "artifacts"
  sha256 bytes := spelled (String.ofList
    (bytes.map fun byte => Char.ofNat byte.toNat))
  collisionFree := by
    have code : ∀ value : Fin 256, (Char.ofNat value).toNat = value := by
      decide +kernel
    have letters : Function.Injective fun byte : UInt8 =>
        Char.ofNat byte.toNat := by
      intro left right same
      have codes := congrArg Char.toNat same
      have leftCode := code ⟨left.toNat, left.toNat_lt⟩
      have rightCode := code ⟨right.toNat, right.toNat_lt⟩
      apply UInt8.toNat_inj.mp
      exact leftCode.symm.trans (codes.trans rightCode)
    intro left right same
    exact List.map_injective_iff.mpr letters
      (String.ofList_injective (spelled_injective same))

end LocalArtifactStore

/-! ## Rows -/

structure ArtifactMetadata where
  mediaType : String
  filename : Option String := none
  deriving DecidableEq

/-- The `metadata` argument of `putStream`. -/
structure PutMetadata where
  mediaType : Option String := none
  filename : Option String := none

/-- `storedMetadata`: an empty file name counts as none. -/
def PutMetadata.stored (metadata : PutMetadata) : ArtifactMetadata :=
  { mediaType := metadata.mediaType.getD "application/octet-stream"
    filename := metadata.filename.filter fun name => name != "" }

structure ArtifactRow where
  kind : String
  path : String
  sizeBytes : Nat
  metadataJson : ArtifactMetadata
  deriving DecidableEq

structure ArtifactRef where
  digest : Digest
  path : String
  sizeBytes : Nat
  mediaType : String
  deriving DecidableEq

/-- The directory of the store and its two tables. -/
structure ArtifactStorage where
  files : Table String ArtifactContent
  artifacts : Table Digest ArtifactRow
  grants : Table (ThreadId × Digest) Unit

namespace ArtifactStorage

def empty : ArtifactStorage :=
  { files := ∅, artifacts := ∅, grants := ∅ }

/-- Both inserts leave an existing row as it is. -/
def putArtifactAndGrant (storage : ArtifactStorage) (threadId : ThreadId)
    (digest : Digest) (row : ArtifactRow) : ArtifactStorage :=
  { storage with
    artifacts := if (storage.artifacts.lookup digest).isSome
      then storage.artifacts else storage.artifacts.insert digest row
    grants := storage.grants.insert (threadId, digest) () }

def granted (storage : ArtifactStorage) (threadId : ThreadId)
    (digest : Digest) : Bool :=
  (storage.grants.lookup (threadId, digest)).isSome

def getGrantedArtifact (storage : ArtifactStorage) (threadId : ThreadId)
    (digest : Digest) : Option ArtifactRow :=
  if storage.granted threadId digest then
    (storage.artifacts.lookup digest).filter fun row => row.kind == "tool"
  else none

/-! ## Reading -/

def inconsistentStorage : Thrown :=
  .coded .backendError "Artifact storage is inconsistent"

/-- The end of `resolve`, which looks at the file of a row. -/
def statArtifact (storage : ArtifactStorage) (digest : Digest)
    (row : ArtifactRow) : Except Thrown ArtifactRef :=
  match storage.files.lookup row.path with
  | none => .error inconsistentStorage
  | some content =>
      if content.bytes.length = row.sizeBytes then
        .ok
          { digest
            path := row.path
            sizeBytes := row.sizeBytes
            mediaType := row.metadataJson.mediaType }
      else .error inconsistentStorage

/-- `resolve`; `atStat` is the storage once the file has been looked at. -/
def resolve (storage atStat : ArtifactStorage) (threadId : ThreadId)
    (digest : Digest) : Except Thrown ArtifactRef :=
  match storage.getGrantedArtifact threadId digest with
  | none => .error (.coded .notFound "Artifact not found")
  | some row => atStat.statArtifact digest row

/-- `STREAM_CHUNK_BYTES`. -/
def streamChunkBytes : Nat := 384 * 1024

/-- The chunks that the stream of `open` yields, joined. -/
def readStream (content : Bytes) (position remaining : Nat) :
    Except Thrown Bytes :=
  if remaining = 0 then .ok []
  else
    let chunk :=
      (content.drop position).take (min streamChunkBytes remaining)
    if chunk.length = 0 then
      .error (.coded .backendError "Artifact ended before its recorded size")
    else
      (readStream content (position + chunk.length)
        (remaining - chunk.length)).map fun rest => chunk ++ rest
termination_by remaining
decreasing_by
  rename_i exhausted ended
  exact Nat.sub_lt (Nat.pos_of_ne_zero exhausted) (Nat.pos_of_ne_zero ended)

/-- The `range` argument of `open`. -/
structure ByteRange where
  offset : Int
  limit : Int

/-- `Number.isSafeInteger` of a number without a fractional part. -/
def isSafeInteger (value : Int) : Bool :=
  decide (-(maxSafeInteger : Int) ≤ value) &&
    decide (value ≤ (maxSafeInteger : Int))

@[simp] theorem isSafeInteger_iff {value : Int} :
    isSafeInteger value = true ↔
      -(maxSafeInteger : Int) ≤ value ∧ value ≤ (maxSafeInteger : Int) := by
  simp [isSafeInteger]

structure OpenedArtifact where
  bytes : Except Thrown Bytes
  sizeBytes : Nat
  mediaType : String

/-- `open`, with the stream read to its end.  It awaits `resolve` and then
opens the file, which nothing changes afterwards. -/
def openArtifact (storage atStat atOpen : ArtifactStorage)
    (threadId : ThreadId) (digest : Digest) (range : Option ByteRange) :
    Except Thrown OpenedArtifact :=
  match storage.resolve atStat threadId digest with
  | .error error => .error error
  | .ok artifact =>
      let offset := (range.map ByteRange.offset).getD 0
      let limit := (range.map ByteRange.limit).getD
        (artifact.sizeBytes - offset)
      if !isSafeInteger offset || decide (offset < 0) ||
          decide ((artifact.sizeBytes : Int) < offset) ||
          !isSafeInteger limit || decide (limit < 0) then
        .error (.coded .invalidArgument "Artifact byte range is invalid")
      else
        match atOpen.files.lookup artifact.path with
        | none => .error (.plain "ENOENT")
        | some content =>
            .ok
              { bytes := readStream content.bytes offset.toNat
                  (min limit.toNat (artifact.sizeBytes - offset.toNat))
                sizeBytes := artifact.sizeBytes
                mediaType := artifact.mediaType }

end ArtifactStorage

/-! ## Writing -/

/-- What the file system, the source and the database answer to a put. -/
structure PutEnvironment where
  makeDirectory : Except Thrown Unit := .ok ()
  openTemporary : Except Thrown Unit := .ok ()
  /-- The source, unless a read or a write has failed. -/
  source : Except Thrown ArtifactSource
  closeTemporary : Except Thrown Unit := .ok ()
  /-- A failure other than `EEXIST`. -/
  link : Except Thrown Unit := .ok ()
  chmod : Except Thrown Unit := .ok ()
  removeTemporary : Except Thrown Unit := .ok ()
  record : Except Thrown Unit := .ok ()
  stat : Except Thrown Unit := .ok ()
  /-- The removals of the catch block. -/
  cleanTemporary : Except Thrown Unit := .ok ()
  cleanDestination : Except Thrown Unit := .ok ()

/-- Where a `putStream` call stands. -/
inductive PutStage where
  | makingDirectory
  | openingTemporary
  | reading
  | closingTemporary (content : ArtifactContent)
  | linking (content : ArtifactContent)
  | chmod (content : ArtifactContent)
  | removingTemporary (content : ArtifactContent) (installed : Bool)
  /-- Inside the `resolve` that ends the call. -/
  | stat (digest : Digest) (row : ArtifactRow)
  /-- The catch block; it removes the file that the call has installed. -/
  | closing (error : Thrown) (installed : Option Digest)
  | cleanTemporary (error : Thrown) (installed : Option Digest)
  | cleanDestination (error : Thrown) (digest : Digest)
  | settled (result : Except Thrown ArtifactRef)

structure PutCall where
  threadId : ThreadId
  metadata : PutMetadata
  environment : PutEnvironment
  stage : PutStage

namespace LocalArtifactStore

/-- The row that `putStream` records. -/
def row (store : LocalArtifactStore) (content : ArtifactContent)
    (metadata : PutMetadata) : ArtifactRow :=
  { kind := "tool"
    path := store.destination (store.digest content)
    sizeBytes := content.bytes.length
    metadataJson := metadata.stored }

/-- What follows the removal of the temporary file. -/
def recordAndResolve (store : LocalArtifactStore)
    (storage : ArtifactStorage) (call : PutCall) (content : ArtifactContent)
    (installed : Bool) : ArtifactStorage × PutStage :=
  let digest := store.digest content
  match call.environment.record with
  | .error error =>
      (storage, .closing error (if installed then some digest else none))
  | .ok () =>
      let recorded := storage.putArtifactAndGrant call.threadId digest
        (store.row content call.metadata)
      match recorded.getGrantedArtifact call.threadId digest with
      | some row => (recorded, .stat digest row)
      -- the promise of `resolve` is returned, so its rejection is not caught
      | none => (recorded, .settled (.error
          (.coded .notFound "Artifact not found")))

/-- `putStream` from one await to the next. -/
def advancePut (store : LocalArtifactStore) (storage : ArtifactStorage)
    (call : PutCall) : Option (ArtifactStorage × PutStage) :=
  match call.stage with
  | .makingDirectory =>
      match call.environment.makeDirectory with
      | .ok () => some (storage, .openingTemporary)
      | .error error => some (storage, .settled (.error error))
  | .openingTemporary =>
      match call.environment.openTemporary with
      | .ok () => some (storage, .reading)
      | .error error => some (storage, .settled (.error error))
  | .reading =>
      match call.environment.source with
      | .ok source => some (storage, .closingTemporary source.content)
      | .error error => some (storage, .closing error none)
  | .closingTemporary content =>
      match call.environment.closeTemporary with
      | .ok () => some (storage, .linking content)
      | .error error => some (storage, .closing error none)
  | .linking content =>
      let destination := store.destination (store.digest content)
      match call.environment.link with
      | .error error => some (storage, .closing error none)
      | .ok () =>
          if (storage.files.lookup destination).isSome then
            some (storage, .removingTemporary content false)
          else
            some ({ storage with
              files := storage.files.insert destination content },
              .chmod content)
  | .chmod content =>
      match call.environment.chmod with
      | .ok () => some (storage, .removingTemporary content true)
      | .error error =>
          some (storage, .closing error (some (store.digest content)))
  | .removingTemporary content installed =>
      match call.environment.removeTemporary with
      | .ok () =>
          some (store.recordAndResolve storage call content installed)
      | .error error =>
          some (storage, .closing error
            (if installed then some (store.digest content) else none))
  | .stat digest row =>
      match call.environment.stat with
      | .ok () => some (storage, .settled (storage.statArtifact digest row))
      | .error _ =>
          some (storage, .settled (.error
            ArtifactStorage.inconsistentStorage))
  | .closing error installed =>
      some (storage, .cleanTemporary error installed)
  | .cleanTemporary error installed =>
      match call.environment.cleanTemporary with
      | .error cleanError => some (storage, .settled (.error cleanError))
      | .ok () =>
          match installed with
          | some digest => some (storage, .cleanDestination error digest)
          | none => some (storage, .settled (.error error))
  | .cleanDestination error digest =>
      match call.environment.cleanDestination with
      | .error cleanError => some (storage, .settled (.error cleanError))
      | .ok () =>
          some ({ storage with
            files := storage.files.erase (store.destination digest) },
            .settled (.error error))
  | .settled _ => none

end LocalArtifactStore

/-! ## Concurrent calls -/

/-- The store and the calls that have been made to it. -/
structure ArtifactWorld where
  storage : ArtifactStorage
  calls : Table Uuid PutCall
  nextUuid : Uuid

inductive ArtifactEvent where
  | putStream (threadId : ThreadId) (metadata : PutMetadata)
      (environment : PutEnvironment)
  | resume (id : Uuid)

namespace ArtifactWorld

def empty : ArtifactWorld :=
  { storage := .empty, calls := ∅, nextUuid := 0 }

def resume (store : LocalArtifactStore) (world : ArtifactWorld) (id : Uuid) :
    Option ArtifactWorld :=
  match world.calls.lookup id with
  | none => none
  | some call =>
      (store.advancePut world.storage call).map fun (storage, stage) =>
        { world with
          storage, calls := world.calls.insert id { call with stage } }

def step (store : LocalArtifactStore) (world : ArtifactWorld) :
    ArtifactEvent → Option ArtifactWorld
  | .putStream threadId metadata environment =>
      some { world with
        calls := world.calls.insert world.nextUuid
          { threadId, metadata, environment, stage := .makingDirectory }
        nextUuid := world.nextUuid + 1 }
  | .resume id => world.resume store id

end ArtifactWorld

end Electrosphere
