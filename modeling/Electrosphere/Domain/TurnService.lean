import Electrosphere.Domain.SandboxService

/-!
# The turn service

The calls `start` and `finish`, cut at their awaits.  A stage says which
promise a call is waiting for and what the continuation still needs; the
`advance` functions run a call from one await to the next.  What the backend,
the file system and the session manager answer is fixed in an environment
when the call is made, which loses no behaviour because each is asked once.
-/

namespace Electrosphere

open Foundation

/-! ## Views and replays -/

/-- `StartTurnInput`. -/
structure StartTurnInput where
  threadId : ThreadId
  turnId : TurnId
  mode : TurnMode
  backend : Option Backend := none
  network : Option NetworkProfile := none
  resourceProfile : Option ResourceProfile := none

namespace StartTurnInput

def key (input : StartTurnInput) : TurnKey :=
  { threadId := input.threadId, turnId := input.turnId }

/-- `normalizedRequest`. -/
def normalizedRequest (input : StartTurnInput) : StartRequest :=
  { mode := input.mode
    backend := input.backend
    network := input.network
    resourceProfile := input.resourceProfile }

/-- The row that `start` inserts. -/
def startingRow (input : StartTurnInput) : TurnRow :=
  { mode := input.mode
    state := .starting
    requestJson := input.normalizedRequest }

end StartTurnInput

def TurnState.name : TurnState → String
  | .starting => "STARTING"
  | .opened => "OPEN"
  | .finishing => "FINISHING"
  | .finished => "FINISHED"
  | .failed => "FAILED"

/-- `view`: a stored result may override the head. -/
def view (key : TurnKey) (record : TurnRow) : TurnView :=
  let stored := (record.resultJson.bind StoredResult.response).bind
    fun response => response.view.headCommit
  { threadId := key.threadId
    turnId := key.turnId
    mode := record.mode
    state := record.state
    instanceId := record.instanceId
    workspaceId := record.workspaceId
    headCommit := stored.or record.expectedHead }

/-- `replayError`. -/
def replayError (record : TurnRow) : Thrown :=
  match record.errorJson with
  | none => .coded .turnClosed "Turn failed without a stored error"
  | some error => .service error

/-- `existingStart`. -/
def existingStart (key : TurnKey) (record : TurnRow)
    (request : StartRequest) : Except Thrown TurnView :=
  if record.requestJson ≠ request then
    .error (.coded .invalidArgument
      "Turn ID was already used with a different request")
  else
    match record.state with
    | .opened | .finished => .ok (view key record)
    | .failed => .error (replayError record)
    | .starting | .finishing =>
        .error (.coded .threadBusy ("Turn is " ++ record.state.name))

/-- What a lease is bound to. -/
structure BoundTurn where
  key : TurnKey
  mode : TurnMode
  instanceId : InstanceId
  workspaceId : Option WorkspaceId
  expectedHead : Option Digest
  deriving DecidableEq

/-- `bound`. -/
def bound (key : TurnKey) (record : TurnRow) : Except Thrown BoundTurn :=
  match record.state, record.instanceId with
  | .opened, some instanceId =>
      if record.mode = .durable ∧
          (record.workspaceId = none ∨ record.expectedHead = none) then
        .error (.coded .backendError "Durable turn binding is incomplete")
      else
        .ok
          { key
            mode := record.mode
            instanceId
            workspaceId := record.workspaceId
            expectedHead := record.expectedHead }
  | _, _ => .error (.coded .turnClosed "Turn is not open")

/-- `resolve`. -/
def resolve (db : Database) (key : TurnKey) : Except Thrown BoundTurn :=
  match db.getTurn key with
  | none => .error (.coded .turnClosed "Turn does not exist")
  | some record => bound key record

/-! ## Starting a turn -/

/-- What the layers below answer to a start. -/
structure StartEnvironment where
  preflight : Except Thrown Probe := .ok .available
  makeDirectory : Except Thrown Unit := .ok ()
  materialize : Except Thrown Unit := .ok ()
  /-- The identifier in the handle that the backend creates. -/
  create : Except Thrown String := .ok "runtime"
  removeDirectory : Except Thrown Unit := .ok ()
  deletion : DeletionEnvironment := {}

/-- Where a `startCreated` call stands. -/
inductive StartStage where
  /-- Awaiting `ensureThreadWorkspace`, which has run. -/
  | ensured (workspace : Except Thrown WorkspaceView)
  | preflight (runtime : RuntimeInput)
  | makeDirectory (runtime : RuntimeInput)
  | materialize (runtime : RuntimeInput)
  | create (runtime : RuntimeInput)
  /-- Removing the directory of a runtime that could not be created. -/
  | cleanup (error : Thrown)
  /-- `createTurnRuntime` has returned. -/
  | created (runtime : RuntimeInput)
  /-- A promise that the body awaits has been rejected. -/
  | rejected (error : Thrown)
  /-- Deleting the runtime before the error is recorded. -/
  | deleting (error : Thrown) (progress : Deletion)
  | settled (result : Except Thrown TurnView)

structure StartCall where
  input : StartTurnInput
  instanceId : InstanceId
  environment : StartEnvironment
  stage : StartStage
  /-- The promise is still in `startPromises`. -/
  listed : Bool := true

def StartStage.isSettled : StartStage → Bool
  | .settled _ => true
  | _ => false

/-- The end of the catch block: the turn is marked failed, unless that update
throws in its turn. -/
def failStart (db : Database) (key : TurnKey) (instanceId : InstanceId)
    (error : Thrown) : Database × StartStage :=
  match db.updateTurn key
      { state := some .failed
        instanceId := some instanceId
        errorJson := some (some error.serviceError) } with
  | .ok failed => (failed, .settled (.error error))
  | .error updateError => (db, .settled (.error updateError))

/-- The catch block once a runtime has been created. -/
def deleteAndFail (db : Database) (instanceId : InstanceId)
    (error : Thrown) : Database × StartStage :=
  let (begun, progress) := Deletion.start db instanceId
  (begun, .deleting error progress)

/-- `createTurnRuntime` up to its first await. -/
def createTurnRuntime (db : Database) (runtime : RuntimeInput) : StartStage :=
  match checkRuntimeInput db runtime with
  | .ok () => .preflight runtime
  | .error error => .rejected error

/-- The runtime of an instant turn. -/
def instantRuntime (call : StartTurnInput) (instanceId : InstanceId)
    (emptyCommit : Digest) : RuntimeInput :=
  { instanceId
    kind := .instant
    baseCommit := emptyCommit
    workspaceId := none
    backend := call.backend.getD .firecracker
    network := call.network.getD .none
    resourceProfile := call.resourceProfile.getD .default }

/-- The runtime of a durable turn. -/
def durableRuntime (deployment : Deployment) (call : StartTurnInput)
    (instanceId : InstanceId) (workspace : WorkspaceView) : RuntimeInput :=
  { instanceId
    kind := .durable
    baseCommit := workspace.headCommit
    workspaceId := some workspace.workspaceId
    backend := call.backend.getD deployment.defaultBackend
    network := call.network.getD .none
    resourceProfile := call.resourceProfile.getD .default }

/-- `startCreated` up to its first await. -/
def startCreated (canonicalEmpty : Option Digest) (db : Database)
    (input : StartTurnInput) (instanceId : InstanceId)
    (fresh : WorkspaceId) : Database × StartStage :=
  match input.mode with
  | .instant =>
      match canonicalEmpty with
      | none =>
          failStart db input.key instanceId
            (.plain "SandboxService is not initialized")
      | some emptyCommit =>
          (db, createTurnRuntime db
            (instantRuntime input instanceId emptyCommit))
  | .durable =>
      let (ensured, workspace) := ensureThreadWorkspace canonicalEmpty db
        input.threadId fresh
      (ensured, .ensured workspace)

/-- The update with which a turn becomes open. -/
def openUpdate (runtime : RuntimeInput) : TurnUpdate :=
  match runtime.kind with
  | .instant =>
      { state := some .opened, instanceId := some runtime.instanceId }
  | .durable =>
      { state := some .opened
        instanceId := some runtime.instanceId
        workspaceId := runtime.workspaceId
        expectedHead := some runtime.baseCommit }

/-- `startCreated` from one await to the next. -/
def advanceStart (deployment : Deployment) (db : Database)
    (call : StartCall) : Option (Database × StartStage) :=
  match call.stage with
  | .ensured (.error error) => some (db, .rejected error)
  | .ensured (.ok workspace) =>
      some (db, createTurnRuntime db
        (durableRuntime deployment call.input call.instanceId workspace))
  | .preflight runtime =>
      match checkProbe runtime.backend call.environment.preflight with
      | .ok () => some (db, .makeDirectory runtime)
      | .error error => some (db, .rejected error)
  | .makeDirectory runtime =>
      match call.environment.makeDirectory with
      | .ok () => some (db, .materialize runtime)
      | .error error => some (db, .rejected error)
  | .materialize runtime =>
      match call.environment.materialize with
      | .error error => some (db, .rejected error)
      | .ok () =>
          match db.createInstance runtime.instanceId
              (provisioningRow deployment runtime) with
          | .ok created => some (created, .create runtime)
          | .error error => some (db, .rejected error)
  | .create runtime =>
      match call.environment.create with
      | .ok opaqueId =>
          let ready := recordHandle db runtime opaqueId
          if ready.hasInstance runtime.instanceId then
            some (ready, .created runtime)
          else
            some (ready, .rejected (.coded .backendError
              "Runtime record disappeared after creation"))
      | .error error =>
          some (recordCreateFailure db runtime.instanceId error,
            .cleanup error)
  | .cleanup error =>
      match call.environment.removeDirectory with
      | .ok () => some (db, .rejected error)
      | .error removeError => some (db, .rejected removeError)
  | .created runtime =>
      match db.updateTurn call.input.key (openUpdate runtime) with
      | .error error => some (deleteAndFail db call.instanceId error)
      | .ok updated =>
          match updated.getTurn call.input.key with
          | some record =>
              some (updated, .settled (.ok (view call.input.key record)))
          | none =>
              some (deleteAndFail updated call.instanceId
                (.coded .backendError
                  "Turn record disappeared during start"))
  | .rejected error =>
      some (failStart db call.input.key call.instanceId error)
  | .deleting error (.done _) =>
      some (failStart db call.input.key call.instanceId error)
  | .deleting error progress =>
      (Deletion.resume call.environment.deletion db call.instanceId
        progress).map fun (next, later) => (next, .deleting error later)
  | .settled _ => none

/-! ## Finishing a turn -/

/-- What the layers below answer to a finish. -/
structure FinishEnvironment where
  closeSessions : Except Thrown Unit := .ok ()
  /-- The snapshot carries a guest archive (`cfsPath`) or it does not. -/
  snapshot : Except Thrown Bool := .ok true
  /-- The digest and size of the stored archive. -/
  capture : Except Thrown (Digest × Nat)
  removeSnapshot : Except Thrown Unit := .ok ()
  deletion : DeletionEnvironment := {}

/-- What a finish does once the runtime is deleted. -/
inductive DeletionPurpose where
  | instant
  | committed (result : TurnCommitResult)
  | failing (error : Thrown)

/-- Where a `finishOpen` call stands. -/
inductive FinishStage where
  /-- Waiting for a lease to be released. -/
  | waiting
  /-- The promise of `waitForLeases` is fulfilled. -/
  | drained
  | closingSessions
  /-- `closeInstance` has settled. -/
  | sessionsClosed (result : Except Thrown Unit)
  | snapshot (commit : CommitInput)
  | capture (commit : CommitInput) (guestArchive : Bool)
  | removeSnapshot (commit : CommitInput) (captured : Except Thrown CfsObject)
  /-- `commitTurnRuntime` has settled. -/
  | committed (result : Except Thrown TurnCommitResult)
  | deleting (purpose : DeletionPurpose) (progress : Deletion)
  | settled (result : Except Thrown TurnView)

structure FinishCall where
  key : TurnKey
  /-- The record that `finish` read, with the state it wrote. -/
  record : TurnRow
  environment : FinishEnvironment
  stage : FinishStage
  /-- The promise is still in `finishPromises`. -/
  listed : Bool := true

def FinishStage.isSettled : FinishStage → Bool
  | .settled _ => true
  | _ => false

/-- A commit that has been published: its turn, its workspace, the head it
replaced and itself. -/
structure Publication where
  key : TurnKey
  workspaceId : WorkspaceId
  parentId : Digest
  commitId : Digest
  deriving DecidableEq

/-- The outcome of a stretch of `finishOpen`: the database, the tree files,
the next stage and the commit it has published, if any. -/
structure FinishSegment where
  db : Database
  objects : List String
  stage : FinishStage
  publication : Option Publication := none

/-- The error of a finish whose turn is marked failed. -/
def recordFailure (db : Database) (key : TurnKey) (error : Thrown) :
    Database × FinishStage :=
  match db.updateTurn key
      { state := some .failed
        errorJson := some (some error.serviceError) } with
  | .ok failed => (failed, .settled (.error error))
  | .error updateError => (db, .settled (.error updateError))

/-- `deleteTurnRuntime` of a finish up to its first await. -/
def deleteFor (db : Database) (instanceId : InstanceId)
    (purpose : DeletionPurpose) : Database × FinishStage :=
  let (begun, progress) := Deletion.start db instanceId
  (begun, .deleting purpose progress)

/-- `failTurn` up to its first await. -/
def failTurn (db : Database) (call : FinishCall) (error : Thrown) :
    Database × FinishStage :=
  match call.record.instanceId with
  | some instanceId => deleteFor db instanceId (.failing error)
  | none => recordFailure db call.key error

/-- The last lines of `closeInstance`. -/
def readyAfterSessions (db : Database) (instanceId : InstanceId) : Database :=
  match db.getInstance instanceId with
  | some row =>
      if row.state = .running then
        db.updateInstance instanceId { state := some .ready }
      else db
  | none => db

/-- `harnessRequestId('finish', …)`. -/
def finishOperationId (key : TurnKey) : OperationId :=
  { operation := "finish", parts := [key.threadId, key.turnId] }

/-- `commitTurnRuntime` up to the snapshot. -/
def startCommit (db : Database) (commit : CommitInput) :
    Database × FinishStage :=
  match beginCommit db commit with
  | .ok begun => (begun, .snapshot commit)
  | .error error => (db, .committed (.error error))

/-- What follows the sessions of an open turn. -/
def finishRuntime (db : Database) (call : FinishCall)
    (instanceId : InstanceId) : Database × FinishStage :=
  match call.record.mode, call.record.workspaceId, call.record.expectedHead with
  | .instant, _, _ => deleteFor db instanceId .instant
  | .durable, some workspaceId, some expectedHead =>
      startCommit db
        { key := call.key
          instanceId
          workspaceId
          expectedHead
          operationId := finishOperationId call.key }
  | .durable, _, _ =>
      failTurn db call (.coded .backendError
        "Durable turn binding is incomplete")

/-- The rest of `commitTurnRuntime` once the tree is captured. -/
def finishCapture (deployment : Deployment) (db : Database)
    (objects : List String) (commit : CommitInput) :
    Except Thrown CfsObject → FinishSegment
  | .error error =>
      { db := abandonCommit db commit error, objects,
        stage := .committed (.error error) }
  | .ok tree =>
      match publishCapture deployment db commit tree with
      | (published, .ok result) =>
          { db := published
            objects
            stage := .committed (.ok result)
            publication := some
              { key := commit.key
                workspaceId := commit.workspaceId
                parentId := commit.expectedHead
                commitId := result.commitId } }
      | (abandoned, .error error) =>
          { db := abandoned, objects, stage := .committed (.error error) }

/-- The response of an instant turn. -/
def instantResponse (key : TurnKey) (instanceId : InstanceId) :
    TurnResponse :=
  { view :=
      { threadId := key.threadId
        turnId := key.turnId
        mode := .instant
        state := .finished
        instanceId := some instanceId } }

/-- The end of an instant turn whose runtime is deleted. -/
def completeInstant (db : Database) (key : TurnKey)
    (instanceId : InstanceId) : Database × FinishStage :=
  let response := instantResponse key instanceId
  match db.updateTurn key
      { state := some .finished
        resultJson := some { response := some response }
        errorJson := some none } with
  | .ok finished => (finished, .settled (.ok response.view))
  | .error error => (db, .settled (.error error))

/-- The update that a failed cleanup makes to the stored result. -/
def recordCleanupError (db : Database) (key : TurnKey) (error : Thrown) :
    Except Thrown Database :=
  let stored := (db.getTurn key).bind TurnRow.resultJson
  db.updateTurn key
    { resultJson := some
        { response := stored.bind StoredResult.response
          cleanupError := some error.message } }

/-- The end of a turn whose commit is published. -/
def completeCommitted (db : Database) (key : TurnKey)
    (result : TurnCommitResult) : FinishStage :=
  match db.getTurn key with
  | none =>
      .settled (.error (.coded .backendError
        "Turn record disappeared after commit"))
  | some finished =>
      .settled (.ok { view key finished with
        headCommit := some result.headCommit })

/-- What follows the deletion of the runtime. -/
def afterDeletion (db : Database) (key : TurnKey) (instanceId : InstanceId) :
    DeletionPurpose → Except Thrown Unit → Database × FinishStage
  | .instant, .ok () => completeInstant db key instanceId
  | .instant, .error error =>
      recordFailure (recordLost db instanceId error) key error
  | .committed result, .ok () => (db, completeCommitted db key result)
  | .committed result, .error error =>
      let lost := recordLost db instanceId error
      match recordCleanupError lost key error with
      | .ok recorded => (recorded, completeCommitted recorded key result)
      | .error updateError => (lost, .settled (.error updateError))
  | .failing error, .ok () => recordFailure db key error
  | .failing error, .error cleanupError =>
      recordFailure (recordLost db instanceId cleanupError) key error

/-- A stretch that neither stores a tree nor publishes a commit. -/
def FinishSegment.plain (objects : List String)
    (outcome : Database × FinishStage) : FinishSegment :=
  { db := outcome.1, objects, stage := outcome.2 }

/-- `finishOpen` from one await to the next. -/
def advanceFinish (deployment : Deployment) (db : Database)
    (objects : List String) (call : FinishCall) : Option FinishSegment :=
  match call.stage, call.record.instanceId with
  | .waiting, _ => none
  | .drained, none =>
      some (.plain objects (failTurn db call
        (.coded .backendError "Open turn has no runtime")))
  | .drained, some _ => some (.plain objects (db, .closingSessions))
  | .closingSessions, some instanceId =>
      match call.environment.closeSessions with
      | .ok () =>
          some (.plain objects
            (readyAfterSessions db instanceId, .sessionsClosed (.ok ())))
      | .error error =>
          some (.plain objects (db, .sessionsClosed (.error error)))
  | .sessionsClosed (.error error), _ =>
      some (.plain objects (failTurn db call error))
  | .sessionsClosed (.ok ()), some instanceId =>
      some (.plain objects (finishRuntime db call instanceId))
  | .snapshot commit, _ =>
      match call.environment.snapshot with
      | .ok guestArchive =>
          some (.plain objects (db, .capture commit guestArchive))
      | .error error =>
          some (finishCapture deployment db objects commit (.error error))
  | .capture commit guestArchive, _ =>
      let captured : Except Thrown CfsObject :=
        call.environment.capture.map fun (treeDigest, sizeBytes) =>
          { treeDigest, path := deployment.treePath treeDigest, sizeBytes }
      let stored := match captured with
        | .ok tree => tree.path :: objects
        | .error _ => objects
      if guestArchive then
        some { db, objects := stored, stage := .removeSnapshot commit captured }
      else some (finishCapture deployment db stored commit captured)
  | .removeSnapshot commit captured, _ =>
      match call.environment.removeSnapshot with
      | .ok () => some (finishCapture deployment db objects commit captured)
      | .error error =>
          some (finishCapture deployment db objects commit (.error error))
  | .committed (.error error), _ =>
      some (.plain objects (failTurn db call error))
  | .committed (.ok result), some instanceId =>
      some (.plain objects (deleteFor db instanceId (.committed result)))
  | .deleting purpose (.done result), some instanceId =>
      some (.plain objects
        (afterDeletion db call.key instanceId purpose result))
  | .deleting purpose progress, some instanceId =>
      (Deletion.resume call.environment.deletion db instanceId progress).map
        fun (next, later) =>
          .plain objects (next, .deleting purpose later)
  | _, _ => none

end Electrosphere
