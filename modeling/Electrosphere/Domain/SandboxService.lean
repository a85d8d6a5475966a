import Electrosphere.Storage.CommitDigest
import Electrosphere.Storage.Repository

/-!
# The sandbox service

The asynchronous functions of the service are cut at their awaits.  What runs
between two awaits is one function on the database, and the answers of the
backend, the file system and the session manager are environments that a call
is given when it starts.
-/

namespace Electrosphere

/-! ## Initialisation and thread workspaces -/

/-- The statements `initialize` runs once the empty tree is exported. -/
def initializeDatabase (deployment : Deployment) (db : Database) :
    Except Thrown Database :=
  (db.putTreeObject deployment.emptyTree).putCommit deployment.emptyCommit
    { treeDigest := deployment.emptyTree.treeDigest
      contractDigest := emptyContractDigest
      parentId := none }

/-- A workspace and the head of its `main` ref. -/
structure WorkspaceView where
  workspaceId : WorkspaceId
  headCommit : Digest
  deriving DecidableEq

def workspaceView (db : Database) (id : WorkspaceId) :
    Except Thrown WorkspaceView :=
  if db.hasWorkspace id then
    match db.getRef id mainRef with
    | some headCommit => .ok { workspaceId := id, headCommit }
    | none =>
        .error (.coded .notFound "Thread workspace main ref not found")
  else .error (.coded .notFound "Thread workspace not found")

/-- `ensureThreadWorkspace`, which runs without awaiting.  `fresh` is the
identifier it draws for a new workspace. -/
def ensureThreadWorkspace (canonicalEmpty : Option Digest) (db : Database)
    (threadId : ThreadId) (fresh : WorkspaceId) :
    Database × Except Thrown WorkspaceView :=
  match db.getThreadWorkspace threadId with
  | some existing => (db, workspaceView db existing)
  | none =>
      match canonicalEmpty with
      | none => (db, .error (.plain "SandboxService is not initialized"))
      | some headCommit =>
          match db.createThreadWorkspace threadId fresh headCommit with
          | .ok created => (created, .ok { workspaceId := fresh, headCommit })
          | .error error =>
              match db.getThreadWorkspace threadId with
              | some existing => (db, workspaceView db existing)
              | none => (db, .error error)

/-! ## Creating a runtime -/

structure RuntimeInput where
  instanceId : InstanceId
  kind : TurnMode
  baseCommit : Digest
  workspaceId : Option WorkspaceId
  backend : Backend
  network : NetworkProfile
  resourceProfile : ResourceProfile
  deriving DecidableEq

/-- The answer of a backend's `preflight`. -/
inductive Probe where
  | available
  | unavailable (reason : Option String)
  deriving DecidableEq

/-- The lookups and argument checks that open `createTurnRuntime`. -/
def checkRuntimeInput (db : Database) (input : RuntimeInput) :
    Except Thrown Unit :=
  match db.getCommit input.baseCommit with
  | none => .error (.coded .notFound "Commit not found")
  | some commit =>
      if (db.getTreeObject commit.treeDigest).isNone then
        .error (.coded .notFound "Commit tree object not found")
      else if input.kind = .durable ∧ input.workspaceId = none then
        .error (.coded .invalidArgument
          "Durable runtime requires a workspace")
      else if input.kind = .instant ∧ input.workspaceId ≠ none then
        .error (.coded .invalidArgument
          "Instant runtime cannot use a workspace")
      else .ok ()

def Backend.name : Backend → String
  | .docker => "docker"
  | .firecracker => "firecracker"

/-- What follows the answer of `preflight`. -/
def checkProbe (backend : Backend) : Except Thrown Probe → Except Thrown Unit
  | .error error => .error error
  | .ok .available => .ok ()
  | .ok (.unavailable reason) =>
      .error (.coded .backendUnavailable
        (reason.getD (backend.name ++ " backend unavailable")))

/-- The row that `createTurnRuntime` inserts. -/
def provisioningRow (deployment : Deployment) (input : RuntimeInput) :
    InstanceRow :=
  { kind := input.kind
    backend := input.backend
    state := .provisioning
    workspaceId := input.workspaceId
    baseCommit := input.baseCommit
    workspacePath := deployment.workspacePath input.instanceId
    resourceProfile := input.resourceProfile
    network := input.network }

/-- The update after the backend has created the runtime. -/
def recordHandle (db : Database) (input : RuntimeInput) (opaqueId : String) :
    Database :=
  db.updateInstance input.instanceId
    { state := some .ready
      backendHandle := some (some
        { backend := input.backend, instanceId := input.instanceId,
          opaqueId }) }

/-- The update after the backend has failed to create the runtime. -/
def recordCreateFailure (db : Database) (id : InstanceId) (error : Thrown) :
    Database :=
  db.updateInstance id
    { state := some .failed, lastError := some (some error.message) }

/-- The update of the layers above when deleting a runtime has failed. -/
def recordLost (db : Database) (id : InstanceId) (error : Thrown) : Database :=
  db.updateInstance id
    { state := some .lost, lastError := some (some error.message) }

/-! ## Deleting a runtime -/

/-- What destroying the runtime and removing its directory answer. -/
structure DeletionEnvironment where
  destroy : Except Thrown Unit := .ok ()
  removeDirectory : Except Thrown Unit := .ok ()

/-- Where a `deleteTurnRuntime` call stands. -/
inductive Deletion where
  | destroying
  | removing
  | done (result : Except Thrown Unit)

namespace Deletion

/-- `deleteTurnRuntime` up to its first await. -/
def start (db : Database) (id : InstanceId) : Database × Deletion :=
  match db.getInstance id with
  | none => (db, .done (.ok ()))
  | some row =>
      if row.state = .terminated then (db, .done (.ok ()))
      else
        (db.updateInstance id { state := some .terminating },
          if row.backendHandle.isSome then .destroying else .removing)

/-- `deleteTurnRuntime` from one await to the next. -/
def resume (environment : DeletionEnvironment) (db : Database)
    (id : InstanceId) : Deletion → Option (Database × Deletion)
  | .destroying =>
      match environment.destroy with
      | .ok () => some (db, .removing)
      | .error error => some (db, .done (.error error))
  | .removing =>
      match environment.removeDirectory with
      | .ok () =>
          some (db.updateInstance id
            { state := some .terminated, backendHandle := some none },
            .done (.ok ()))
      | .error error => some (db, .done (.error error))
  | .done _ => none

end Deletion

/-! ## Committing a runtime -/

/-- The argument of `commitTurnRuntime`; its ref is always `main`. -/
structure CommitInput where
  key : TurnKey
  instanceId : InstanceId
  workspaceId : WorkspaceId
  expectedHead : Digest
  operationId : OperationId
  deriving DecidableEq

structure TurnCommitResult where
  commitId : Digest
  treeDigest : Digest
  workspaceId : WorkspaceId
  deriving DecidableEq

def TurnCommitResult.headCommit (result : TurnCommitResult) : Digest :=
  result.commitId

/-- `Turn runtime is …` names the state in the source's capitals. -/
def InstanceState.name : InstanceState → String
  | .provisioning => "PROVISIONING"
  | .ready => "READY"
  | .running => "RUNNING"
  | .committing => "COMMITTING"
  | .terminating => "TERMINATING"
  | .terminated => "TERMINATED"
  | .failed => "FAILED"
  | .lost => "LOST"

/-- `commitTurnRuntime` up to the snapshot: its checks, the operation row and
the state `COMMITTING`. -/
def beginCommit (db : Database) (input : CommitInput) :
    Except Thrown Database :=
  match db.getInstance input.instanceId with
  | none => .error (.coded .notFound "Turn runtime not found")
  | some record =>
      if record.backendHandle = none then
        .error (.coded .notFound "Turn runtime not found")
      else if record.kind ≠ .durable ∨
          record.workspaceId ≠ some input.workspaceId ∨
          record.baseCommit ≠ input.expectedHead then
        .error (.coded .invalidArgument
          "Turn runtime binding does not match commit request")
      else if record.state = .running then
        .error (.coded .instanceBusy "Turn runtime has running sessions")
      else if record.state ≠ .ready then
        .error (.coded .instanceBusy
          ("Turn runtime is " ++ record.state.name))
      else if (db.getRef input.workspaceId mainRef).isNone then
        .error (.coded .notFound "Thread workspace ref not found")
      else
        match db.beginHarnessOperation input.operationId
            "commit_turn_runtime" input.operationId with
        | .error error => .error error
        | .ok begun =>
            .ok (begun.updateInstance input.instanceId
              { state := some .committing })

/-- The argument that `commitTurnRuntime` passes to `publishTurnCommit` for a
captured tree. -/
def publishInput (deployment : Deployment) (input : CommitInput)
    (tree : CfsObject) : PublishInput :=
  let newCommit := deployment.commitDigest emptyContractDigest
    tree.treeDigest (some input.expectedHead)
  { operationId := input.operationId
    key := input.key
    instanceId := input.instanceId
    workspaceId := input.workspaceId
    ref := mainRef
    expectedHead := input.expectedHead
    tree
    commitId := newCommit
    contractDigest := emptyContractDigest
    response :=
      { view :=
          { threadId := input.key.threadId
            turnId := input.key.turnId
            mode := .durable
            state := .finished
            instanceId := some input.instanceId
            workspaceId := some input.workspaceId
            headCommit := some newCommit }
        commitId := some newCommit
        treeDigest := some tree.treeDigest } }

/-- The catch block of `commitTurnRuntime`. -/
def abandonCommit (db : Database) (input : CommitInput) (error : Thrown) :
    Database :=
  let failed := db.failOperation input.operationId error
  match failed.getInstance input.instanceId with
  | some latest =>
      if latest.state = .committing then
        failed.updateInstance input.instanceId { state := some .ready }
      else failed
  | none => failed

/-- `commitTurnRuntime` from the captured tree to its end. -/
def publishCapture (deployment : Deployment) (db : Database)
    (input : CommitInput) (tree : CfsObject) :
    Database × Except Thrown TurnCommitResult :=
  let publish := publishInput deployment input tree
  match db.publishTurnCommit publish with
  | .ok (published, true) =>
      (published, .ok
        { commitId := publish.commitId
          treeDigest := tree.treeDigest
          workspaceId := input.workspaceId })
  | .ok (_, false) =>
      let error : Thrown := .service
        { code := .headConflict
          message := "Thread workspace ref changed"
          details := some (.headConflict publish.commitId
            (db.getRef input.workspaceId mainRef)) }
      (abandonCommit db input error, .error error)
  | .error error => (abandonCommit db input error, .error error)

/-! ## Shutdown -/

/-- `close`: every interrupted instance is destroyed and marked terminated,
whatever the backend answers. -/
def closeSandboxService (db : Database) : Database :=
  (db.listInstances InstanceState.interrupted).foldl
    (fun current entry =>
      current.updateInstance entry.1
        { state := some .terminated, backendHandle := some none }) db

end Electrosphere
