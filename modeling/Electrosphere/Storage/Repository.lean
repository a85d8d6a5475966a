import Electrosphere.Storage.Schema
import Mathlib.Data.List.Sort

/-!
# The repository

Each definition is one statement or one transaction of the source's
repository.  A statement that violates a constraint fails and leaves the
database as it was; every other statement succeeds.
-/

namespace Electrosphere

open Foundation

def foreignKeyFailure : Thrown := .plain "FOREIGN KEY constraint failed"

def uniqueFailure (columns : String) : Thrown :=
  .plain ("UNIQUE constraint failed: " ++ columns)

/-- The columns an `updateTurn` call sets. -/
structure TurnUpdate where
  state : Option TurnState := none
  instanceId : Option InstanceId := none
  workspaceId : Option WorkspaceId := none
  expectedHead : Option Digest := none
  resultJson : Option StoredResult := none
  errorJson : Option (Option ServiceError) := none

def TurnUpdate.apply (update : TurnUpdate) (row : TurnRow) : TurnRow :=
  { row with
    state := update.state.getD row.state
    instanceId := update.instanceId.or row.instanceId
    workspaceId := update.workspaceId.or row.workspaceId
    expectedHead := update.expectedHead.or row.expectedHead
    resultJson := update.resultJson.or row.resultJson
    errorJson := update.errorJson.getD row.errorJson }

/-- The columns an `updateInstance` call sets. -/
structure InstanceUpdate where
  state : Option InstanceState := none
  backendHandle : Option (Option BackendHandle) := none
  lastError : Option (Option String) := none

def InstanceUpdate.apply (update : InstanceUpdate) (row : InstanceRow) :
    InstanceRow :=
  { row with
    state := update.state.getD row.state
    backendHandle := update.backendHandle.getD row.backendHandle
    lastError := update.lastError.getD row.lastError }

/-- The argument of `publishTurnCommit`. -/
structure PublishInput where
  operationId : OperationId
  key : TurnKey
  instanceId : InstanceId
  workspaceId : WorkspaceId
  ref : String
  expectedHead : Digest
  tree : CfsObject
  commitId : Digest
  contractDigest : Digest
  response : TurnResponse

namespace Database

/-! ## Commits, trees and refs -/

/-- An insert into `commits` with `onConflictDoNothing`. -/
def putCommit (db : Database) (id : Digest) (row : CommitRow) :
    Except Thrown Database :=
  if db.hasCommit id then .ok db
  else if row.parentId.all db.hasCommit then
    .ok { db with commits := db.commits.insert id row }
  else .error foreignKeyFailure

/-- An insert into `tree_objects` with `onConflictDoNothing`. -/
def putTreeObject (db : Database) (tree : CfsObject) : Database :=
  if (db.treeObjects.lookup tree.treeDigest).isSome then db
  else
    { db with
      treeObjects := db.treeObjects.insert tree.treeDigest
        { path := tree.path, sizeBytes := tree.sizeBytes } }

def getCommit (db : Database) (id : Digest) : Option CommitRow :=
  db.commits.lookup id

def getTreeObject (db : Database) (digest : Digest) : Option TreeObjectRow :=
  db.treeObjects.lookup digest

def getRef (db : Database) (workspaceId : WorkspaceId) (name : String) :
    Option Digest :=
  db.refs.lookup (workspaceId, name)

def getThreadWorkspace (db : Database) (threadId : ThreadId) :
    Option WorkspaceId :=
  db.threadWorkspaces.lookup threadId

/-- The three inserts that `createThreadWorkspace` and `createThreadFork` make
in one transaction. -/
def insertThreadWorkspace (db : Database) (threadId : ThreadId)
    (workspaceId : WorkspaceId) (headCommit : Digest) :
    Except Thrown Database :=
  if db.hasWorkspace workspaceId then .error (uniqueFailure "workspaces.id")
  else if (db.refs.lookup (workspaceId, mainRef)).isSome then
    .error (uniqueFailure "refs.workspace_id, refs.name")
  else if !db.hasCommit headCommit then .error foreignKeyFailure
  else if (db.threadWorkspaces.lookup threadId).isSome then
    .error (uniqueFailure "thread_workspaces.thread_id")
  else if !(db.threadWorkspaces.select fun _ other =>
      decide (other = workspaceId)).isEmpty then
    .error (uniqueFailure "thread_workspaces.workspace_id")
  else
    .ok { db with
      workspaces := db.workspaces.insert workspaceId ()
      refs := db.refs.insert (workspaceId, mainRef) headCommit
      threadWorkspaces := db.threadWorkspaces.insert threadId workspaceId }

def createThreadWorkspace (db : Database) (threadId : ThreadId)
    (workspaceId : WorkspaceId) (headCommit : Digest) :
    Except Thrown Database :=
  db.insertThreadWorkspace threadId workspaceId headCommit

def createThreadFork (db : Database) (sourceWorkspaceId : WorkspaceId)
    (destinationThreadId : ThreadId) (destinationWorkspaceId : WorkspaceId)
    (headCommit : Digest) : Except Thrown Database :=
  if !db.hasWorkspace sourceWorkspaceId then
    .error (.coded .notFound "Source thread workspace not found")
  else
    db.insertThreadWorkspace destinationThreadId destinationWorkspaceId
      headCommit

/-- The loop of `commitBelongsToHistory`.  Each round visits a commit it has
not seen, so one round more than there are commits is enough. -/
def historyLoop (db : Database) (candidate : Digest) :
    Nat → List Digest → Option Digest → Bool
  | 0, _, _ => false
  | _, _, none => false
  | rounds + 1, visited, some current =>
      if current ∈ visited then false
      else if current = candidate then true
      else
        historyLoop db candidate rounds (current :: visited)
          ((db.getCommit current).bind CommitRow.parentId)

def commitBelongsToHistory (db : Database) (head candidate : Digest) : Bool :=
  db.historyLoop candidate (db.commits.keys.length + 2) [] (some head)

/-! ## Turns -/

def getTurn (db : Database) (key : TurnKey) : Option TurnRow :=
  db.turns.lookup key

def getOpenTurn (db : Database) (threadId : ThreadId) :
    Option (TurnKey × TurnRow) :=
  (db.turns.select fun key row =>
    decide (key.threadId = threadId) && row.state.active).head?

/-- Rows are listed by thread and then by turn. -/
def turnOrder (left right : TurnKey × TurnRow) : Prop :=
  left.1.threadId < right.1.threadId ∨
    (left.1.threadId = right.1.threadId ∧ left.1.turnId ≤ right.1.turnId)

instance : DecidableRel turnOrder := fun _ _ =>
  inferInstanceAs (Decidable (_ ∨ _))

def listTurns (db : Database) (states : List TurnState) :
    List (TurnKey × TurnRow) :=
  (db.turns.select fun _ row => decide (row.state ∈ states)).insertionSort
    turnOrder

def createTurn (db : Database) (key : TurnKey) (row : TurnRow) :
    Except Thrown Database :=
  if (db.turns.lookup key).isSome then
    .error (uniqueFailure "turns.thread_id, turns.turn_id")
  else if !db.openThreadUnique key row then
    .error (uniqueFailure "turns.thread_id")
  else if !db.turnReferencesExist row then .error foreignKeyFailure
  else .ok { db with turns := db.turns.insert key row }

def updateTurn (db : Database) (key : TurnKey) (update : TurnUpdate) :
    Except Thrown Database :=
  match db.turns.lookup key with
  | none => .ok db
  | some row =>
      if !db.openThreadUnique key (update.apply row) then
        .error (uniqueFailure "turns.thread_id")
      else if !db.turnReferencesExist (update.apply row) then
        .error foreignKeyFailure
      else .ok { db with turns := db.turns.insert key (update.apply row) }

/-! ## Instances -/

def createInstance (db : Database) (id : InstanceId) (row : InstanceRow) :
    Except Thrown Database :=
  if db.hasInstance id then .error (uniqueFailure "instances.id")
  else if !db.instanceReferencesExist row then .error foreignKeyFailure
  else .ok { db with instances := db.instances.insert id row }

def updateInstance (db : Database) (id : InstanceId)
    (update : InstanceUpdate) : Database :=
  { db with instances := db.instances.modify id update.apply }

def getInstance (db : Database) (id : InstanceId) : Option InstanceRow :=
  db.instances.lookup id

def listInstances (db : Database) (states : InstanceState → Bool) :
    List (InstanceId × InstanceRow) :=
  db.instances.select fun _ row => states row.state

/-! ## Operations -/

def beginHarnessOperation (db : Database) (id : OperationId) (kind : String)
    (clientRequestId : OperationId) : Except Thrown Database :=
  if (db.operations.lookup id).isSome then
    .error (uniqueFailure "operations.id")
  else if !(db.operations.select fun _ row =>
      decide (row.operationKind = kind) &&
        decide (row.clientRequestId = clientRequestId)).isEmpty then
    .error (uniqueFailure
      "operations.operation_kind, operations.client_request_id")
  else
    .ok { db with
      operations := db.operations.insert id
        { operationKind := kind, clientRequestId, status := .running } }

def failOperation (db : Database) (id : OperationId) (error : Thrown) :
    Database :=
  { db with
    operations := db.operations.modify id fun row =>
      { row with status := .failed, errorJson := some error.serviceError } }

def succeedOperation (db : Database) (id : OperationId)
    (response : TurnResponse) : Database :=
  { db with
    operations := db.operations.modify id fun row =>
      { row with status := .succeeded, responseJson := some response } }

def deleteRunningOperations (db : Database) : Database :=
  { db with
    operations := (db.operations.select fun _ row =>
      decide (row.status = .running)).foldl
        (fun operations entry => operations.erase entry.1) db.operations }

/-! ## Publishing a commit -/

/-- The row that a publish updates is still the finishing turn it belongs
to. -/
def publishable (input : PublishInput) (row : TurnRow) : Bool :=
  decide (row.state = .finishing) &&
    decide (row.instanceId = some input.instanceId) &&
    decide (row.workspaceId = some input.workspaceId) &&
    decide (row.expectedHead = some input.expectedHead)

/-- The row of a turn whose commit has been published. -/
def publishedRow (input : PublishInput) (row : TurnRow) : TurnRow :=
  { row with
    state := .finished
    resultJson := some { response := some input.response }
    errorJson := none }

/-- The inserts of tree and commit that open the transaction. -/
def insertCapture (db : Database) (input : PublishInput) :
    Except Thrown Database :=
  (db.putTreeObject input.tree).putCommit input.commitId
    { treeDigest := input.tree.treeDigest
      contractDigest := input.contractDigest
      parentId := some input.expectedHead }

/-- The updates that follow once the ref and the turn row have matched. -/
def recordPublication (db : Database) (input : PublishInput)
    (row : TurnRow) : Database :=
  ({ db with
      refs := db.refs.insert (input.workspaceId, input.ref) input.commitId
      turns := db.turns.insert input.key (publishedRow input row) }
    |>.updateInstance input.instanceId { state := some .ready })
    |>.succeedOperation input.operationId input.response

/-- One transaction: `true` when it commits, `false` when the ref has moved,
and an error when the turn is no longer finishing.  In the last two cases the
database is rolled back. -/
def publishTurnCommit (db : Database) (input : PublishInput) :
    Except Thrown (Database × Bool) :=
  match db.insertCapture input with
  | .error error => .error error
  | .ok captured =>
      if captured.refs.lookup (input.workspaceId, input.ref) =
          some input.expectedHead then
        match captured.turns.lookup input.key with
        | none => .error (.coded .turnClosed "Turn is not finishing")
        | some row =>
            if publishable input row then
              .ok (captured.recordPublication input row, true)
            else .error (.coded .turnClosed "Turn is not finishing")
      else .ok (db, false)

/-! ## Garbage collection -/

def listGcRoots (db : Database) : List Digest :=
  (db.refs.select fun _ _ => true).map Prod.snd ++
    (db.instances.select fun _ row => !row.state.dead).map
      fun entry => entry.2.baseCommit

def listCommits (db : Database) : List (Digest × CommitRow) :=
  db.commits.select fun _ _ => true

def listTreeObjects (db : Database) : List (Digest × TreeObjectRow) :=
  db.treeObjects.select fun _ _ => true

def deleteTreeObject (db : Database) (digest : Digest) : Database :=
  { db with treeObjects := db.treeObjects.erase digest }

def deleteCommit (db : Database) (id : Digest) : Except Thrown Database :=
  let remaining := { db with commits := db.commits.erase id }
  if db.hasCommit id && remaining.commitReferenced id then
    .error foreignKeyFailure
  else .ok remaining

end Database

end Electrosphere
