import Electrosphere.Domain.Types
import Electrosphere.Foundation.Table

/-!
# The SQLite schema

One record per table the turn, workspace and garbage-collection logic reads or
writes.  JSON columns hold the value that is stringified into them, and
timestamps are left out because nothing reads them.  The constraints of the
schema are decidable conditions on rows, which the repository checks.
-/

namespace Electrosphere

open Foundation

structure CommitRow where
  treeDigest : Digest
  contractDigest : Digest
  parentId : Option Digest
  deriving DecidableEq

structure TreeObjectRow where
  path : String
  sizeBytes : Nat
  deriving DecidableEq

structure BackendHandle where
  backend : Backend
  instanceId : InstanceId
  opaqueId : String
  deriving DecidableEq

structure InstanceRow where
  kind : TurnMode
  backend : Backend
  state : InstanceState
  workspaceId : Option WorkspaceId
  baseCommit : Digest
  backendHandle : Option BackendHandle := none
  workspacePath : String
  resourceProfile : ResourceProfile
  network : NetworkProfile
  lastError : Option String := none
  deriving DecidableEq

/-- The normalised start request, compared when a start is repeated. -/
structure StartRequest where
  mode : TurnMode
  backend : Option Backend := none
  network : Option NetworkProfile := none
  resourceProfile : Option ResourceProfile := none
  deriving DecidableEq

structure TurnView where
  threadId : ThreadId
  turnId : TurnId
  mode : TurnMode
  state : TurnState
  instanceId : Option InstanceId := none
  workspaceId : Option WorkspaceId := none
  headCommit : Option Digest := none
  deriving DecidableEq

/-- The response stored for a published turn: its view and its commit. -/
structure TurnResponse where
  view : TurnView
  commitId : Option Digest := none
  treeDigest : Option Digest := none
  deriving DecidableEq

/-- `result_json`: a response, to which a failed cleanup adds its message.
The response is missing when the message was added to an empty object. -/
structure StoredResult where
  response : Option TurnResponse
  cleanupError : Option String := none
  deriving DecidableEq

structure TurnRow where
  mode : TurnMode
  state : TurnState
  instanceId : Option InstanceId := none
  workspaceId : Option WorkspaceId := none
  expectedHead : Option Digest := none
  requestJson : StartRequest
  resultJson : Option StoredResult := none
  errorJson : Option ServiceError := none
  deriving DecidableEq

/-- `harnessRequestId`: an operation and its parts, which the source hashes
with separators in between. -/
structure OperationId where
  operation : String
  parts : List String
  deriving DecidableEq

inductive OperationStatus where
  | running
  | succeeded
  | failed
  deriving DecidableEq

structure OperationRow where
  operationKind : String
  clientRequestId : OperationId
  status : OperationStatus
  responseJson : Option TurnResponse := none
  errorJson : Option ServiceError := none
  deriving DecidableEq

/-- The name of the only ref a workspace has. -/
def mainRef : String := "main"

structure Database where
  workspaces : Table WorkspaceId Unit
  threadWorkspaces : Table ThreadId WorkspaceId
  commits : Table Digest CommitRow
  refs : Table (WorkspaceId × String) Digest
  treeObjects : Table Digest TreeObjectRow
  instances : Table InstanceId InstanceRow
  turns : Table TurnKey TurnRow
  operations : Table OperationId OperationRow

def Database.empty : Database :=
  { workspaces := ∅, threadWorkspaces := ∅, commits := ∅, refs := ∅,
    treeObjects := ∅, instances := ∅, turns := ∅, operations := ∅ }

namespace TurnState

/-- The states under the partial unique index `turns_open_thread_unique`. -/
def active : TurnState → Bool
  | .starting | .opened | .finishing => true
  | .finished | .failed => false

end TurnState

namespace InstanceState

/-- The states that `listGcRoots` leaves out. -/
def dead : InstanceState → Bool
  | .terminated | .failed | .lost => true
  | _ => false

/-- The states that recovery and shutdown list as interrupted. -/
def interrupted : InstanceState → Bool
  | .provisioning | .ready | .running | .committing | .terminating => true
  | _ => false

theorem interrupted_eq_not_dead (state : InstanceState) :
    state.interrupted = !state.dead := by
  cases state <;> rfl

end InstanceState

namespace Database

def hasWorkspace (db : Database) (id : WorkspaceId) : Bool :=
  (db.workspaces.lookup id).isSome

def hasCommit (db : Database) (id : Digest) : Bool :=
  (db.commits.lookup id).isSome

def hasInstance (db : Database) (id : InstanceId) : Bool :=
  (db.instances.lookup id).isSome

/-- The foreign keys of a turn row. -/
def turnReferencesExist (db : Database) (row : TurnRow) : Bool :=
  row.instanceId.all db.hasInstance && row.workspaceId.all db.hasWorkspace &&
    row.expectedHead.all db.hasCommit

/-- The foreign keys of an instance row. -/
def instanceReferencesExist (db : Database) (row : InstanceRow) : Bool :=
  row.workspaceId.all db.hasWorkspace && db.hasCommit row.baseCommit

/-- The other rows of a thread that are under the partial unique index. -/
def otherActiveTurns (db : Database) (key : TurnKey) :
    List (TurnKey × TurnRow) :=
  db.turns.select fun other row =>
    decide (other.threadId = key.threadId) && decide (other ≠ key) &&
      row.state.active

/-- The index `turns_open_thread_unique` admits the row under the key. -/
def openThreadUnique (db : Database) (key : TurnKey) (row : TurnRow) : Bool :=
  !row.state.active || (db.otherActiveTurns key).isEmpty

/-- Some row still refers to the commit, so its deletion violates a foreign
key. -/
def commitReferenced (db : Database) (id : Digest) : Bool :=
  !(db.commits.select fun _ row => decide (row.parentId = some id)).isEmpty ||
    !(db.refs.select fun _ head => decide (head = id)).isEmpty ||
    !(db.instances.select fun _ row => decide (row.baseCommit = id)).isEmpty ||
    !(db.turns.select fun _ row =>
      decide (row.expectedHead = some id)).isEmpty

theorem openThreadUnique_iff {db : Database} {key : TurnKey} {row : TurnRow} :
    db.openThreadUnique key row = true ↔
      (row.state.active = true → ∀ other otherRow,
        db.turns.lookup other = some otherRow →
        other.threadId = key.threadId → otherRow.state.active = true →
        other = key) := by
  unfold openThreadUnique otherActiveTurns
  cases isActive : row.state.active with
  | false => simp
  | true =>
      simp only [Bool.not_true, Bool.false_or, List.isEmpty_iff,
        List.eq_nil_iff_forall_not_mem, forall_const, Prod.forall,
        AList.mem_select, Bool.and_eq_true, decide_eq_true_eq, not_and,
        and_imp]
      constructor
      · intro none other otherRow found thread otherActive
        by_contra different
        exact none other otherRow found thread different otherActive
      · intro unique other otherRow found thread different otherActive
        exact different (unique other otherRow found thread otherActive)

theorem openThreadUnique_of_inactive {db : Database} {key : TurnKey}
    {row : TurnRow} (inactive : row.state.active = false) :
    db.openThreadUnique key row = true := by
  simp [openThreadUnique, inactive]

end Database

end Electrosphere
