import Electrosphere.Domain.SandboxService
import Electrosphere.Foundation.ParentForest

/-!
# Recovery and garbage collection

`recover` runs before the daemon serves and `gc` after it has stopped, so both
are functions of the whole store.  The garbage collector reads everything that
decides what it removes before it removes anything that those reads depend on;
its removals are a list of actions in the order of the source, and an aborted
run is a prefix of that list.
-/

namespace Electrosphere

open Foundation

/-! ## Recovery -/

/-- One round of `cleanupFinishedTurnRuntimes`; `destroy` is what the backend
answers for the runtime of an instance. -/
def cleanupFinishedTurnRuntime (destroy : InstanceId → Except Thrown Unit)
    (db : Database) (turn : TurnKey × TurnRow) : Database :=
  match turn.2.mode, turn.2.instanceId with
  | .durable, some id =>
      match db.getInstance id with
      | some row =>
          if row.backendHandle = none ∨ row.state = .terminated then db
          else
            match destroy id with
            | .ok () =>
                db.updateInstance id
                  { state := some .terminated, backendHandle := some none,
                    lastError := some none }
            | .error error => recordLost db id error
      | none => db
  | _, _ => db

def cleanupFinishedTurnRuntimes (destroy : InstanceId → Except Thrown Unit)
    (db : Database) : Database :=
  (db.listTurns [.finished]).foldl (cleanupFinishedTurnRuntime destroy) db

/-- The round of `recover` for an interrupted instance. -/
def recoverInstance (destroy : InstanceId → Except Thrown Unit)
    (db : Database) (entry : InstanceId × InstanceRow) : Database :=
  let destroyed : Bool :=
    entry.2.backendHandle.isSome &&
      match destroy entry.1 with
      | .ok () => true
      | .error _ => false
  db.updateInstance entry.1
    { state := some .lost
      backendHandle := if destroyed then some none else none
      lastError := some (some
        "Daemon restarted during active instance state") }

def restartError : ServiceError :=
  { code := .turnClosed, message := "Daemon restarted during active turn" }

/-- The round of `recover` for an active turn. -/
def recoverTurn (db : Database) (turn : TurnKey × TurnRow) :
    Except Thrown Database :=
  db.updateTurn turn.1
    { state := some .failed, errorJson := some (some restartError) }

/-- The statements of `recover` up to the loop over the active turns. -/
def stopInterrupted (destroy : InstanceId → Except Thrown Unit)
    (db : Database) : Database :=
  let cleaned := cleanupFinishedTurnRuntimes destroy
    db.deleteRunningOperations
  (cleaned.listInstances InstanceState.interrupted).foldl
    (recoverInstance destroy) cleaned

def recover (destroy : InstanceId → Except Thrown Unit) (db : Database) :
    Except Thrown Database :=
  let stopped := stopInterrupted destroy db
  (stopped.listTurns [.starting, .opened, .finishing]).foldlM recoverTurn
    stopped

/-! ## Reachability -/

/-- The parent link of a commit row. -/
def Database.parent (db : Database) (id : Digest) : Option Digest :=
  (db.getCommit id).bind CommitRow.parentId

/-- The marking loop of `gc`.  A round takes a pending commit, and no more
commits become pending than there are rows. -/
def reachableCommits (db : Database) : List Digest :=
  collect db.parent (db.listGcRoots.length + db.listCommits.length)
    db.listGcRoots []

def reachableTrees (db : Database) : List Digest :=
  (db.listCommits.filter fun entry =>
    decide (entry.1 ∈ reachableCommits db)).map fun entry =>
      entry.2.treeDigest

/-- `depthOf`. -/
def depthOf (db : Database) (id : Digest) : Nat :=
  depth db.parent db.listCommits.length id

/-- The comparison by which `gc` sorts: deeper commits first. -/
def deeperFirst (db : Database)
    (left right : Digest × CommitRow) : Prop :=
  depthOf db right.1 ≤ depthOf db left.1

instance (db : Database) : DecidableRel (deeperFirst db) := fun _ _ =>
  inferInstanceAs (Decidable (_ ≤ _))

def unreachableCommits (db : Database) : List (Digest × CommitRow) :=
  (db.listCommits.filter fun entry =>
    decide (entry.1 ∉ reachableCommits db)).insertionSort (deeperFirst db)

/-! ## The collector -/

/-- The database and the files below the directory of trees. -/
structure Store where
  db : Database
  objects : List String

inductive GcAction where
  | removeFile (path : String)
  | deleteTreeObject (digest : Digest)
  | deleteCommit (id : Digest)
  | removeDirectory (path : String)

/-- A file below a directory. -/
def isBelow (directory path : String) : Bool :=
  (directory.toList ++ ['/']).isPrefixOf path.toList

/-- `dirname` of a path with a separator. -/
def dirname (path : String) : String :=
  String.ofList
    (path.toList.reverse.dropWhile fun letter => letter != '/').tail.reverse

def GcAction.apply (store : Store) : GcAction → Except Thrown Store
  | .removeFile path =>
      .ok { store with
        objects := store.objects.filter fun file => file != path }
  | .deleteTreeObject digest =>
      .ok { store with db := store.db.deleteTreeObject digest }
  | .deleteCommit id =>
      match store.db.deleteCommit id with
      | .ok db => .ok { store with db }
      | .error error => .error error
  | .removeDirectory path =>
      .ok { store with
        objects := store.objects.filter fun file => !isBelow path file }

/-- Perform actions until one of them throws. -/
def performActions : Store → List GcAction → Store × Except Thrown Unit
  | store, [] => (store, .ok ())
  | store, action :: actions =>
      match action.apply store with
      | .ok next => performActions next actions
      | .error error => (store, .error error)

/-- The files without a row in `tree_objects`. -/
def untrackedFiles (store : Store) : List String :=
  store.objects.filter fun path =>
    decide (path ∉ store.db.listTreeObjects.map fun entry => entry.2.path)

def unreachableTrees (db : Database) : List (Digest × TreeObjectRow) :=
  db.listTreeObjects.filter fun entry =>
    decide (entry.1 ∉ reachableTrees db)

/-- What `gc` removes once it has cleaned up finished runtimes. -/
def gcActions (store : Store) : List GcAction :=
  (untrackedFiles store).map .removeFile ++
    (unreachableTrees store.db).flatMap (fun entry =>
      [.removeFile entry.2.path, .deleteTreeObject entry.1]) ++
    (unreachableCommits store.db).map (fun entry => .deleteCommit entry.1) ++
    (store.db.listInstances InstanceState.dead).map fun entry =>
      .removeDirectory (dirname entry.2.workspacePath)

structure GcResult where
  deletedTrees : Nat
  deletedCommits : Nat
  deriving DecidableEq

/-- The cleanup that opens `gc`. -/
def Store.cleaned (destroy : InstanceId → Except Thrown Unit)
    (store : Store) : Store :=
  { store with db := cleanupFinishedTurnRuntimes destroy store.db }

def gc (destroy : InstanceId → Except Thrown Unit) (store : Store) :
    Store × Except Thrown GcResult :=
  let cleaned := store.cleaned destroy
  match performActions cleaned (gcActions cleaned) with
  | (collected, .error error) => (collected, .error error)
  | (collected, .ok ()) =>
      (collected, .ok
        { deletedTrees := (untrackedFiles cleaned).length +
            (unreachableTrees cleaned.db).length
          deletedCommits := (unreachableCommits cleaned.db).length })

end Electrosphere
