import Electrosphere.Storage.CommitDigest
import Electrosphere.Storage.Repository

/-!
# Integrity of the database

The foreign keys of the schema as one invariant, and the paths that the
service writes into its rows.
-/

namespace Electrosphere

namespace Database

/-- Every foreign key of the schema points to a row. -/
structure Consistent (db : Database) : Prop where
  parents : ∀ id row up, db.commits.lookup id = some row →
    row.parentId = some up → db.hasCommit up = true
  heads : ∀ ref head, db.refs.lookup ref = some head →
    db.hasCommit head = true ∧ db.hasWorkspace ref.1 = true
  threads : ∀ thread workspace,
    db.threadWorkspaces.lookup thread = some workspace →
    db.hasWorkspace workspace = true
  instances : ∀ id row, db.instances.lookup id = some row →
    db.instanceReferencesExist row = true
  turns : ∀ key row, db.turns.lookup key = some row →
    db.turnReferencesExist row = true

theorem instanceReferencesExist_iff {db : Database} {row : InstanceRow} :
    db.instanceReferencesExist row = true ↔
      (∀ workspace, row.workspaceId = some workspace →
        db.hasWorkspace workspace = true) ∧
      db.hasCommit row.baseCommit = true := by
  simp only [instanceReferencesExist, Bool.and_eq_true, Option.all_eq_true]

theorem turnReferencesExist_iff {db : Database} {row : TurnRow} :
    db.turnReferencesExist row = true ↔
      (∀ id, row.instanceId = some id → db.hasInstance id = true) ∧
      (∀ workspace, row.workspaceId = some workspace →
        db.hasWorkspace workspace = true) ∧
      ∀ head, row.expectedHead = some head → db.hasCommit head = true := by
  simp only [turnReferencesExist, Bool.and_eq_true, Option.all_eq_true,
    and_assoc]

theorem deleteCommit_eq_ok {db next : Database} {id : Digest} :
    db.deleteCommit id = .ok next ↔
      next = { db with commits := db.commits.erase id } ∧
        (db.hasCommit id = true → ({ db with
          commits := db.commits.erase id } : Database).commitReferenced id =
            false) := by
  dsimp only [deleteCommit]
  generalize ({ db with commits := db.commits.erase id } : Database) = remaining
  have swap : remaining = next ↔ next = remaining := eq_comm
  generalize remaining.commitReferenced id = referenced
  cases db.hasCommit id <;> cases referenced <;> simp [swap]

/-- The paths that the service puts into rows: trees below the object
directory by digest, runtimes in directories of their own. -/
structure CanonicalPaths (deployment : Deployment) (db : Database) : Prop where
  trees : ∀ digest row, db.treeObjects.lookup digest = some row →
    row.path = deployment.treePath digest
  instances : ∀ id row, db.instances.lookup id = some row →
    row.workspacePath = deployment.workspacePath id

instance (db : Database) : Decidable db.Consistent :=
  decidable_of_iff
    ((∀ id row, db.commits.lookup id = some row →
        ∀ up ∈ row.parentId, db.hasCommit up = true) ∧
      (∀ ref head, db.refs.lookup ref = some head →
        db.hasCommit head = true ∧ db.hasWorkspace ref.1 = true) ∧
      (∀ thread workspace, db.threadWorkspaces.lookup thread = some workspace →
        db.hasWorkspace workspace = true) ∧
      (∀ id row, db.instances.lookup id = some row →
        db.instanceReferencesExist row = true) ∧
      ∀ key row, db.turns.lookup key = some row →
        db.turnReferencesExist row = true)
    ⟨fun ⟨parents, heads, threads, instances, turns⟩ =>
        ⟨fun id row up found => parents id row found up, heads, threads,
          instances, turns⟩,
      fun ⟨parents, heads, threads, instances, turns⟩ =>
        ⟨fun id row found up => parents id row up found, heads, threads,
          instances, turns⟩⟩

instance (deployment : Deployment) (db : Database) :
    Decidable (db.CanonicalPaths deployment) :=
  decidable_of_iff
    ((∀ digest row, db.treeObjects.lookup digest = some row →
        row.path = deployment.treePath digest) ∧
      ∀ id row, db.instances.lookup id = some row →
        row.workspacePath = deployment.workspacePath id)
    ⟨fun both => ⟨both.1, both.2⟩, fun both => ⟨both.1, both.2⟩⟩

end Database

/-! ## Statements that move no history -/

/-- The columns of an instance that no update changes. -/
def InstanceRow.binding (row : InstanceRow) : InstanceRow :=
  { row with state := .provisioning, backendHandle := none, lastError := none }

theorem InstanceRow.binding_eq {left right : InstanceRow}
    (same : left.binding = right.binding) :
    left.kind = right.kind ∧ left.workspaceId = right.workspaceId ∧
      left.baseCommit = right.baseCommit ∧
      left.workspacePath = right.workspacePath := by
  simp only [binding, InstanceRow.mk.injEq] at same
  exact ⟨same.1, same.2.2.2.1, same.2.2.2.2.1, same.2.2.2.2.2.2.1⟩

namespace Database

/-- A change of instance states, handles, errors and operations alone. -/
structure Quiet (db next : Database) : Prop where
  workspaces : next.workspaces = db.workspaces
  threadWorkspaces : next.threadWorkspaces = db.threadWorkspaces
  commits : next.commits = db.commits
  refs : next.refs = db.refs
  treeObjects : next.treeObjects = db.treeObjects
  turns : next.turns = db.turns
  bindings : ∀ id, (next.instances.lookup id).map InstanceRow.binding =
    (db.instances.lookup id).map InstanceRow.binding

theorem Quiet.refl (db : Database) : db.Quiet db :=
  ⟨rfl, rfl, rfl, rfl, rfl, rfl, fun _ => rfl⟩

theorem Quiet.trans {first second third : Database}
    (left : first.Quiet second) (right : second.Quiet third) :
    first.Quiet third :=
  ⟨right.workspaces.trans left.workspaces,
    right.threadWorkspaces.trans left.threadWorkspaces,
    right.commits.trans left.commits, right.refs.trans left.refs,
    right.treeObjects.trans left.treeObjects, right.turns.trans left.turns,
    fun id => (right.bindings id).trans (left.bindings id)⟩

theorem updateInstance_quiet (db : Database) (id : InstanceId)
    (update : InstanceUpdate) : db.Quiet (db.updateInstance id update) := by
  refine ⟨rfl, rfl, rfl, rfl, rfl, rfl, fun other => ?_⟩
  simp only [updateInstance, AList.lookup_modify_if]
  split
  · cases db.instances.lookup other <;> rfl
  · rfl

theorem failOperation_quiet (db : Database) (id : OperationId)
    (error : Thrown) : db.Quiet (db.failOperation id error) :=
  ⟨rfl, rfl, rfl, rfl, rfl, rfl, fun _ => rfl⟩

theorem succeedOperation_quiet (db : Database) (id : OperationId)
    (response : TurnResponse) : db.Quiet (db.succeedOperation id response) :=
  ⟨rfl, rfl, rfl, rfl, rfl, rfl, fun _ => rfl⟩

theorem deleteRunningOperations_quiet (db : Database) :
    db.Quiet db.deleteRunningOperations :=
  ⟨rfl, rfl, rfl, rfl, rfl, rfl, fun _ => rfl⟩

theorem beginHarnessOperation_eq_ok {db next : Database}
    {id request : OperationId} {kind : String}
    (begun : db.beginHarnessOperation id kind request = .ok next) :
    next = { db with
      operations := db.operations.insert id
        { operationKind := kind, clientRequestId := request,
          status := .running } } := by
  unfold beginHarnessOperation at begun
  split at begun
  · cases begun
  · split at begun <;> cases begun
    rfl

theorem beginHarnessOperation_quiet {db next : Database} {id request}
    {kind : String}
    (begun : db.beginHarnessOperation id kind request = .ok next) :
    db.Quiet next := by
  rw [beginHarnessOperation_eq_ok begun]
  exact ⟨rfl, rfl, rfl, rfl, rfl, rfl, fun _ => rfl⟩

/-- A fold of quiet rounds is quiet. -/
theorem foldl_quiet {entry : Type} {round : Database → entry → Database}
    (quiet : ∀ (db : Database) item, db.Quiet (round db item))
    (items : List entry)
    (db : Database) : db.Quiet (items.foldl round db) := by
  induction items generalizing db with
  | nil => exact .refl db
  | cons item items induction =>
      exact (quiet db item).trans (induction (round db item))

/-- Every instance row has a predecessor with the same binding. -/
theorem Quiet.instance_before {db next : Database} (quiet : db.Quiet next)
    {id : InstanceId} {row : InstanceRow}
    (found : next.instances.lookup id = some row) :
    ∃ before, db.instances.lookup id = some before ∧
      row.binding = before.binding := by
  have bindings := quiet.bindings id
  rw [found] at bindings
  cases before : db.instances.lookup id with
  | none => simp [before] at bindings
  | some old =>
      rw [before] at bindings
      exact ⟨old, rfl, by simpa using bindings⟩

theorem Quiet.hasInstance {db next : Database} (quiet : db.Quiet next)
    (id : InstanceId) : next.hasInstance id = db.hasInstance id := by
  have bindings := congrArg Option.isSome (quiet.bindings id)
  simpa [Database.hasInstance] using bindings

theorem Quiet.hasCommit {db next : Database} (quiet : db.Quiet next)
    (id : Digest) : next.hasCommit id = db.hasCommit id := by
  unfold Database.hasCommit
  rw [quiet.commits]

theorem Quiet.hasWorkspace {db next : Database} (quiet : db.Quiet next)
    (id : WorkspaceId) : next.hasWorkspace id = db.hasWorkspace id := by
  unfold Database.hasWorkspace
  rw [quiet.workspaces]

theorem Quiet.consistent {db next : Database} (quiet : db.Quiet next)
    (before : db.Consistent) : next.Consistent where
  parents := by
    rw [quiet.commits]
    intro id row up found isParent
    rw [quiet.hasCommit]
    exact before.parents id row up found isParent
  heads := by
    rw [quiet.refs]
    intro ref head found
    rw [quiet.hasCommit, quiet.hasWorkspace]
    exact before.heads ref head found
  threads := by
    rw [quiet.threadWorkspaces]
    intro thread workspace found
    rw [quiet.hasWorkspace]
    exact before.threads thread workspace found
  instances := by
    intro id row found
    obtain ⟨old, known, same⟩ := quiet.instance_before found
    have references := instanceReferencesExist_iff.mp
      (before.instances id old known)
    rw [instanceReferencesExist_iff]
    obtain ⟨_, workspaces, bases, _⟩ := InstanceRow.binding_eq same
    rw [workspaces, bases, quiet.hasCommit]
    refine ⟨fun workspace isWorkspace => ?_, references.2⟩
    rw [quiet.hasWorkspace]
    exact references.1 workspace isWorkspace
  turns := by
    rw [quiet.turns]
    intro key row found
    have references := turnReferencesExist_iff.mp
      (before.turns key row found)
    rw [turnReferencesExist_iff]
    simp only [quiet.hasInstance, quiet.hasWorkspace, quiet.hasCommit]
    exact references

theorem Quiet.canonicalPaths {deployment : Deployment} {db next : Database}
    (quiet : db.Quiet next) (before : db.CanonicalPaths deployment) :
    next.CanonicalPaths deployment where
  trees := by
    rw [quiet.treeObjects]
    exact before.trees
  instances := by
    intro id row found
    obtain ⟨old, known, same⟩ := quiet.instance_before found
    rw [(InstanceRow.binding_eq same).2.2.2]
    exact before.instances id old known

end Database

end Electrosphere
