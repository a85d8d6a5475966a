import Electrosphere.Domain.Recovery
import Electrosphere.Storage.Integrity

/-!
# What the collector keeps

The marking loop finds the commits that are live: heads of refs, base commits
of instances that are not dead, and the ancestors of these.  Every action of
the collector spares live commits, their trees and their files, and the order
of the deletions puts children before parents, so both facts hold at every
moment of a run.
-/

namespace Electrosphere

open Foundation

namespace Database

/-- A ref head or the base commit of an instance that is not dead. -/
def Root (db : Database) (id : Digest) : Prop :=
  (∃ ref, db.refs.lookup ref = some id) ∨
    ∃ instanceId row, db.instances.lookup instanceId = some row ∧
      row.state.dead = false ∧ row.baseCommit = id

/-- A root or an ancestor of one. -/
def Live (db : Database) (id : Digest) : Prop :=
  ∃ root, db.Root root ∧ Ascends db.parent root id

theorem mem_listGcRoots {db : Database} {id : Digest} :
    id ∈ db.listGcRoots ↔ db.Root id := by
  unfold listGcRoots Root
  rw [List.mem_append]
  apply or_congr
  · simp [List.mem_map, Prod.exists]
  · simp only [List.mem_map, Prod.exists, AList.mem_select,
      Bool.not_eq_true']
    constructor
    · rintro ⟨instanceId, row, ⟨found, alive⟩, rfl⟩
      exact ⟨instanceId, row, found, alive, rfl⟩
    · rintro ⟨instanceId, row, found, alive, rfl⟩
      exact ⟨instanceId, row, ⟨found, alive⟩, rfl⟩

theorem mem_listCommits {db : Database} {id : Digest} {row : CommitRow} :
    (id, row) ∈ db.listCommits ↔ db.getCommit id = some row := by
  simp [listCommits, getCommit]

theorem mem_listTreeObjects {db : Database} {digest : Digest}
    {row : TreeObjectRow} :
    (digest, row) ∈ db.listTreeObjects ↔
      db.getTreeObject digest = some row := by
  simp [listTreeObjects, getTreeObject]

theorem parent_eq_some {db : Database} {id up : Digest} :
    db.parent id = some up ↔
      ∃ row, db.getCommit id = some row ∧ row.parentId = some up := by
  simp [parent, Option.bind_eq_some_iff]

theorem parent_supported {db : Database} (id up : Digest)
    (step : db.parent id = some up) : id ∈ db.listCommits.map Prod.fst := by
  obtain ⟨row, found, _⟩ := parent_eq_some.mp step
  exact List.mem_map.mpr ⟨(id, row), mem_listCommits.mpr found, rfl⟩

theorem live_of_parent {db : Database} {id up : Digest} (live : db.Live id)
    (step : db.parent id = some up) : db.Live up := by
  obtain ⟨root, isRoot, path⟩ := live
  exact ⟨root, isRoot, path.tail step⟩

end Database

theorem mem_reachableCommits_iff {db : Database} {id : Digest} :
    id ∈ reachableCommits db ↔ db.Live id := by
  unfold reachableCommits
  rw [mem_collect_iff db.parent_supported (by simp)]
  simp only [Database.mem_listGcRoots, Database.Live]

theorem mem_reachableTrees_iff {db : Database} {digest : Digest} :
    digest ∈ reachableTrees db ↔
      ∃ id row, db.getCommit id = some row ∧ db.Live id ∧
        row.treeDigest = digest := by
  simp only [reachableTrees, List.mem_map, List.mem_filter, Prod.exists,
    Database.mem_listCommits, decide_eq_true_eq, mem_reachableCommits_iff,
    and_assoc]

theorem mem_unreachableCommits_iff {db : Database} {id : Digest}
    {row : CommitRow} :
    (id, row) ∈ unreachableCommits db ↔
      db.getCommit id = some row ∧ ¬ db.Live id := by
  simp only [unreachableCommits, List.mem_insertionSort, List.mem_filter,
    Database.mem_listCommits, decide_eq_true_eq, mem_reachableCommits_iff]

theorem mem_unreachableTrees_iff {db : Database} {digest : Digest}
    {row : TreeObjectRow} :
    (digest, row) ∈ unreachableTrees db ↔
      db.getTreeObject digest = some row ∧
        ∀ id commit, db.getCommit id = some commit → db.Live id →
          commit.treeDigest ≠ digest := by
  simp only [unreachableTrees, List.mem_filter, Database.mem_listTreeObjects,
    decide_eq_true_eq, mem_reachableTrees_iff, not_exists, not_and]

/-- The commits that `gc` deletes are sorted children first. -/
theorem unreachableCommits_childrenFirst {db : Database}
    (acyclic : Acyclic db.parent) :
    (unreachableCommits db).Pairwise fun earlier later =>
      db.parent later.1 ≠ some earlier.1 := by
  have total : Std.Total (deeperFirst db) :=
    ⟨fun left right => Nat.le_total _ _⟩
  have transitive : IsTrans _ (deeperFirst db) :=
    ⟨fun _ _ _ first second => Nat.le_trans second first⟩
  have sorted := List.pairwise_insertionSort (deeperFirst db)
    (db.listCommits.filter fun entry =>
      decide (entry.1 ∉ reachableCommits db))
  refine List.Pairwise.imp ?_ sorted
  intro earlier later deeper step
  have counted : depthOf db later.1 = depthOf db earlier.1 + 1 :=
    depth_child acyclic db.parent_supported (by simp) step
  unfold deeperFirst at deeper
  omega

/-! ## Performing actions -/

theorem performActions_invariant (property : Store → Prop)
    {actions : List GcAction} {store : Store}
    (preserved : ∀ action ∈ actions, ∀ current next,
      property current → action.apply current = .ok next → property next)
    (initial : property store) :
    property (performActions store actions).1 := by
  induction actions generalizing store with
  | nil => exact initial
  | cons action actions induction =>
      unfold performActions
      cases result : action.apply store with
      | error error => exact initial
      | ok next =>
          exact induction
            (fun later member => preserved later (List.mem_cons_of_mem _ member))
            (preserved action List.mem_cons_self _ _ initial result)

/-- What a successful action does to each table and to the files. -/
structure GcAction.Effect (action : GcAction) (store next : Store) : Prop where
  refs : next.db.refs = store.db.refs
  instances : next.db.instances = store.db.instances
  turns : next.db.turns = store.db.turns
  commits : ∀ id, next.db.getCommit id = store.db.getCommit id ∨
    (action = .deleteCommit id ∧ next.db.getCommit id = none)
  trees : ∀ digest,
    next.db.getTreeObject digest = store.db.getTreeObject digest ∨
      (action = .deleteTreeObject digest ∧
        next.db.getTreeObject digest = none)
  files : ∀ file ∈ store.objects, file ∈ next.objects ∨
    action = .removeFile file ∨
      ∃ directory, action = .removeDirectory directory ∧
        isBelow directory file = true
  nothingNew : ∀ file ∈ next.objects, file ∈ store.objects

theorem GcAction.effect {action : GcAction} {store next : Store}
    (done : action.apply store = .ok next) : action.Effect store next := by
  cases action with
  | removeFile path =>
      simp only [GcAction.apply, Except.ok.injEq] at done
      subst done
      refine ⟨rfl, rfl, rfl, fun _ => .inl rfl, fun _ => .inl rfl, ?_, ?_⟩
      · intro file member
        by_cases same : file = path
        · exact .inr (.inl (by rw [same]))
        · exact .inl (by simp [member, same])
      · intro file member
        exact List.mem_of_mem_filter member
  | deleteTreeObject digest =>
      simp only [GcAction.apply, Except.ok.injEq] at done
      subst done
      refine ⟨rfl, rfl, rfl, fun _ => .inl rfl, ?_, fun _ => .inl,
        fun _ member => member⟩
      intro other
      by_cases same : other = digest
      · subst other
        exact .inr ⟨rfl, by simp [Database.deleteTreeObject,
          Database.getTreeObject]⟩
      · exact .inl (by simp [Database.deleteTreeObject,
          Database.getTreeObject, same])
  | deleteCommit id =>
      simp only [GcAction.apply] at done
      split at done
      case h_2 => simp at done
      case h_1 erased deleted =>
        obtain ⟨rfl, _⟩ := Database.deleteCommit_eq_ok.mp deleted
        cases done
        refine ⟨rfl, rfl, rfl, ?_, fun _ => .inl rfl, fun _ => .inl,
          fun _ member => member⟩
        intro other
        by_cases same : other = id
        · subst other
          exact .inr ⟨rfl, by simp [Database.getCommit]⟩
        · exact .inl (by simp [Database.getCommit, same])
  | removeDirectory path =>
      simp only [GcAction.apply, Except.ok.injEq] at done
      subst done
      refine ⟨rfl, rfl, rfl, fun _ => .inl rfl, fun _ => .inl rfl, ?_, ?_⟩
      · intro file member
        by_cases below : isBelow path file = true
        · exact .inr (.inr ⟨path, rfl, below⟩)
        · exact .inl (by simp [member, below])
      · intro file member
        exact List.mem_of_mem_filter member

/-! ## Paths -/

/-- Runtimes live in directories of their own, which hold no tree. -/
theorem isBelow_instanceRoot_treePath (deployment : Deployment)
    (id : InstanceId) (digest : Digest) :
    isBelow (deployment.instanceRoot id) (deployment.treePath digest) =
      false := by
  rw [Bool.eq_false_iff]
  intro below
  unfold isBelow at below
  rw [List.isPrefixOf_iff_prefix] at below
  simp only [Deployment.instanceRoot, Deployment.treePath,
    String.toList_append, List.append_assoc] at below
  rw [List.prefix_append_right_inj] at below
  have instances : "/instances/".toList = '/' :: 'i' :: "nstances/".toList :=
    rfl
  have objects : "/objects/trees/sha256/".toList =
      '/' :: 'o' :: "bjects/trees/sha256/".toList := rfl
  rw [instances, objects] at below
  simp only [List.cons_append, List.cons_prefix_cons] at below
  exact absurd below.2.1 (by decide)

theorem dirname_workspacePath (deployment : Deployment) (id : InstanceId) :
    dirname (deployment.workspacePath id) = deployment.instanceRoot id := by
  have name : "/workspace".toList = '/' :: "workspace".toList := rfl
  have lastPart : ∀ letter ∈ "workspace".toList.reverse,
      (letter != '/') = true := List.all_eq_true.mp (by decide)
  unfold dirname Deployment.workspacePath
  rw [String.toList_append, name, List.reverse_append, List.reverse_cons,
    List.append_assoc, List.dropWhile_append_of_pos lastPart]
  simp

/-! ## The moments of a run -/

/-- The states a run of `gc` passes through, wherever it is cut off: some
turns are cleaned up, or all are and some actions have been performed. -/
inductive GcMoment (destroy : InstanceId → Except Thrown Unit)
    (store : Store) : Store → Prop where
  | cleaning (turns : List (TurnKey × TurnRow)) :
      turns <+: store.db.listTurns [.finished] →
      GcMoment destroy store
        { store with
          db := turns.foldl (cleanupFinishedTurnRuntime destroy) store.db }
  | collecting (actions : List GcAction) :
      actions <+: gcActions (store.cleaned destroy) →
      GcMoment destroy store
        (performActions (store.cleaned destroy) actions).1

theorem cleanupFinishedTurnRuntime_quiet
    (destroy : InstanceId → Except Thrown Unit) (db : Database)
    (turn : TurnKey × TurnRow) :
    db.Quiet (cleanupFinishedTurnRuntime destroy db turn) := by
  unfold cleanupFinishedTurnRuntime
  split
  · split
    · split
      · exact .refl db
      · split <;> exact Database.updateInstance_quiet db _ _
    · exact .refl db
  · exact .refl db

theorem Store.cleaned_quiet (destroy : InstanceId → Except Thrown Unit)
    (store : Store) : store.db.Quiet (store.cleaned destroy).db :=
  Database.foldl_quiet (cleanupFinishedTurnRuntime_quiet destroy) _ _

/-- The later store still has the commit, its tree object and its file. -/
def Store.Keeps (store later : Store) (id : Digest) : Prop :=
  later.db.getCommit id = store.db.getCommit id ∧
    ∀ row, store.db.getCommit id = some row →
      later.db.getTreeObject row.treeDigest =
        store.db.getTreeObject row.treeDigest ∧
      ∀ tree, store.db.getTreeObject row.treeDigest = some tree →
        tree.path ∈ store.objects → tree.path ∈ later.objects

theorem Store.Keeps.of_quiet {store : Store} {next : Database}
    (quiet : store.db.Quiet next) (id : Digest) :
    store.Keeps { store with db := next } id := by
  unfold Store.Keeps Database.getCommit Database.getTreeObject
  rw [quiet.commits, quiet.treeObjects]
  exact ⟨rfl, fun _ _ => ⟨rfl, fun _ _ member => member⟩⟩

/-- What has been removed so far is dead. -/
structure Collecting (store current : Store) : Prop where
  refs : current.db.refs = store.db.refs
  instances : current.db.instances = store.db.instances
  commits : ∀ id, current.db.getCommit id = store.db.getCommit id ∨
    (¬ store.db.Live id ∧ current.db.getCommit id = none)
  trees : ∀ digest,
    current.db.getTreeObject digest = store.db.getTreeObject digest ∨
      (∀ id row, store.db.getCommit id = some row → store.db.Live id →
        row.treeDigest ≠ digest)
  files : ∀ id row tree, store.db.getCommit id = some row →
    store.db.Live id →
    store.db.getTreeObject row.treeDigest = some tree →
    tree.path ∈ store.objects → tree.path ∈ current.objects

theorem Collecting.refl (store : Store) : Collecting store store :=
  ⟨rfl, rfl, fun _ => .inl rfl, fun _ => .inl rfl, fun _ _ _ _ _ _ => id⟩

/-- Nothing becomes live while the collector runs. -/
theorem Collecting.live {store current : Store}
    (collecting : Collecting store current) (id : Digest)
    (live : current.db.Live id) : store.db.Live id := by
  obtain ⟨root, isRoot, path⟩ := live
  refine ⟨root, ?_, path.mono fun node up step => ?_⟩
  · unfold Database.Root at isRoot ⊢
    rwa [collecting.refs, collecting.instances] at isRoot
  · obtain ⟨row, found, isParent⟩ := Database.parent_eq_some.mp step
    rcases collecting.commits node with same | ⟨_, gone⟩
    · exact Database.parent_eq_some.mpr ⟨row, same ▸ found, isParent⟩
    · simp [gone] at found

theorem Collecting.keeps {store current : Store}
    (collecting : Collecting store current) {id : Digest}
    (live : store.db.Live id) : store.Keeps current id := by
  refine ⟨?_, fun row found => ⟨?_, fun tree isTree member => ?_⟩⟩
  · rcases collecting.commits id with same | ⟨dead, _⟩
    · exact same
    · exact (dead live).elim
  · rcases collecting.trees row.treeDigest with same | dead
    · exact same
    · exact (dead id row found live rfl).elim
  · exact collecting.files id row tree found live isTree member

theorem mem_gcActions_cases {store : Store} {action : GcAction}
    (member : action ∈ gcActions store) :
    (∃ path, action = .removeFile path ∧ ((∀ digest row,
      store.db.getTreeObject digest = some row → row.path ≠ path) ∨
        ∃ digest row, (digest, row) ∈ unreachableTrees store.db ∧
          row.path = path)) ∨
    (∃ digest row, (digest, row) ∈ unreachableTrees store.db ∧
      action = .deleteTreeObject digest) ∨
    (∃ id row, (id, row) ∈ unreachableCommits store.db ∧
      action = .deleteCommit id) ∨
    ∃ id row, store.db.instances.lookup id = some row ∧
      action = .removeDirectory (dirname row.workspacePath) := by
  unfold gcActions at member
  simp only [List.mem_append, List.mem_map, List.mem_flatMap, List.mem_cons,
    List.not_mem_nil, or_false, Prod.exists] at member
  rcases member with ((untracked | tree) | commit) | directory
  · obtain ⟨path, inside, rfl⟩ := untracked
    refine .inl ⟨path, rfl, .inl fun digest row found same => ?_⟩
    simp only [untrackedFiles, List.mem_filter, List.mem_map, Prod.exists,
      Database.mem_listTreeObjects, decide_eq_true_eq, not_exists,
      not_and] at inside
    exact inside.2 digest row found same
  · obtain ⟨digest, row, inside, rfl | rfl⟩ := tree
    · exact .inl ⟨row.path, rfl, .inr ⟨digest, row, inside, rfl⟩⟩
    · exact .inr (.inl ⟨digest, row, inside, rfl⟩)
  · obtain ⟨id, row, inside, rfl⟩ := commit
    exact .inr (.inr (.inl ⟨id, row, inside, rfl⟩))
  · obtain ⟨id, row, inside, rfl⟩ := directory
    exact .inr (.inr (.inr ⟨id, row,
      (AList.mem_select.mp inside).1, rfl⟩))

/-- One action of the collector removes nothing that is live. -/
theorem Collecting.step {deployment : Deployment} {store current next : Store}
    (canonical : store.db.CanonicalPaths deployment)
    (before : Collecting store current) {action : GcAction}
    (planned : action ∈ gcActions store)
    (done : action.apply current = .ok next) : Collecting store next := by
  have effect := GcAction.effect done
  have cases := mem_gcActions_cases planned
  refine ⟨effect.refs.trans before.refs,
    effect.instances.trans before.instances, ?_, ?_, ?_⟩
  · intro id
    rcases effect.commits id with same | ⟨rfl, gone⟩
    · rw [same]
      exact before.commits id
    · obtain ⟨_, isFile, _⟩ | ⟨_, _, _, isTree⟩ | ⟨other, row, dead, isCommit⟩ |
        ⟨_, _, _, isDirectory⟩ := cases
      · cases isFile
      · cases isTree
      · cases isCommit
        exact .inr ⟨(mem_unreachableCommits_iff.mp dead).2, gone⟩
      · cases isDirectory
  · intro digest
    rcases effect.trees digest with same | ⟨rfl, _⟩
    · rw [same]
      exact before.trees digest
    · obtain ⟨_, isFile, _⟩ | ⟨other, row, dead, isTree⟩ | ⟨_, _, _, isCommit⟩ |
        ⟨_, _, _, isDirectory⟩ := cases
      · cases isFile
      · cases isTree
        exact .inr (mem_unreachableTrees_iff.mp dead).2
      · cases isCommit
      · cases isDirectory
  · intro id row tree found live isTree member
    have present := before.files id row tree found live isTree member
    rcases effect.files _ present with kept | rfl | ⟨directory, rfl, below⟩
    · exact kept
    · obtain ⟨path, isFile, unused | ⟨digest, other, dead, samePath⟩⟩ |
        ⟨_, _, _, isRow⟩ | ⟨_, _, _, isCommit⟩ | ⟨_, _, _, isDirectory⟩ := cases
      · cases isFile
        exact (unused _ tree isTree rfl).elim
      · cases isFile
        obtain ⟨isOther, unreached⟩ := mem_unreachableTrees_iff.mp dead
        rw [canonical.trees _ _ isOther, canonical.trees _ _ isTree] at samePath
        exact (unreached id row found live
          (deployment.treePath_injective samePath).symm).elim
      · cases isRow
      · cases isCommit
      · cases isDirectory
    · obtain ⟨_, isFile, _⟩ | ⟨_, _, _, isRow⟩ | ⟨_, _, _, isCommit⟩ |
        ⟨instanceId, instanceRow, isInstance, isDirectory⟩ := cases
      · cases isFile
      · cases isRow
      · cases isCommit
      · cases isDirectory
        rw [canonical.instances _ _ isInstance, dirname_workspacePath,
          canonical.trees _ _ isTree,
          isBelow_instanceRoot_treePath] at below
        cases below

theorem Collecting.performed {deployment : Deployment} {store : Store}
    (canonical : store.db.CanonicalPaths deployment)
    {actions : List GcAction} (planned : ∀ action ∈ actions,
      action ∈ gcActions store) :
    Collecting store (performActions store actions).1 :=
  performActions_invariant _
    (fun action member _ _ before done =>
      before.step canonical (planned action member) done)
    (.refl store)

/-! ## Parents -/

/-- Every commit row that has a parent has it in the table. -/
def Database.ParentsPresent (db : Database) : Prop :=
  ∀ id row up, db.getCommit id = some row → row.parentId = some up →
    db.hasCommit up = true

theorem Database.Consistent.parentsPresent {db : Database}
    (consistent : db.Consistent) : db.ParentsPresent :=
  consistent.parents

theorem Database.live_hasCommit {db : Database} (consistent : db.Consistent)
    {id : Digest} (live : db.Live id) : db.hasCommit id = true := by
  obtain ⟨root, isRoot, path⟩ := live
  refine path.closed (fun id => db.hasCommit id = true) ?_ ?_
  · intro node up _ step
    obtain ⟨row, found, isParent⟩ := parent_eq_some.mp step
    exact consistent.parents node row up found isParent
  · rcases isRoot with ⟨ref, found⟩ | ⟨instanceId, row, found, _, rfl⟩
    · exact (consistent.heads ref root found).1
    · exact (instanceReferencesExist_iff.mp
        (consistent.instances instanceId row found)).2

theorem Database.commitReferenced_of_parent {db : Database} {id child : Digest}
    {row : CommitRow} (found : db.getCommit child = some row)
    (isParent : row.parentId = some id) : db.commitReferenced id = true := by
  have member : (child, row) ∈ db.commits.select
      fun _ row => decide (row.parentId = some id) :=
    AList.mem_select.mpr ⟨found, by simpa using isParent⟩
  unfold commitReferenced
  cases children : db.commits.select
      fun _ row => decide (row.parentId = some id) with
  | nil => simp [children] at member
  | cons first rest => simp

/-- A delete that succeeds leaves no commit without its parent. -/
theorem GcAction.parentsPresent {action : GcAction} {store next : Store}
    (before : store.db.ParentsPresent) (done : action.apply store = .ok next) :
    next.db.ParentsPresent := by
  have effect := GcAction.effect done
  intro id row up found isParent
  have present : store.db.getCommit id = some row := by
    rcases effect.commits id with same | ⟨_, gone⟩
    · rw [← same, found]
    · simp [gone] at found
  have hasParent := before id row up present isParent
  unfold Database.hasCommit at hasParent ⊢
  rcases effect.commits up with same | ⟨rfl, gone⟩
  · unfold Database.getCommit at same
    rw [same, hasParent]
  · simp only [GcAction.apply] at done
    split at done
    case h_2 => cases done
    case h_1 deleted =>
      cases done
      obtain ⟨rfl, unreferenced⟩ := Database.deleteCommit_eq_ok.mp deleted
      have := Database.commitReferenced_of_parent found isParent
      rw [unreferenced hasParent] at this
      cases this

/-- The deletions of a plan are ordered children first. -/
private theorem gcActions_childrenFirst {store : Store}
    (acyclic : Acyclic store.db.parent) :
    (gcActions store).Pairwise fun earlier later =>
      ∀ up child, earlier = .deleteCommit up → later = .deleteCommit child →
        store.db.parent child ≠ some up := by
  have only : ∀ (first second : GcAction),
      ((∀ id, first ≠ .deleteCommit id) ∨ ∀ id, second ≠ .deleteCommit id) →
      ∀ up child, first = .deleteCommit up → second = .deleteCommit child →
        store.db.parent child ≠ some up := by
    rintro first second (left | right) up child isUp isChild
    · exact (left up isUp).elim
    · exact (right child isChild).elim
  unfold gcActions
  rw [List.pairwise_append, List.pairwise_append, List.pairwise_append]
  refine ⟨⟨⟨?_, ?_, ?_⟩, ?_, ?_⟩, ?_, ?_⟩
  · exact List.pairwise_of_forall_mem_list (by
      simp only [List.mem_map]
      rintro _ ⟨_, _, rfl⟩ second _
      exact only _ _ (.inl (by simp)))
  · exact List.pairwise_of_forall_mem_list (by
      simp only [List.mem_flatMap, List.mem_cons, List.not_mem_nil, or_false]
      rintro _ ⟨_, _, rfl | rfl⟩ second _ <;> exact only _ _ (.inl (by simp)))
  · simp only [List.mem_map]
    rintro _ ⟨_, _, rfl⟩ second _
    exact only _ _ (.inl (by simp))
  · rw [List.pairwise_map]
    refine (unreachableCommits_childrenFirst acyclic).imp ?_
    rintro earlier later order up child isUp isChild
    cases isUp
    cases isChild
    exact order
  · simp only [List.mem_append, List.mem_map, List.mem_flatMap, List.mem_cons,
      List.not_mem_nil, or_false]
    rintro _ (⟨_, _, rfl⟩ | ⟨_, _, rfl | rfl⟩) second _ <;>
      exact only _ _ (.inl (by simp))
  · exact List.pairwise_of_forall_mem_list (by
      simp only [List.mem_map]
      rintro _ ⟨_, _, rfl⟩ second _
      exact only _ _ (.inl (by simp)))
  · rintro first _ second inside
    obtain ⟨_, _, rfl⟩ := List.mem_map.mp inside
    exact only _ _ (.inr (by simp))

theorem performActions_deleted {store next : Store}
    {actions : List GcAction} {id : Digest}
    (planned : GcAction.deleteCommit id ∈ actions)
    (done : performActions store actions = (next, .ok ())) :
    next.db.getCommit id = none := by
  obtain ⟨first, second, rfl⟩ := List.append_of_mem planned
  induction first generalizing store with
  | nil =>
      simp only [List.nil_append, performActions] at done
      cases result : GcAction.apply store (.deleteCommit id) with
      | error error => simp [result] at done
      | ok middle =>
          simp only [result] at done
          have gone : middle.db.getCommit id = none := by
            simp only [GcAction.apply] at result
            split at result
            case h_2 => cases result
            case h_1 deleted =>
              cases result
              obtain ⟨rfl, _⟩ := Database.deleteCommit_eq_ok.mp deleted
              simp [Database.getCommit]
          have stays : (performActions middle second).1.db.getCommit id =
              none := performActions_invariant
            (fun current => current.db.getCommit id = none)
            (fun action _ current next gone result => by
              rcases (GcAction.effect result).commits id with same | ⟨_, gone⟩
              · rw [same, gone]
              · exact gone)
            gone
          rwa [done] at stays
  | cons action first induction =>
      simp only [List.cons_append, performActions] at done
      cases result : action.apply store with
      | error error => simp [result] at done
      | ok middle =>
          simp only [result] at done
          exact induction (by simp) done

/-- When `gc` comes to delete a commit, all its children are gone. -/
theorem gc_deletes_children_first {store moment : Store}
    (acyclic : Acyclic store.db.parent)
    {earlier later : List GcAction} {id : Digest}
    (plan : gcActions store = earlier ++ .deleteCommit id :: later)
    (done : performActions store earlier = (moment, .ok ()))
    {child : Digest} {row : CommitRow}
    (found : moment.db.getCommit child = some row) :
    row.parentId ≠ some id := by
  intro isParent
  have original : store.db.getCommit child = some row := by
    have subset : ∀ row,
        (performActions store earlier).1.db.getCommit child = some row →
        store.db.getCommit child = some row := performActions_invariant
      (fun current => ∀ row, current.db.getCommit child = some row →
        store.db.getCommit child = some row)
      (fun action _ current next before result row found => by
        rcases (GcAction.effect result).commits child with same | ⟨_, gone⟩
        · exact before row (by rw [← same, found])
        · simp [gone] at found)
      (fun _ found => found)
    rw [done] at subset
    exact subset row found
  have step : store.db.parent child = some id :=
    Database.parent_eq_some.mpr ⟨row, original, isParent⟩
  have dead : ¬ store.db.Live id := by
    have planned : GcAction.deleteCommit id ∈ gcActions store := by
      rw [plan]
      simp
    obtain ⟨_, isFile, _⟩ | ⟨_, _, _, isTree⟩ | ⟨other, row, dead, isCommit⟩ |
      ⟨_, _, _, isDirectory⟩ := mem_gcActions_cases planned
    · cases isFile
    · cases isTree
    · cases isCommit
      exact (mem_unreachableCommits_iff.mp dead).2
    · cases isDirectory
  have childPlanned : GcAction.deleteCommit child ∈ gcActions store := by
    have inside : (child, row) ∈ unreachableCommits store.db :=
      mem_unreachableCommits_iff.mpr ⟨original, fun live =>
        dead (Database.live_of_parent live step)⟩
    unfold gcActions
    simp only [List.mem_append, List.mem_map]
    exact .inl (.inr ⟨(child, row), inside, rfl⟩)
  have ordered := gcActions_childrenFirst acyclic
  rw [plan] at childPlanned ordered
  rcases List.mem_append.mp childPlanned with before | after
  · have gone := performActions_deleted before done
    simp [gone] at found
  · rcases List.mem_cons.mp after with same | after
    · cases same
      exact acyclic _ (.single step)
    · have pairs := (List.pairwise_append.mp ordered).2.1
      exact List.rel_of_pairwise_cons pairs after id child rfl rfl step

/-! ## The collector keeps what is live -/

/-- At every moment of a run of `gc`, wherever it stops, all that is live then
or was live when the roots were read is still there with its tree and file,
every remaining commit has its parent, and a commit is only deleted once its
children are gone. -/
theorem gc_keeps_live {deployment : Deployment}
    {destroy : InstanceId → Except Thrown Unit} {store moment : Store}
    (consistent : store.db.Consistent) (acyclic : Acyclic store.db.parent)
    (canonical : store.db.CanonicalPaths deployment)
    (reached : GcMoment destroy store moment) :
    (∀ id, moment.db.Live id ∨ (store.cleaned destroy).db.Live id →
      store.db.hasCommit id = true ∧ store.Keeps moment id) ∧
    moment.db.ParentsPresent ∧
    ∀ earlier id later, gcActions (store.cleaned destroy) =
        earlier ++ .deleteCommit id :: later →
      performActions (store.cleaned destroy) earlier = (moment, .ok ()) →
      ∀ child row, moment.db.getCommit child = some row →
        row.parentId ≠ some id := by
  have quiet := store.cleaned_quiet destroy
  have cleanedConsistent := quiet.consistent consistent
  have cleanedAcyclic : Acyclic (store.cleaned destroy).db.parent := by
    have same : (store.cleaned destroy).db.parent = store.db.parent := by
      funext id
      simp only [Database.parent, Database.getCommit, quiet.commits]
    rwa [same]
  have cleanedCanonical : (store.cleaned destroy).db.CanonicalPaths
      deployment := quiet.canonicalPaths canonical
  refine ⟨?_, ?_, fun earlier id later plan done child row =>
    gc_deletes_children_first cleanedAcyclic plan done⟩
  · intro id live
    cases reached with
    | cleaning turns prefixed =>
        have moved := Database.foldl_quiet
          (cleanupFinishedTurnRuntime_quiet destroy) turns store.db
        refine ⟨?_, Store.Keeps.of_quiet moved id⟩
        rcases live with live | live
        · rw [← moved.hasCommit]
          exact Database.live_hasCommit (moved.consistent consistent) live
        · rw [← quiet.hasCommit]
          exact Database.live_hasCommit cleanedConsistent live
    | collecting actions prefixed =>
        have collecting : Collecting (store.cleaned destroy)
            (performActions (store.cleaned destroy) actions).1 :=
          Collecting.performed cleanedCanonical
            (fun action member => prefixed.subset member)
        have liveBefore : (store.cleaned destroy).db.Live id :=
          live.elim (collecting.live id) fun cleaned => cleaned
        refine ⟨?_, ?_⟩
        · rw [← quiet.hasCommit]
          exact Database.live_hasCommit cleanedConsistent liveBefore
        · have kept := collecting.keeps liveBefore
          unfold Store.Keeps Database.getCommit Database.getTreeObject at kept ⊢
          rwa [quiet.commits, quiet.treeObjects] at kept
  · cases reached with
    | cleaning turns prefixed =>
        exact ((Database.foldl_quiet
          (cleanupFinishedTurnRuntime_quiet destroy) turns
          store.db).consistent consistent).parentsPresent
    | collecting actions prefixed =>
        exact performActions_invariant _
          (fun action _ _ _ before done => action.parentsPresent before done)
          cleanedConsistent.parentsPresent

/-! ## A base commit that only a finished turn's runtime holds -/

private def rootDigest : Digest := ⟨"a0", by decide⟩
private def headDigest : Digest := ⟨"a1", by decide⟩
private def baseDigest : Digest := ⟨"a2", by decide⟩

private def sampleTree (digest : Digest) : Digest × TreeObjectRow :=
  (digest, { path := Deployment.transparent.treePath digest, sizeBytes := 7 })

private def sampleCommit (digest : Digest) (parentId : Option Digest) :
    CommitRow :=
  { treeDigest := digest, contractDigest := emptyContractDigest, parentId }

/-- A head on a root, and next to it a commit that only the runtime of a
finished turn is based on. -/
private def sampleStore : Store where
  db :=
    { Database.empty with
      workspaces := (∅ : Table WorkspaceId Unit).insert 0 ()
      threadWorkspaces := (∅ : Table ThreadId WorkspaceId).insert "thread" 0
      commits := (((∅ : Table Digest CommitRow).insert rootDigest
        (sampleCommit rootDigest none)).insert headDigest
        (sampleCommit headDigest (some rootDigest))).insert baseDigest
        (sampleCommit baseDigest (some rootDigest))
      refs := (∅ : Table (WorkspaceId × String) Digest).insert (0, mainRef)
        headDigest
      treeObjects := (((∅ : Table Digest TreeObjectRow).insert rootDigest
        (sampleTree rootDigest).2).insert headDigest
        (sampleTree headDigest).2).insert baseDigest (sampleTree baseDigest).2
      instances := (∅ : Table InstanceId InstanceRow).insert 1
        { kind := .durable
          backend := .docker
          state := .ready
          workspaceId := some 0
          baseCommit := baseDigest
          backendHandle := some
            { backend := .docker, instanceId := 1, opaqueId := "container" }
          workspacePath := Deployment.transparent.workspacePath 1
          resourceProfile := .default
          network := .none }
      turns := (∅ : Table TurnKey TurnRow).insert ⟨"thread", "turn"⟩
        { mode := .durable
          state := .finished
          instanceId := some 1
          workspaceId := some 0
          expectedHead := some baseDigest
          requestJson := { mode := .durable } } }
  objects := [Deployment.transparent.treePath rootDigest,
    Deployment.transparent.treePath headDigest,
    Deployment.transparent.treePath baseDigest]

private theorem sampleStore_acyclic : Acyclic sampleStore.db.parent := by
  have ranked : ∀ id row, sampleStore.db.commits.lookup id = some row →
      ∀ up ∈ row.parentId,
        (if up = rootDigest then 0 else 1) <
          (if id = rootDigest then 0 else 1) := by decide
  refine acyclic_of_rank (fun id => if id = rootDigest then 0 else 1) ?_
  intro node up step
  obtain ⟨row, found, isParent⟩ := Database.parent_eq_some.mp step
  exact ranked node row found up isParent

/-- The runtime is up when `gc` starts, but `gc` itself takes it down first
and then removes the tree its base commit still needs. -/
theorem gc_drops_base_of_finished_runtime :
    ¬ ∀ (destroy : InstanceId → Except Thrown Unit) (store : Store),
      store.db.Consistent → Acyclic store.db.parent →
      store.db.CanonicalPaths Deployment.transparent →
      ∀ id, store.db.Live id → store.Keeps (gc destroy store).1 id := by
  intro keeps
  have live : sampleStore.db.Live baseDigest :=
    ⟨baseDigest, .inr ⟨1, _, rfl, rfl, rfl⟩, .refl _⟩
  obtain ⟨_, kept⟩ := keeps (fun _ => .ok ()) sampleStore (by decide)
    sampleStore_acyclic (by decide) baseDigest live
  have treeKept := (kept _ rfl).1
  have treeGone : (gc (fun _ => .ok ()) sampleStore).1.db.getTreeObject
      baseDigest = none := by decide
  rw [show (sampleCommit baseDigest (some rootDigest)).treeDigest =
    baseDigest from rfl, treeGone] at treeKept
  cases treeKept

theorem gc_keeps_live_sample :
    (sampleStore.cleaned fun _ => .ok ()).db.Live rootDigest ∧
      sampleStore.Keeps (gc (fun _ => .ok ()) sampleStore).1 rootDigest := by
  have live : (sampleStore.cleaned fun _ => .ok ()).db.Live rootDigest :=
    ⟨headDigest, .inl ⟨(0, mainRef), rfl⟩,
      (Ascends.refl headDigest).tail rfl⟩
  have moment : GcMoment (fun _ => .ok ()) sampleStore
      (gc (fun _ => .ok ()) sampleStore).1 :=
    .collecting (gcActions (sampleStore.cleaned fun _ => .ok ()))
      (List.prefix_refl _)
  have canonical : sampleStore.db.CanonicalPaths Deployment.transparent := by
    decide
  exact ⟨live, ((gc_keeps_live (by decide) sampleStore_acyclic canonical
    moment).1 rootDigest (.inr live)).2⟩

end Electrosphere
