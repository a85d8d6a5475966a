import Electrosphere.Domain.GcSafety
import Electrosphere.Storage.Statements

/-!
# Soundness of the store

`Write` collects the atomic changes that the service makes to its database
and tree files, and `Sound` what they all preserve: the foreign keys, the
unique indices, the content addresses, a stored archive for every commit, and
that every commit lies between the canonical empty commit and some ref.
-/

namespace Electrosphere

open Foundation

/-- One atomic change of the store by the service. -/
inductive Write (deployment : Deployment) : Store → Store → Prop where
  | quiet {store : Store} {next : Database} :
      store.db.Quiet next → Write deployment store { store with db := next }
  | storeFile {store : Store} (path : String) :
      Write deployment store { store with objects := path :: store.objects }
  | seed {store : Store} {next : Database} :
      initializeDatabase deployment store.db = .ok next →
      deployment.emptyTree.path ∈ store.objects →
      Write deployment store { store with db := next }
  | createWorkspace {store : Store} {next : Database} {threadId : ThreadId}
      {workspaceId : WorkspaceId} {headCommit : Digest} :
      store.db.insertThreadWorkspace threadId workspaceId headCommit =
        .ok next →
      Write deployment store { store with db := next }
  | createTurn {store : Store} {next : Database} {key : TurnKey}
      {row : TurnRow} :
      row.state = .starting → row.expectedHead = none →
      store.db.createTurn key row = .ok next →
      Write deployment store { store with db := next }
  | updateTurn {store : Store} {next : Database} {key : TurnKey}
      {update : TurnUpdate} :
      (update.expectedHead ≠ none → update.instanceId ≠ none) →
      (update.state = some .finished → ∀ row,
        store.db.turns.lookup key = some row → row.mode = .instant) →
      store.db.updateTurn key update = .ok next →
      Write deployment store { store with db := next }
  | createInstance {store : Store} {next : Database}
      {runtime : RuntimeInput} :
      store.db.createInstance runtime.instanceId
        (provisioningRow deployment runtime) = .ok next →
      Write deployment store { store with db := next }
  | publish {store : Store} {next : Database} {commit : CommitInput}
      {tree : CfsObject} :
      store.db.publishTurnCommit (publishInput deployment commit tree) =
        .ok (next, true) →
      tree.path = deployment.treePath tree.treeDigest →
      tree.path ∈ store.objects →
      Write deployment store { store with db := next }

/-- What holds even while a publish has inserted its commit but not yet
moved the ref. -/
structure Stored (deployment : Deployment) (store : Store) : Prop where
  consistent : store.db.Consistent
  canonical : store.db.CanonicalPaths deployment
  activeUnique : ∀ key row other otherRow,
    store.db.turns.lookup key = some row →
    store.db.turns.lookup other = some otherRow →
    row.state.active = true → otherRow.state.active = true →
    other.threadId = key.threadId → other = key
  boundTurns : ∀ key row, store.db.turns.lookup key = some row →
    row.expectedHead ≠ none → row.instanceId ≠ none
  finishedTurns : ∀ key row, store.db.turns.lookup key = some row →
    row.state = .finished → row.mode = .durable → row.workspaceId ≠ none
  threadsInjective : ∀ thread other workspace,
    store.db.threadWorkspaces.lookup thread = some workspace →
    store.db.threadWorkspaces.lookup other = some workspace → other = thread
  mainRefs : ∀ workspace, store.db.hasWorkspace workspace = true →
    ∃ head, store.db.refs.lookup (workspace, mainRef) = some head
  hashed : ∀ id row, store.db.commits.lookup id = some row →
    id = deployment.commitDigest row.contractDigest row.treeDigest row.parentId
  archived : ∀ id row, store.db.commits.lookup id = some row →
    ∃ tree, store.db.treeObjects.lookup row.treeDigest = some tree
  files : ∀ digest tree, store.db.treeObjects.lookup digest = some tree →
    tree.path ∈ store.objects
  rooted : ∀ id, store.db.hasCommit id = true →
    Ascends store.db.parent id deployment.emptyCommit

structure Sound (deployment : Deployment) (store : Store) : Prop
    extends Stored deployment store where
  anchored : ∀ id, store.db.hasCommit id = true →
    id = deployment.emptyCommit ∨ ∃ ref head,
      store.db.refs.lookup ref = some head ∧
        Ascends store.db.parent head id

namespace Sound

variable {deployment : Deployment} {store : Store} {next : Database}

theorem empty (deployment : Deployment) :
    Sound deployment { db := .empty, objects := [] } := by
  refine ⟨⟨?_, ?_, ?_, ?_, ?_, ?_, ?_, ?_, ?_, ?_, ?_⟩, ?_⟩ <;>
    simp [Database.empty, Database.hasCommit, Database.hasWorkspace] <;>
    constructor <;> simp

theorem quiet (sound : Sound deployment store)
    (quiet : store.db.Quiet next) :
    Sound deployment { store with db := next } := by
  have sameParent : next.parent = store.db.parent := by
    funext id
    simp only [Database.parent, Database.getCommit, quiet.commits]
  refine ⟨⟨quiet.consistent sound.consistent,
    quiet.canonicalPaths sound.canonical, ?_, ?_, ?_, ?_, ?_, ?_, ?_, ?_,
    ?_⟩, ?_⟩
  · rw [quiet.turns]
    exact sound.activeUnique
  · rw [quiet.turns]
    exact sound.boundTurns
  · rw [quiet.turns]
    exact sound.finishedTurns
  · rw [quiet.threadWorkspaces]
    exact sound.threadsInjective
  · intro workspace present
    rw [quiet.refs]
    exact sound.mainRefs workspace (by rwa [← quiet.hasWorkspace])
  · rw [quiet.commits]
    exact sound.hashed
  · rw [quiet.commits, quiet.treeObjects]
    exact sound.archived
  · rw [quiet.treeObjects]
    exact sound.files
  · intro id present
    rw [sameParent]
    exact sound.rooted id (by rwa [← quiet.hasCommit])
  · intro id present
    rw [sameParent, quiet.refs]
    exact sound.anchored id (by rwa [← quiet.hasCommit])

theorem storeFile (sound : Sound deployment store) (path : String) :
    Sound deployment { store with objects := path :: store.objects } :=
  { sound with
    files := fun digest tree found =>
      List.mem_cons_of_mem _ (sound.files digest tree found) }

/-- Writing a turn row that satisfies the index and the foreign keys. -/
theorem insertTurn (sound : Sound deployment store) (key : TurnKey)
    {row : TurnRow} (unique : store.db.openThreadUnique key row = true)
    (references : store.db.turnReferencesExist row = true)
    (bound : row.expectedHead ≠ none → row.instanceId ≠ none)
    (finished : row.state = .finished → row.mode = .durable →
      row.workspaceId ≠ none) :
    Sound deployment { store with
      db := { store.db with turns := store.db.turns.insert key row } } := by
  have unique := Database.openThreadUnique_iff.mp unique
  refine { sound with
    consistent := { sound.consistent with turns := ?_ }
    canonical := ⟨sound.canonical.trees, sound.canonical.instances⟩
    activeUnique := ?_
    boundTurns := ?_
    finishedTurns := ?_ }
  · intro other otherRow found
    rw [AList.lookup_insert_if] at found
    split at found
    · cases found
      exact references
    · exact sound.consistent.turns other otherRow found
  · intro first firstRow second secondRow firstFound secondFound firstActive
      secondActive thread
    simp only [AList.lookup_insert_if] at firstFound secondFound
    by_cases isFirst : first = key
    · subst isFirst
      rw [if_pos rfl] at firstFound
      cases firstFound
      by_cases isSecond : second = first
      · exact isSecond
      · rw [if_neg isSecond] at secondFound
        exact unique firstActive second secondRow secondFound thread
          secondActive
    · rw [if_neg isFirst] at firstFound
      by_cases isSecond : second = key
      · subst isSecond
        rw [if_pos rfl] at secondFound
        cases secondFound
        exact (unique secondActive first firstRow firstFound thread.symm
          firstActive).symm
      · rw [if_neg isSecond] at secondFound
        exact sound.activeUnique first firstRow second secondRow firstFound
          secondFound firstActive secondActive thread
  · intro other otherRow found
    rw [AList.lookup_insert_if] at found
    split at found
    · cases found
      exact bound
    · exact sound.boundTurns other otherRow found
  · intro other otherRow found
    rw [AList.lookup_insert_if] at found
    split at found
    · cases found
      exact finished
    · exact sound.finishedTurns other otherRow found

theorem createTurn (sound : Sound deployment store) {key : TurnKey}
    {row : TurnRow} (isStarting : row.state = .starting)
    (unbound : row.expectedHead = none)
    (done : store.db.createTurn key row = .ok next) :
    Sound deployment { store with db := next } := by
  obtain ⟨_, unique, references, rfl⟩ := Database.createTurn_eq_ok done
  refine sound.insertTurn key unique references ?_ ?_
  · intro isBound
    exact (isBound unbound).elim
  · intro isFinished
    rw [isStarting] at isFinished
    cases isFinished

theorem updateTurn (sound : Sound deployment store) {key : TurnKey}
    {update : TurnUpdate}
    (binds : update.expectedHead ≠ none → update.instanceId ≠ none)
    (finishes : update.state = some .finished → ∀ row,
      store.db.turns.lookup key = some row → row.mode = .instant)
    (done : store.db.updateTurn key update = .ok next) :
    Sound deployment { store with db := next } := by
  cases found : store.db.turns.lookup key with
  | none =>
      rw [Database.updateTurn_of_absent found] at done
      cases done
      exact sound
  | some row =>
      obtain ⟨unique, references, rfl⟩ :=
        (Database.updateTurn_eq_ok found).mp done
      refine sound.insertTurn key unique references ?_ ?_
      · intro isBound
        simp only [TurnUpdate.apply, ne_eq, Option.or_eq_none_iff,
          not_and_or] at isBound ⊢
        rcases isBound with updated | before
        · exact .inl (binds updated)
        · exact .inr (sound.boundTurns key row found before)
      · intro isFinished isDurable
        simp only [TurnUpdate.apply, ne_eq, Option.or_eq_none_iff,
          not_and_or] at isFinished isDurable ⊢
        cases state : update.state with
        | none =>
            rw [state] at isFinished
            exact .inr (sound.finishedTurns key row found isFinished isDurable)
        | some written =>
            rw [state] at isFinished
            have toFinished : update.state = some .finished :=
              state.trans (congrArg some isFinished)
            have isInstant := finishes toFinished row found
            rw [isInstant] at isDurable
            cases isDurable

theorem createInstance (sound : Sound deployment store)
    {runtime : RuntimeInput}
    (done : store.db.createInstance runtime.instanceId
      (provisioningRow deployment runtime) = .ok next) :
    Sound deployment { store with db := next } := by
  obtain ⟨absent, references, rfl⟩ := Database.createInstance_eq_ok.mp done
  refine { sound with
    consistent := { sound.consistent with instances := ?_, turns := ?_ }
    canonical := ⟨sound.canonical.trees, ?_⟩ }
  · intro id row found
    rw [AList.lookup_insert_if] at found
    split at found
    · cases found
      exact references
    · exact sound.consistent.instances id row found
  · intro key row found
    have before := Database.turnReferencesExist_iff.mp
      (sound.consistent.turns key row found)
    refine Database.turnReferencesExist_iff.mpr ⟨fun id isInstance => ?_,
      before.2⟩
    have present := before.1 id isInstance
    unfold Database.hasInstance at present ⊢
    rw [AList.lookup_insert_if]
    split <;> simp_all
  · intro id row found
    rw [AList.lookup_insert_if] at found
    split at found
    · rename_i same
      cases found
      rw [same]
      rfl
    · exact sound.canonical.instances id row found

/-! ## Commits and refs -/

theorem createWorkspace (sound : Sound deployment store)
    {threadId : ThreadId} {workspaceId : WorkspaceId} {headCommit : Digest}
    (done : store.db.insertThreadWorkspace threadId workspaceId headCommit =
      .ok next) :
    Sound deployment { store with db := next } := by
  obtain ⟨noWorkspace, commit, noThread, noOther, rfl⟩ :=
    Database.insertThreadWorkspace_eq_ok done
  have workspaces : ∀ id, store.db.hasWorkspace id = true →
      ((store.db.workspaces.insert workspaceId ()).lookup id).isSome =
        true := by
    intro id present
    unfold Database.hasWorkspace at present
    rw [AList.lookup_insert_if]
    split <;> simp_all
  have noRef : ∀ name, store.db.refs.lookup (workspaceId, name) = none := by
    intro name
    by_contra found
    obtain ⟨head, found⟩ := Option.ne_none_iff_exists'.mp found
    have := (sound.consistent.heads _ _ found).2
    simp [noWorkspace] at this
  refine { sound with
    consistent := ⟨sound.consistent.parents, ?_, ?_, ?_, ?_⟩
    canonical := ⟨sound.canonical.trees, sound.canonical.instances⟩
    threadsInjective := ?_
    mainRefs := ?_
    anchored := ?_ }
  · intro ref head found
    rw [AList.lookup_insert_if] at found
    split at found
    · rename_i same
      subst same
      cases found
      exact ⟨commit, by simp [Database.hasWorkspace]⟩
    · have before := sound.consistent.heads ref head found
      exact ⟨before.1, workspaces _ before.2⟩
  · intro thread workspace found
    rw [AList.lookup_insert_if] at found
    split at found
    · cases found
      simp [Database.hasWorkspace]
    · exact workspaces _ (sound.consistent.threads thread workspace found)
  · intro id row found
    have before := Database.instanceReferencesExist_iff.mp
      (sound.consistent.instances id row found)
    exact Database.instanceReferencesExist_iff.mpr
      ⟨fun workspace isWorkspace => workspaces _ (before.1 _ isWorkspace),
        before.2⟩
  · intro key row found
    have before := Database.turnReferencesExist_iff.mp
      (sound.consistent.turns key row found)
    exact Database.turnReferencesExist_iff.mpr
      ⟨before.1,
        fun workspace isWorkspace => workspaces _ (before.2.1 _ isWorkspace),
        before.2.2⟩
  · intro thread other workspace found otherFound
    rw [AList.lookup_insert_if] at found otherFound
    split at found <;> split at otherFound
    · simp_all
    · cases found
      exact (noOther other otherFound).elim
    · cases otherFound
      exact (noOther thread found).elim
    · exact sound.threadsInjective thread other workspace found otherFound
  · intro workspace present
    by_cases same : workspace = workspaceId
    · subst same
      exact ⟨headCommit, AList.lookup_insert _⟩
    · have before : store.db.hasWorkspace workspace = true := by
        unfold Database.hasWorkspace at present ⊢
        rwa [AList.lookup_insert_if, if_neg same] at present
      obtain ⟨head, found⟩ := sound.mainRefs workspace before
      exact ⟨head, by rw [AList.lookup_insert_if, if_neg (by simp [same]),
        found]⟩
  · intro id present
    rcases sound.anchored id present with isEmpty | ⟨ref, head, found, path⟩
    · exact .inl isEmpty
    · refine .inr ⟨ref, head, ?_, path⟩
      rw [AList.lookup_insert_if, if_neg, found]
      rintro rfl
      rw [noRef] at found
      cases found

end Sound

namespace Stored

variable {deployment : Deployment} {store : Store}

/-- A tree object whose file is stored. -/
theorem putTreeObject (stored : Stored deployment store) {tree : CfsObject}
    (path : tree.path = deployment.treePath tree.treeDigest)
    (file : tree.path ∈ store.objects) :
    Stored deployment { store with db := store.db.putTreeObject tree } ∧
      ∃ row, (store.db.putTreeObject tree).treeObjects.lookup
        tree.treeDigest = some row := by
  unfold Database.putTreeObject
  split
  case isTrue present => exact ⟨stored, Option.isSome_iff_exists.mp present⟩
  case isFalse absent =>
    refine ⟨{ stored with
      consistent := ⟨stored.consistent.parents, stored.consistent.heads,
        stored.consistent.threads, stored.consistent.instances,
        stored.consistent.turns⟩
      canonical := ⟨?_, stored.canonical.instances⟩
      archived := ?_
      files := ?_ }, by simp⟩
    · intro digest row found
      rw [AList.lookup_insert_if] at found
      split at found
      · rename_i same
        cases found
        rw [same, path]
      · exact stored.canonical.trees digest row found
    · intro id row found
      obtain ⟨old, isOld⟩ := stored.archived id row found
      rw [AList.lookup_insert_if]
      split
      · exact ⟨_, rfl⟩
      · exact ⟨old, isOld⟩
    · intro digest row found
      rw [AList.lookup_insert_if] at found
      split at found
      · cases found
        exact file
      · exact stored.files digest row found

/-- A commit under its own digest whose tree is stored and whose parent, if
it has one, is there. -/
theorem putCommit (stored : Stored deployment store) {id : Digest}
    {row : CommitRow} {next : Database}
    (address : id = deployment.commitDigest row.contractDigest row.treeDigest
      row.parentId)
    (archived : ∃ tree, store.db.treeObjects.lookup row.treeDigest = some tree)
    (first : row.parentId = none → id = deployment.emptyCommit)
    (done : store.db.putCommit id row = .ok next) :
    Stored deployment { store with db := next } ∧
      next.commits.lookup id = some row ∧
      (∀ node up, store.db.parent node = some up →
        next.parent node = some up) ∧
      ∀ other, next.hasCommit other = true →
        other = id ∨ store.db.hasCommit other = true := by
  rcases Database.putCommit_eq_ok done with
    ⟨present, rfl⟩ | ⟨absent, parents, rfl⟩
  · obtain ⟨old, found⟩ := Option.isSome_iff_exists.mp present
    have same := deployment.commitDigest_injective
      (address.symm.trans (stored.hashed id old found))
    refine ⟨stored, ?_, fun _ _ step => step, fun _ => .inr⟩
    rw [found]
    cases row
    cases old
    simp_all
  · have grows : ∀ node up, store.db.parent node = some up →
        ({ store.db with
          commits := store.db.commits.insert id row } : Database).parent
            node = some up := by
      intro node up step
      obtain ⟨old, found, isParent⟩ := Database.parent_eq_some.mp step
      refine Database.parent_eq_some.mpr ⟨old, ?_, isParent⟩
      unfold Database.getCommit at found ⊢
      rw [AList.lookup_insert_if, if_neg, found]
      rintro rfl
      simp [absent] at found
    have keeps : ∀ other, store.db.hasCommit other = true →
        ((store.db.commits.insert id row).lookup other).isSome = true := by
      intro other present
      unfold Database.hasCommit at present
      rw [AList.lookup_insert_if]
      split <;> simp_all
    refine ⟨{ stored with
      consistent := ⟨?_, ?_, stored.consistent.threads, ?_, ?_⟩
      canonical := ⟨stored.canonical.trees, stored.canonical.instances⟩
      hashed := ?_
      archived := ?_
      rooted := ?_ }, AList.lookup_insert _, grows, ?_⟩
    · intro other otherRow up found isParent
      rw [AList.lookup_insert_if] at found
      split at found
      · cases found
        exact keeps up (parents up isParent)
      · exact keeps up
          (stored.consistent.parents other otherRow up found isParent)
    · intro ref head found
      have before := stored.consistent.heads ref head found
      exact ⟨keeps head before.1, before.2⟩
    · intro instanceId instanceRow found
      have before := Database.instanceReferencesExist_iff.mp
        (stored.consistent.instances instanceId instanceRow found)
      exact Database.instanceReferencesExist_iff.mpr
        ⟨before.1, keeps _ before.2⟩
    · intro key turn found
      have before := Database.turnReferencesExist_iff.mp
        (stored.consistent.turns key turn found)
      exact Database.turnReferencesExist_iff.mpr
        ⟨before.1, before.2.1, fun head isHead =>
          keeps _ (before.2.2 head isHead)⟩
    · intro other otherRow found
      rw [AList.lookup_insert_if] at found
      split at found
      · rename_i same
        cases found
        rw [same]
        exact address
      · exact stored.hashed other otherRow found
    · intro other otherRow found
      rw [AList.lookup_insert_if] at found
      split at found
      · cases found
        exact archived
      · exact stored.archived other otherRow found
    · intro other present
      by_cases same : other = id
      · subst same
        cases isParent : row.parentId with
        | none => exact first isParent ▸ .refl _
        | some up =>
            have step : ({ store.db with
                commits := store.db.commits.insert other row
                } : Database).parent other = some up :=
              Database.parent_eq_some.mpr ⟨row, AList.lookup_insert _, isParent⟩
            exact .head step
              ((stored.rooted up (parents up isParent)).mono grows)
      · have before : store.db.hasCommit other = true := by
          unfold Database.hasCommit at present ⊢
          rwa [AList.lookup_insert_if, if_neg same] at present
        exact (stored.rooted other before).mono grows
    · intro other present
      by_cases same : other = id
      · exact .inl same
      · refine .inr ?_
        unfold Database.hasCommit at present ⊢
        rwa [AList.lookup_insert_if, if_neg same] at present

/-- Moving a ref to a child of its head makes the child anchored and keeps
what the head anchored. -/
theorem moveHead (stored : Stored deployment store)
    {workspaceId : WorkspaceId} {head commitId : Digest}
    (isHead : store.db.refs.lookup (workspaceId, mainRef) = some head)
    (link : store.db.parent commitId = some head)
    (anchored : ∀ id, store.db.hasCommit id = true → id = commitId ∨
      id = deployment.emptyCommit ∨ ∃ ref head,
        store.db.refs.lookup ref = some head ∧
          Ascends store.db.parent head id) :
    Sound deployment { store with
      db := { store.db with
        refs := store.db.refs.insert (workspaceId, mainRef) commitId } } := by
  obtain ⟨row, isRow, _⟩ := Database.parent_eq_some.mp link
  refine { stored with
    consistent := { stored.consistent with heads := ?_ }
    canonical := ⟨stored.canonical.trees, stored.canonical.instances⟩
    mainRefs := ?_
    anchored := ?_ }
  · intro ref other found
    rw [AList.lookup_insert_if] at found
    split at found
    · rename_i same
      subst same
      cases found
      refine ⟨?_, (stored.consistent.heads _ _ isHead).2⟩
      simp only [Database.hasCommit]
      unfold Database.getCommit at isRow
      rw [isRow]
      rfl
    · exact stored.consistent.heads ref other found
  · intro workspace present
    by_cases same : (workspace, mainRef) = (workspaceId, mainRef)
    · exact ⟨commitId, by rw [AList.lookup_insert_if, if_pos same]⟩
    · obtain ⟨other, found⟩ := stored.mainRefs workspace present
      exact ⟨other, by rw [AList.lookup_insert_if, if_neg same, found]⟩
  · intro id present
    rcases anchored id present with rfl | isEmpty | ⟨ref, other, found, path⟩
    · exact .inr ⟨(workspaceId, mainRef), id, AList.lookup_insert _, .refl _⟩
    · exact .inl isEmpty
    · by_cases same : ref = (workspaceId, mainRef)
      · subst same
        rw [isHead] at found
        cases found
        exact .inr ⟨(workspaceId, mainRef), commitId, AList.lookup_insert _,
          .head link path⟩
      · exact .inr ⟨ref, other, by
          rw [AList.lookup_insert_if, if_neg same, found], path⟩

end Stored

namespace Sound

variable {deployment : Deployment} {store : Store} {next : Database}

theorem seed (sound : Sound deployment store)
    (file : deployment.emptyTree.path ∈ store.objects)
    (done : initializeDatabase deployment store.db = .ok next) :
    Sound deployment { store with db := next } ∧
      next.hasCommit deployment.emptyCommit = true := by
  unfold initializeDatabase at done
  have isPath : deployment.emptyTree.path =
      deployment.treePath deployment.emptyTree.treeDigest := rfl
  obtain ⟨treeStored, isTree⟩ := sound.toStored.putTreeObject isPath file
  have address : deployment.emptyCommit = deployment.commitDigest
      emptyContractDigest deployment.emptyTree.treeDigest none := rfl
  obtain ⟨stored, isRow, grows, only⟩ := treeStored.putCommit
    (by exact address) isTree (fun _ => rfl) done
  have sameRefs : next.refs = store.db.refs := by
    rcases Database.putCommit_eq_ok done with ⟨_, rfl⟩ | ⟨_, _, rfl⟩ <;>
      unfold Database.putTreeObject <;> split <;> rfl
  have sameCommits : (store.db.putTreeObject deployment.emptyTree).commits =
      store.db.commits := by
    unfold Database.putTreeObject
    split <;> rfl
  refine ⟨{ stored with anchored := fun id present => ?_ }, ?_⟩
  · rcases only id present with isEmpty | before
    · exact .inl isEmpty
    · have before : store.db.hasCommit id = true := by
        unfold Database.hasCommit at before ⊢
        rwa [sameCommits] at before
      rcases sound.anchored id before with isEmpty | ⟨ref, head, found, path⟩
      · exact .inl isEmpty
      · refine .inr ⟨ref, head, by rw [sameRefs, found], path.mono ?_⟩
        intro node up step
        apply grows
        unfold Database.parent Database.getCommit at step ⊢
        rwa [sameCommits]
  · unfold Database.hasCommit
    rw [isRow]
    rfl

theorem publish (sound : Sound deployment store) {commit : CommitInput}
    {tree : CfsObject} (path : tree.path = deployment.treePath tree.treeDigest)
    (file : tree.path ∈ store.objects)
    (done : store.db.publishTurnCommit (publishInput deployment commit tree) =
      .ok (next, true)) :
    Sound deployment { store with db := next } := by
  obtain ⟨captured, row, inserted, isHead, found, isPublishable, rfl⟩ :=
    Database.publishTurnCommit_eq_ok done
  obtain ⟨_, _, sameRefs, _, sameTurns, _⟩ :=
    Database.insertCapture_frame inserted
  obtain ⟨treeStored, isTree⟩ := sound.toStored.putTreeObject path file
  have put : (store.db.putTreeObject tree).putCommit
      (deployment.commitDigest emptyContractDigest tree.treeDigest
        (some commit.expectedHead))
      { treeDigest := tree.treeDigest
        contractDigest := emptyContractDigest
        parentId := some commit.expectedHead } = .ok captured := inserted
  have hasParent : some commit.expectedHead = none →
      deployment.commitDigest emptyContractDigest tree.treeDigest
        (some commit.expectedHead) = deployment.emptyCommit := by
    intro impossible
    cases impossible
  obtain ⟨stored, isRow, grows, only⟩ :=
    treeStored.putCommit (by exact rfl) isTree hasParent put
  have sameCommits : (store.db.putTreeObject tree).commits =
      store.db.commits := by
    unfold Database.putTreeObject
    split <;> rfl
  have link : captured.parent (publishInput deployment commit tree).commitId =
      some commit.expectedHead :=
    Database.parent_eq_some.mpr ⟨_, isRow, rfl⟩
  have moved := stored.moveHead isHead link (fun id present => by
    rcases only id present with isNew | before
    · exact .inl isNew
    · have before : store.db.hasCommit id = true := by
        unfold Database.hasCommit at before ⊢
        rwa [sameCommits] at before
      rcases sound.anchored id before with isEmpty | ⟨ref, head, isRef, path⟩
      · exact .inr (.inl isEmpty)
      · refine .inr (.inr ⟨ref, head, by rw [sameRefs, isRef], path.mono ?_⟩)
        intro node up step
        apply grows
        unfold Database.parent Database.getCommit at step ⊢
        rwa [sameCommits])
  obtain ⟨_, hasInstance, hasWorkspace, _⟩ :=
    Database.publishable_iff.mp isPublishable
  have inactive : (Database.publishedRow (publishInput deployment commit tree)
      row).state.active = false := rfl
  have written := moved.insertTurn commit.key
    (Database.openThreadUnique_of_inactive inactive)
    (stored.consistent.turns commit.key row found)
    (fun _ absent => by
      rw [show row.instanceId = none from absent] at hasInstance
      cases hasInstance)
    (fun _ _ absent => by
      rw [show row.workspaceId = none from absent] at hasWorkspace
      cases hasWorkspace)
  exact (written.quiet (Database.updateInstance_quiet _ _ _)).quiet
    (Database.succeedOperation_quiet _ _ _)

/-- Every atomic change keeps the store sound. -/
theorem write {before after : Store} (sound : Sound deployment before)
    (change : Write deployment before after) : Sound deployment after := by
  cases change with
  | quiet unchanged => exact sound.quiet unchanged
  | storeFile path => exact sound.storeFile path
  | seed done file => exact (sound.seed file done).1
  | createWorkspace done => exact sound.createWorkspace done
  | createTurn isStarting unbound done =>
      exact sound.createTurn isStarting unbound done
  | updateTurn binds finishes done =>
      exact sound.updateTurn binds finishes done
  | createInstance done => exact sound.createInstance done
  | publish done path file => exact sound.publish path file done

theorem writes {before after : Store} (sound : Sound deployment before)
    (changes : Relation.ReflTransGen (Write deployment) before after) :
    Sound deployment after := by
  induction changes with
  | refl => exact sound
  | tail _ change induction => exact induction.write change

/-! ## Updates that succeed -/

/-- An update that keeps the index and whose references exist. -/
theorem updateTurn_succeeds {db : Database} {objects : List String}
    (sound : Sound deployment ⟨db, objects⟩) {key : TurnKey}
    {update : TurnUpdate} {row : TurnRow}
    (found : db.turns.lookup key = some row)
    (calm : (update.apply row).state.active = true →
      row.state.active = true)
    (instances : ∀ id, update.instanceId = some id →
      db.hasInstance id = true)
    (workspaces : ∀ id, update.workspaceId = some id →
      db.hasWorkspace id = true)
    (heads : ∀ id, update.expectedHead = some id →
      db.hasCommit id = true) :
    db.updateTurn key update = .ok { db with
      turns := db.turns.insert key (update.apply row) } := by
  have before := Database.turnReferencesExist_iff.mp
    (sound.consistent.turns key row found)
  refine (Database.updateTurn_eq_ok found).mpr ⟨?_, ?_, rfl⟩
  · apply Database.openThreadUnique_iff.mpr
    intro isActive other otherRow isOther thread otherActive
    exact sound.activeUnique key row other otherRow found isOther
      (calm isActive) otherActive thread
  · apply Database.turnReferencesExist_iff.mpr
    refine ⟨fun id isInstance => ?_, fun id isWorkspace => ?_,
      fun id isHead => ?_⟩
    · rcases Option.or_eq_some_iff.mp isInstance with written | ⟨_, kept⟩
      · exact instances id written
      · exact before.1 id kept
    · rcases Option.or_eq_some_iff.mp isWorkspace with written | ⟨_, kept⟩
      · exact workspaces id written
      · exact before.2.1 id kept
    · rcases Option.or_eq_some_iff.mp isHead with written | ⟨_, kept⟩
      · exact heads id written
      · exact before.2.2 id kept

/-- An update that binds nothing and wakes nothing up. -/
theorem markTurn_succeeds {db : Database} {objects : List String}
    (sound : Sound deployment ⟨db, objects⟩) {key : TurnKey}
    {row : TurnRow} (update : TurnUpdate)
    (found : db.turns.lookup key = some row)
    (calm : (update.apply row).state.active = true →
      row.state.active = true)
    (unbound : update.instanceId = none ∧ update.workspaceId = none ∧
      update.expectedHead = none) :
    db.updateTurn key update = .ok { db with
      turns := db.turns.insert key (update.apply row) } := by
  refine sound.updateTurn_succeeds found calm ?_ ?_ ?_
  · simp [unbound.1]
  · simp [unbound.2.1]
  · simp [unbound.2.2]

end Sound

end Electrosphere
