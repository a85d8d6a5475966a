import Electrosphere.Domain.DaemonSoundness

/-!
# When the collector completes

In a sound store every commit lies between the canonical empty commit and some
ref, so as soon as anything is a root nothing but stray trees is removed.
Without a root the empty commit itself is collected, and its deletion is
refused exactly when a dead instance row still names it as its base.
-/

namespace Electrosphere

open Foundation

/-! ## What a successful run leaves -/

section Outcome

variable {store after : Store}

theorem performActions_treeDeleted {actions : List GcAction}
    {digest : Digest}
    (planned : GcAction.deleteTreeObject digest ∈ actions)
    (done : performActions store actions = (after, .ok ())) :
    after.db.getTreeObject digest = none := by
  obtain ⟨first, second, rfl⟩ := List.append_of_mem planned
  induction first generalizing store with
  | nil =>
      simp only [List.nil_append, performActions, GcAction.apply] at done
      have gone : (store.db.deleteTreeObject digest).getTreeObject digest =
          none := by
        simp [Database.deleteTreeObject, Database.getTreeObject]
      have stays : (performActions
          { store with db := store.db.deleteTreeObject digest }
          second).1.db.getTreeObject digest = none :=
        performActions_invariant
          (fun current => current.db.getTreeObject digest = none)
          (fun action _ current next gone result => by
            rcases (GcAction.effect result).trees digest with same | ⟨_, gone⟩
            · rw [same, gone]
            · exact gone)
          gone
      rwa [done] at stays
  | cons action first induction =>
      simp only [List.cons_append, performActions] at done
      cases result : action.apply store with
      | error error => simp [result] at done
      | ok middle =>
          simp only [result] at done
          exact induction (by simp) done

theorem mem_gcActions_commit {id : Digest} {row : CommitRow}
    (inside : (id, row) ∈ unreachableCommits store.db) :
    GcAction.deleteCommit id ∈ gcActions store := by
  unfold gcActions
  simp only [List.mem_append, List.mem_map]
  exact .inl (.inr ⟨(id, row), inside, rfl⟩)

theorem mem_gcActions_tree {digest : Digest} {row : TreeObjectRow}
    (inside : (digest, row) ∈ unreachableTrees store.db) :
    GcAction.deleteTreeObject digest ∈ gcActions store := by
  unfold gcActions
  simp only [List.mem_append, List.mem_flatMap]
  exact .inl (.inl (.inr ⟨(digest, row), inside, by simp⟩))

/-- A tree that some live commit has. -/
def Database.TreeLive (db : Database) (digest : Digest) : Prop :=
  ∃ id row, db.getCommit id = some row ∧ db.Live id ∧
    row.treeDigest = digest

/-- Exactly the live commits and trees are left, and every commit that is
left has its tree object and its file. -/
structure Collected (cleaned after : Store) : Prop where
  commits : ∀ id row, after.db.getCommit id = some row ↔
    cleaned.db.getCommit id = some row ∧ cleaned.db.Live id
  trees : ∀ digest row, after.db.getTreeObject digest = some row ↔
    cleaned.db.getTreeObject digest = some row ∧ cleaned.db.TreeLive digest
  archived : ∀ id row, after.db.getCommit id = some row →
    ∃ tree, after.db.getTreeObject row.treeDigest = some tree ∧
      tree.path ∈ after.objects

/-- A run that performs all its actions has collected everything. -/
theorem collected_of_performed {deployment : Deployment}
    (sound : Sound deployment store)
    (done : performActions store (gcActions store) = (after, .ok ())) :
    Collected store after := by
  have collecting : Collecting store after := by
    have whole := Collecting.performed sound.canonical
      (fun action (member : action ∈ gcActions store) => member)
    rwa [done] at whole
  have commits : ∀ id row, after.db.getCommit id = some row ↔
      store.db.getCommit id = some row ∧ store.db.Live id := by
    intro id row
    constructor
    · intro found
      rcases collecting.commits id with same | ⟨_, gone⟩
      · have before : store.db.getCommit id = some row := same ▸ found
        refine ⟨before, ?_⟩
        by_contra dead
        have gone := performActions_deleted (mem_gcActions_commit
          (mem_unreachableCommits_iff.mpr ⟨before, dead⟩)) done
        simp [gone] at found
      · simp [gone] at found
    · rintro ⟨found, live⟩
      rw [(collecting.keeps live).1, found]
  have trees : ∀ digest row, after.db.getTreeObject digest = some row ↔
      store.db.getTreeObject digest = some row ∧
        store.db.TreeLive digest := by
    intro digest row
    constructor
    · intro found
      have before : store.db.getTreeObject digest = some row := by
        have subset : ∀ row,
            (performActions store (gcActions store)).1.db.getTreeObject
              digest = some row →
            store.db.getTreeObject digest = some row :=
          performActions_invariant
            (fun current => ∀ row,
              current.db.getTreeObject digest = some row →
              store.db.getTreeObject digest = some row)
            (fun action _ current next before result row found => by
              rcases (GcAction.effect result).trees digest with
                same | ⟨_, gone⟩
              · exact before row (by rw [← same, found])
              · simp [gone] at found)
            (fun _ found => found)
        rw [done] at subset
        exact subset row found
      refine ⟨before, ?_⟩
      by_contra dead
      have unused : ∀ id commit, store.db.getCommit id = some commit →
          store.db.Live id → commit.treeDigest ≠ digest :=
        fun id commit isCommit live same =>
          dead ⟨id, commit, isCommit, live, same⟩
      have gone := performActions_treeDeleted (mem_gcActions_tree
        (mem_unreachableTrees_iff.mpr ⟨before, unused⟩)) done
      simp [gone] at found
    · rintro ⟨found, id, commit, isCommit, live, rfl⟩
      rw [((collecting.keeps live).2 commit isCommit).1, found]
  refine ⟨commits, trees, ?_⟩
  intro id row found
  obtain ⟨before, live⟩ := (commits id row).mp found
  obtain ⟨tree, isTree⟩ := sound.archived id row before
  have kept := (collecting.keeps live).2 row before
  exact ⟨tree, kept.1.trans isTree,
    kept.2 tree isTree (sound.files row.treeDigest tree isTree)⟩

end Outcome

/-! ## Which deletions are refused -/

/-- Only the deletion of a commit can fail. -/
theorem performActions_ok {store : Store} {actions : List GcAction}
    (harmless : ∀ id, GcAction.deleteCommit id ∉ actions) :
    ∃ after, performActions store actions = (after, .ok ()) := by
  induction actions generalizing store with
  | nil => exact ⟨store, rfl⟩
  | cons action actions induction =>
      have rest : ∀ id, GcAction.deleteCommit id ∉ actions :=
        fun id member => harmless id (List.mem_cons_of_mem _ member)
      cases action with
      | deleteCommit id => exact (harmless id List.mem_cons_self).elim
      | removeFile path => exact induction rest
      | deleteTreeObject digest => exact induction rest
      | removeDirectory path => exact induction rest

/-- A commit that an instance row is based on cannot be deleted. -/
theorem deleteCommit_refused {db : Database} {id : Digest}
    {instanceId : InstanceId} {row : InstanceRow}
    (present : db.hasCommit id = true)
    (found : db.instances.lookup instanceId = some row)
    (isBase : row.baseCommit = id) :
    db.deleteCommit id = .error foreignKeyFailure := by
  have member : (instanceId, row) ∈ db.instances.select
      fun _ row => decide (row.baseCommit = id) :=
    AList.mem_select.mpr ⟨found, by simpa using isBase⟩
  have nonempty : (db.instances.select
      fun _ row => decide (row.baseCommit = id)).isEmpty = false := by
    cases rows : db.instances.select
        fun _ row => decide (row.baseCommit = id) with
    | nil => simp [rows] at member
    | cons => rfl
  simp [Database.deleteCommit, Database.commitReferenced, present, nonempty]

/-- Actions that include the deletion of a base commit end in an error. -/
theorem performActions_refused {store after : Store} {actions : List GcAction}
    {id : Digest} {instanceId : InstanceId} {row : InstanceRow}
    (present : store.db.hasCommit id = true)
    (found : store.db.instances.lookup instanceId = some row)
    (isBase : row.baseCommit = id)
    (planned : GcAction.deleteCommit id ∈ actions) :
    performActions store actions ≠ (after, .ok ()) := by
  intro done
  have gone := performActions_deleted planned done
  have stays : (performActions store actions).1.db.instances.lookup
      instanceId = some row ∧
      (performActions store actions).1.db.hasCommit id = true :=
    performActions_invariant
      (fun current => current.db.instances.lookup instanceId = some row ∧
        current.db.hasCommit id = true)
      (fun action _ current next before result => by
        have effect := GcAction.effect result
        refine ⟨by rw [effect.instances, before.1], ?_⟩
        rcases effect.commits id with same | ⟨rfl, _⟩
        · unfold Database.getCommit at same
          unfold Database.hasCommit
          rw [same]
          exact before.2
        · simp only [GcAction.apply, deleteCommit_refused before.2 before.1
            isBase] at result
          cases result)
      ⟨found, present⟩
  rw [done] at stays
  unfold Database.getCommit at gone
  simp [Database.hasCommit, gone] at stays

/-! ## The condition -/

/-- Some ref exists, or a live instance, or no instance at all. -/
def Database.Collectable (db : Database) : Prop :=
  (∃ ref head, db.refs.lookup ref = some head) ∨
    (∃ id row, db.instances.lookup id = some row ∧
      row.state.dead = false) ∨
    ∀ id, db.instances.lookup id = none

/-- `gc` returns, and leaves exactly what its roots reach. -/
def GcCompletes (destroy : InstanceId → Except Thrown Unit)
    (store : Store) : Prop :=
  ∃ after counts, gc destroy store = (after, .ok counts) ∧
    Collected (store.cleaned destroy) after

section Condition

variable {deployment : Deployment} {store : Store}
  {destroy : InstanceId → Except Thrown Unit}

theorem Sound.cleaned (sound : Sound deployment store) :
    Sound deployment (store.cleaned destroy) :=
  sound.quiet (store.cleaned_quiet destroy)

/-- `gc` completes when the actions it plans succeed. -/
theorem gcCompletes_of_performed (sound : Sound deployment store)
    {after : Store}
    (done : performActions (store.cleaned destroy)
      (gcActions (store.cleaned destroy)) = (after, .ok ())) :
    GcCompletes destroy store := by
  have collected := collected_of_performed sound.cleaned done
  unfold GcCompletes gc
  dsimp only
  rw [done]
  exact ⟨after, _, rfl, collected⟩

/-- Below a ref everything is live. -/
theorem Sound.live_of_ref (sound : Sound deployment store)
    {ref : WorkspaceId × String} {head id : Digest}
    (found : store.db.refs.lookup ref = some head)
    (present : store.db.hasCommit id = true) : store.db.Live id := by
  rcases sound.anchored id present with rfl | ⟨other, otherHead, isRef, path⟩
  · exact ⟨head, .inl ⟨ref, found⟩,
      sound.rooted head (sound.consistent.heads ref head found).1⟩
  · exact ⟨otherHead, .inl ⟨other, isRef⟩, path⟩

theorem gcCompletes_of_allLive (sound : Sound deployment store)
    (live : ∀ id, (store.cleaned destroy).db.hasCommit id = true →
      (store.cleaned destroy).db.Live id) :
    GcCompletes destroy store := by
  have harmless : ∀ id, GcAction.deleteCommit id ∉
      gcActions (store.cleaned destroy) := by
    intro id planned
    rcases mem_gcActions_cases planned with
      ⟨_, isFile, _⟩ | ⟨_, _, _, isTree⟩ | ⟨other, row, dead, isCommit⟩ |
      ⟨_, _, _, isDirectory⟩
    · cases isFile
    · cases isTree
    · obtain ⟨found, notLive⟩ := mem_unreachableCommits_iff.mp dead
      apply notLive
      apply live
      unfold Database.getCommit at found
      simp [Database.hasCommit, found]
    · cases isDirectory
  obtain ⟨after, done⟩ := performActions_ok harmless
  exact gcCompletes_of_performed sound done

/-- Without a ref there are no finished durable turns to clean up. -/
theorem Sound.cleaned_of_noRefs (sound : Sound deployment store)
    (noRefs : ∀ ref, store.db.refs.lookup ref = none) :
    store.cleaned destroy = store := by
  have instant : ∀ turn ∈ store.db.listTurns [.finished],
      turn.2.mode = .instant := by
    rintro ⟨key, row⟩ member
    obtain ⟨found, isFinished⟩ : store.db.turns.lookup key = some row ∧
        row.state = .finished := by
      simpa [Database.listTurns] using member
    cases isMode : row.mode with
    | instant => rfl
    | durable =>
        have bound := sound.finishedTurns key row found isFinished isMode
        obtain ⟨workspace, isWorkspace⟩ := Option.ne_none_iff_exists'.mp bound
        have present := (Database.turnReferencesExist_iff.mp
          (sound.consistent.turns key row found)).2.1 workspace isWorkspace
        obtain ⟨head, isHead⟩ := sound.mainRefs workspace present
        rw [noRefs] at isHead
        cases isHead
  have identity : ∀ turns : List (TurnKey × TurnRow),
      (∀ turn ∈ turns, turn.2.mode = .instant) →
      turns.foldl (cleanupFinishedTurnRuntime destroy) store.db =
        store.db := by
    intro turns allInstant
    induction turns with
    | nil => rfl
    | cons turn turns induction =>
        have skipped : cleanupFinishedTurnRuntime destroy store.db turn =
            store.db := by
          unfold cleanupFinishedTurnRuntime
          rw [allInstant turn List.mem_cons_self]
        rw [List.foldl_cons, skipped]
        exact induction fun other member =>
          allInstant other (List.mem_cons_of_mem _ member)
  unfold Store.cleaned cleanupFinishedTurnRuntimes
  rw [identity _ instant]

/-- Without a ref the canonical empty commit is the only one. -/
theorem Sound.only_empty (sound : Sound deployment store)
    (noRefs : ∀ ref, store.db.refs.lookup ref = none) {id : Digest}
    (present : store.db.hasCommit id = true) : id = deployment.emptyCommit := by
  rcases sound.anchored id present with isEmpty | ⟨ref, head, found, _⟩
  · exact isEmpty
  · rw [noRefs] at found
    cases found

/-- Nothing refers to any commit. -/
structure Unreferenced (db : Database) : Prop where
  refs : ∀ ref, db.refs.lookup ref = none
  instances : ∀ id, db.instances.lookup id = none
  turns : ∀ key row, db.turns.lookup key = some row → row.expectedHead = none
  parents : ∀ id row, db.getCommit id = some row → row.parentId = none

theorem Unreferenced.deleteCommit {db : Database}
    (unreferenced : Unreferenced db) (id : Digest) :
    db.deleteCommit id =
      .ok { db with commits := db.commits.erase id } := by
  have noChildren : (db.commits.erase id).select
      (fun _ row => decide (row.parentId = some id)) = [] := by
    refine List.eq_nil_iff_forall_not_mem.mpr ?_
    rintro ⟨child, row⟩ member
    obtain ⟨found, isParent⟩ := AList.mem_select.mp member
    rw [AList.lookup_erase_if] at found
    split at found
    · cases found
    · simp [unreferenced.parents child row found] at isParent
  have noHeads : db.refs.select (fun _ head => decide (head = id)) = [] := by
    refine List.eq_nil_iff_forall_not_mem.mpr ?_
    rintro ⟨ref, head⟩ member
    have found := (AList.mem_select.mp member).1
    rw [unreferenced.refs] at found
    cases found
  have noBases : db.instances.select
      (fun _ row => decide (row.baseCommit = id)) = [] := by
    refine List.eq_nil_iff_forall_not_mem.mpr ?_
    rintro ⟨instanceId, row⟩ member
    have found := (AList.mem_select.mp member).1
    rw [unreferenced.instances] at found
    cases found
  have noTurns : db.turns.select
      (fun _ row => decide (row.expectedHead = some id)) = [] := by
    refine List.eq_nil_iff_forall_not_mem.mpr ?_
    rintro ⟨key, row⟩ member
    obtain ⟨found, isHead⟩ := AList.mem_select.mp member
    simp [unreferenced.turns key row found] at isHead
  apply Database.deleteCommit_eq_ok.mpr
  refine ⟨rfl, fun _ => ?_⟩
  simp [Database.commitReferenced, noChildren, noHeads, noBases, noTurns]

theorem Unreferenced.step {action : GcAction} {current next : Store}
    (unreferenced : Unreferenced current.db)
    (done : action.apply current = .ok next) : Unreferenced next.db := by
  have effect := GcAction.effect done
  refine ⟨?_, ?_, ?_, ?_⟩
  · rw [effect.refs]
    exact unreferenced.refs
  · rw [effect.instances]
    exact unreferenced.instances
  · rw [effect.turns]
    exact unreferenced.turns
  · intro id row found
    rcases effect.commits id with same | ⟨_, gone⟩
    · exact unreferenced.parents id row (same ▸ found)
    · simp [gone] at found

theorem Unreferenced.performed {current : Store}
    (unreferenced : Unreferenced current.db) (actions : List GcAction) :
    ∃ after, performActions current actions = (after, .ok ()) := by
  induction actions generalizing current with
  | nil => exact ⟨current, rfl⟩
  | cons action actions induction =>
      have succeeds : ∃ next, action.apply current = .ok next := by
        cases action with
        | deleteCommit id =>
            simp only [GcAction.apply, unreferenced.deleteCommit id]
            exact ⟨_, rfl⟩
        | removeFile path => exact ⟨_, rfl⟩
        | deleteTreeObject digest => exact ⟨_, rfl⟩
        | removeDirectory path => exact ⟨_, rfl⟩
      obtain ⟨next, done⟩ := succeeds
      obtain ⟨after, rest⟩ := induction (unreferenced.step done)
      exact ⟨after, by simp only [performActions, done, rest]⟩

theorem Sound.unreferenced (sound : Sound deployment store)
    (noRefs : ∀ ref, store.db.refs.lookup ref = none)
    (noInstances : ∀ id, store.db.instances.lookup id = none) :
    Unreferenced store.db := by
  refine ⟨noRefs, noInstances, ?_, ?_⟩
  · intro key row found
    by_contra bound
    obtain ⟨id, isInstance⟩ := Option.ne_none_iff_exists'.mp
      (sound.boundTurns key row found bound)
    have present := (Database.turnReferencesExist_iff.mp
      (sound.consistent.turns key row found)).1 id isInstance
    simp [Database.hasInstance, noInstances] at present
  · intro id row found
    have present : store.db.hasCommit id = true := by
      unfold Database.getCommit at found
      simp [Database.hasCommit, found]
    have isEmpty := sound.only_empty noRefs present
    have address := sound.hashed id row found
    rw [isEmpty] at address
    exact (deployment.commitDigest_injective address).2.2.symm

theorem Sound.gcCompletes_iff (sound : Sound deployment store) :
    GcCompletes destroy store ↔ store.db.Collectable := by
  constructor
  · rintro ⟨after, counts, done, _⟩
    by_contra impossible
    obtain ⟨noRef, noLive, someInstance⟩ :
        (∀ ref, store.db.refs.lookup ref = none) ∧
        (∀ id row, store.db.instances.lookup id = some row →
          row.state.dead = true) ∧
        ∃ id row, store.db.instances.lookup id = some row := by
      unfold Database.Collectable at impossible
      push Not at impossible
      obtain ⟨noRef, noLive, id, found⟩ := impossible
      refine ⟨fun ref => ?_, fun id row found => ?_, id,
        Option.ne_none_iff_exists'.mp found⟩
      · exact Option.eq_none_iff_forall_ne_some.mpr (noRef ref)
      · simpa using noLive id row found
    obtain ⟨id, row, found⟩ := someInstance
    have present := (Database.instanceReferencesExist_iff.mp
      (sound.consistent.instances id row found)).2
    have dead : ¬ store.db.Live row.baseCommit := by
      rintro ⟨root, ⟨ref, isRef⟩ | ⟨other, otherRow, isOther, alive, _⟩, _⟩
      · rw [noRef] at isRef
        cases isRef
      · rw [noLive other otherRow isOther] at alive
        cases alive
    obtain ⟨commit, isCommit⟩ := Option.isSome_iff_exists.mp present
    have planned := mem_gcActions_commit
      (mem_unreachableCommits_iff.mpr ⟨isCommit, dead⟩)
    unfold gc at done
    rw [sound.cleaned_of_noRefs noRef] at done
    dsimp only at done
    cases performed : performActions store (gcActions store) with
    | mk last result =>
        rw [performed] at done
        cases result with
        | error error => cases done
        | ok value =>
            exact performActions_refused present found rfl planned performed
  · intro collectable
    by_cases someRef : ∃ ref head, store.db.refs.lookup ref = some head
    · obtain ⟨ref, head, found⟩ := someRef
      apply gcCompletes_of_allLive sound
      intro id present
      have isRef : (store.cleaned destroy).db.refs.lookup ref = some head := by
        rw [(store.cleaned_quiet destroy).refs]
        exact found
      exact sound.cleaned.live_of_ref isRef present
    · have noRef : ∀ ref, store.db.refs.lookup ref = none := fun ref =>
        Option.eq_none_iff_forall_ne_some.mpr fun head found =>
          someRef ⟨ref, head, found⟩
      have unchanged : store.cleaned destroy = store :=
        sound.cleaned_of_noRefs noRef
      rcases collectable with isRef | ⟨id, row, found, alive⟩ | noInstances
      · exact (someRef isRef).elim
      · apply gcCompletes_of_allLive sound
        rw [unchanged]
        intro commit present
        have isBase := (Database.instanceReferencesExist_iff.mp
          (sound.consistent.instances id row found)).2
        rw [sound.only_empty noRef present,
          ← sound.only_empty noRef isBase]
        exact ⟨row.baseCommit, .inr ⟨id, row, found, alive, rfl⟩, .refl _⟩
      · obtain ⟨after, done⟩ :=
          (sound.unreferenced noRef noInstances).performed (gcActions store)
        apply gcCompletes_of_performed sound
        rw [unchanged]
        exact done

end Condition

/-! ## Every run -/

/-- After any events in any order, `gc` completes exactly when some ref
exists, some instance is live, or there are no instance rows. -/
theorem gc_completes_iff {deployment : Deployment} {world : World}
    (reached : Reached deployment world)
    (destroy : InstanceId → Except Thrown Unit) :
    GcCompletes destroy world.store ↔ world.db.Collectable :=
  reached.provisioned.sound.gcCompletes_iff

private def sampleKey : TurnKey := ⟨"thread", "turn"⟩

/-- A durable turn is started on a new store. -/
private def durableStart : List Event :=
  [.initializeService,
    .start { threadId := "thread", turnId := "turn", mode := .durable } {}]

theorem gc_completes_durable_start :
    ∃ world, run (World.step Deployment.transparent) World.empty
        durableStart = some world ∧
      GcCompletes (fun _ => .ok ()) world.store := by
  have replay : (run (World.step Deployment.transparent) World.empty
      durableStart).any (fun world =>
        (world.db.refs.lookup (1, mainRef)).isSome) = true := by
    decide +kernel
  obtain ⟨world, isWorld, hasRef⟩ := (Option.any_eq_true _ _).mp replay
  obtain ⟨head, isHead⟩ := Option.isSome_iff_exists.mp hasRef
  have reached : Reached Deployment.transparent world :=
    Reachable.of_run (.start rfl) (fun _ _ => trivial) isWorld
  have completes := (gc_completes_iff reached fun _ => .ok ()).mpr
    (.inl ⟨(1, mainRef), head, isHead⟩)
  exact ⟨world, isWorld, completes⟩

/-- An instant turn is started and finished, and the service is closed. -/
private def instantSession : List Event :=
  [.initializeService,
    .start { threadId := "thread", turnId := "turn", mode := .instant } {},
    .resumeStart sampleKey, .resumeStart sampleKey, .resumeStart sampleKey,
    .resumeStart sampleKey, .resumeStart sampleKey,
    .finish sampleKey { capture := .error (.plain "unused") },
    .resumeFinish sampleKey, .resumeFinish sampleKey,
    .resumeFinish sampleKey, .resumeFinish sampleKey,
    .resumeFinish sampleKey, .resumeFinish sampleKey, .closeSandboxService]

/-- After an instant turn the dead instance still names the empty commit,
which no root reaches: `gc` removes its tree and is then refused the commit. -/
theorem gc_stops_after_instant_turn :
    ¬ ∀ world, Reached Deployment.transparent world →
      GcCompletes (fun _ => .ok ()) world.store := by
  intro completes
  have replay : (run (World.step Deployment.transparent) World.empty
      instantSession).any (fun world =>
        (world.db.instances.lookup 0).isSome &&
          match gc (fun _ => .ok ()) world.store with
          | (after, .error _) =>
              after.db.hasCommit Deployment.transparent.emptyCommit &&
                (after.db.getTreeObject
                  Deployment.transparent.emptyTree.treeDigest).isNone
          | (_, .ok _) => false) = true := by
    decide +kernel
  obtain ⟨world, isWorld, stopped⟩ := (Option.any_eq_true _ _).mp replay
  have reached : Reached Deployment.transparent world :=
    Reachable.of_run (.start rfl) (fun _ _ => trivial) isWorld
  obtain ⟨after, counts, done, _⟩ := completes world reached
  simp [done] at stopped

end Electrosphere
