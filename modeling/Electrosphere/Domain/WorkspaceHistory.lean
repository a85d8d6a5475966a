import Electrosphere.Domain.Moves

/-!
# The history of a workspace

A start reads the head of its workspace, a finish replaces it many awaits
later.  In between the turn claims the head, and `Lineage` says that every
claim names the current head and that what has been published forms one chain
of commits from the first head of each workspace to its current one.
-/

namespace Electrosphere

open Foundation

/-! ## Chains of publications -/

/-- The head once some publications, the latest first, have replaced it. -/
def headAfter (origin : Digest) : List Publication → Digest
  | [] => origin
  | latest :: _ => latest.commitId

/-- Each publication replaced the head that the ones before it left. -/
def Linked (origin : Digest) : List Publication → Prop
  | [] => True
  | latest :: earlier =>
      latest.parentId = headAfter origin earlier ∧ Linked origin earlier

/-- The publications of a thread. -/
def World.published (world : World) (threadId : ThreadId) :
    List Publication :=
  world.history.publications.filter fun publication =>
    decide (publication.key.threadId = threadId)

/-! ## Claims -/

/-- The workspace is the thread's and the digest its head. -/
structure Database.IsHead (db : Database) (threadId : ThreadId)
    (workspaceId : WorkspaceId) (head : Digest) : Prop where
  workspace : db.getThreadWorkspace threadId = some workspaceId
  head : db.getRef workspaceId mainRef = some head

/-- The workspace and head that a start has read. -/
def StartStage.claim : StartStage → Option (WorkspaceId × Digest)
  | .ensured (.ok workspace) =>
      some (workspace.workspaceId, workspace.headCommit)
  | .preflight runtime | .makeDirectory runtime | .materialize runtime
  | .create runtime | .created runtime =>
      runtime.workspaceId.map fun workspaceId =>
        (workspaceId, runtime.baseCommit)
  | _ => none

/-- The turn has a runtime and its commit is not published. -/
def TurnRow.bound (row : TurnRow) : Prop :=
  row.state = .opened ∨ row.state = .finishing

/-- The commit that a stored result names. -/
def TurnRow.commitId (row : TurnRow) : Option Digest :=
  (row.resultJson.bind StoredResult.response).bind TurnResponse.commitId

/-- The row of a durable turn whose commit is published. -/
structure TurnRow.Records (row : TurnRow) (publication : Publication) :
    Prop where
  mode : row.mode = .durable
  state : row.state = .finished
  workspace : row.workspaceId = some publication.workspaceId
  head : row.expectedHead = some publication.parentId
  commit : row.commitId = some publication.commitId

structure World.Lineage (deployment : Deployment) (world : World) : Prop where
  starts : ∀ key call workspaceId head,
    world.starts.lookup key = some call →
    call.stage.claim = some (workspaceId, head) →
    world.db.IsHead key.threadId workspaceId head
  turns : ∀ key row workspaceId head,
    world.db.turns.lookup key = some row → row.bound →
    row.workspaceId = some workspaceId → row.expectedHead = some head →
    world.db.IsHead key.threadId workspaceId head
  chains : ∀ threadId workspaceId,
    world.db.threadWorkspaces.lookup threadId = some workspaceId →
    ∃ origin, world.history.origins.lookup workspaceId = some origin ∧
      Linked origin (world.published threadId) ∧
      world.db.refs.lookup (workspaceId, mainRef) =
        some (headAfter origin (world.published threadId))
  published : ∀ publication ∈ world.history.publications,
    world.db.threadWorkspaces.lookup publication.key.threadId =
      some publication.workspaceId ∧
    ∃ row, world.db.turns.lookup publication.key = some row ∧
      row.Records publication
  commits : ∀ publication ∈ world.history.publications,
    world.db.hasCommit publication.commitId = true ∧
    ∃ treeDigest, publication.commitId = deployment.commitDigest
      emptyContractDigest treeDigest (some publication.parentId)
  finished : ∀ key row, world.db.turns.lookup key = some row →
    row.mode = .durable → row.state = .finished →
    ∃ publication ∈ world.history.publications, publication.key = key
  once : (world.history.publications.map Publication.key).Nodup

namespace World.Lineage

variable {deployment : Deployment} {world after : World}

theorem empty : World.empty.Lineage deployment := by
  refine ⟨?_, ?_, ?_, ?_, ?_, ?_, ?_⟩ <;>
    simp [World.empty, Database.empty]

/-- A step that leaves workspaces, heads and publications alone. -/
theorem frame (lineage : world.Lineage deployment)
    (threads : after.db.threadWorkspaces = world.db.threadWorkspaces)
    (refs : after.db.refs = world.db.refs)
    (history : after.history = world.history)
    (hasCommit : ∀ id, world.db.hasCommit id = true →
      after.db.hasCommit id = true)
    (starts : ∀ key call workspaceId head,
      after.starts.lookup key = some call →
      call.stage.claim = some (workspaceId, head) →
      world.db.IsHead key.threadId workspaceId head)
    (turns : ∀ key row workspaceId head,
      after.db.turns.lookup key = some row → row.bound →
      row.workspaceId = some workspaceId → row.expectedHead = some head →
      world.db.IsHead key.threadId workspaceId head)
    (records : ∀ key row, world.db.turns.lookup key = some row →
      row.state = .finished → ∃ later,
        after.db.turns.lookup key = some later ∧
        ∀ publication, row.Records publication → later.Records publication)
    (finished : ∀ key row, after.db.turns.lookup key = some row →
      row.mode = .durable → row.state = .finished →
      ∃ earlier, world.db.turns.lookup key = some earlier ∧
        earlier.mode = .durable ∧ earlier.state = .finished) :
    after.Lineage deployment := by
  have isHead : ∀ {threadId workspaceId head},
      world.db.IsHead threadId workspaceId head →
        after.db.IsHead threadId workspaceId head := by
    rintro threadId workspaceId head ⟨workspace, isHead⟩
    refine ⟨?_, ?_⟩
    · unfold Database.getThreadWorkspace
      rw [threads]
      exact workspace
    · unfold Database.getRef
      rw [refs]
      exact isHead
  have samePublished : ∀ threadId,
      after.published threadId = world.published threadId := by
    intro threadId
    unfold World.published
    rw [history]
  refine ⟨?_, ?_, ?_, ?_, ?_, ?_, ?_⟩
  · intro key call workspaceId head found claim
    exact isHead (starts key call workspaceId head found claim)
  · intro key row workspaceId head found bound isWorkspace isHeadCommit
    exact isHead
      (turns key row workspaceId head found bound isWorkspace isHeadCommit)
  · intro threadId workspaceId found
    rw [threads] at found
    rw [history, samePublished, refs]
    exact lineage.chains threadId workspaceId found
  · intro publication member
    rw [history] at member
    rw [threads]
    obtain ⟨workspace, row, found, recorded⟩ :=
      lineage.published publication member
    obtain ⟨later, isLater, keeps⟩ :=
      records publication.key row found recorded.state
    exact ⟨workspace, later, isLater, keeps publication recorded⟩
  · intro publication member
    rw [history] at member
    obtain ⟨present, isDigest⟩ := lineage.commits publication member
    exact ⟨hasCommit _ present, isDigest⟩
  · intro key row found isDurable isFinished
    obtain ⟨earlier, isEarlier, wasDurable, wasFinished⟩ :=
      finished key row found isDurable isFinished
    rw [history]
    exact lineage.finished key earlier isEarlier wasDurable wasFinished
  · rw [history]
    exact lineage.once

/-- A step that changes neither rows nor heads. -/
theorem same (lineage : world.Lineage deployment)
    (threads : after.db.threadWorkspaces = world.db.threadWorkspaces)
    (refs : after.db.refs = world.db.refs)
    (turns : after.db.turns = world.db.turns)
    (hasCommit : ∀ id, world.db.hasCommit id = true →
      after.db.hasCommit id = true)
    (history : after.history = world.history)
    (starts : ∀ key call workspaceId head,
      after.starts.lookup key = some call →
      call.stage.claim = some (workspaceId, head) →
      world.db.IsHead key.threadId workspaceId head) :
    after.Lineage deployment := by
  refine lineage.frame threads refs history hasCommit starts ?_ ?_ ?_
  · intro key row workspaceId head found
    rw [turns] at found
    exact lineage.turns key row workspaceId head found
  · intro key row found _
    exact ⟨row, turns ▸ found, fun _ recorded => recorded⟩
  · intro key row found isDurable isFinished
    exact ⟨row, turns ▸ found, isDurable, isFinished⟩

/-- A step that rewrites one row without touching a record. -/
theorem rewrite (lineage : world.Lineage deployment) (key : TurnKey)
    (row : TurnRow)
    (threads : after.db.threadWorkspaces = world.db.threadWorkspaces)
    (refs : after.db.refs = world.db.refs)
    (turns : ∀ other, after.db.turns.lookup other =
      if other = key then some row else world.db.turns.lookup other)
    (hasCommit : ∀ id, world.db.hasCommit id = true →
      after.db.hasCommit id = true)
    (history : after.history = world.history)
    (starts : ∀ key call workspaceId head,
      after.starts.lookup key = some call →
      call.stage.claim = some (workspaceId, head) →
      world.db.IsHead key.threadId workspaceId head)
    (claims : ∀ workspaceId head, row.bound →
      row.workspaceId = some workspaceId → row.expectedHead = some head →
      world.db.IsHead key.threadId workspaceId head)
    (records : ∀ before, world.db.turns.lookup key = some before →
      before.state = .finished →
      ∀ publication, before.Records publication → row.Records publication)
    (finished : row.mode = .durable → row.state = .finished →
      ∃ before, world.db.turns.lookup key = some before ∧
        before.mode = .durable ∧ before.state = .finished) :
    after.Lineage deployment := by
  refine lineage.frame threads refs history hasCommit starts ?_ ?_ ?_
  · intro other otherRow workspaceId head found bound isWorkspace isHead
    rw [turns] at found
    split at found
    case isTrue same =>
      cases found
      exact same ▸ claims workspaceId head bound isWorkspace isHead
    case isFalse =>
      exact lineage.turns other otherRow workspaceId head found bound
        isWorkspace isHead
  · intro other otherRow found isFinished
    by_cases same : other = key
    · subst same
      refine ⟨row, (turns other).trans (if_pos rfl), ?_⟩
      exact records otherRow found isFinished
    · exact ⟨otherRow, ((turns other).trans (if_neg same)).trans found,
        fun _ recorded => recorded⟩
  · intro other otherRow found isDurable isFinished
    rw [turns] at found
    split at found
    case isTrue same =>
      cases found
      exact same ▸ finished isDurable isFinished
    case isFalse => exact ⟨otherRow, found, isDurable, isFinished⟩

/-! ## New workspaces -/

theorem recordOrigin_same {history : History} {before next : Database}
    (threads : next.threadWorkspaces = before.threadWorkspaces)
    (threadId : ThreadId) :
    World.History.recordOrigin history before next threadId = history := by
  unfold World.History.recordOrigin Database.getThreadWorkspace
  rw [threads]
  split
  case h_1 absent present =>
    rw [absent] at present
    cases present
  case h_2 => rfl

/-- A workspace that has just been created has no history yet. -/
theorem createWorkspace (lineage : world.Lineage deployment)
    (consistent : world.db.Consistent) {threadId : ThreadId}
    {workspaceId : WorkspaceId} {headCommit : Digest} {next : Database}
    (done : world.db.insertThreadWorkspace threadId workspaceId headCommit =
      .ok next)
    (db : after.db = next) (starts : after.starts = world.starts)
    (history : after.history = World.History.recordOrigin world.history
      world.db next threadId) : after.Lineage deployment := by
  obtain ⟨noWorkspace, _, noThread, _, rfl⟩ :=
    Database.insertThreadWorkspace_eq_ok done
  have origin : after.history = { world.history with
      origins := world.history.origins.insert workspaceId headCommit } := by
    rw [history]
    unfold World.History.recordOrigin Database.getThreadWorkspace
      Database.getRef
    rw [noThread]
    dsimp only
    rw [AList.lookup_insert]
    dsimp only
    rw [AList.lookup_insert]
  have different : ∀ {thread workspace},
      world.db.threadWorkspaces.lookup thread = some workspace →
        thread ≠ threadId ∧ workspace ≠ workspaceId := by
    intro thread workspace found
    refine ⟨?_, ?_⟩
    · rintro rfl
      rw [noThread] at found
      cases found
    · rintro rfl
      have present := consistent.threads thread _ found
      rw [noWorkspace] at present
      cases present
  have isHead : ∀ {thread workspace head},
      world.db.IsHead thread workspace head →
        after.db.IsHead thread workspace head := by
    rintro thread workspace head ⟨isWorkspace, isHead⟩
    obtain ⟨otherThread, otherWorkspace⟩ := different isWorkspace
    rw [db]
    refine ⟨?_, ?_⟩
    · unfold Database.getThreadWorkspace
      dsimp only
      rw [AList.lookup_insert_if, if_neg otherThread]
      exact isWorkspace
    · unfold Database.getRef
      dsimp only
      rw [AList.lookup_insert_if, if_neg (by simp [otherWorkspace])]
      exact isHead
  have samePublished : ∀ thread,
      after.published thread = world.published thread := by
    intro thread
    unfold World.published
    rw [origin]
  have nothingPublished : world.published threadId = [] := by
    unfold World.published
    rw [List.filter_eq_nil_iff]
    intro publication member isThread
    have known := (lineage.published publication member).1
    rw [of_decide_eq_true isThread, noThread] at known
    cases known
  have samePublications : after.history.publications =
      world.history.publications := by
    rw [origin]
  refine ⟨?_, ?_, ?_, ?_, ?_, ?_, ?_⟩
  · intro key call workspace head found claim
    rw [starts] at found
    exact isHead (lineage.starts key call workspace head found claim)
  · intro key row workspace head found bound isWorkspace isHeadCommit
    rw [db] at found
    exact isHead (lineage.turns key row workspace head found bound
      isWorkspace isHeadCommit)
  · intro thread workspace found
    rw [samePublished, origin]
    rw [db] at found ⊢
    dsimp only at found ⊢
    rw [AList.lookup_insert_if] at found
    split at found
    case isTrue isThread =>
      cases found
      rw [isThread, nothingPublished]
      refine ⟨headCommit, AList.lookup_insert _, trivial, ?_⟩
      rw [AList.lookup_insert]
      rfl
    case isFalse =>
      obtain ⟨first, isFirst, linked, isHead⟩ :=
        lineage.chains thread workspace found
      have otherWorkspace := (different found).2
      refine ⟨first, ?_, linked, ?_⟩
      · rw [AList.lookup_insert_if, if_neg otherWorkspace]
        exact isFirst
      · rw [AList.lookup_insert_if, if_neg (by simp [otherWorkspace])]
        exact isHead
  · intro publication member
    rw [samePublications] at member
    obtain ⟨isWorkspace, row, found, recorded⟩ :=
      lineage.published publication member
    rw [db]
    refine ⟨?_, row, found, recorded⟩
    dsimp only
    rw [AList.lookup_insert_if, if_neg (different isWorkspace).1]
    exact isWorkspace
  · rw [samePublications, db]
    exact lineage.commits
  · rw [samePublications, db]
    exact lineage.finished
  · rw [samePublications]
    exact lineage.once

/-! ## Publishing -/

/-- What a publish that commits has written. -/
theorem publish_eq {db next : Database} {commit : CommitInput}
    {tree : CfsObject}
    (done : db.publishTurnCommit (publishInput deployment commit tree) =
      .ok (next, true)) :
    next.threadWorkspaces = db.threadWorkspaces ∧
      next.refs = db.refs.insert (commit.workspaceId, mainRef)
        (publishInput deployment commit tree).commitId ∧
      next.hasCommit (publishInput deployment commit tree).commitId =
        true := by
  obtain ⟨captured, row, inserted, _, _, _, rfl⟩ :=
    Database.publishTurnCommit_eq_ok done
  obtain ⟨_, threads, refs, _⟩ := Database.insertCapture_frame inserted
  have present : captured.hasCommit
      (publishInput deployment commit tree).commitId = true := by
    rcases Database.putCommit_eq_ok (Database.insertCapture_eq_ok inserted)
      with ⟨present, rfl⟩ | ⟨_, _, rfl⟩
    · exact present
    · unfold Database.hasCommit
      dsimp only
      rw [AList.lookup_insert]
      rfl
  refine ⟨threads, ?_, present⟩
  rw [← refs]
  rfl

/-- A commit in progress stands on the current head of its workspace. -/
theorem commit_isHead (lineage : world.Lineage deployment)
    (orderly : world.Orderly) {call : FinishCall}
    (found : world.finishes.lookup call.key = some call)
    {commit : CommitInput} (isCommit : call.stage.commit = some commit) :
    world.db.turns.lookup commit.key = some call.record ∧
      call.record.state = .finishing ∧ commit.For call ∧
      world.db.IsHead commit.key.threadId commit.workspaceId
        commit.expectedHead := by
  have phase := orderly.phased call.key
  rw [found] at phase
  have fits := (phase.finishes call rfl).2
  have known := fits.commit commit isCommit
  have unpublished : call.stage.unpublished = true := by
    cases stage : call.stage <;> rw [stage] at isCommit <;>
      first | rfl | cases isCommit
  have isRow := phase.pending call rfl unpublished
  rw [known.key]
  refine ⟨isRow, fits.finishing, known, ?_⟩
  exact lineage.turns call.key call.record _ _ isRow (.inr fits.finishing)
    known.workspace known.head

/-- A publication has changed the row and the head of one turn, which was
finishing on this head, and the history. -/
structure Publishing (world after : World) (publication : Publication)
    (row written : TurnRow) : Prop where
  isRow : world.db.turns.lookup publication.key = some row
  finishing : row.state = .finishing
  head : world.db.IsHead publication.key.threadId publication.workspaceId
    publication.parentId
  records : written.Records publication
  threads : after.db.threadWorkspaces = world.db.threadWorkspaces
  refs : after.db.refs = world.db.refs.insert
    (publication.workspaceId, mainRef) publication.commitId
  rows : ∀ key, after.db.turns.lookup key =
    if key = publication.key then some written else world.db.turns.lookup key
  starts : after.starts = world.starts
  origins : after.history.origins = world.history.origins
  publications : after.history.publications =
    publication :: world.history.publications

namespace Publishing

variable {publication : Publication} {row written : TurnRow}
  (publishing : Publishing world after publication row written)

include publishing

/-- Another turn with a claim on the same workspace would be active as well. -/
theorem keeps (provisioned : Provisioned deployment world) {key : TurnKey}
    {other : TurnRow} {workspaceId : WorkspaceId} {head : Digest}
    (isOther : world.db.turns.lookup key = some other)
    (active : other.state.active = true) (different : key ≠ publication.key)
    (isHead : world.db.IsHead key.threadId workspaceId head) :
    after.db.IsHead key.threadId workspaceId head := by
  obtain ⟨otherWorkspace, otherHead⟩ := isHead
  refine ⟨?_, ?_⟩
  · unfold Database.getThreadWorkspace
    rw [publishing.threads]
    exact otherWorkspace
  · unfold Database.getRef
    rw [publishing.refs, AList.lookup_insert_if, if_neg]
    · exact otherHead
    · intro same
      cases same
      have sameThread := provisioned.sound.threadsInjective _ _ _
        publishing.head.workspace otherWorkspace
      exact different (provisioned.sound.activeUnique publication.key row key
        other publishing.isRow isOther (by rw [publishing.finishing]; rfl)
        active sameThread)

/-- The row of the turn is not that of a publication yet. -/
theorem not_records {other : TurnRow} {earlier : Publication}
    (isOther : world.db.turns.lookup publication.key = some other)
    (recorded : other.Records earlier) : False := by
  obtain rfl : row = other :=
    Option.some.inj (publishing.isRow.symm.trans isOther)
  have impossible := recorded.state
  rw [publishing.finishing] at impossible
  cases impossible

theorem published_eq (threadId : ThreadId) :
    after.published threadId =
      if threadId = publication.key.threadId then
        publication :: world.published threadId
      else world.published threadId := by
  unfold World.published
  rw [publishing.publications, List.filter_cons]
  by_cases same : publication.key.threadId = threadId
  · rw [if_pos (decide_eq_true same), if_pos same.symm]
  · rw [if_neg (by simpa using same), if_neg (Ne.symm same)]

theorem starts_lineage (lineage : world.Lineage deployment)
    (provisioned : Provisioned deployment world) (orderly : world.Orderly)
    {key : TurnKey} {starting : StartCall} {workspaceId : WorkspaceId}
    {head : Digest} (isStarting : world.starts.lookup key = some starting)
    (claim : starting.stage.claim = some (workspaceId, head)) :
    after.db.IsHead key.threadId workspaceId head := by
  have unsettled : starting.stage.isSettled = false := by
    cases stage : starting.stage <;> rw [stage] at claim <;>
      first | rfl | cases claim
  have isKeyRow := (orderly.phased key).starting starting isStarting unsettled
  refine publishing.keeps provisioned isKeyRow rfl ?_
    (lineage.starts key starting workspaceId head isStarting claim)
  rintro rfl
  have finishing := publishing.finishing
  rw [← Option.some.inj (isKeyRow.symm.trans publishing.isRow)] at finishing
  cases finishing

theorem turns_lineage (lineage : world.Lineage deployment)
    (provisioned : Provisioned deployment world) {key : TurnKey}
    {other : TurnRow} {workspaceId : WorkspaceId} {head : Digest}
    (isOther : after.db.turns.lookup key = some other) (bound : other.bound)
    (isWorkspace : other.workspaceId = some workspaceId)
    (isHead : other.expectedHead = some head) :
    after.db.IsHead key.threadId workspaceId head := by
  rw [publishing.rows] at isOther
  split at isOther
  case isTrue =>
    cases isOther
    rcases bound with impossible | impossible <;>
      rw [publishing.records.state] at impossible <;> cases impossible
  case isFalse different =>
    have active : other.state.active = true := by
      rcases bound with state | state <;> rw [state] <;> rfl
    exact publishing.keeps provisioned isOther active different
      (lineage.turns key other workspaceId head isOther bound isWorkspace
        isHead)

/-- The commit goes on from the one before it. -/
theorem chains_lineage (lineage : world.Lineage deployment)
    (provisioned : Provisioned deployment world) {threadId : ThreadId}
    {workspaceId : WorkspaceId}
    (isThread : after.db.threadWorkspaces.lookup threadId = some workspaceId) :
    ∃ origin, after.history.origins.lookup workspaceId = some origin ∧
      Linked origin (after.published threadId) ∧
      after.db.refs.lookup (workspaceId, mainRef) =
        some (headAfter origin (after.published threadId)) := by
  rw [publishing.threads] at isThread
  obtain ⟨origin, isOrigin, linked, isCurrent⟩ :=
    lineage.chains threadId workspaceId isThread
  rw [publishing.origins, publishing.refs, publishing.published_eq]
  refine ⟨origin, isOrigin, ?_⟩
  by_cases same : threadId = publication.key.threadId
  · subst same
    cases isThread.symm.trans publishing.head.workspace
    rw [if_pos rfl, AList.lookup_insert]
    refine ⟨⟨?_, linked⟩, rfl⟩
    exact Option.some.inj (publishing.head.head.symm.trans isCurrent)
  · rw [if_neg same, AList.lookup_insert_if, if_neg]
    · exact ⟨linked, isCurrent⟩
    · intro sameRef
      cases sameRef
      exact same (provisioned.sound.threadsInjective _ _ _
        publishing.head.workspace isThread)

theorem published_lineage (lineage : world.Lineage deployment)
    {earlier : Publication} (member : earlier ∈ after.history.publications) :
    after.db.threadWorkspaces.lookup earlier.key.threadId =
        some earlier.workspaceId ∧
      ∃ other, after.db.turns.lookup earlier.key = some other ∧
        other.Records earlier := by
  rw [publishing.publications] at member
  rw [publishing.threads, publishing.rows]
  rcases List.mem_cons.mp member with rfl | member
  · exact ⟨publishing.head.workspace, _, if_pos rfl, publishing.records⟩
  · obtain ⟨isThread, other, isOther, recorded⟩ :=
      lineage.published earlier member
    refine ⟨isThread, other, ?_, recorded⟩
    rw [if_neg]
    · exact isOther
    · intro same
      rw [same] at isOther
      exact publishing.not_records isOther recorded

theorem finished_lineage (lineage : world.Lineage deployment) {key : TurnKey}
    {other : TurnRow} (isOther : after.db.turns.lookup key = some other)
    (isDurable : other.mode = .durable) (isFinished : other.state = .finished) :
    ∃ earlier ∈ after.history.publications, earlier.key = key := by
  rw [publishing.rows] at isOther
  rw [publishing.publications]
  split at isOther
  case isTrue same => exact ⟨_, List.mem_cons_self, same.symm⟩
  case isFalse =>
    obtain ⟨earlier, member, isKey⟩ :=
      lineage.finished key other isOther isDurable isFinished
    exact ⟨earlier, List.mem_cons_of_mem _ member, isKey⟩

theorem once_lineage (lineage : world.Lineage deployment) :
    (after.history.publications.map Publication.key).Nodup := by
  rw [publishing.publications, List.map_cons, List.nodup_cons]
  refine ⟨?_, lineage.once⟩
  intro member
  obtain ⟨earlier, isEarlier, same⟩ := List.mem_map.mp member
  obtain ⟨_, other, isOther, recorded⟩ := lineage.published earlier isEarlier
  rw [same] at isOther
  exact publishing.not_records isOther recorded

end Publishing

theorem publish (lineage : world.Lineage deployment)
    (provisioned : Provisioned deployment world) (orderly : world.Orderly)
    {call : FinishCall}
    (found : world.finishes.lookup call.key = some call)
    {commit : CommitInput} (isCommit : call.stage.commit = some commit)
    {tree : CfsObject} {next : Database}
    (done : world.db.publishTurnCommit
      (publishInput deployment commit tree) = .ok (next, true))
    (hasCommit : ∀ id, world.db.hasCommit id = true →
      next.hasCommit id = true)
    (db : after.db = next) (starts : after.starts = world.starts)
    (origins : after.history.origins = world.history.origins)
    (publications : after.history.publications =
      { key := commit.key
        workspaceId := commit.workspaceId
        parentId := commit.expectedHead
        commitId := (publishInput deployment commit tree).commitId } ::
          world.history.publications) :
    after.Lineage deployment := by
  obtain ⟨isRow, isFinishing, known, isHead⟩ :=
    lineage.commit_isHead orderly found isCommit
  obtain ⟨threads, refs, present⟩ := publish_eq done
  obtain ⟨row, isRow', _, turns⟩ := publish_turns done
  cases isRow.symm.trans isRow'
  subst db
  have publishing : Publishing world after
      { key := commit.key
        workspaceId := commit.workspaceId
        parentId := commit.expectedHead
        commitId := (publishInput deployment commit tree).commitId }
      call.record
      (Database.publishedRow (publishInput deployment commit tree)
        call.record) :=
    { isRow
      finishing := isFinishing
      head := isHead
      records := ⟨known.mode, rfl, known.workspace, known.head, rfl⟩
      threads, refs
      rows := fun key => by rw [turns, AList.lookup_insert_if]
      starts, origins, publications }
  refine ⟨?_, ?_, ?_, ?_, ?_, ?_, ?_⟩
  · intro key starting workspaceId head isStarting claim
    rw [starts] at isStarting
    exact publishing.starts_lineage lineage provisioned orderly isStarting
      claim
  · intro key other workspaceId head isOther bound isWorkspace isOtherHead
    exact publishing.turns_lineage lineage provisioned isOther bound
      isWorkspace isOtherHead
  · intro threadId workspaceId isThread
    exact publishing.chains_lineage lineage provisioned isThread
  · intro publication member
    exact publishing.published_lineage lineage member
  · intro publication member
    rw [publications] at member
    rcases List.mem_cons.mp member with rfl | member
    · exact ⟨present, tree.treeDigest, rfl⟩
    · obtain ⟨before, isDigest⟩ := lineage.commits publication member
      exact ⟨hasCommit _ before, isDigest⟩
  · intro key other isOther isDurable isFinished
    exact publishing.finished_lineage lineage isOther isDurable isFinished
  · exact publishing.once_lineage lineage

/-! ## Starting -/

theorem updateTurn_frame {db next : Database} {key : TurnKey}
    {update : TurnUpdate} (done : db.updateTurn key update = .ok next) :
    next.threadWorkspaces = db.threadWorkspaces ∧ next.refs = db.refs ∧
      ∀ id, next.hasCommit id = db.hasCommit id := by
  cases found : db.turns.lookup key with
  | none =>
      rw [Database.updateTurn_of_absent found] at done
      cases done
      exact ⟨rfl, rfl, fun _ => rfl⟩
  | some row =>
      obtain ⟨_, _, rfl⟩ := (Database.updateTurn_eq_ok found).mp done
      exact ⟨rfl, rfl, fun _ => rfl⟩

theorem failStart_frame {db next : Database} {key : TurnKey}
    {id : InstanceId} {error : Thrown} {stage : StartStage}
    (failed : failStart db key id error = (next, stage)) :
    next.threadWorkspaces = db.threadWorkspaces ∧ next.refs = db.refs ∧
      ∀ id, next.hasCommit id = db.hasCommit id := by
  unfold failStart at failed
  split at failed <;> cases failed
  case h_1 done => exact updateTurn_frame done
  case h_2 => exact ⟨rfl, rfl, fun _ => rfl⟩

/-- After a failed start its row is failed or still starting. -/
theorem failStart_rows {db next : Database} {input : StartTurnInput}
    {id : InstanceId} {error : Thrown} {stage : StartStage}
    (isStarting : db.turns.lookup input.key = some input.startingRow)
    (failed : failStart db input.key id error = (next, stage)) :
    ∃ row : TurnRow, (∀ other, next.turns.lookup other =
        if other = input.key then some row else db.turns.lookup other) ∧
      ¬ row.bound ∧ row.state ≠ .finished := by
  obtain ⟨_, elsewhere, found⟩ := failStart_lookup failed
  rw [isStarting] at found
  have rows : ∀ row, next.turns.lookup input.key = some row → ∀ other,
      next.turns.lookup other =
        if other = input.key then some row else db.turns.lookup other := by
    intro row isRow other
    by_cases isKey : other = input.key
    · rw [if_pos isKey, isKey, isRow]
    · rw [if_neg isKey]
      exact elsewhere other isKey
  rcases found with kept | written
  · refine ⟨_, rows _ kept, ?_, ?_⟩
    · rintro (impossible | impossible) <;> cases impossible
    · simp [StartTurnInput.startingRow]
  · refine ⟨_, rows _ written, ?_, by simp⟩
    rintro (impossible | impossible) <;> cases impossible

theorem quiet_frame {db next : Database} (quiet : db.Quiet next) :
    next.threadWorkspaces = db.threadWorkspaces ∧ next.refs = db.refs ∧
      ∀ id, next.hasCommit id = db.hasCommit id :=
  ⟨quiet.threadWorkspaces, quiet.refs, quiet.hasCommit⟩

theorem startStep_frame {db next : Database} {call : StartCall}
    {stage : StartStage} (step : StartStep deployment db call next stage) :
    next.threadWorkspaces = db.threadWorkspaces ∧ next.refs = db.refs ∧
      ∀ id, next.hasCommit id = db.hasCommit id := by
  cases step with
  | workspaceFailed | workspaceFound | probed | probeFailed | directoryMade
  | directoryFailed | materializeFailed | recordFailed | cleaned =>
      exact ⟨rfl, rfl, fun _ => rfl⟩
  | recorded _ _ done =>
      obtain ⟨_, _, rfl⟩ := Database.createInstance_eq_ok.mp done
      exact ⟨rfl, rfl, fun _ => rfl⟩
  | created | vanished | createFailed =>
      exact quiet_frame (Database.updateInstance_quiet db _ _)
  | opened _ done => exact updateTurn_frame done
  | openFailed => exact quiet_frame (Deletion.start_quiet db _)
  | turnVanished _ done =>
      obtain ⟨threads, refs, commits⟩ := updateTurn_frame done
      obtain ⟨laterThreads, laterRefs, laterCommits⟩ :=
        quiet_frame (Deletion.start_quiet _ call.instanceId)
      exact ⟨laterThreads.trans threads, laterRefs.trans refs,
        fun id => (laterCommits id).trans (commits id)⟩
  | failed _ failed => exact failStart_frame failed
  | deleting _ resumed => exact quiet_frame (Deletion.resume_quiet resumed)

/-- A start keeps the claim it made when it read the head. -/
theorem startStep_claim {db next : Database} {call : StartCall}
    {stage : StartStage} (step : StartStep deployment db call next stage)
    {workspaceId : WorkspaceId} {head : Digest}
    (claim : stage.claim = some (workspaceId, head)) :
    call.stage.claim = some (workspaceId, head) := by
  cases step with
  | workspaceFailed | probeFailed | directoryFailed | materializeFailed
  | recordFailed | cleaned | vanished | createFailed | opened | openFailed
  | turnVanished | deleting =>
      cases claim
  | workspaceFound isStage =>
      rw [isStage]
      unfold createTurnRuntime at claim
      split at claim
      · exact claim
      · cases claim
  | probed isStage | directoryMade isStage | recorded isStage
  | created isStage =>
      rw [isStage]
      exact claim
  | failed _ failed =>
      obtain ⟨⟨result, rfl⟩, _⟩ := failStart_lookup failed
      cases claim

theorem advanceStart (lineage : world.Lineage deployment)
    (orderly : world.Orderly) {call : StartCall} {next : Database}
    {stage : StartStage}
    (found : world.starts.lookup call.input.key = some call)
    (step : StartStep deployment world.db call next stage)
    (db : after.db = next) (history : after.history = world.history)
    (starts : after.starts =
      world.starts.insert call.input.key { call with stage }) :
    after.Lineage deployment := by
  have phase := orderly.phased call.input.key
  rw [found] at phase
  have isStarting := phase.starting call rfl step.unsettled
  have fits := (phase.starts call rfl).2
  obtain ⟨threads, refs, commits⟩ := startStep_frame step
  subst db
  have hasCommit : ∀ id, world.db.hasCommit id = true →
      after.db.hasCommit id = true := by
    intro id present
    rwa [commits]
  have claims : ∀ key starting workspaceId head,
      after.starts.lookup key = some starting →
      starting.stage.claim = some (workspaceId, head) →
      world.db.IsHead key.threadId workspaceId head := by
    intro key starting workspaceId head isCall claim
    rw [starts, AList.lookup_insert_if] at isCall
    split at isCall
    case isTrue same =>
      cases isCall
      rw [same]
      exact lineage.starts call.input.key call workspaceId head found
        (startStep_claim step claim)
    case isFalse =>
      exact lineage.starts key starting workspaceId head isCall claim
  have notFinished : ∀ before : TurnRow,
      world.db.turns.lookup call.input.key = some before →
        before.state ≠ .finished := by
    rintro before isBefore isFinished
    rw [← Option.some.inj (isStarting.symm.trans isBefore)] at isFinished
    cases isFinished
  rcases step.turn isStarting fits with ⟨same, _⟩ |
    ⟨runtime, isStage, done, _⟩ | ⟨error, _, failed⟩
  · exact lineage.same threads refs same hasCommit history claims
  · have rows := updateTurn_lookup done
    rw [isStarting] at rows
    refine lineage.rewrite _ _ threads refs rows hasCommit history claims ?_ ?_ ?_
    · intro workspaceId head _ isWorkspace isHead
      refine lineage.starts call.input.key call workspaceId head found ?_
      rw [isStage]
      unfold openUpdate TurnUpdate.apply at isWorkspace isHead
      unfold StartStage.claim
      split at isWorkspace
      · cases isWorkspace
      · simp_all [StartTurnInput.startingRow]
    · intro before isBefore isFinished
      exact (notFinished before isBefore isFinished).elim
    · intro _ isFinished
      simp [TurnUpdate.apply, openUpdate_state] at isFinished
  · obtain ⟨row, rows, notBound, unfinished⟩ :=
      failStart_rows isStarting failed
    refine lineage.rewrite _ _ threads refs rows hasCommit history claims ?_ ?_ ?_
    · intro _ _ isBound
      exact (notBound isBound).elim
    · intro before isBefore isFinished
      exact (notFinished before isBefore isFinished).elim
    · intro _ isFinished
      exact (unfinished isFinished).elim

/-- The claim of a start that has run to its first await. -/
theorem startCreated_eq {canonicalEmpty : Option Digest}
    {db next : Database} {input : StartTurnInput} {id : InstanceId}
    {fresh : WorkspaceId} {stage : StartStage}
    (started : startCreated canonicalEmpty db input id fresh =
      (next, stage)) :
    (∃ error, failStart db input.key id error = (next, stage)) ∨
    (next = db ∧ ∀ workspaceId head,
      stage.claim = some (workspaceId, head) →
        db.IsHead input.threadId workspaceId head) ∨
    (∃ headCommit, canonicalEmpty = some headCommit ∧
      db.insertThreadWorkspace input.threadId fresh headCommit = .ok next ∧
      stage.claim = some (fresh, headCommit)) := by
  unfold startCreated at started
  split at started
  case h_1 =>
    split at started
    case h_1 => exact .inl ⟨_, started⟩
    case h_2 =>
      cases started
      refine .inr (.inl ⟨rfl, fun workspaceId head claim => ?_⟩)
      unfold createTurnRuntime at claim
      split at claim <;> cases claim
  case h_2 =>
    generalize ensured : ensureThreadWorkspace canonicalEmpty db
      input.threadId fresh = outcome at started
    obtain ⟨later, workspace⟩ := outcome
    cases started
    rcases ensureThreadWorkspace_eq ensured with
      ⟨rfl, viewed⟩ | ⟨headCommit, isEmpty, done, rfl⟩
    · refine .inr (.inl ⟨rfl, fun workspaceId head claim => ?_⟩)
      cases workspace with
      | error error => cases claim
      | ok found =>
          cases claim
          exact ⟨(viewed found rfl).1, (viewed found rfl).2⟩
    · exact .inr (.inr ⟨headCommit, isEmpty, done, rfl⟩)

theorem beginStart (lineage : world.Lineage deployment)
    (provisioned : Provisioned deployment world) {input : StartTurnInput}
    {created : Database}
    (done : world.db.createTurn input.key input.startingRow = .ok created)
    (environment : StartEnvironment) :
    (world.beginStart created input environment).Lineage deployment := by
  have ready : Provisioned deployment { world with db := created } :=
    provisioned.write_db (.single (.createTurn rfl rfl done))
  obtain ⟨absent, _, _, rfl⟩ := Database.createTurn_eq_ok done
  have isStarting : { world.db with
      turns := world.db.turns.insert input.key input.startingRow
      }.turns.lookup input.key = some input.startingRow :=
    AList.lookup_insert _
  have inserted : { world with db := { world.db with
      turns := world.db.turns.insert input.key input.startingRow }
      }.Lineage deployment := by
    refine lineage.rewrite input.key input.startingRow rfl rfl (AList.lookup_insert_if _ · _ _)
      (fun _ => id) rfl lineage.starts ?_ ?_ ?_
    · rintro _ _ (impossible | impossible) <;> cases impossible
    · intro before isBefore
      rw [absent] at isBefore
      cases isBefore
    · intro _ isFinished
      cases isFinished
  unfold World.beginStart
  dsimp only
  generalize ({ world.db with
    turns := world.db.turns.insert input.key input.startingRow } :
      Database) = db at ready isStarting inserted ⊢
  generalize began : startCreated world.emptyCommit db input
    world.nextUuid (world.nextUuid + 1) = outcome
  obtain ⟨next, stage⟩ := outcome
  -- adding the call once its claim holds
  have add : ∀ {world' : World}, world'.Lineage deployment →
      (∀ workspaceId head, stage.claim = some (workspaceId, head) →
        world'.db.IsHead input.threadId workspaceId head) →
      ∀ {later : World}, later.db = world'.db →
        later.history = world'.history →
        later.starts = world'.starts.insert input.key
          { input, instanceId := world.nextUuid, environment, stage } →
        later.Lineage deployment := by
    intro world' before claims later sameDb sameHistory starts
    refine before.same (by rw [sameDb]) (by rw [sameDb]) (by rw [sameDb])
      (fun id present => by rwa [sameDb]) sameHistory ?_
    intro key call workspaceId head found claim
    rw [starts, AList.lookup_insert_if] at found
    split at found
    case isTrue same =>
      cases found
      rw [same]
      exact claims workspaceId head claim
    case isFalse => exact before.starts key call workspaceId head found claim
  rcases startCreated_eq began with ⟨error, failed⟩ | ⟨rfl, claims⟩ |
    ⟨headCommit, _, done, claim⟩
  · obtain ⟨row, rows, notBound, unfinished⟩ :=
      failStart_rows isStarting failed
    obtain ⟨threads, refs, commits⟩ := failStart_frame failed
    have failedWorld : { world with db := next }.Lineage deployment := by
      refine inserted.rewrite _ _ threads refs rows
        (fun id present => (commits id).trans present) rfl inserted.starts
        ?_ ?_ ?_
      · intro _ _ isBound
        exact (notBound isBound).elim
      · intro before isBefore isFinished
        cases isBefore.symm.trans isStarting
        cases isFinished
      · intro _ isFinished
        exact (unfinished isFinished).elim
    refine add failedWorld ?_ rfl (recordOrigin_same threads _) rfl
    obtain ⟨⟨result, rfl⟩, _⟩ := failStart_lookup failed
    intro _ _ claim
    cases claim
  · exact add inserted claims rfl (recordOrigin_same rfl _) rfl
  · have opened : { world with
        db := next
        history := World.History.recordOrigin world.history db next
          input.threadId }.Lineage deployment :=
      inserted.createWorkspace ready.sound.consistent done rfl rfl rfl
    refine add opened ?_ rfl rfl rfl
    intro workspaceId head isClaim
    rw [claim] at isClaim
    cases isClaim
    obtain ⟨_, _, _, _, rfl⟩ := Database.insertThreadWorkspace_eq_ok done
    exact ⟨AList.lookup_insert _, AList.lookup_insert _⟩

/-! ## Every move -/

theorem finishOutcome (lineage : world.Lineage deployment)
    (provisioned : Provisioned deployment world) (orderly : world.Orderly)
    {call : FinishCall} {segment : FinishSegment}
    (found : world.finishes.lookup call.key = some call)
    (step : FinishStep deployment world.db world.objects call segment)
    (outcome : FinishOutcome deployment world.db call segment)
    (db : after.db = segment.db) (starts : after.starts = world.starts)
    (history : after.history = { world.history with
      publications := segment.publication.toList ++
        world.history.publications }) : after.Lineage deployment := by
  have hasCommit : ∀ id, world.db.hasCommit id = true →
      after.db.hasCommit id = true := by
    intro id present
    rw [db]
    exact (step.writes (provisioned.grounded _ call found)).hasCommit present
  have claims : ∀ key starting workspaceId head,
      after.starts.lookup key = some starting →
      starting.stage.claim = some (workspaceId, head) →
      world.db.IsHead key.threadId workspaceId head := by
    rw [starts]
    exact lineage.starts
  have unpublished : segment.publication = none →
      after.history = world.history := by
    intro none
    rw [history, none]
    rfl
  have phase := orderly.phased call.key
  rw [found] at phase
  have fits := (phase.finishes call rfl).2
  have settles : ∀ {middle : Database} {row : TurnRow},
      world.db.Quiet middle →
      segment.db = { middle with
        turns := middle.turns.insert call.key row } →
      segment.publication = none → ¬ row.bound →
      (∀ before, world.db.turns.lookup call.key = some before →
        before.state = .finished → ∀ publication,
        before.Records publication → row.Records publication) →
      (row.mode = .durable → row.state = .finished →
        ∃ before, world.db.turns.lookup call.key = some before ∧
          before.mode = .durable ∧ before.state = .finished) →
      after.Lineage deployment := by
    intro middle row unchanged isDb none notBound records finished
    refine lineage.rewrite call.key row ?_ ?_ ?_ hasCommit (unpublished none)
      claims (fun _ _ isBound => (notBound isBound).elim) records finished
    · rw [db, isDb]
      exact unchanged.threadWorkspaces
    · rw [db, isDb]
      exact unchanged.refs
    · intro other
      rw [db, isDb]
      dsimp only
      rw [AList.lookup_insert_if, unchanged.turns]
  cases outcome with
  | runs unchanged none =>
      exact lineage.same (by rw [db]; exact unchanged.threadWorkspaces)
        (by rw [db]; exact unchanged.refs) (by rw [db]; exact unchanged.turns)
        hasCommit (unpublished none) claims
  | publishes isCommit done _ isPublication =>
      refine lineage.publish provisioned orderly found isCommit done ?_ db
        starts ?_ ?_
      · rw [← db]
        exact hasCommit
      · rw [history]
      · rw [history, isPublication]
        rfl
  | fails isUnpublished unchanged isRow isDb none =>
      have isPending := phase.pending call rfl isUnpublished
      refine settles unchanged isDb none ?_ ?_ ?_
      · rintro (impossible | impossible) <;> cases impossible
      · intro before isBefore isFinished
        cases isBefore.symm.trans isPending
        rw [fits.finishing] at isFinished
        cases isFinished
      · intro _ isFinished
        cases isFinished
  | completes isUnpublished isRow isInstant isDb none =>
      have isPending := phase.pending call rfl isUnpublished
      refine settles (.refl _) isDb none ?_ ?_ ?_
      · rintro (impossible | impossible) <;> cases impossible
      · intro before isBefore isFinished
        cases isBefore.symm.trans isPending
        rw [fits.finishing] at isFinished
        cases isFinished
      · intro isDurable _
        rw [show _ = _ from isInstant] at isDurable
        cases isDurable
  | notes isPublished unchanged isRow isDb none =>
      obtain ⟨turn, isTurn, isFinished⟩ :=
        phase.published call rfl isPublished
      cases isRow.symm.trans isTurn
      refine settles unchanged isDb none ?_ ?_ ?_
      · rintro (impossible | impossible) <;>
          cases isFinished.symm.trans impossible
      · intro before isBefore _ publication recorded
        cases isBefore.symm.trans isRow
        exact ⟨recorded.mode, recorded.state, recorded.workspace,
          recorded.head, recorded.commit⟩
      · intro isDurable _
        exact ⟨_, isRow, isDurable, isFinished⟩
  | returns _ isDb none =>
      exact lineage.same (by rw [db, isDb]) (by rw [db, isDb])
        (by rw [db, isDb]) hasCommit (unpublished none) claims

/-- Marking turns failed neither binds a turn nor touches a record. -/
theorem marksFailed (lineage : world.Lineage deployment) {db : Database}
    (threads : db.threadWorkspaces = world.db.threadWorkspaces)
    (refs : db.refs = world.db.refs)
    (turns : db.turns = world.db.turns)
    (hasCommit : ∀ id, world.db.hasCommit id = true →
      db.hasCommit id = true)
    (marks : db.MarksFailed after.db)
    (history : after.history = world.history)
    (starts : ∀ key call, after.starts.lookup key = some call →
      world.starts.lookup key = some call) : after.Lineage deployment := by
  refine lineage.frame ?_ ?_ history ?_ ?_ ?_ ?_ ?_
  · rw [marks.frame]
    exact threads
  · rw [marks.frame]
    exact refs
  · intro id present
    rw [marks.frame]
    exact hasCommit id present
  · intro key call workspaceId head found
    exact lineage.starts key call workspaceId head (starts key call found)
  · intro key row workspaceId head found isBound
    rcases marks.turns key with kept | ⟨_, _, _, _, written⟩
    · rw [kept, turns] at found
      exact lineage.turns key row workspaceId head found isBound
    · cases found.symm.trans written
      rcases isBound with impossible | impossible <;> cases impossible
  · intro key row found isFinished
    refine ⟨row, marks.inactive (turns ▸ found) ?_, fun _ recorded => recorded⟩
    rw [isFinished]
    rfl
  · intro key row found isDurable isFinished
    rcases marks.turns key with kept | ⟨_, _, _, _, written⟩
    · exact ⟨row, by rw [← turns, ← kept, found], isDurable, isFinished⟩
    · cases found.symm.trans written
      cases isFinished

theorem boot (lineage : world.Lineage deployment)
    {destroy : InstanceId → Except Thrown Unit}
    (booted : world.boot deployment destroy = some after) :
    after.Lineage deployment := by
  obtain ⟨seeded, next, done, isNext, rfl⟩ := World.boot_eq booted
  obtain ⟨_, threads, refs, _, turns, _⟩ := Database.putCapture_frame done
  obtain ⟨stopped, quiet, marks, _⟩ := recover_eq isNext
  have seed : Write deployment
      ⟨world.db, deployment.emptyTree.path :: world.objects⟩
      ⟨seeded, deployment.emptyTree.path :: world.objects⟩ :=
    .seed done List.mem_cons_self
  refine lineage.marksFailed (quiet.threadWorkspaces.trans threads)
    (quiet.refs.trans refs) (quiet.turns.trans turns) ?_ marks rfl ?_
  · intro id present
    rw [quiet.hasCommit]
    exact seed.hasCommit present
  · simp [World.restart]

theorem move (lineage : world.Lineage deployment)
    (provisioned : Provisioned deployment world) (orderly : world.Orderly)
    (move : Move deployment world after) : after.Lineage deployment := by
  cases move with
  | boot booted => exact lineage.boot booted
  | call move =>
  cases move with
  | beginStart environment _ _ done =>
      exact lineage.beginStart provisioned done environment
  | advanceStart found step =>
      exact lineage.advanceStart orderly found step rfl rfl rfl
  | @forgetStart call found settled =>
      refine lineage.same rfl rfl rfl (fun _ => id) rfl ?_
      intro key other workspaceId head isOther claim
      dsimp only at isOther
      rw [AList.lookup_insert_if] at isOther
      split at isOther
      case isTrue same =>
        cases isOther
        exact lineage.starts key call workspaceId head (same ▸ found) claim
      case isFalse =>
        exact lineage.starts key other workspaceId head isOther claim
  | grant | forgetFinish | closing =>
      exact lineage.same rfl rfl rfl (fun _ => id) rfl lineage.starts
  | release released =>
      obtain ⟨db, _, _, _, starts, _, _, _, history⟩ :=
        World.release_leasesOnly released
      refine lineage.same (by rw [db]) (by rw [db]) (by rw [db])
        (fun id present => by rwa [db]) history ?_
      rw [starts]
      exact lineage.starts
  | @beginFinish key row environment found isOpened =>
      refine lineage.rewrite key { row with state := .finishing } rfl rfl
        (AList.lookup_insert_if _ · _ _) (fun _ => id) rfl lineage.starts
        ?_ ?_ ?_
      · intro workspaceId head _ isWorkspace isHead
        exact lineage.turns key row workspaceId head found (.inl isOpened)
          isWorkspace isHead
      · intro before isBefore isFinished
        cases isBefore.symm.trans found
        rw [isOpened] at isFinished
        cases isFinished
      · intro _ isFinished
        cases isFinished
  | advanceFinish found _ step outcome =>
      exact lineage.finishOutcome provisioned orderly found step outcome rfl
        rfl rfl
  | fork done =>
      exact lineage.createWorkspace provisioned.sound.consistent done rfl rfl
        rfl
  | mark marked =>
      obtain ⟨_, _, rfl⟩ := World.markInstance_eq marked
      exact lineage.same rfl rfl rfl (fun _ => id) rfl lineage.starts
  | force _ _ _ _ marks =>
      exact lineage.marksFailed rfl rfl rfl (fun _ => id) marks rfl
        (fun _ _ => id)

end World.Lineage

theorem Served.lineage {deployment : Deployment} {world : World}
    (served : Served deployment world) : world.Lineage deployment :=
  served.invariant World.Lineage.empty
    fun _ _ provisioned orderly lineage move =>
      lineage.move provisioned orderly move

/-! ## The order of publications -/

namespace World

variable {deployment : Deployment} {world after : World}

theorem finish_history (world : World) (key : TurnKey)
    (environment : FinishEnvironment) :
    (world.finish key environment).1.history = world.history := by
  unfold finish
  split
  · rfl
  split
  · rfl
  split
  · rfl
  · rfl
  · rfl
  · rfl
  split
  · rfl
  split <;> rfl

theorem forceLoop_history (call : CloseCall) (failures : List Thrown)
    (turns : List (TurnKey × TurnRow)) (world : World) :
    (world.forceLoop call failures turns).history = world.history := by
  induction turns generalizing world with
  | nil => rfl
  | cons turn turns induction =>
      unfold forceLoop
      split
      · rfl
      · split
        · exact induction _
        · rfl

theorem closeOpen_history (world : World) (call : CloseCall)
    (failures : List Thrown) (keys : List TurnKey) :
    (world.closeOpen call failures keys).history = world.history := by
  unfold closeOpen
  split
  · split
    · exact forceLoop_history call failures _ world
    · rfl
  case h_2 key rest =>
    have same := finish_history world key (call.environment.finish key)
    split <;> rename_i finished <;> rw [finished] at same <;> exact same

theorem resumeClose_history (resumed : world.resumeClose = some after) :
    after.history = world.history := by
  unfold resumeClose at resumed
  split at resumed
  · cases resumed
  split at resumed
  · split at resumed <;> cases resumed
    exact closeOpen_history _ _ _ _
  · split at resumed <;> cases resumed
    exact closeOpen_history _ _ _ _
  · split at resumed <;> cases resumed
    exact forceLoop_history _ _ _ _
  case h_4 key instanceId result rest _ =>
    cases result <;> dsimp only at resumed <;> split at resumed <;>
      cases resumed <;> first | rfl | exact forceLoop_history _ _ _ _
  · obtain ⟨_, _, rfl⟩ := Option.map_eq_some_iff.mp resumed
    rfl
  · cases resumed

theorem recordOrigin_publications (history : History)
    (before next : Database) (threadId : ThreadId) :
    (World.History.recordOrigin history before next threadId).publications =
      history.publications := by
  unfold World.History.recordOrigin
  split
  · split <;> rfl
  · rfl

/-- An event publishes at most one commit. -/
theorem step_publications {event : Event}
    (taken : world.step deployment event = some after) :
    ∃ new : Option Publication, after.history.publications =
      new.toList ++ world.history.publications := by
  have unchanged : after.history.publications =
      world.history.publications → ∃ new : Option Publication,
        after.history.publications =
          new.toList ++ world.history.publications :=
    fun same => ⟨none, same⟩
  cases World.stepped taken with
  | start input environment =>
      apply unchanged
      unfold World.start
      split
      · rfl
      split
      · rfl
      split
      · rfl
      split
      · rfl
      split
      · rfl
      · exact recordOrigin_publications _ _ _ _
  | resumeStart resumed =>
      unfold World.resumeStart at resumed
      split at resumed
      · cases resumed
      · obtain ⟨_, _, rfl⟩ := Option.map_eq_some_iff.mp resumed
        exact unchanged rfl
  | forgetStart forgotten =>
      unfold World.forgetStart at forgotten
      split at forgotten
      · cases forgotten
      · split at forgotten <;> cases forgotten
        exact unchanged rfl
  | acquire key =>
      apply unchanged
      unfold World.acquire
      split
      · rfl
      split
      · rfl
      split <;> rfl
  | release released =>
      exact unchanged (by rw [(release_leasesOnly released).history])
  | markInstance marked =>
      obtain ⟨_, _, rfl⟩ := markInstance_eq marked
      exact unchanged rfl
  | finish key environment =>
      exact unchanged (by rw [finish_history])
  | resumeFinish resumed =>
      unfold World.resumeFinish at resumed
      split at resumed
      · cases resumed
      · obtain ⟨segment, _, rfl⟩ := Option.map_eq_some_iff.mp resumed
        exact ⟨segment.publication, rfl⟩
  | forgetFinish forgotten =>
      unfold World.forgetFinish at forgotten
      split at forgotten
      · cases forgotten
      · split at forgotten <;> cases forgotten
        exact unchanged rfl
  | fork input =>
      apply unchanged
      unfold World.fork
      split
      · rfl
      split
      · rfl
      · exact recordOrigin_publications _ _ _ _
  | close environment =>
      apply unchanged
      unfold World.closeService
      split
      · rfl
      · dsimp only
        split
        · rw [closeOpen_history]
        · rfl
  | resumeClose resumed =>
      exact unchanged (by rw [resumeClose_history resumed])
  | boot booted =>
      obtain ⟨_, _, _, _, rfl⟩ := World.boot_eq booted
      exact unchanged rfl
  | restart => exact unchanged rfl
  | initializeService ready =>
      unfold World.initializeService at ready
      split at ready <;> cases ready
      exact unchanged rfl
  | recover recovered =>
      unfold recoverDatabase at recovered
      split at recovered <;> cases recovered
      exact unchanged rfl
  | closeSandboxService => exact unchanged rfl

end World

/-! ## No committed work is lost or reordered -/

/-- The turn is a finished durable one. -/
def World.Committed (world : World) (key : TurnKey) : Prop :=
  ∃ row, world.db.getTurn key = some row ∧ row.mode = .durable ∧
    row.state = .finished

structure CommittedHistory (deployment : Deployment) (world : World) :
    Prop where
  /-- A durable turn whose commit is not published holds the current head. -/
  held : ∀ key row, world.db.getTurn key = some row → row.mode = .durable →
    row.bound → ∃ workspaceId head, row.workspaceId = some workspaceId ∧
      row.expectedHead = some head ∧
      world.db.IsHead key.threadId workspaceId head
  /-- The publish that a finish is heading for succeeds, whatever tree it
  captures. -/
  publishes : ∀ key call commit tree,
    world.finishes.lookup key = some call →
    call.stage.commit = some commit →
    ∃ next, world.db.publishTurnCommit
      (publishInput deployment commit tree) = .ok (next, true)
  /-- What a thread has published is a chain from its first head to its
  current one. -/
  chains : ∀ threadId workspaceId,
    world.db.getThreadWorkspace threadId = some workspaceId →
    ∃ origin, world.history.origins.lookup workspaceId = some origin ∧
      Linked origin (world.published threadId) ∧
      world.db.getRef workspaceId mainRef =
        some (headAfter origin (world.published threadId))
  /-- A publication is the commit of a finished durable turn, and its parent
  is the head that the turn expected. -/
  published : ∀ publication ∈ world.history.publications,
    ∃ row commit, world.db.getTurn publication.key = some row ∧
      row.Records publication ∧
      world.db.getThreadWorkspace publication.key.threadId =
        some publication.workspaceId ∧
      world.db.getCommit publication.commitId = some commit ∧
      commit.parentId = some publication.parentId
  /-- Each finished durable turn has published once. -/
  finished : ∀ key, world.Committed key →
    ∃ publication ∈ world.history.publications, publication.key = key
  once : (world.history.publications.map Publication.key).Nodup
  /-- Publications are listed in the order in which turns finish. -/
  ordered : ∀ event after, event.serving = true →
    world.step deployment event = some after →
    ∃ new : Option Publication, after.history.publications =
        new.toList ++ world.history.publications ∧
      ∀ key, (∃ publication ∈ new, publication.key = key) ↔
        after.Committed key ∧ ¬ world.Committed key

/-- Whatever the interleaving, no commit is lost, reordered or refused for a
head that has moved. -/
theorem committed_history {deployment : Deployment} {world : World}
    (served : Served deployment world) :
    CommittedHistory deployment world := by
  have lineage := served.lineage
  have orderly := served.orderly
  have sound := served.provisioned.sound
  refine ⟨?_, ?_, lineage.chains, ?_, ?_, lineage.once, ?_⟩
  · intro key row found isDurable isBound
    have phase := orderly.phased key
    rw [show world.db.turns.lookup key = some row from found] at phase
    have complete : row.Complete := by
      rcases isBound with isOpened | isFinishing
      · exact (phase.opened row rfl isOpened).2
      · obtain ⟨call, isCall, unpublished⟩ :=
          phase.finishing row rfl isFinishing
        cases phase.pending call isCall unpublished
        exact (phase.finishes call isCall).2.complete
    obtain ⟨workspaceId, head, isWorkspace, isHead⟩ :=
      complete.durable isDurable
    exact ⟨workspaceId, head, isWorkspace, isHead,
      lineage.turns key row workspaceId head found isBound isWorkspace
        isHead⟩
  · intro key call commit tree found isCommit
    obtain ⟨rfl, _⟩ := (orderly.phased key).finishes call found
    obtain ⟨isRow, isFinishing, known, isHead⟩ :=
      lineage.commit_isHead orderly found isCommit
    refine Database.publishTurnCommit_succeeds ?_ isHead.head isRow ?_
    · exact (sound.consistent.heads _ _ isHead.head).1
    · exact Database.publishable_iff.mpr
        ⟨isFinishing, known.runtime, known.workspace, known.head⟩
  · intro publication member
    obtain ⟨isWorkspace, row, found, recorded⟩ :=
      lineage.published publication member
    obtain ⟨present, treeDigest, isDigest⟩ :=
      lineage.commits publication member
    obtain ⟨commit, isCommit⟩ := Option.isSome_iff_exists.mp present
    have hashed := sound.hashed _ _ isCommit
    rw [isDigest] at hashed
    have parent := (Deployment.commitDigest_injective hashed).2.2
    exact ⟨row, commit, found, recorded, isWorkspace, isCommit, parent.symm⟩
  · rintro key ⟨row, found, isDurable, isFinished⟩
    exact lineage.finished key row found isDurable isFinished
  · intro event after serving taken
    have servedLater : Served deployment after := served.step serving taken
    have later := servedLater.lineage
    obtain ⟨new, publications⟩ := World.step_publications taken
    have committed : ∀ {world : World}, world.Lineage deployment →
        ∀ publication ∈ world.history.publications,
          world.Committed publication.key := by
      intro world lineage publication member
      obtain ⟨_, row, found, recorded⟩ := lineage.published publication member
      exact ⟨row, found, recorded.mode, recorded.state⟩
    refine ⟨new, publications, fun key => ⟨?_, ?_⟩⟩
    · rintro ⟨publication, isNew, rfl⟩
      have member : publication ∈ after.history.publications := by
        rw [publications]
        exact List.mem_append_left _ (Option.mem_toList.mpr isNew)
      refine ⟨committed later publication member, ?_⟩
      rintro ⟨row, found, isDurable, isFinished⟩
      obtain ⟨earlier, isEarlier, same⟩ :=
        lineage.finished _ row found isDurable isFinished
      have once := later.once
      rw [publications, List.map_append, List.nodup_append] at once
      refine once.2.2 _ (List.mem_map_of_mem (Option.mem_toList.mpr isNew)) _
        (List.mem_map_of_mem isEarlier) same.symm
    · rintro ⟨⟨row, found, isDurable, isFinished⟩, notBefore⟩
      obtain ⟨publication, member, isKey⟩ :=
        later.finished key row found isDurable isFinished
      rw [publications] at member
      rcases List.mem_append.mp member with isNew | isOld
      · exact ⟨publication, Option.mem_toList.mp isNew, isKey⟩
      · exact (notBefore (isKey ▸ committed lineage publication isOld)).elim

/-- A durable turn is started and finished up to the publish of its tree. -/
private def durableTurn : List Event :=
  let key : TurnKey := ⟨"thread", "turn"⟩
  [.start { threadId := "thread", turnId := "turn", mode := .durable } {}] ++
    List.replicate 6 (.resumeStart key) ++
    [.finish key { capture := .ok (⟨"aa", by decide⟩, 1) }] ++
    List.replicate 6 (.resumeFinish key)

theorem committed_history_sample :
    ∃ world, run (World.step Deployment.transparent) World.empty
        (.boot (fun _ => .ok ()) :: durableTurn) = some world ∧
      (world.published "thread").length = 1 ∧
      CommittedHistory Deployment.transparent world := by
  have replay : (run (World.step Deployment.transparent) World.empty
      (.boot (fun _ => .ok ()) :: durableTurn)).any (fun world =>
        decide ((world.published "thread").length = 1)) = true := by
    decide +kernel
  obtain ⟨world, isWorld, published⟩ := (Option.any_eq_true _ _).mp replay
  have served : Served Deployment.transparent world :=
    Served.of_run (by decide) isWorld
  exact ⟨world, isWorld, of_decide_eq_true published,
    committed_history served⟩

end Electrosphere
