import Electrosphere.Domain.Idempotence

/-!
# What a finish leaves behind

A finish that is rejected has written nothing to the history of its workspace
and has put away its turn and its runtime.  One that resolves has written the
commit, the tree, the head, the row and the operation together, and they stay
as they were written until it answers.
-/

namespace Electrosphere

open Foundation

/-! ## Commits -/

section Commits

variable {deployment : Deployment} {world after : World}

/-- The only commit a publish adds is its own. -/
theorem publish_commits {db next : Database} {input : PublishInput}
    (done : db.publishTurnCommit input = .ok (next, true)) (id : Digest)
    (present : next.hasCommit id = true) :
    db.hasCommit id = true ∨ id = input.commitId := by
  obtain ⟨captured, _, inserted, _, _, _, rfl⟩ :=
    Database.publishTurnCommit_eq_ok done
  exact Database.putCapture_commits (Database.insertCapture_eq_ok inserted)
    present

/-- Every commit is the canonical empty one or has been published. -/
def World.Pedigreed (deployment : Deployment) (world : World) : Prop :=
  ∀ id, world.db.hasCommit id = true → id = deployment.emptyCommit ∨
    ∃ publication ∈ world.history.publications, publication.commitId = id

theorem World.Pedigreed.frame (pedigreed : world.Pedigreed deployment)
    (commits : ∀ id, after.db.hasCommit id = world.db.hasCommit id)
    (history : ∀ publication ∈ world.history.publications,
      publication ∈ after.history.publications) :
    after.Pedigreed deployment := by
  intro id present
  rw [commits] at present
  refine (pedigreed id present).imp_right ?_
  rintro ⟨publication, member, isId⟩
  exact ⟨publication, history publication member, isId⟩

theorem World.Pedigreed.advanceFinish
    (pedigreed : world.Pedigreed deployment) {call : FinishCall}
    {segment : FinishSegment}
    (outcome : FinishOutcome deployment world.db call segment)
    (db : after.db = segment.db)
    (publications : after.history.publications =
      segment.publication.toList ++ world.history.publications) :
    after.Pedigreed deployment := by
  have older : ∀ publication ∈ world.history.publications,
      publication ∈ after.history.publications := by
    intro publication member
    rw [publications]
    exact List.mem_append_right _ member
  have quiet : ∀ {middle : Database}, world.db.Quiet middle →
      (∀ id, segment.db.hasCommit id = middle.hasCommit id) →
      after.Pedigreed deployment := by
    intro middle unchanged same
    refine pedigreed.frame ?_ older
    intro id
    rw [db, same, unchanged.hasCommit]
  cases outcome with
  | runs unchanged => exact quiet unchanged fun _ => rfl
  | publishes _ done _ isPublication =>
      intro id present
      rw [db] at present
      rcases publish_commits done id present with earlier | rfl
      · refine (pedigreed id earlier).imp_right ?_
        rintro ⟨publication, member, isId⟩
        exact ⟨publication, older publication member, isId⟩
      · right
        rw [publications, isPublication]
        exact ⟨_, List.mem_cons_self, rfl⟩
  | fails _ unchanged _ isDb | notes _ unchanged _ isDb =>
      exact quiet unchanged fun id => by rw [isDb]; rfl
  | completes _ _ _ isDb =>
      exact quiet (.refl _) fun id => by rw [isDb]; rfl
  | returns _ isDb => exact quiet (.refl _) fun id => by rw [isDb]

theorem World.Pedigreed.beginStart (pedigreed : world.Pedigreed deployment)
    {input : StartTurnInput} {created : Database}
    (done : world.db.createTurn input.key input.startingRow = .ok created)
    (environment : StartEnvironment) :
    (world.beginStart created input environment).Pedigreed deployment := by
  obtain ⟨_, _, _, rfl⟩ := Database.createTurn_eq_ok done
  unfold World.beginStart
  dsimp only
  generalize began : startCreated world.emptyCommit _ input
    world.nextUuid (world.nextUuid + 1) = outcome
  obtain ⟨next, stage⟩ := outcome
  refine pedigreed.frame ?_ ?_
  · rcases World.Lineage.startCreated_eq began with ⟨_, failed⟩ |
      ⟨rfl, _⟩ | ⟨_, _, inserted, _⟩
    · exact (World.Lineage.failStart_frame failed).2.2
    · exact fun _ => rfl
    · obtain ⟨_, _, _, _, rfl⟩ :=
        Database.insertThreadWorkspace_eq_ok inserted
      exact fun _ => rfl
  · intro publication member
    dsimp only
    rw [World.recordOrigin_publications]
    exact member

theorem World.Pedigreed.move (pedigreed : world.Pedigreed deployment)
    (move : World.Move deployment world after) :
    after.Pedigreed deployment := by
  cases move with
  | boot booted =>
      obtain ⟨seeded, next, done, isNext, rfl⟩ := World.boot_eq booted
      obtain ⟨stopped, quiet, marks, _⟩ := World.recover_eq isNext
      intro id present
      dsimp only at present
      rw [marks.frame] at present
      have seededHas : seeded.hasCommit id = true := by
        rw [← quiet.hasCommit]
        exact present
      rcases Database.putCapture_commits done seededHas with earlier | isEmpty
      · exact pedigreed id earlier
      · exact .inl isEmpty
  | call move =>
  cases move with
  | beginStart environment _ _ done => exact pedigreed.beginStart done environment
  | advanceStart _ step =>
      exact pedigreed.frame (World.Lineage.startStep_frame step).2.2
        fun _ => id
  | forgetStart | grant | beginFinish | forgetFinish | closing =>
      exact pedigreed.frame (fun _ => rfl) fun _ => id
  | release released =>
      obtain ⟨db, _, _, _, _, _, _, _, history⟩ :=
        World.release_leasesOnly released
      refine pedigreed.frame (fun _ => by rw [db]) ?_
      rw [history]
      exact fun _ => id
  | advanceFinish _ _ _ outcome =>
      exact pedigreed.advanceFinish outcome rfl rfl
  | fork done =>
      obtain ⟨_, _, _, _, rfl⟩ := Database.insertThreadWorkspace_eq_ok done
      refine pedigreed.frame (fun _ => rfl) ?_
      rw [World.recordOrigin_publications]
      exact fun _ => id
  | mark marked =>
      obtain ⟨_, _, rfl⟩ := World.markInstance_eq marked
      exact pedigreed.frame (fun _ => rfl) fun _ => id
  | force _ _ _ _ marks =>
      refine pedigreed.frame (fun _ => ?_) fun _ => id
      dsimp only
      rw [marks.frame]
      rfl

theorem Served.pedigreed (served : Served deployment world) :
    world.Pedigreed deployment := by
  refine served.invariant ?_ fun _ _ _ _ pedigreed move =>
    pedigreed.move move
  simp [World.Pedigreed, World.empty, Database.empty, Database.hasCommit]

end Commits

/-! ## Bindings -/

/-- The row is past its start and has the binding of another. -/
structure TurnRow.BoundAs (row model : TurnRow) : Prop where
  begun : row.state ≠ .starting
  mode : row.mode = model.mode
  runtime : row.instanceId = model.instanceId
  workspace : row.workspaceId = model.workspaceId
  head : row.expectedHead = model.expectedHead

theorem TurnRow.BoundAs.change {row model : TurnRow}
    {later : Option TurnRow} (bound : row.BoundAs model)
    (change : TurnRow.Change (some row) later) :
    ∃ written, later = some written ∧ written.BoundAs model := by
  obtain ⟨begun, mode, runtime, workspace, head⟩ := bound
  cases change with
  | opened => exact (begun rfl).elim
  | stopped isStarting => exact (begun isStarting).elim
  | noted _ isFinished =>
      exact ⟨_, rfl, begun, mode, runtime, workspace, head⟩
  | finishing | published | completed | failed =>
      exact ⟨_, rfl, by simp [Database.publishedRow], mode, runtime,
        workspace, head⟩

/-! ## Operations -/

/-- The operation of a published turn has succeeded with the response that
its row stores. -/
def Recorded (deployment : Deployment) (row : TurnRow)
    (operation : Option OperationRow) : Prop :=
  ∃ (commit : CommitInput) (tree : CfsObject) (stored : OperationRow),
    operation = some stored ∧ stored.status = .succeeded ∧
    stored.responseJson =
      some (publishInput deployment commit tree).response ∧
    row.resultJson.bind StoredResult.response =
      some (publishInput deployment commit tree).response ∧
    row.expectedHead = some commit.expectedHead

theorem Deletion.start_operations (db : Database) (id : InstanceId) :
    (Deletion.start db id).1.operations = db.operations := by
  unfold Deletion.start
  repeat' split
  all_goals rfl

theorem Deletion.resume_operations {environment : DeletionEnvironment}
    {db next : Database} {id : InstanceId} {progress later : Deletion}
    (resumed : progress.resume environment db id = some (next, later)) :
    next.operations = db.operations := by
  unfold Deletion.resume at resumed
  repeat' split at resumed
  all_goals cases resumed
  all_goals rfl

theorem FinishStage.commit_of_settled {stage : FinishStage}
    (settled : stage.isSettled = true) : stage.commit = none := by
  cases stage <;> first | rfl | cases settled

section Recording

variable {deployment : Deployment} {db : Database} {objects : List String}
  {call : FinishCall} {row : TurnRow}

theorem publish_recorded {commit : CommitInput} {tree : CfsObject}
    {next : Database} {operation : OperationRow}
    (done : db.publishTurnCommit (publishInput deployment commit tree) =
      .ok (next, true))
    (running : db.operations.lookup commit.operationId = some operation)
    (isRow : next.turns.lookup commit.key = some row) :
    Recorded deployment row (next.operations.lookup commit.operationId) := by
  obtain ⟨captured, before, inserted, _, _, publishable, rfl⟩ :=
    Database.publishTurnCommit_eq_ok done
  obtain ⟨_, _, _, _, _, same⟩ := Database.insertCapture_frame inserted
  cases (AList.lookup_insert _).symm.trans isRow
  refine ⟨commit, tree,
    { operation with
      status := .succeeded
      responseJson :=
        some (publishInput deployment commit tree).response },
    ?_, rfl, rfl, rfl, (Database.publishable_iff.mp publishable).2.2.2⟩
  have lookup := AList.lookup_modify_self commit.operationId (fun row =>
    { row with
      status := .succeeded
      responseJson := some (publishInput deployment commit tree).response })
    captured.operations
  rw [same, running] at lookup
  rw [← same] at lookup
  exact lookup

/-- The end of a finish writes its row and its runtime alone. -/
theorem afterDeletion_frame (db : Database) (key : TurnKey)
    (id : InstanceId) (purpose : DeletionPurpose)
    (result : Except Thrown Unit) : ∃ instances turns,
      (afterDeletion db key id purpose result).1 =
        { db with instances, turns } := by
  have failed : ∀ (before : Database) error, ∃ turns,
      (recordFailure before key error).1 = { before with turns } := by
    intro before error
    unfold recordFailure
    split
    case h_1 done => exact ⟨_, Database.updateTurn_frame done⟩
    case h_2 => exact ⟨before.turns, rfl⟩
  unfold afterDeletion
  split
  case h_1 =>
    unfold completeInstant
    dsimp only
    split
    case h_1 done => exact ⟨_, _, Database.updateTurn_frame done⟩
    case h_2 => exact ⟨db.instances, db.turns, rfl⟩
  case h_2 error =>
    obtain ⟨turns, same⟩ := failed (recordLost db id error) error
    exact ⟨_, turns, same⟩
  case h_3 => exact ⟨db.instances, db.turns, rfl⟩
  case h_4 error =>
    dsimp only
    split
    case h_1 recorded done =>
      unfold recordCleanupError at done
      have written := Database.updateTurn_frame done
      exact ⟨_, recorded.turns, written⟩
    case h_2 => exact ⟨(recordLost db id error).instances, db.turns, rfl⟩
  case h_5 error =>
    obtain ⟨turns, same⟩ := failed db error
    exact ⟨_, turns, same⟩
  case h_6 error cleanupError =>
    obtain ⟨turns, same⟩ := failed (recordLost db id cleanupError) error
    exact ⟨_, turns, same⟩

/-- Once the commit is published no operation changes. -/
theorem FinishStep.published_operations {segment : FinishSegment}
    (step : FinishStep deployment db objects call segment)
    (published : call.stage.published = true) :
    segment.db.operations = db.operations := by
  cases step with
  | cleaning => exact Deletion.start_operations db _
  | @deleted purpose result id =>
      obtain ⟨_, _, same⟩ :=
        afterDeletion_frame db call.key id purpose result
      have operations := congrArg Database.operations same
      exact operations
  | deleting _ _ resumed => exact Deletion.resume_operations resumed
  | noRuntime isStage | closing isStage | sessionsEnded isStage
  | sessionsStuck isStage | sessionsFailed isStage | proceed isStage
  | snapshotTaken isStage | snapshotFailed isStage | guestCaptured isStage
  | hostCaptured isStage | snapshotRemoved isStage | snapshotKept isStage
  | commitFailed isStage =>
      simp [isStage, FinishStage.published] at published

theorem FinishStep.recorded {segment : FinishSegment}
    (step : FinishStep deployment db objects call segment)
    (outcome : FinishOutcome deployment db call segment) (fits : call.Fits)
    (found : db.turns.lookup call.key = some row)
    (pending : call.stage.unpublished = true → row = call.record)
    (running : ∀ commit, call.stage.commit = some commit →
      db.operations.lookup (finishOperationId call.key) ≠ none)
    (before : row.mode = .durable → row.state = .finished →
      Recorded deployment row
        (db.operations.lookup (finishOperationId call.key)))
    {later : TurnRow}
    (isLater : segment.db.turns.lookup call.key = some later)
    (durable : later.mode = .durable) (finished : later.state = .finished) :
    Recorded deployment later
      (segment.db.operations.lookup (finishOperationId call.key)) := by
  have isPublished : row.state = .finished → call.stage.published = true := by
    intro isFinished
    rcases FinishStage.unsettled_cases step.unsettled with
      unpublished | published
    · rw [pending unpublished, fits.finishing] at isFinished
      cases isFinished
    · exact published
  cases outcome with
  | runs unchanged =>
      rw [unchanged.turns, found] at isLater
      cases isLater
      rw [step.published_operations (isPublished finished)]
      exact before durable finished
  | publishes isCommit done =>
      have known := fits.commit _ isCommit
      obtain ⟨operation, isOperation⟩ :=
        Option.ne_none_iff_exists'.mp (running _ isCommit)
      rw [← known.key] at isLater
      rw [← known.operation] at isOperation ⊢
      exact publish_recorded done isOperation isLater
  | fails _ _ _ isDb =>
      rw [isDb] at isLater
      cases (AList.lookup_insert _).symm.trans isLater
      cases finished
  | completes _ isRow isInstant isDb =>
      rw [isDb] at isLater
      cases (AList.lookup_insert _).symm.trans isLater
      dsimp only at durable
      rw [isInstant] at durable
      cases durable
  | notes published unchanged isRow isDb =>
      have same := step.published_operations published
      cases isRow.symm.trans found
      rw [isDb] at isLater
      cases (AList.lookup_insert _).symm.trans isLater
      obtain ⟨commit, tree, stored, isStored, status, response, kept,
        head⟩ := before durable finished
      rw [same]
      exact ⟨commit, tree, stored, isStored, status, response, kept, head⟩
  | returns published isDb =>
      rw [isDb] at isLater ⊢
      cases isLater.symm.trans found
      exact before durable finished

theorem beginCommit_running {commit : CommitInput} {next : Database}
    (begun : beginCommit db commit = .ok next) :
    next.operations.lookup commit.operationId ≠ none := by
  obtain ⟨recorded, inserted, rfl⟩ := beginCommit_eq begun
  rw [Database.beginHarnessOperation_eq_ok inserted]
  unfold Database.updateInstance
  dsimp only
  rw [AList.lookup_insert]
  simp

/-- A finish that takes a snapshot has its operation. -/
theorem FinishStep.running {segment : FinishSegment}
    (step : FinishStep deployment db objects call segment)
    (before : ∀ commit, call.stage.commit = some commit →
      db.operations.lookup (finishOperationId call.key) ≠ none)
    {commit : CommitInput}
    (isCommit : segment.stage.commit = some commit) :
    segment.db.operations.lookup (finishOperationId call.key) ≠ none := by
  have failing : ∀ error, (failTurn db call error).2.commit = none := by
    intro error
    unfold failTurn
    split
    · rfl
    · unfold recordFailure
      split <;> rfl
  have captured : ∀ stored commit result,
      (finishCapture deployment db stored commit result).stage.commit =
        none := by
    intro stored commit result
    obtain ⟨_, isStage⟩ :=
      finishCapture_committed deployment db stored commit result
    rw [isStage]
    rfl
  cases step with
  | noRuntime | sessionsFailed | commitFailed =>
      cases (failing _).symm.trans isCommit
  | proceed =>
      unfold finishRuntime at isCommit ⊢
      split at isCommit
      case h_1 => cases isCommit
      case h_2 =>
        unfold startCommit at isCommit ⊢
        split at isCommit
        case h_1 begun => exact beginCommit_running begun
        case h_2 => cases isCommit
      case h_3 => cases (failing _).symm.trans isCommit
  | snapshotTaken isStage | guestCaptured isStage =>
      exact before _ (by rw [isStage]; rfl)
  | snapshotFailed | hostCaptured | snapshotRemoved | snapshotKept =>
      cases (captured _ _ _).symm.trans isCommit
  | deleted =>
      cases (FinishStage.commit_of_settled
        (afterDeletion_isSettled _ _ _ _)).symm.trans isCommit
  | closing | sessionsEnded | sessionsStuck | cleaning | deleting =>
      cases isCommit

end Recording

/-! ## Runtimes put away -/

/-- A deletion that has succeeded has terminated the runtime. -/
def Terminated (progress : Deletion) (runtime : Option InstanceRow) : Prop :=
  progress = .done (.ok ()) →
    ∃ row, runtime = some row ∧ row.state = .terminated

theorem Deletion.start_terminated {db : Database} {id : InstanceId}
    (present : db.getInstance id ≠ none) :
    Terminated (Deletion.start db id).2
      ((Deletion.start db id).1.getInstance id) := by
  obtain ⟨row, found⟩ := Option.ne_none_iff_exists'.mp present
  unfold Deletion.start
  rw [found]
  dsimp only
  split
  case isTrue terminated => exact fun _ => ⟨row, found, terminated⟩
  case isFalse =>
    intro done
    split at done <;> cases done

theorem Deletion.resume_terminated {environment : DeletionEnvironment}
    {db next : Database} {id : InstanceId} {progress later : Deletion}
    (present : db.getInstance id ≠ none)
    (resumed : progress.resume environment db id = some (next, later)) :
    Terminated later (next.getInstance id) := by
  obtain ⟨row, found⟩ := Option.ne_none_iff_exists'.mp present
  unfold Deletion.resume at resumed
  split at resumed
  case h_1 =>
    split at resumed <;> cases resumed <;> exact fun done => by cases done
  case h_2 =>
    split at resumed <;> cases resumed
    · intro _
      have lookup := AList.lookup_modify_self id
        ({ state := some .terminated, backendHandle := some none } :
          InstanceUpdate).apply db.instances
      rw [show db.instances.lookup id = some row from found] at lookup
      exact ⟨_, lookup, rfl⟩
    · exact fun done => by cases done
  case h_3 => cases resumed

/-- The runtime is as the deletion of a finish says. -/
def FinishStage.Deleted (runtime : Option InstanceRow) : FinishStage → Prop
  | .deleting _ progress => Terminated progress runtime
  | .settled _ => ∃ row, runtime = some row ∧
      (row.state = .terminated ∨ row.state = .lost)
  | _ => True

theorem FinishStage.deleted_of_settled {stage : FinishStage}
    {runtime : Option InstanceRow} (settled : stage.isSettled = true)
    (ended : ∃ row, runtime = some row ∧
      (row.state = .terminated ∨ row.state = .lost)) :
    stage.Deleted runtime := by
  cases stage <;> first | exact ended | cases settled

section Deleting

variable {deployment : Deployment} {db : Database} {objects : List String}
  {call : FinishCall}

theorem afterDeletion_deleted (key : TurnKey) {id : InstanceId}
    (present : db.getInstance id ≠ none) (purpose : DeletionPurpose)
    {result : Except Thrown Unit}
    (terminated : Terminated (.done result) (db.getInstance id)) :
    ∃ row, (afterDeletion db key id purpose result).1.getInstance id =
        some row ∧ (row.state = .terminated ∨ row.state = .lost) := by
  have lost : ∀ error, ∃ row,
      (recordLost db id error).getInstance id = some row ∧
        (row.state = .terminated ∨ row.state = .lost) := by
    intro error
    obtain ⟨row, found⟩ := Option.ne_none_iff_exists'.mp present
    have lookup := AList.lookup_modify_self id
      ({ state := some .lost, lastError := some (some error.message) } :
        InstanceUpdate).apply db.instances
    rw [show db.instances.lookup id = some row from found] at lookup
    exact ⟨_, lookup, .inr rfl⟩
  have ended : result = .ok () → ∃ row, db.getInstance id = some row ∧
      (row.state = .terminated ∨ row.state = .lost) := by
    rintro rfl
    obtain ⟨row, found, isTerminated⟩ := terminated rfl
    exact ⟨row, found, .inl isTerminated⟩
  have failed : ∀ (before : Database) error,
      (recordFailure before key error).1.getInstance id =
        before.getInstance id := by
    intro before error
    unfold Database.getInstance
    rw [recordFailure_instances]
  unfold afterDeletion
  split
  case h_1 =>
    unfold completeInstant
    dsimp only
    split
    case h_1 done =>
      rw [Database.updateTurn_frame done]
      exact ended rfl
    case h_2 => exact ended rfl
  case h_2 error =>
    rw [failed]
    exact lost error
  case h_3 => exact ended rfl
  case h_4 error =>
    dsimp only
    split
    case h_1 done =>
      unfold recordCleanupError at done
      rw [Database.updateTurn_frame done]
      exact lost error
    case h_2 => exact lost error
  case h_5 =>
    rw [failed]
    exact ended rfl
  case h_6 error _ =>
    rw [failed]
    exact lost _

theorem FinishStep.deleted_runtime {segment : FinishSegment}
    (step : FinishStep deployment db objects call segment) {id : InstanceId}
    (isRuntime : call.record.instanceId = some id)
    (present : db.getInstance id ≠ none)
    (deleted : call.stage.Deleted (db.getInstance id)) :
    segment.stage.Deleted (segment.db.getInstance id) := by
  have failing : ∀ error,
      (failTurn db call error).2.Deleted
        ((failTurn db call error).1.getInstance id) := by
    intro error
    unfold failTurn
    rw [isRuntime]
    exact Deletion.start_terminated present
  have captured : ∀ stored commit result runtime,
      (finishCapture deployment db stored commit result).stage.Deleted
        runtime := by
    intro stored commit result runtime
    obtain ⟨_, isStage⟩ :=
      finishCapture_committed deployment db stored commit result
    rw [isStage]
    trivial
  cases step with
  | noRuntime | sessionsFailed | commitFailed => exact failing _
  | closing | sessionsEnded | sessionsStuck | snapshotTaken
  | guestCaptured => trivial
  | proceed _ own =>
      cases own.symm.trans isRuntime
      unfold finishRuntime
      split
      case h_1 => exact Deletion.start_terminated present
      case h_2 =>
        unfold startCommit
        split <;> trivial
      case h_3 => exact failing _
  | snapshotFailed | hostCaptured | snapshotRemoved | snapshotKept =>
      exact captured _ _ _ _
  | cleaning _ own =>
      cases own.symm.trans isRuntime
      exact Deletion.start_terminated present
  | deleted isStage own =>
      cases own.symm.trans isRuntime
      rw [isStage] at deleted
      exact FinishStage.deleted_of_settled (afterDeletion_isSettled _ _ _ _)
        (afterDeletion_deleted call.key present _ deleted)
  | deleting _ own resumed =>
      cases own.symm.trans isRuntime
      exact Deletion.resume_terminated present resumed

end Deleting

/-! ## The account of a turn -/

/-- What the finish of a turn has recorded so far. -/
structure Sight.Accounted (deployment : Deployment) (sight : Sight) :
    Prop where
  bound : ∀ call, sight.finish = some call → ∃ row,
    sight.row = some row ∧ row.BoundAs call.record
  running : ∀ call commit, sight.finish = some call →
    call.stage.commit = some commit → sight.operation ≠ none
  recorded : ∀ row, sight.row = some row → row.mode = .durable →
    row.state = .finished → Recorded deployment row sight.operation
  deleted : ∀ call, sight.finish = some call →
    call.stage.isSettled = false → call.stage.Deleted sight.runtime

section Accounts

variable {deployment : Deployment} {world : World} {key : TurnKey}

/-- The runtime that a finish works on exists. -/
theorem World.finish_runtime (known : world.Known deployment)
    (accounted : (world.sight key).Accounted deployment)
    {call : FinishCall} (found : world.finishes.lookup key = some call)
    {id : InstanceId} (isRuntime : call.record.instanceId = some id) :
    world.db.getInstance id ≠ none := by
  obtain ⟨row, isRow, bound⟩ := accounted.bound call found
  have references := known.provisioned.sound.consistent.turns key row isRow
  have present := (Database.turnReferencesExist_iff.mp references).1 id
    (bound.runtime.trans isRuntime)
  intro absent
  have isSome : (world.db.getInstance id).isSome = true := present
  rw [absent] at isSome
  cases isSome

theorem Sight.Accounted.move {after : Sight}
    (known : world.Known deployment)
    (accounted : (world.sight key).Accounted deployment)
    (move : World.SightMove deployment world key after) :
    after.Accounted deployment := by
  have phase := known.orderly.phased key
  obtain ⟨bound, running, recorded, deleted⟩ := accounted
  cases move with
  | began =>
      refine ⟨by simp, by simp, ?_, by simp⟩
      rintro _ ⟨⟩ _ impossible
      cases impossible
  | @start call next stage found isKey step =>
      subst isKey
      have isStarting := phase.starting call found step.unsettled
      have noFinish := (phase.unbound _ isStarting rfl).1
      have none : ∀ finish, (world.sight call.input.key).finish =
          some finish → False := by
        intro finish isFinish
        cases noFinish.symm.trans isFinish
      refine ⟨fun finish isFinish => (none finish isFinish).elim,
        fun finish _ isFinish => (none finish isFinish).elim, ?_,
        fun finish isFinish => (none finish isFinish).elim⟩
      intro row isRow _ isFinished
      rcases step.turn isStarting (phase.starts call found).2 with
        ⟨same, _⟩ | ⟨_, _, _, written, _⟩ | ⟨_, _, failed⟩
      · cases (same ▸ isStarting).symm.trans isRow
        cases isFinished
      · cases written.symm.trans isRow
        simp [TurnUpdate.apply, openUpdate_state] at isFinished
      · obtain ⟨later, rows, _, unfinished⟩ :=
          World.Lineage.failStart_rows isStarting failed
        have isLater := rows call.input.key
        rw [if_pos rfl] at isLater
        cases isLater.symm.trans isRow
        exact (unfinished isFinished).elim
  | forgetStart => exact ⟨bound, running, recorded, deleted⟩
  | @beginFinish row environment found isOpened =>
      refine ⟨?_, ?_, ?_, ?_⟩
      · rintro _ ⟨⟩
        exact ⟨_, rfl, by simp, rfl, rfl, rfl, rfl⟩
      · rintro _ commit ⟨⟩ isCommit
        dsimp only at isCommit
        split at isCommit <;> cases isCommit
      · rintro _ ⟨⟩ _ impossible
        cases impossible
      · rintro _ ⟨⟩ _
        dsimp only
        split <;> trivial
  | @finish call segment id found isKey fits isOwn isRuntime step outcome =>
      subst isKey
      rw [found] at phase
      obtain ⟨row, isRow, isBound⟩ := bound call found
      refine ⟨?_, ?_, ?_, ?_⟩
      · rintro _ ⟨⟩
        have written := World.finishOutcome_written known.orderly found fits
          outcome call.key
        rw [show world.db.turns.lookup call.key = some row from isRow]
          at written
        exact written.preserve (fun _ _ bound change => bound.change change)
          isBound
      · rintro _ commit ⟨⟩ isCommit
        exact step.running (fun commit isCommit =>
          running call commit found isCommit) isCommit
      · intro later isLater durable finished
        refine step.recorded outcome fits isRow ?_ (fun commit isCommit =>
          running call commit found isCommit) (recorded row isRow) isLater
          durable finished
        intro unpublished
        cases isRow.symm.trans (phase.pending call rfl unpublished)
        rfl
      · rintro _ ⟨⟩ _
        apply step.deleted_runtime isOwn
        · exact World.finish_runtime known
            ⟨bound, running, recorded, deleted⟩ found isOwn
        · have before := deleted call found step.unsettled
          unfold World.sight at before
          rw [isRuntime] at before
          exact before
  | @forgetFinish call found settled =>
      refine ⟨?_, ?_, recorded, ?_⟩
      · rintro _ ⟨⟩
        exact bound call found
      · rintro _ commit ⟨⟩ isCommit
        exact running call commit found isCommit
      · rintro _ ⟨⟩ unsettled
        exact deleted call found unsettled
  | @woken call found isWaiting =>
      refine ⟨?_, ?_, recorded, ?_⟩
      · rintro _ ⟨⟩
        exact bound call found
      · rintro _ commit ⟨⟩ isCommit
        cases isCommit
      · rintro _ ⟨⟩ _
        trivial
  | @marked lease turn marked found isKey =>
      refine ⟨bound, running, recorded, ?_⟩
      subst isKey
      intro call isCall _
      rcases known.leased.held lease turn found with
        ⟨row, isRow, isOpened⟩ | ⟨other, isOther, isWaiting⟩
      · cases (phase.opened row isRow isOpened).1.symm.trans isCall
      · cases isOther.symm.trans isCall
        rw [isWaiting]
        trivial
  | @forced row error found active noOpened noStart noFinish =>
      refine ⟨?_, running, ?_, ?_⟩
      · intro call isCall
        obtain ⟨before, isBefore, isBound⟩ := bound call isCall
        cases found.symm.trans isBefore
        exact ⟨_, rfl, by simp, isBound.mode, isBound.runtime,
          isBound.workspace, isBound.head⟩
      · rintro _ ⟨⟩ _ impossible
        cases impossible
      · intro call isCall unsettled
        exact (noFinish ⟨call, isCall, unsettled⟩).elim

theorem Sight.Accounted.boot {before after : Sight}
    (accounted : before.Accounted deployment)
    (booted : World.Rebooted before after) : after.Accounted deployment := by
  have none : ∀ call, after.finish = some call → False := by
    intro call isCall
    rw [booted.finish] at isCall
    cases isCall
  refine ⟨fun call isCall => (none call isCall).elim,
    fun call _ isCall => (none call isCall).elim, ?_,
    fun call isCall => (none call isCall).elim⟩
  intro row isRow durable finished
  rcases booted.row with ⟨same, _⟩ | ⟨_, _, _, _, written⟩
  · obtain ⟨commit, tree, stored, isStored, status, response⟩ :=
      accounted.recorded row (same ▸ isRow) durable finished
    refine ⟨commit, tree, stored, ?_, status, response⟩
    rw [booted.operation, isStored]
    simp [status]
  · cases written.symm.trans isRow
    cases finished

theorem Served.accounted (served : Served deployment world)
    (key : TurnKey) : (world.sight key).Accounted deployment := by
  let holds (_ : TurnKey) (sight : Sight) : Prop :=
    sight.Accounted deployment
  have invariant : holds key (world.sight key) := by
    refine served.turn_invariant ?_ ?_ ?_ key
    · intro key
      refine ⟨?_, ?_, ?_, ?_⟩ <;>
        simp [World.sight, World.empty, Database.empty]
    · intro _ _ known _ accounted move
      exact accounted.move known move
    · intro _ _ _ accounted booted
      exact accounted.boot booted
  exact invariant

end Accounts

/-! ## The step with which a finish settles -/

theorem FinishStep.settles {deployment : Deployment} {db : Database}
    {objects : List String} {call : FinishCall} {segment : FinishSegment}
    (step : FinishStep deployment db objects call segment)
    (fits : call.Fits) (settled : segment.stage.isSettled = true) :
    ∃ purpose result id, call.stage = .deleting purpose (.done result) ∧
      call.record.instanceId = some id ∧
      segment = .plain objects
        (afterDeletion db call.key id purpose result) := by
  have failing : ∀ error, (failTurn db call error).2.isSettled = false := by
    intro error
    obtain ⟨id, isRuntime⟩ := fits.complete.runtime
    unfold failTurn
    rw [isRuntime]
    rfl
  have captured : ∀ stored commit result,
      (finishCapture deployment db stored commit result).stage.isSettled =
        false := by
    intro stored commit result
    obtain ⟨_, isStage⟩ :=
      finishCapture_committed deployment db stored commit result
    rw [isStage]
    rfl
  cases step with
  | noRuntime | sessionsFailed | commitFailed =>
      cases (failing _).symm.trans settled
  | proceed =>
      unfold finishRuntime at settled
      split at settled
      case h_1 => cases settled
      case h_2 =>
        unfold startCommit at settled
        split at settled <;> cases settled
      case h_3 => cases (failing _).symm.trans settled
  | snapshotFailed | hostCaptured | snapshotRemoved | snapshotKept =>
      cases (captured _ _ _).symm.trans settled
  | deleted isStage isRuntime => exact ⟨_, _, _, isStage, isRuntime, rfl⟩
  | closing | sessionsEnded | sessionsStuck | snapshotTaken | guestCaptured
  | cleaning | deleting => cases settled

section Settling

variable {deployment : Deployment} {world after : World} {key : TurnKey}
  {result : Except Thrown TurnView}

/-- What the step with which a finish settles has done. -/
structure World.Settles (world after : World) (key : TurnKey)
    (result : Except Thrown TurnView) : Prop where
  row : ∃ row, after.db.turns.lookup key = some row ∧ row.Answers key result
  others : ∀ other, other ≠ key →
    after.db.turns.lookup other = world.db.turns.lookup other
  runtime : ∃ row id runtime, world.db.turns.lookup key = some row ∧
    row.instanceId = some id ∧ after.db.getInstance id = some runtime ∧
    (runtime.state = .terminated ∨ runtime.state = .lost)
  refs : after.db.refs = world.db.refs
  bound : (∃ error, result = .error error) →
    ∃ row, world.db.turns.lookup key = some row ∧ row.bound

theorem Served.settles (served : Served deployment world)
    (taken : world.step deployment (.resumeFinish key) = some after)
    (pending : world.finishResult key = none)
    (settled : after.finishResult key = some result) :
    world.Settles after key result := by
  have servedAfter : Served deployment after := served.step rfl taken
  have replays := servedAfter.replays key
  have accounted := served.accounted key
  have orderly := served.orderly
  have known := served.known
  cases World.stepped taken with
  | resumeFinish resumed =>
  unfold World.resumeFinish at resumed
  split at resumed
  case h_1 => cases resumed
  case h_2 call found =>
  obtain ⟨segment, advanced, rfl⟩ := Option.map_eq_some_iff.mp resumed
  obtain ⟨rfl, fits, _, outcome⟩ :=
    orderly.finishOutcome served.provisioned found advanced
  have step := advanceFinish_step advanced
  obtain ⟨later, isLater, isSettled⟩ := finishResult_eq_some settled
  cases (AList.lookup_insert _).symm.trans isLater
  obtain ⟨purpose, deletion, id, isStage, isRuntime, isSegment⟩ :=
    step.settles fits (by rw [show segment.stage = _ from isSettled]; rfl)
  obtain ⟨written, isWritten, told⟩ := replays.told _ isLater
  have isAnswer : written.Answers call.key result := by
    rw [show segment.stage = .settled result from isSettled] at told
    exact told
  obtain ⟨row, isRow, isBound⟩ := accounted.bound call found
  refine ⟨⟨written, isWritten, isAnswer⟩, ?_, ?_, ?_, ?_⟩
  · intro other different
    exact outcome.other_turns fits different
  · have isOwn := served.owned.finishes call.key call id found isRuntime
    have terminated := accounted.deleted call found step.unsettled
    rw [isStage] at terminated
    unfold World.sight at terminated
    rw [isOwn] at terminated
    obtain ⟨runtime, isRow', ended⟩ := afterDeletion_deleted call.key
      (World.finish_runtime known accounted found isRuntime) purpose
      terminated
    refine ⟨row, id, runtime, isRow, isBound.runtime.trans isRuntime, ?_,
      ended⟩
    dsimp only
    rw [isSegment]
    exact isRow'
  · obtain ⟨_, _, same⟩ :=
      afterDeletion_frame world.db call.key id purpose deletion
    dsimp only
    rw [isSegment]
    have refs := congrArg Database.refs same
    exact refs
  · rintro ⟨error, rfl⟩
    have phase := orderly.phased call.key
    rw [found] at phase
    rcases FinishStage.unsettled_cases step.unsettled with
      unpublished | published
    · exact ⟨call.record, phase.pending call rfl unpublished,
        .inr fits.finishing⟩
    · obtain ⟨turn, isTurn, isFinished⟩ := phase.published call rfl published
      have changed := World.finishOutcome_written orderly found fits outcome
        call.key
      rw [isTurn] at changed
      have follows := changed.follows
      rw [Option.map_some, isFinished] at follows
      have ended := follows.terminal rfl
      rw [show segment.db.turns.lookup call.key = some written
        from isWritten, Option.map_some, isAnswer.1] at ended
      cases ended

end Settling

/-! ## History over a finish -/

theorem World.run_publications {deployment : Deployment}
    {world later : World} {events : List Event}
    (replay : run (World.step deployment) world events = some later) :
    ∃ fresh, later.history.publications =
      fresh ++ world.history.publications := by
  induction events generalizing world with
  | nil =>
      cases replay
      exact ⟨[], rfl⟩
  | cons event events induction =>
      obtain ⟨next, taken, rest⟩ := Option.bind_eq_some_iff.mp replay
      obtain ⟨new, isNew⟩ := World.step_publications taken
      obtain ⟨fresh, isFresh⟩ := induction rest
      refine ⟨fresh ++ new.toList, ?_⟩
      rw [isFresh, isNew, List.append_assoc]

/-- Commit rows stay, and what is added has been published meanwhile. -/
structure Extends (before after : World) (fresh : List Publication) :
    Prop where
  publications : after.history.publications =
    fresh ++ before.history.publications
  kept : ∀ id commit, before.db.getCommit id = some commit →
    after.db.getCommit id = some commit
  added : ∀ id, after.db.hasCommit id = true →
    before.db.hasCommit id = true ∨
      ∃ publication ∈ fresh, publication.commitId = id

section Histories

variable {deployment : Deployment} {before world after : World}

theorem Served.empty_present (served : Served deployment world) :
    world.db.hasCommit deployment.emptyCommit = true := by
  obtain ⟨commit, isEmpty⟩ := served.earnest.ready
  obtain ⟨rfl, present⟩ := served.provisioned.ready commit isEmpty
  exact present

theorem Served.commit_known (served : Served deployment world) (id : Digest) :
    world.db.hasCommit id = true ↔ id = deployment.emptyCommit ∨
      ∃ publication ∈ world.history.publications,
        publication.commitId = id := by
  constructor
  · exact served.pedigreed id
  · rintro (rfl | ⟨publication, member, rfl⟩)
    · exact served.empty_present
    · exact (served.lineage.commits publication member).1

/-- The digest of a commit determines its row. -/
theorem Served.commit_determined (served : Served deployment before)
    (later : Served deployment after) {id : Digest} {commit other : CommitRow}
    (found : before.db.getCommit id = some commit)
    (isOther : after.db.getCommit id = some other) : other = commit := by
  have hashed := served.provisioned.sound.hashed id commit found
  have hashedLater := later.provisioned.sound.hashed id other isOther
  obtain ⟨contract, tree, parent⟩ :=
    Deployment.commitDigest_injective (hashedLater.symm.trans hashed)
  cases commit
  cases other
  simp_all

theorem Served.extends_of (served : Served deployment before)
    (later : Served deployment after) {fresh : List Publication}
    (publications : after.history.publications =
      fresh ++ before.history.publications) : Extends before after fresh := by
  refine ⟨publications, ?_, ?_⟩
  · intro id commit found
    have present : before.db.hasCommit id = true := by
      unfold Database.hasCommit
      rw [show before.db.commits.lookup id = some commit from found]
      rfl
    have presentLater : after.db.hasCommit id = true := by
      rw [later.commit_known, publications]
      refine ((served.commit_known id).mp present).imp_right ?_
      rintro ⟨publication, member, isId⟩
      exact ⟨publication, List.mem_append_right _ member, isId⟩
    obtain ⟨other, isOther⟩ := Option.isSome_iff_exists.mp presentLater
    rw [← served.commit_determined later found isOther]
    exact isOther
  · intro id present
    rw [served.commit_known]
    rcases (later.commit_known id).mp present with isEmpty |
      ⟨publication, member, isId⟩
    · exact .inl (.inl isEmpty)
    · rw [publications] at member
      rcases List.mem_append.mp member with isFresh | isOld
      · exact .inr ⟨publication, isFresh, isId⟩
      · exact .inl (.inr ⟨publication, isOld, isId⟩)

end Histories

/-- A rejected finish of an open turn has changed no history. -/
structure FinishRejected (before after : World) (key : TurnKey)
    (row : TurnRow) (error : Thrown) : Prop where
  head : ∃ workspaceId head, row.workspaceId = some workspaceId ∧
    row.expectedHead = some head ∧
    before.db.getRef workspaceId mainRef = some head ∧
    after.db.getRef workspaceId mainRef = some head
  commits : ∃ fresh, Extends before after fresh ∧
    ∀ publication ∈ fresh, publication.key ≠ key
  turn : ∃ failed, after.db.getTurn key = some failed ∧
    failed.state = .failed ∧ failed.errorJson = some error.serviceError
  runtime : ∃ id runtime, row.instanceId = some id ∧
    after.db.getInstance id = some runtime ∧
    (runtime.state = .terminated ∨ runtime.state = .lost)
  idle : after.db.getOpenTurn key.threadId = none

/-- A finish that has resolved has written its commit everywhere. -/
structure FinishResolved (deployment : Deployment) (after : World)
    (key : TurnKey) (turn : TurnView) (workspaceId : WorkspaceId)
    (head treeDigest commitId : Digest) : Prop where
  digest : commitId =
    deployment.commitDigest emptyContractDigest treeDigest (some head)
  view : turn.state = .finished ∧ turn.headCommit = some commitId
  turn : ∃ row, after.db.getTurn key = some row ∧ row.state = .finished ∧
    Electrosphere.view key row = turn ∧ row.commitId = some commitId
  operation : ∃ row response,
    after.db.operations.lookup (finishOperationId key) = some row ∧
    row.status = .succeeded ∧ row.responseJson = some response ∧
    response.commitId = some commitId ∧
    response.treeDigest = some treeDigest
  commit : after.db.getCommit commitId = some
    { treeDigest, contractDigest := emptyContractDigest,
      parentId := some head }
  tree : after.db.getTreeObject treeDigest ≠ none
  /-- The head is the commit until a later turn of the thread publishes. -/
  ref : ∃ newer older, after.history.publications =
      newer ++ { key, workspaceId, parentId := head, commitId } :: older ∧
    after.db.getRef workspaceId mainRef = some (headAfter commitId
      (newer.filter fun publication =>
        decide (publication.key.threadId = key.threadId)))

theorem headAfter_append (origin : Digest) (newer older : List Publication)
    (publication : Publication) :
    headAfter origin (newer ++ publication :: older) =
      headAfter publication.commitId newer := by
  cases newer <;> rfl

section Settled

variable {deployment : Deployment} {before world after : World}
  {key : TurnKey} {row : TurnRow} {events : List Event}

theorem TurnRow.BoundAs.stopped {row model : TurnRow} (error : ServiceError)
    (bound : row.BoundAs model) :
    TurnRow.BoundAs
      { row with state := .failed, errorJson := some error } model :=
  ⟨by simp, bound.mode, bound.runtime, bound.workspace, bound.head⟩

/-- An open turn keeps its binding for good. -/
theorem Served.bound_run (served : Served deployment before)
    (found : before.db.turns.lookup key = some row)
    (isOpened : row.state = .opened)
    (serving : ∀ event ∈ events, Event.serving event = true)
    (replay : run (World.step deployment) before events = some world) :
    Served deployment world ∧ ∃ later,
      world.db.turns.lookup key = some later ∧ later.BoundAs row := by
  let holds (later : TurnRow) : Prop := later.BoundAs row
  have itself : holds row := ⟨by simp [isOpened], rfl, rfl, rfl, rfl⟩
  have kept : Served deployment world ∧ ∃ later,
      world.db.turns.lookup key = some later ∧ holds later := by
    refine served.row_run ?_ ?_ found itself serving replay
    · intro _ _ bound change
      exact bound.change change
    · exact fun _ error _ bound => bound.stopped error
  exact kept

theorem finish_rejected (served : Served deployment before)
    (servedWorld : Served deployment world)
    (servedAfter : Served deployment after)
    (found : before.db.turns.lookup key = some row)
    (durable : row.mode = .durable) (isOpened : row.state = .opened)
    {later : TurnRow} (isLater : world.db.turns.lookup key = some later)
    (bound : later.BoundAs row) {error : Thrown}
    (settles : world.Settles after key (.error error))
    (publications : ∃ fresh, after.history.publications =
      fresh ++ before.history.publications) :
    FinishRejected before after key row error := by
  obtain ⟨failed, isFailed, answers⟩ := settles.row
  obtain ⟨_, complete⟩ :=
    (served.orderly.phased key).opened row found isOpened
  obtain ⟨workspaceId, head, isWorkspace, isHead⟩ := complete.durable durable
  obtain ⟨current, isCurrent, isBound⟩ := settles.bound ⟨error, rfl⟩
  cases isLater.symm.trans isCurrent
  have heads := served.lineage.turns key row workspaceId head found
    (.inl isOpened) isWorkspace isHead
  have headsLater := servedWorld.lineage.turns key later workspaceId head
    isLater isBound (bound.workspace.trans isWorkspace)
    (bound.head.trans isHead)
  constructor
  · refine ⟨workspaceId, head, isWorkspace, isHead, heads.head, ?_⟩
    unfold Database.getRef
    rw [settles.refs]
    exact headsLater.head
  · obtain ⟨fresh, isFresh⟩ := publications
    refine ⟨fresh, served.extends_of servedAfter isFresh, ?_⟩
    rintro publication member rfl
    have listed : publication ∈ after.history.publications := by
      rw [isFresh]
      exact List.mem_append_left _ member
    obtain ⟨_, turn, isTurn, records⟩ :=
      servedAfter.lineage.published publication listed
    cases isFailed.symm.trans isTurn
    cases answers.1.symm.trans records.state
  · exact ⟨failed, isFailed, answers⟩
  · obtain ⟨turn, id, runtime, isTurn, isRuntime, isRow, ended⟩ :=
      settles.runtime
    cases isLater.symm.trans isTurn
    exact ⟨id, runtime, bound.runtime.symm.trans isRuntime, isRow, ended⟩
  · apply Database.getOpenTurn_eq_none.mpr
    intro other turn isTurn thread
    by_cases same : other = key
    · subst same
      cases isFailed.symm.trans isTurn
      rw [answers.1]
      rfl
    · by_contra active
      rw [settles.others other same] at isTurn
      refine same (servedWorld.provisioned.sound.activeUnique key later other
        turn isLater isTurn ?_ (by simpa using active) thread)
      rcases isBound with state | state <;> rw [state] <;> rfl

theorem finish_resolved (served : Served deployment after)
    (found : after.db.turns.lookup key = some row)
    (durable : row.mode = .durable) {turn : TurnView}
    (answers : row.Answers key (.ok turn)) {workspaceId : WorkspaceId}
    {head : Digest} (isWorkspace : row.workspaceId = some workspaceId)
    (isHead : row.expectedHead = some head) :
    ∃ treeDigest commitId, FinishResolved deployment after key turn
      workspaceId head treeDigest commitId := by
  obtain ⟨isFinished, isView⟩ := answers
  obtain ⟨commit, tree, operation, isOperation, status, response, stored,
    isParent⟩ := (served.accounted key).recorded row found durable isFinished
  cases isParent.symm.trans isHead
  have isCommit : row.commitId =
      some (publishInput deployment commit tree).commitId := by
    unfold TurnRow.commitId
    rw [stored]
    rfl
  obtain ⟨publication, member, isKey⟩ :=
    served.lineage.finished key row found durable isFinished
  subst isKey
  obtain ⟨isThread, other, isOther, records⟩ :=
    served.lineage.published publication member
  cases found.symm.trans isOther
  obtain ⟨present, treeDigest, _⟩ := served.lineage.commits publication member
  have sameCommit := Option.some.inj (records.commit.symm.trans isCommit)
  obtain ⟨commitRow, isRow⟩ := Option.isSome_iff_exists.mp present
  have hashed := served.provisioned.sound.hashed _ commitRow isRow
  rw [sameCommit] at hashed
  obtain ⟨contract, sameTree, parent⟩ :=
    Deployment.commitDigest_injective hashed
  refine ⟨tree.treeDigest, (publishInput deployment commit tree).commitId,
    rfl, ?_, ⟨row, found, isFinished, isView, isCommit⟩,
    ⟨operation, _, isOperation, status, response, rfl, rfl⟩, ?_, ?_, ?_⟩
  · rw [← isView]
    refine ⟨isFinished, ?_⟩
    unfold Electrosphere.view
    rw [stored]
    rfl
  · rw [← sameCommit]
    refine Eq.trans isRow ?_
    cases commitRow
    dsimp only at contract sameTree parent
    rw [← contract, ← sameTree, ← parent]
  · obtain ⟨archive, isArchive⟩ :=
      served.provisioned.sound.archived _ commitRow isRow
    rw [← sameTree] at isArchive
    intro absent
    cases isArchive.symm.trans absent
  · obtain ⟨newer, older, split⟩ := List.append_of_mem member
    have sameWorkspace := Option.some.inj
      (records.workspace.symm.trans isWorkspace)
    have sameHead := Option.some.inj (records.head.symm.trans isHead)
    obtain ⟨origin, _, _, isRef⟩ := served.lineage.chains _ _ isThread
    refine ⟨newer, older, ?_, ?_⟩
    · rw [split, ← sameCommit, ← sameWorkspace, ← sameHead]
    · unfold World.published at isRef
      rw [split, List.filter_append, List.filter_cons_of_pos (by simp),
        headAfter_append] at isRef
      rw [← sameCommit, ← sameWorkspace]
      exact isRef

end Settled

/-- When the finish of an open durable turn settles, a rejection has left the
history as it was and a success has written it everywhere. -/
theorem finish_settles_history {deployment : Deployment}
    {before world after : World} {key : TurnKey} {row : TurnRow}
    {events : List Event} {result : Except Thrown TurnView}
    (served : Served deployment before)
    (found : before.db.getTurn key = some row)
    (durable : row.mode = .durable) (isOpened : row.state = .opened)
    (serving : ∀ event ∈ events, Event.serving event = true)
    (replay : run (World.step deployment) before events = some world)
    (taken : world.step deployment (.resumeFinish key) = some after)
    (pending : world.finishResult key = none)
    (settled : after.finishResult key = some result) :
    match result with
    | .error error => FinishRejected before after key row error
    | .ok turn => ∃ workspaceId head treeDigest commitId,
        row.workspaceId = some workspaceId ∧ row.expectedHead = some head ∧
        FinishResolved deployment after key turn workspaceId head treeDigest
          commitId := by
  obtain ⟨servedWorld, later, isLater, bound⟩ :=
    served.bound_run found isOpened serving replay
  have servedAfter : Served deployment after := servedWorld.step rfl taken
  have settles := servedWorld.settles taken pending settled
  cases result with
  | error error =>
      refine finish_rejected served servedWorld servedAfter found durable
        isOpened isLater bound settles ?_
      obtain ⟨fresh, isFresh⟩ := World.run_publications replay
      obtain ⟨new, isNew⟩ := World.step_publications taken
      refine ⟨new.toList ++ fresh, ?_⟩
      rw [isNew, isFresh, List.append_assoc]
  | ok turn =>
      obtain ⟨_, complete⟩ :=
        (served.orderly.phased key).opened row found isOpened
      obtain ⟨workspaceId, head, isWorkspace, isHead⟩ :=
        complete.durable durable
      obtain ⟨written, isWritten, answers⟩ := settles.row
      obtain ⟨other, isOther, boundLater⟩ := servedWorld.row_step
        (fun _ _ bound change => TurnRow.BoundAs.change bound change)
        (fun _ error _ bound => bound.stopped error) isLater bound rfl taken
      cases isWritten.symm.trans isOther
      obtain ⟨treeDigest, commitId, resolved⟩ :=
        finish_resolved servedAfter isWritten
          (boundLater.mode.trans durable) answers
          (boundLater.workspace.trans isWorkspace)
          (boundLater.head.trans isHead)
      exact ⟨workspaceId, head, treeDigest, commitId, isWorkspace, isHead,
        resolved⟩

private def historyKey : TurnKey := ⟨"thread", "turn"⟩

/-- A durable turn is opened. -/
private def openedTurn : List Event :=
  .start { threadId := "thread", turnId := "turn", mode := .durable } {} ::
    List.replicate 6 (.resumeStart historyKey)

/-- Its finish fails to take a snapshot, up to its last await. -/
private def failingFinish : List Event :=
  .finish historyKey
      { snapshot := .error (.plain "snapshot"),
        capture := .error (.plain "unused") } ::
    List.replicate 7 (.resumeFinish historyKey)

theorem finish_settles_history_sample :
    ∃ before world after row,
      run (World.step Deployment.transparent) World.empty
        (.boot (fun _ => .ok ()) :: openedTurn) = some before ∧
      run (World.step Deployment.transparent) before failingFinish =
        some world ∧
      world.step Deployment.transparent (.resumeFinish historyKey) =
        some after ∧
      FinishRejected before after historyKey row (.plain "snapshot") := by
  have replay : (run (World.step Deployment.transparent) World.empty
      (.boot (fun _ => .ok ()) :: openedTurn)).any (fun before =>
        ((before.db.getTurn historyKey).any fun row =>
          decide (row.mode = .durable ∧ row.state = .opened)) &&
        (run (World.step Deployment.transparent) before
          failingFinish).any fun world =>
            decide (world.finishResult historyKey = none) &&
            (world.step Deployment.transparent
              (.resumeFinish historyKey)).any fun after =>
                decide (after.finishResult historyKey =
                  some (.error (.plain "snapshot")))) = true := by
    decide +kernel
  obtain ⟨before, isBefore, checked⟩ := (Option.any_eq_true _ _).mp replay
  obtain ⟨isRow, checked⟩ := Bool.and_eq_true_iff.mp checked
  obtain ⟨row, found, state⟩ := (Option.any_eq_true _ _).mp isRow
  obtain ⟨durable, isOpened⟩ := of_decide_eq_true state
  obtain ⟨world, isWorld, checked⟩ := (Option.any_eq_true _ _).mp checked
  obtain ⟨pending, checked⟩ := Bool.and_eq_true_iff.mp checked
  obtain ⟨after, taken, settled⟩ := (Option.any_eq_true _ _).mp checked
  have served : Served Deployment.transparent before :=
    Served.of_run (by decide) isBefore
  exact ⟨before, world, after, row, isBefore, isWorld, taken,
    finish_settles_history served found durable isOpened (by decide) isWorld
      taken (of_decide_eq_true pending) (of_decide_eq_true settled)⟩

end Electrosphere
