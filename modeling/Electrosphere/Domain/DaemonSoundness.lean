import Electrosphere.Domain.CallSteps
import Electrosphere.Domain.Daemon

/-!
# Every reachable world is sound

Each event of the daemon is a sequence of atomic writes, so whatever the
events and their order, the store stays sound.  This needs no discipline in
the order of events: it also covers starts before the service is ready,
recovery while calls are in flight, and crashes at any await.
-/

namespace Electrosphere

open Foundation

def World.store (world : World) : Store :=
  { db := world.db, objects := world.objects }

/-- A sequence of atomic writes. -/
abbrev Writes (deployment : Deployment) : Store → Store → Prop :=
  Relation.ReflTransGen (Write deployment)

namespace Writes

variable {deployment : Deployment} {objects : List String}
  {db next : Database}

theorem quiet (unchanged : db.Quiet next) :
    Writes deployment ⟨db, objects⟩ ⟨next, objects⟩ :=
  .single (.quiet unchanged)

theorem updateTurn {key : TurnKey} {update : TurnUpdate}
    (binds : update.expectedHead ≠ none → update.instanceId ≠ none)
    (finishes : update.state = some .finished → ∀ row,
      db.turns.lookup key = some row → row.mode = .instant)
    (done : db.updateTurn key update = .ok next) :
    Writes deployment ⟨db, objects⟩ ⟨next, objects⟩ :=
  .single (.updateTurn binds finishes done)

/-- An update that neither binds a head nor finishes the turn. -/
theorem markTurn {key : TurnKey} {update : TurnUpdate}
    (unbound : update.expectedHead = none)
    (unfinished : update.state ≠ some .finished)
    (done : db.updateTurn key update = .ok next) :
    Writes deployment ⟨db, objects⟩ ⟨next, objects⟩ :=
  .updateTurn (fun bound => (bound unbound).elim)
    (fun isFinished => (unfinished isFinished).elim) done

theorem createWorkspace {threadId : ThreadId} {workspaceId : WorkspaceId}
    {headCommit : Digest}
    (done : db.insertThreadWorkspace threadId workspaceId headCommit =
      .ok next) :
    Writes deployment ⟨db, objects⟩ ⟨next, objects⟩ :=
  .single (.createWorkspace done)

end Writes

section Calls

variable {deployment : Deployment} {objects : List String}
  {db next : Database}

theorem failStart_writes {key : TurnKey} {id : InstanceId} {error : Thrown}
    {stage : StartStage} (failed : failStart db key id error = (next, stage)) :
    Writes deployment ⟨db, objects⟩ ⟨next, objects⟩ := by
  unfold failStart at failed
  split at failed
  case h_1 done =>
    cases failed
    exact .markTurn rfl (by simp) done
  case h_2 =>
    cases failed
    exact .refl

theorem ensureThreadWorkspace_writes {canonicalEmpty : Option Digest}
    {threadId : ThreadId} {fresh : WorkspaceId}
    {workspace : Except Thrown WorkspaceView}
    (ensured : ensureThreadWorkspace canonicalEmpty db threadId fresh =
      (next, workspace)) :
    Writes deployment ⟨db, objects⟩ ⟨next, objects⟩ := by
  rcases ensureThreadWorkspace_eq ensured with ⟨rfl, _⟩ | ⟨_, _, done, _⟩
  · exact .refl
  · exact .createWorkspace done

theorem startCreated_writes {canonicalEmpty : Option Digest}
    {input : StartTurnInput} {id : InstanceId} {fresh : WorkspaceId}
    {stage : StartStage}
    (started : startCreated canonicalEmpty db input id fresh =
      (next, stage)) :
    Writes deployment ⟨db, objects⟩ ⟨next, objects⟩ := by
  unfold startCreated at started
  split at started
  · split at started
    · exact failStart_writes started
    · cases started
      exact .refl
  · cases started
    exact ensureThreadWorkspace_writes rfl

theorem openUpdate_binds (runtime : RuntimeInput) :
    (openUpdate runtime).expectedHead ≠ none →
      (openUpdate runtime).instanceId ≠ none := by
  unfold openUpdate
  split <;> simp

theorem openUpdate_state (runtime : RuntimeInput) :
    (openUpdate runtime).state = some .opened := by
  unfold openUpdate
  split <;> rfl

theorem openTurn_writes {key : TurnKey} {runtime : RuntimeInput}
    (done : db.updateTurn key (openUpdate runtime) = .ok next) :
    Writes deployment ⟨db, objects⟩ ⟨next, objects⟩ :=
  .updateTurn (openUpdate_binds runtime)
    (fun isFinished => by
      rw [openUpdate_state] at isFinished
      cases isFinished) done

theorem StartStep.writes {call : StartCall} {stage : StartStage}
    (step : StartStep deployment db call next stage) :
    Writes deployment ⟨db, objects⟩ ⟨next, objects⟩ := by
  cases step with
  | workspaceFailed | workspaceFound | probed | probeFailed | directoryMade
  | directoryFailed | materializeFailed | recordFailed | cleaned =>
      exact .refl
  | recorded _ _ done => exact .single (.createInstance done)
  | created | vanished | createFailed =>
      exact .quiet (Database.updateInstance_quiet db _ _)
  | opened _ done => exact openTurn_writes done
  | openFailed => exact .quiet (Deletion.start_quiet db _)
  | turnVanished _ done =>
      exact (openTurn_writes done).trans
        (Writes.quiet (Deletion.start_quiet _ _))
  | failed _ failed => exact failStart_writes failed
  | deleting _ resumed => exact .quiet (Deletion.resume_quiet resumed)

theorem recordFailure_writes (key : TurnKey) (error : Thrown) :
    Writes deployment ⟨db, objects⟩ ⟨(recordFailure db key error).1, objects⟩ := by
  unfold recordFailure
  split
  case h_1 done => exact .markTurn rfl (by simp) done
  case h_2 => exact .refl

theorem failTurn_writes (call : FinishCall) (error : Thrown) :
    Writes deployment ⟨db, objects⟩ ⟨(failTurn db call error).1, objects⟩ := by
  unfold failTurn
  split
  · exact .quiet (Deletion.start_quiet db _)
  · exact recordFailure_writes call.key error

/-- A commit that begins has inserted its operation. -/
theorem beginCommit_eq {commit : CommitInput}
    (begun : beginCommit db commit = .ok next) :
    ∃ recorded, db.beginHarnessOperation commit.operationId
        "commit_turn_runtime" commit.operationId = .ok recorded ∧
      next = recorded.updateInstance commit.instanceId
        { state := some .committing } := by
  unfold beginCommit at begun
  split at begun
  case h_1 => cases begun
  case h_2 =>
  split at begun
  case isTrue => cases begun
  case isFalse =>
  split at begun
  case isTrue => cases begun
  case isFalse =>
  split at begun
  case isTrue => cases begun
  case isFalse =>
  split at begun
  case isTrue => cases begun
  case isFalse =>
  split at begun
  case isTrue => cases begun
  case isFalse =>
  split at begun
  case h_1 => cases begun
  case h_2 recorded inserted =>
    cases begun
    exact ⟨recorded, inserted, rfl⟩

theorem beginCommit_quiet {commit : CommitInput}
    (begun : beginCommit db commit = .ok next) : db.Quiet next := by
  obtain ⟨recorded, inserted, rfl⟩ := beginCommit_eq begun
  exact (Database.beginHarnessOperation_quiet inserted).trans
    (Database.updateInstance_quiet _ _ _)

theorem abandonCommit_quiet (commit : CommitInput) (error : Thrown) :
    db.Quiet (abandonCommit db commit error) := by
  have failed := Database.failOperation_quiet db commit.operationId error
  unfold abandonCommit
  dsimp only
  split
  · split
    · exact failed.trans (Database.updateInstance_quiet _ _ _)
    · exact failed
  · exact failed

theorem finishRuntime_writes (call : FinishCall) (id : InstanceId) :
    Writes deployment ⟨db, objects⟩ ⟨(finishRuntime db call id).1, objects⟩ := by
  unfold finishRuntime
  split
  · exact .quiet (Deletion.start_quiet db id)
  · unfold startCommit
    split
    case h_1 begun => exact .quiet (beginCommit_quiet begun)
    case h_2 => exact .refl
  · exact failTurn_writes call _

/-- A publish writes only a tree whose archive is already stored. -/
theorem finishCapture_writes {commit : CommitInput}
    {captured : Except Thrown CfsObject}
    (stored : ∀ tree, captured = .ok tree →
      tree.path = deployment.treePath tree.treeDigest ∧
        tree.path ∈ objects) :
    Writes deployment ⟨db, objects⟩
      ⟨(finishCapture deployment db objects commit captured).db, objects⟩ := by
  unfold finishCapture
  split
  case h_1 => exact .quiet (abandonCommit_quiet commit _)
  case h_2 tree =>
    obtain ⟨path, file⟩ := stored tree rfl
    unfold publishCapture
    dsimp only
    cases published : db.publishTurnCommit
        (publishInput deployment commit tree) with
    | error error => exact .quiet (abandonCommit_quiet commit error)
    | ok outcome =>
        obtain ⟨next, committed⟩ := outcome
        cases committed with
        | false => exact .quiet (abandonCommit_quiet commit _)
        | true => exact .single (.publish published path file)

@[simp] theorem finishCapture_objects {commit : CommitInput}
    {captured : Except Thrown CfsObject} :
    (finishCapture deployment db objects commit captured).objects =
      objects := by
  unfold finishCapture
  split
  · rfl
  · split <;> rfl

theorem afterDeletion_writes (key : TurnKey) (id : InstanceId)
    (purpose : DeletionPurpose) (result : Except Thrown Unit)
    (isInstant : purpose = .instant → ∀ row,
      db.turns.lookup key = some row → row.mode = .instant) :
    Writes deployment ⟨db, objects⟩
      ⟨(afterDeletion db key id purpose result).1, objects⟩ := by
  have lost : ∀ error, Writes deployment ⟨db, objects⟩
      ⟨recordLost db id error, objects⟩ := fun error =>
    .quiet (Database.updateInstance_quiet db id _)
  unfold afterDeletion
  split
  · unfold completeInstant
    dsimp only
    split
    case h_1 done =>
      exact .updateTurn (by simp) (fun _ => isInstant rfl) done
    case h_2 => exact .refl
  · exact (lost _).trans (recordFailure_writes key _)
  · exact .refl
  · dsimp only
    split
    case h_1 done => exact (lost _).trans (Writes.markTurn rfl (by simp) done)
    case h_2 => exact lost _
  · exact recordFailure_writes key _
  · exact (lost _).trans (recordFailure_writes key _)

theorem capturedTree_path {call : FinishCall} {tree : CfsObject}
    (captured : capturedTree deployment call = .ok tree) :
    tree.path = deployment.treePath tree.treeDigest := by
  unfold capturedTree at captured
  cases answer : call.environment.capture with
  | error error =>
      rw [answer] at captured
      cases captured
  | ok archive =>
      rw [answer] at captured
      cases captured
      rfl

theorem storedObjects_writes (captured : Except Thrown CfsObject) :
    Writes deployment ⟨db, objects⟩ ⟨db, storedObjects objects captured⟩ := by
  unfold storedObjects
  split
  · exact .single (.storeFile _)
  · exact .refl

/-- The archive a finish holds while it removes the guest's snapshot. -/
def FinishStage.archive : FinishStage → Option CfsObject
  | .removeSnapshot _ (.ok tree) => some tree
  | _ => none

/-- What a finish in flight relies on: its row is there with its mode, an
archive it holds is stored, and only an instant turn is deleted as one. -/
structure FinishCall.Grounded (deployment : Deployment) (db : Database)
    (objects : List String) (call : FinishCall) : Prop where
  record : ∃ row, db.turns.lookup call.key = some row ∧
    row.mode = call.record.mode
  archive : ∀ tree, call.stage.archive = some tree →
    tree.path = deployment.treePath tree.treeDigest ∧ tree.path ∈ objects
  instant : ∀ progress, call.stage = .deleting .instant progress →
    call.record.mode = .instant

theorem FinishStep.writes {call : FinishCall} {segment : FinishSegment}
    (step : FinishStep deployment db objects call segment)
    (grounded : call.Grounded deployment db objects) :
    Writes deployment ⟨db, objects⟩ ⟨segment.db, segment.objects⟩ := by
  have failing : ∀ commit error, Writes deployment ⟨db, objects⟩
      ⟨(finishCapture deployment db objects commit (.error error)).db,
        objects⟩ := fun commit error =>
    finishCapture_writes (fun _ impossible => by cases impossible)
  cases step with
  | noRuntime | sessionsFailed | commitFailed => exact failTurn_writes call _
  | closing | sessionsStuck | snapshotTaken => exact .refl
  | sessionsEnded =>
      apply Writes.quiet
      unfold readyAfterSessions
      split
      · split
        · exact Database.updateInstance_quiet db _ _
        · exact .refl db
      · exact .refl db
  | proceed => exact finishRuntime_writes call _
  | snapshotFailed => exact finishCapture_objects ▸ failing _ _
  | snapshotKept => exact finishCapture_objects ▸ failing _ _
  | guestCaptured => exact storedObjects_writes _
  | hostCaptured =>
      rw [finishCapture_objects]
      refine (storedObjects_writes _).trans (finishCapture_writes ?_)
      intro tree captured
      refine ⟨capturedTree_path captured, ?_⟩
      rw [captured]
      exact List.mem_cons_self
  | snapshotRemoved isStage =>
      rw [finishCapture_objects]
      refine finishCapture_writes fun tree captured => ?_
      exact grounded.archive tree (by rw [isStage, captured]; rfl)
  | cleaning => exact .quiet (Deletion.start_quiet db _)
  | deleted isStage =>
      refine afterDeletion_writes call.key _ _ _ fun same row found => ?_
      obtain ⟨known, isKnown, sameMode⟩ := grounded.record
      rw [isKnown] at found
      cases found
      exact sameMode.trans (grounded.instant _ (by rw [isStage, same]))
  | deleting _ _ resumed => exact .quiet (Deletion.resume_quiet resumed)

theorem finishCapture_archive {commit : CommitInput}
    {captured : Except Thrown CfsObject} :
    (finishCapture deployment db objects commit captured).stage.archive =
      none := by
  unfold finishCapture
  split
  · rfl
  · split <;> rfl

theorem recordFailure_settled (key : TurnKey) (error : Thrown) :
    (recordFailure db key error).2.isSettled = true := by
  unfold recordFailure
  split <;> rfl

/-- Once its runtime is deleted a finish settles. -/
theorem afterDeletion_isSettled (key : TurnKey) (id : InstanceId)
    (purpose : DeletionPurpose) (result : Except Thrown Unit) :
    (afterDeletion db key id purpose result).2.isSettled = true := by
  have completed : ∀ current committed,
      (completeCommitted current key committed).isSettled = true := by
    intro current committed
    unfold completeCommitted
    split <;> rfl
  unfold afterDeletion
  split
  · unfold completeInstant
    dsimp only
    split <;> rfl
  · exact recordFailure_settled key _
  · exact completed _ _
  · dsimp only
    split
    · exact completed _ _
    · rfl
  · exact recordFailure_settled key _
  · exact recordFailure_settled key _

theorem FinishStage.archive_of_settled {stage : FinishStage}
    (settled : stage.isSettled = true) : stage.archive = none := by
  cases stage <;> first | rfl | cases settled

theorem failTurn_archive (call : FinishCall) (error : Thrown) :
    (failTurn db call error).2.archive = none := by
  unfold failTurn
  split
  · rfl
  · exact FinishStage.archive_of_settled (recordFailure_settled call.key error)

/-- An archive that a finish holds is stored under its digest. -/
theorem FinishStep.archive_stored {call : FinishCall}
    {segment : FinishSegment}
    (step : FinishStep deployment db objects call segment) {tree : CfsObject}
    (holds : segment.stage.archive = some tree) :
    tree.path = deployment.treePath tree.treeDigest ∧
      tree.path ∈ segment.objects := by
  cases step with
  | noRuntime | sessionsFailed | commitFailed =>
      simp only [FinishSegment.plain] at holds
      rw [failTurn_archive] at holds
      cases holds
  | closing | sessionsEnded | sessionsStuck | snapshotTaken | cleaning
  | deleting => cases holds
  | proceed =>
      unfold finishRuntime startCommit at holds
      simp only [FinishSegment.plain] at holds
      split at holds
      · cases holds
      · split at holds <;> cases holds
      · rw [failTurn_archive] at holds
        cases holds
  | snapshotFailed | hostCaptured | snapshotRemoved | snapshotKept =>
      rw [finishCapture_archive] at holds
      cases holds
  | guestCaptured =>
      cases captured : capturedTree deployment call with
      | error error =>
          rw [captured] at holds
          cases holds
      | ok archive =>
          rw [captured] at holds
          cases holds
          exact ⟨capturedTree_path captured, List.mem_cons_self⟩
  | deleted =>
      simp only [FinishSegment.plain] at holds
      rw [FinishStage.archive_of_settled (afterDeletion_isSettled _ _ _ _)]
        at holds
      cases holds

theorem finishRuntime_instant {call : FinishCall} {id : InstanceId}
    {progress : Deletion}
    (isStage : (finishRuntime db call id).2 = .deleting .instant progress) :
    call.record.mode = .instant := by
  unfold finishRuntime at isStage
  split at isStage
  case h_1 isInstant => exact isInstant
  case h_2 =>
    unfold startCommit at isStage
    split at isStage <;> cases isStage
  case h_3 =>
    unfold failTurn at isStage
    split at isStage
    · cases isStage
    · unfold recordFailure at isStage
      split at isStage <;> cases isStage

theorem failTurn_instant {call : FinishCall} {error : Thrown}
    {progress : Deletion} :
    (failTurn db call error).2 ≠ .deleting .instant progress := by
  unfold failTurn
  split
  · intro isStage
    cases isStage
  · unfold recordFailure
    split <;> intro isStage <;> cases isStage

theorem FinishStep.instant {call : FinishCall} {segment : FinishSegment}
    (step : FinishStep deployment db objects call segment)
    (before : ∀ progress, call.stage = .deleting .instant progress →
      call.record.mode = .instant) {progress : Deletion}
    (isStage : segment.stage = .deleting .instant progress) :
    call.record.mode = .instant := by
  cases step with
  | noRuntime | sessionsFailed | commitFailed =>
      exact (failTurn_instant isStage).elim
  | closing | sessionsEnded | sessionsStuck | snapshotTaken | guestCaptured
  | cleaning => cases isStage
  | proceed => exact finishRuntime_instant isStage
  | snapshotFailed | hostCaptured | snapshotRemoved | snapshotKept =>
      unfold finishCapture at isStage
      split at isStage
      · cases isStage
      · split at isStage <;> cases isStage
  | @deleted purpose result id _ _ =>
      have settled : (afterDeletion db call.key id purpose
          result).2.isSettled = true := afterDeletion_isSettled _ _ _ _
      rw [show (afterDeletion db call.key id purpose result).2 =
        .deleting .instant progress from isStage] at settled
      cases settled
  | deleting earlier _ _ =>
      cases isStage
      exact before _ earlier

theorem storedObjects_subset (captured : Except Thrown CfsObject)
    {file : String} (member : file ∈ objects) :
    file ∈ storedObjects objects captured := by
  unfold storedObjects
  split
  · exact List.mem_cons_of_mem _ member
  · exact member

theorem FinishStep.objects_subset {call : FinishCall}
    {segment : FinishSegment}
    (step : FinishStep deployment db objects call segment) {file : String}
    (member : file ∈ objects) : file ∈ segment.objects := by
  cases step with
  | hostCaptured =>
      rw [finishCapture_objects]
      exact storedObjects_subset _ member
  | guestCaptured => exact storedObjects_subset _ member
  | snapshotFailed | snapshotRemoved | snapshotKept =>
      rw [finishCapture_objects]
      exact member
  | _ => exact member

end Calls

/-! ## Commits stay -/

theorem Write.hasCommit {deployment : Deployment} {before after : Store}
    (write : Write deployment before after) {id : Digest}
    (present : before.db.hasCommit id = true) :
    after.db.hasCommit id = true := by
  have kept : ∀ {db next : Database} {other : Digest} {row : CommitRow},
      db.putCommit other row = .ok next → db.hasCommit id = true →
        next.hasCommit id = true := by
    intro db next other row done present
    rcases Database.putCommit_eq_ok done with ⟨_, rfl⟩ | ⟨_, _, rfl⟩
    · exact present
    · unfold Database.hasCommit at present ⊢
      rw [AList.lookup_insert_if]
      split
      · rfl
      · exact present
  have opened : ∀ {db : Database} {tree : CfsObject},
      db.hasCommit id = true → (db.putTreeObject tree).hasCommit id = true := by
    intro db tree present
    unfold Database.putTreeObject
    split <;> exact present
  cases write with
  | quiet unchanged => rwa [unchanged.hasCommit]
  | storeFile => exact present
  | seed done => exact kept done (opened present)
  | createWorkspace done =>
      obtain ⟨_, _, _, _, rfl⟩ := Database.insertThreadWorkspace_eq_ok done
      exact present
  | createTurn _ _ done =>
      obtain ⟨_, _, _, rfl⟩ := Database.createTurn_eq_ok done
      exact present
  | @updateTurn _ key update _ _ done =>
      cases found : before.db.turns.lookup key with
      | none =>
          rw [Database.updateTurn_of_absent found] at done
          cases done
          exact present
      | some row =>
          obtain ⟨_, _, rfl⟩ := (Database.updateTurn_eq_ok found).mp done
          exact present
  | createInstance done =>
      obtain ⟨_, _, rfl⟩ := Database.createInstance_eq_ok.mp done
      exact present
  | publish done =>
      obtain ⟨captured, row, inserted, _, _, _, rfl⟩ :=
        Database.publishTurnCommit_eq_ok done
      have inCapture : captured.hasCommit id = true :=
        kept (Database.insertCapture_eq_ok inserted) (opened present)
      exact inCapture

theorem Writes.hasCommit {deployment : Deployment} {before after : Store}
    (writes : Writes deployment before after) {id : Digest}
    (present : before.db.hasCommit id = true) :
    after.db.hasCommit id = true := by
  induction writes with
  | refl => exact present
  | tail _ write induction => exact write.hasCommit induction

/-- Turn rows stay, and with them their modes. -/
theorem Write.turn {deployment : Deployment} {before after : Store}
    (write : Write deployment before after) {key : TurnKey} {row : TurnRow}
    (found : before.db.turns.lookup key = some row) :
    ∃ later, after.db.turns.lookup key = some later ∧
      later.mode = row.mode := by
  cases write with
  | quiet unchanged => exact ⟨row, by rw [← found, ← unchanged.turns], rfl⟩
  | storeFile => exact ⟨row, found, rfl⟩
  | seed done =>
      obtain ⟨_, _, _, _, sameTurns, _⟩ := Database.putCapture_frame done
      exact ⟨row, by rw [← found, ← sameTurns], rfl⟩
  | createWorkspace done =>
      obtain ⟨_, _, _, _, rfl⟩ := Database.insertThreadWorkspace_eq_ok done
      exact ⟨row, found, rfl⟩
  | createTurn _ _ done =>
      obtain ⟨absent, _, _, rfl⟩ := Database.createTurn_eq_ok done
      refine ⟨row, ?_, rfl⟩
      dsimp only
      rw [AList.lookup_insert_if, if_neg, found]
      rintro rfl
      rw [absent] at found
      cases found
  | @updateTurn _ other update _ _ done =>
      cases isOther : before.db.turns.lookup other with
      | none =>
          rw [Database.updateTurn_of_absent isOther] at done
          cases done
          exact ⟨row, found, rfl⟩
      | some otherRow =>
          obtain ⟨_, _, rfl⟩ := (Database.updateTurn_eq_ok isOther).mp done
          by_cases same : key = other
          · subst same
            rw [found] at isOther
            cases isOther
            exact ⟨_, AList.lookup_insert _, rfl⟩
          · refine ⟨row, ?_, rfl⟩
            dsimp only
            rw [AList.lookup_insert_if, if_neg same, found]
  | createInstance done =>
      obtain ⟨_, _, rfl⟩ := Database.createInstance_eq_ok.mp done
      exact ⟨row, found, rfl⟩
  | @publish _ commit tree done =>
      obtain ⟨captured, otherRow, inserted, _, isOther, _, rfl⟩ :=
        Database.publishTurnCommit_eq_ok done
      obtain ⟨_, _, _, _, sameTurns, _⟩ := Database.insertCapture_frame inserted
      rw [← sameTurns] at found
      by_cases same : key = commit.key
      · subst same
        rw [show captured.turns.lookup commit.key = some otherRow from
          isOther] at found
        cases found
        exact ⟨Database.publishedRow (publishInput deployment commit tree) row,
          AList.lookup_insert _, rfl⟩
      · refine ⟨row, ?_, rfl⟩
        have other : (captured.turns.insert commit.key (Database.publishedRow
            (publishInput deployment commit tree) otherRow)).lookup key =
              some row := by
          rw [AList.lookup_insert_if, if_neg same, found]
        exact other

theorem Writes.turn {deployment : Deployment} {before after : Store}
    (writes : Writes deployment before after) {key : TurnKey} {row : TurnRow}
    (found : before.db.turns.lookup key = some row) :
    ∃ later, after.db.turns.lookup key = some later ∧
      later.mode = row.mode := by
  induction writes with
  | refl => exact ⟨row, found, rfl⟩
  | tail _ write induction =>
      obtain ⟨middle, isMiddle, sameMode⟩ := induction
      obtain ⟨later, isLater, same⟩ := write.turn isMiddle
      exact ⟨later, isLater, same.trans sameMode⟩

/-! ## Recovery -/

section Recovery

variable {deployment : Deployment} {objects : List String}
  {db next : Database}

theorem cleanupFinishedTurnRuntimes_quiet
    (destroy : InstanceId → Except Thrown Unit) (db : Database) :
    db.Quiet (cleanupFinishedTurnRuntimes destroy db) :=
  Database.foldl_quiet (cleanupFinishedTurnRuntime_quiet destroy) _ db

theorem stopInterrupted_quiet (destroy : InstanceId → Except Thrown Unit)
    (db : Database) : db.Quiet (stopInterrupted destroy db) :=
  ((Database.deleteRunningOperations_quiet db).trans
    (cleanupFinishedTurnRuntimes_quiet destroy _)).trans
    (Database.foldl_quiet
      (fun db _ => Database.updateInstance_quiet db _ _) _ _)

theorem recoverTurns_writes (turns : List (TurnKey × TurnRow))
    (recovered : turns.foldlM recoverTurn db = .ok next) :
    Writes deployment ⟨db, objects⟩ ⟨next, objects⟩ := by
  induction turns generalizing db with
  | nil =>
      cases recovered
      exact .refl
  | cons turn turns induction =>
      rw [List.foldlM_cons] at recovered
      cases updated : recoverTurn db turn with
      | error error =>
          rw [updated] at recovered
          cases recovered
      | ok middle =>
          rw [updated] at recovered
          have marked : Writes deployment ⟨db, objects⟩ ⟨middle, objects⟩ :=
            .markTurn rfl (by simp) updated
          exact marked.trans (induction recovered)

theorem recover_writes {destroy : InstanceId → Except Thrown Unit}
    (recovered : recover destroy db = .ok next) :
    Writes deployment ⟨db, objects⟩ ⟨next, objects⟩ := by
  exact (Writes.quiet (stopInterrupted_quiet destroy db)).trans
    (recoverTurns_writes _ recovered)

theorem forceFailed_writes {key : TurnKey}
    (done : World.forceFailed db key = .ok next) :
    Writes deployment ⟨db, objects⟩ ⟨next, objects⟩ := by
  unfold World.forceFailed at done
  exact .markTurn rfl (by simp) done

theorem closeSandboxService_quiet (db : Database) :
    db.Quiet (closeSandboxService db) :=
  Database.foldl_quiet
    (fun db _ => Database.updateInstance_quiet db _ _) _ db

end Recovery

/-! ## Worlds -/

/-- The store is sound, what finishes in flight rely on holds, and the
canonical empty commit of a ready service exists. -/
structure Provisioned (deployment : Deployment) (world : World) : Prop where
  sound : Sound deployment world.store
  keys : ∀ key call, world.finishes.lookup key = some call → call.key = key
  grounded : ∀ key call, world.finishes.lookup key = some call →
    call.Grounded deployment world.db world.objects
  ready : ∀ commit, world.emptyCommit = some commit →
    commit = deployment.emptyCommit ∧ world.db.hasCommit commit = true

theorem FinishCall.Grounded.write {deployment : Deployment}
    {before after : Store} {call : FinishCall}
    (grounded : call.Grounded deployment before.db before.objects)
    (writes : Writes deployment before after)
    (stays : ∀ file ∈ before.objects, file ∈ after.objects) :
    call.Grounded deployment after.db after.objects where
  record := by
    obtain ⟨row, found, sameMode⟩ := grounded.record
    obtain ⟨later, isLater, same⟩ := writes.turn found
    exact ⟨later, isLater, same.trans sameMode⟩
  archive := fun tree holds =>
    have before := grounded.archive tree holds
    ⟨before.1, stays _ before.2⟩
  instant := grounded.instant

namespace Provisioned

variable {deployment : Deployment} {world : World} {next : Database}

/-- Writes to the store alone. -/
theorem write (provisioned : Provisioned deployment world)
    {objects : List String}
    (writes : Writes deployment world.store ⟨next, objects⟩)
    (stays : ∀ file ∈ world.objects, file ∈ objects) :
    Provisioned deployment { world with db := next, objects } where
  sound := provisioned.sound.writes writes
  keys := provisioned.keys
  grounded := fun key call found =>
    (provisioned.grounded key call found).write writes stays
  ready := fun commit isEmpty =>
    have before := provisioned.ready commit isEmpty
    ⟨before.1, writes.hasCommit before.2⟩

theorem write_db (provisioned : Provisioned deployment world)
    (writes : Writes deployment world.store ⟨next, world.objects⟩) :
    Provisioned deployment { world with db := next } :=
  provisioned.write writes (fun _ member => member)

/-- A world with the same store and canonical commit whose finishes are as
grounded as before. -/
theorem transfer (provisioned : Provisioned deployment world) {other : World}
    (sameStore : other.store = world.store)
    (sameReady : other.emptyCommit = world.emptyCommit)
    (finishes : ∀ key call, other.finishes.lookup key = some call →
      call.key = key ∧
        call.Grounded deployment world.db world.objects) :
    Provisioned deployment other := by
  have sameDb : other.db = world.db := congrArg Store.db sameStore
  have sameObjects : other.objects = world.objects :=
    congrArg Store.objects sameStore
  refine ⟨sameStore ▸ provisioned.sound,
    fun key call found => (finishes key call found).1, ?_, ?_⟩
  · intro key call found
    rw [sameDb, sameObjects]
    exact (finishes key call found).2
  · rw [sameReady, sameDb]
    exact provisioned.ready

theorem sameFinishes (provisioned : Provisioned deployment world)
    {other : World} (sameStore : other.store = world.store)
    (sameReady : other.emptyCommit = world.emptyCommit)
    (same : other.finishes = world.finishes) :
    Provisioned deployment other := by
  refine provisioned.transfer sameStore sameReady ?_
  intro key call found
  rw [same] at found
  exact ⟨provisioned.keys key call found, provisioned.grounded key call found⟩

/-! ### Each event -/

theorem start (provisioned : Provisioned deployment world)
    (input : StartTurnInput) (environment : StartEnvironment) :
    Provisioned deployment (world.start input environment).1 := by
  unfold World.start
  split
  · exact provisioned
  split
  · exact provisioned
  split
  · exact provisioned
  split
  · exact provisioned
  split
  case h_1 => exact provisioned
  case h_2 created done =>
    have began : Writes deployment world.store ⟨(startCreated
        world.emptyCommit created input world.nextUuid
        (world.nextUuid + 1)).1, world.objects⟩ :=
      (Relation.ReflTransGen.single (.createTurn rfl rfl done)).trans
        (startCreated_writes rfl)
    exact (provisioned.write_db began).sameFinishes rfl rfl rfl

theorem resumeStart (provisioned : Provisioned deployment world)
    {key : TurnKey} {after : World}
    (resumed : world.resumeStart deployment key = some after) :
    Provisioned deployment after := by
  unfold World.resumeStart at resumed
  split at resumed
  · cases resumed
  · obtain ⟨⟨next, stage⟩, advanced, same⟩ :=
      Option.map_eq_some_iff.mp resumed
    cases same
    exact (provisioned.write_db (advanceStart_step advanced).writes
      ).sameFinishes rfl rfl rfl

theorem finish (provisioned : Provisioned deployment world) (key : TurnKey)
    (environment : FinishEnvironment) :
    Provisioned deployment (world.finish key environment).1 := by
  unfold World.finish
  split
  · exact provisioned
  split
  · exact provisioned
  case h_2 record isRecord =>
  split
  · exact provisioned
  · exact provisioned
  · exact provisioned
  · exact provisioned
  split
  · exact provisioned
  split
  case h_1 => exact provisioned
  case h_2 marked done =>
    have writes : Writes deployment world.store ⟨marked, world.objects⟩ :=
      .markTurn rfl (by simp) done
    have written := provisioned.write_db writes
    refine written.transfer rfl rfl ?_
    intro other call found
    simp only [World.beginFinish, AList.lookup_insert_if] at found
    split at found
    case isFalse =>
      exact ⟨written.keys other call found, written.grounded other call found⟩
    case isTrue same =>
      cases found
      obtain ⟨later, isLater, sameMode⟩ := writes.turn isRecord
      refine ⟨same.symm, ⟨later, isLater, sameMode⟩, ?_, ?_⟩
      · intro tree holds
        dsimp only at holds
        split at holds <;> cases holds
      · intro progress isStage
        dsimp only at isStage
        split at isStage <;> cases isStage

theorem resumeFinish (provisioned : Provisioned deployment world)
    {key : TurnKey} {after : World}
    (resumed : world.resumeFinish deployment key = some after) :
    Provisioned deployment after := by
  unfold World.resumeFinish at resumed
  split at resumed
  · cases resumed
  case h_2 call found =>
  obtain ⟨segment, advanced, same⟩ := Option.map_eq_some_iff.mp resumed
  cases same
  have step := advanceFinish_step advanced
  have grounded := provisioned.grounded key call found
  have writes := step.writes grounded
  have written := provisioned.write writes
    (fun file member => step.objects_subset member)
  refine ⟨written.sound, ?_, ?_, written.ready⟩
  · intro other otherCall isOther
    simp only [AList.lookup_insert_if] at isOther
    split at isOther
    case isTrue same =>
      cases isOther
      rw [same]
      exact provisioned.keys key call found
    case isFalse => exact written.keys other otherCall isOther
  · intro other otherCall isOther
    simp only [AList.lookup_insert_if] at isOther
    split at isOther
    case isTrue same =>
      cases isOther
      obtain ⟨row, isRow, sameMode⟩ := grounded.record
      obtain ⟨later, isLater, same⟩ := writes.turn isRow
      exact ⟨⟨later, isLater, same.trans sameMode⟩,
        fun tree holds => step.archive_stored holds,
        fun progress isStage => step.instant grounded.instant isStage⟩
    case isFalse => exact written.grounded other otherCall isOther

theorem forgetFinish (provisioned : Provisioned deployment world)
    {key : TurnKey} {after : World}
    (forgotten : world.forgetFinish key = some after) :
    Provisioned deployment after := by
  unfold World.forgetFinish at forgotten
  split at forgotten
  · cases forgotten
  case h_2 call found =>
  split at forgotten <;> cases forgotten
  refine provisioned.transfer rfl rfl ?_
  intro other otherCall isOther
  simp only [AList.lookup_insert_if] at isOther
  split at isOther
  case isTrue same =>
    cases isOther
    have before := provisioned.grounded key call found
    rw [same]
    exact ⟨provisioned.keys key call found,
      before.record, before.archive, before.instant⟩
  case isFalse =>
    exact ⟨provisioned.keys other otherCall isOther,
      provisioned.grounded other otherCall isOther⟩

theorem wake_grounded (provisioned : Provisioned deployment world)
    {key other : TurnKey} {call : FinishCall}
    (found : (World.wake world.finishes key).lookup other = some call) :
    call.key = other ∧ call.Grounded deployment world.db world.objects := by
  unfold World.wake at found
  rw [AList.lookup_modify_if] at found
  split at found
  case isFalse =>
    exact ⟨provisioned.keys other call found,
      provisioned.grounded other call found⟩
  case isTrue =>
    obtain ⟨before, known, same⟩ := Option.map_eq_some_iff.mp found
    have grounded := provisioned.grounded other before known
    have isKey := provisioned.keys other before known
    split at same <;> cases same
    · refine ⟨isKey, grounded.record, ?_, ?_⟩
      · intro tree holds
        cases holds
      · intro progress isStage
        cases isStage
    · exact ⟨isKey, grounded⟩

theorem release (provisioned : Provisioned deployment world) {id : LeaseId}
    {after : World} (released : world.release id = some after) :
    Provisioned deployment after := by
  unfold World.release at released
  split at released
  · cases released
  split at released
  · cases released
    exact provisioned
  dsimp only at released
  split at released
  · cases released
    unfold World.dropLease
    dsimp only
    split
    · exact provisioned.sameFinishes rfl rfl rfl
    split
    · exact provisioned.transfer rfl rfl
        (fun _ _ found => provisioned.wake_grounded found)
    · exact provisioned.sameFinishes rfl rfl rfl
  · cases released
    exact provisioned.sameFinishes rfl rfl rfl

theorem fork (provisioned : Provisioned deployment world)
    (input : World.ForkInput) :
    Provisioned deployment (world.fork input).1 := by
  unfold World.fork
  split
  · exact provisioned
  split
  · exact provisioned
  case h_2 forked done =>
    have writes : Writes deployment world.store ⟨forked, world.objects⟩ :=
      .createWorkspace (Database.createThreadFork_eq_ok done).2
    exact (provisioned.write_db writes).sameFinishes rfl rfl rfl

theorem forceLoop (call : CloseCall) (failures : List Thrown)
    (turns : List (TurnKey × TurnRow)) {world : World}
    (provisioned : Provisioned deployment world) :
    Provisioned deployment (world.forceLoop call failures turns) := by
  induction turns generalizing world with
  | nil => exact provisioned.sameFinishes rfl rfl rfl
  | cons turn turns induction =>
      unfold World.forceLoop
      split
      · exact (provisioned.write_db
          (Writes.quiet (Deletion.start_quiet world.db _))).sameFinishes
            rfl rfl rfl
      · split
        case h_1 done =>
          exact induction (provisioned.write_db (forceFailed_writes done))
        case h_2 => exact provisioned.sameFinishes rfl rfl rfl

theorem closeOpen (provisioned : Provisioned deployment world)
    (call : CloseCall) (failures : List Thrown) (keys : List TurnKey) :
    Provisioned deployment (world.closeOpen call failures keys) := by
  unfold World.closeOpen
  split
  · split
    · exact forceLoop call failures _ provisioned
    · exact provisioned.sameFinishes rfl rfl rfl
  case h_2 key rest =>
    have finished := provisioned.finish key (call.environment.finish key)
    split <;> rename_i same <;> rw [same] at finished <;>
      exact finished.sameFinishes rfl rfl rfl

theorem closeService (provisioned : Provisioned deployment world)
    (environment : CloseEnvironment) :
    Provisioned deployment (world.closeService environment) := by
  unfold World.closeService
  split
  · exact provisioned
  · have closing : Provisioned deployment { world with closing := true } :=
      provisioned.sameFinishes rfl rfl rfl
    dsimp only
    split
    · exact closing.closeOpen _ _ _
    · exact closing.sameFinishes rfl rfl rfl

theorem resumeClose (provisioned : Provisioned deployment world)
    {after : World} (resumed : world.resumeClose = some after) :
    Provisioned deployment after := by
  unfold World.resumeClose at resumed
  split at resumed
  · cases resumed
  split at resumed
  · split at resumed <;> cases resumed
    exact provisioned.closeOpen _ _ _
  · split at resumed <;> cases resumed
    exact provisioned.closeOpen _ _ _
  · split at resumed <;> cases resumed
    exact forceLoop _ _ _ provisioned
  case h_4 key instanceId result rest _ =>
    cases result with
    | ok value =>
        dsimp only at resumed
        split at resumed <;> cases resumed
        · exact forceLoop _ _ _
            (provisioned.write_db (forceFailed_writes ‹_›))
        · exact provisioned.sameFinishes rfl rfl rfl
    | error error =>
        have lost : Provisioned deployment { world with
            db := recordLost world.db instanceId error } :=
          provisioned.write_db
            (Writes.quiet (Database.updateInstance_quiet world.db _ _))
        dsimp only at resumed
        split at resumed <;> cases resumed
        · exact forceLoop _ _ _ (lost.write_db (forceFailed_writes ‹_›))
        · exact lost.sameFinishes rfl rfl rfl
  · obtain ⟨⟨next, later⟩, advanced, same⟩ :=
      Option.map_eq_some_iff.mp resumed
    cases same
    exact (provisioned.write_db
      (Writes.quiet (Deletion.resume_quiet advanced))).sameFinishes rfl rfl rfl
  · cases resumed

theorem restart (provisioned : Provisioned deployment world) :
    Provisioned deployment world.restart where
  sound := provisioned.sound
  keys := by simp [World.restart]
  grounded := by simp [World.restart]
  ready := by simp [World.restart]

theorem initializeService (provisioned : Provisioned deployment world)
    {after : World}
    (ready : world.initializeService deployment = some after) :
    Provisioned deployment after := by
  unfold World.initializeService at ready
  split at ready
  · cases ready
  case h_2 next done =>
    cases ready
    have filed := provisioned.sound.storeFile deployment.emptyTree.path
    obtain ⟨sound, present⟩ := filed.seed List.mem_cons_self done
    have writes : Writes deployment world.store
        ⟨next, deployment.emptyTree.path :: world.objects⟩ :=
      (Relation.ReflTransGen.single (.storeFile _)).tail
        (.seed done List.mem_cons_self)
    refine ⟨sound, provisioned.keys, fun key call found => ?_, ?_⟩
    · exact (provisioned.grounded key call found).write writes
        (fun file member => List.mem_cons_of_mem _ member)
    · intro commit same
      cases same
      exact ⟨rfl, present⟩

theorem recoverDatabase (provisioned : Provisioned deployment world)
    {destroy : InstanceId → Except Thrown Unit} {after : World}
    (recovered : world.recoverDatabase destroy = some after) :
    Provisioned deployment after := by
  unfold World.recoverDatabase at recovered
  split at recovered
  · cases recovered
  case h_2 done =>
    cases recovered
    exact provisioned.write_db (recover_writes done)

theorem boot (provisioned : Provisioned deployment world)
    {destroy : InstanceId → Except Thrown Unit} {after : World}
    (booted : world.boot deployment destroy = some after) :
    Provisioned deployment after := by
  obtain ⟨ready, isReady, recovered⟩ := Option.bind_eq_some_iff.mp booted
  exact (provisioned.restart.initializeService isReady).recoverDatabase
    recovered

theorem empty (deployment : Deployment) :
    Provisioned deployment World.empty where
  sound := Sound.empty deployment
  keys := by simp [World.empty]
  grounded := by simp [World.empty]
  ready := by simp [World.empty]

theorem step (provisioned : Provisioned deployment world) {event : Event}
    {after : World} (taken : world.step deployment event = some after) :
    Provisioned deployment after := by
  cases World.stepped taken with
  | start input environment => exact provisioned.start input environment
  | resumeStart resumed => exact provisioned.resumeStart resumed
  | forgetStart forgotten =>
      unfold World.forgetStart at forgotten
      split at forgotten
      · cases forgotten
      split at forgotten <;> cases forgotten
      exact provisioned.sameFinishes rfl rfl rfl
  | acquire key =>
      unfold World.acquire
      split
      · exact provisioned
      split
      · exact provisioned
      split
      · exact provisioned
      · exact provisioned.sameFinishes rfl rfl rfl
  | release released => exact provisioned.release released
  | markInstance marked =>
      unfold World.markInstance at marked
      split at marked <;> cases marked
      exact provisioned.write_db
        (Writes.quiet (Database.updateInstance_quiet world.db _ _))
  | finish key environment => exact provisioned.finish key environment
  | resumeFinish resumed => exact provisioned.resumeFinish resumed
  | forgetFinish forgotten => exact provisioned.forgetFinish forgotten
  | fork input => exact provisioned.fork input
  | close environment => exact provisioned.closeService environment
  | resumeClose resumed => exact provisioned.resumeClose resumed
  | boot booted => exact provisioned.boot booted
  | restart => exact provisioned.restart
  | initializeService ready => exact provisioned.initializeService ready
  | recover recovered => exact provisioned.recoverDatabase recovered
  | closeSandboxService =>
      exact provisioned.write_db
        (Writes.quiet (closeSandboxService_quiet world.db))

end Provisioned

/-- Whatever happens, the store stays sound. -/
theorem Reached.provisioned {deployment : Deployment} {world : World}
    (reached : Reached deployment world) : Provisioned deployment world := by
  refine Reachable.invariant ?_ ?_ reached
  · rintro _ rfl
    exact Provisioned.empty deployment
  · intro before event after known _ taken
    exact known.step taken

theorem Served.reached {deployment : Deployment} {world : World}
    (served : Served deployment world) : Reached deployment world := by
  induction served with
  | @start state first =>
      obtain ⟨destroy, booted⟩ := first
      have taken : World.empty.step deployment (.boot destroy) =
          some state := by
        simp only [World.step, World.respond, booted, Option.map_some]
      exact .step (.start rfl) trivial taken
  | step _ _ taken induction => exact induction.step trivial taken

end Electrosphere
