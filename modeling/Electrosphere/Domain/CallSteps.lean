import Electrosphere.Domain.Soundness
import Electrosphere.Domain.TurnService

/-!
# The steps of a call

`StartStep` and `FinishStep` list what a call can do between two awaits, one
constructor for each branch of the source.  Every argument about calls in
flight is a case analysis on these relations.
-/

namespace Electrosphere

open Foundation

/-! ## Deleting a runtime -/

theorem Deletion.start_quiet (db : Database) (id : InstanceId) :
    db.Quiet (Deletion.start db id).1 := by
  unfold Deletion.start
  split
  · exact .refl db
  · split
    · exact .refl db
    · exact Database.updateInstance_quiet db _ _

theorem Deletion.resume_quiet {environment : DeletionEnvironment}
    {db next : Database} {id : InstanceId} {progress later : Deletion}
    (resumed : progress.resume environment db id = some (next, later)) :
    db.Quiet next := by
  unfold Deletion.resume at resumed
  split at resumed
  · split at resumed <;> cases resumed <;> exact .refl db
  · split at resumed <;> cases resumed
    · exact Database.updateInstance_quiet db _ _
    · exact .refl db
  · cases resumed

/-! ## Starting -/

/-- A workspace that exists is looked up, and one that does not is created at
the canonical empty commit. -/
theorem ensureThreadWorkspace_eq {canonicalEmpty : Option Digest}
    {db next : Database} {threadId : ThreadId} {fresh : WorkspaceId}
    {workspace : Except Thrown WorkspaceView}
    (ensured : ensureThreadWorkspace canonicalEmpty db threadId fresh =
      (next, workspace)) :
    (next = db ∧ ∀ found, workspace = .ok found →
      db.threadWorkspaces.lookup threadId = some found.workspaceId ∧
        db.refs.lookup (found.workspaceId, mainRef) =
          some found.headCommit) ∨
    (∃ headCommit, canonicalEmpty = some headCommit ∧
      db.insertThreadWorkspace threadId fresh headCommit = .ok next ∧
      workspace = .ok { workspaceId := fresh, headCommit }) := by
  have viewed : ∀ existing found, workspaceView db existing = .ok found →
      found.workspaceId = existing ∧
        db.refs.lookup (existing, mainRef) = some found.headCommit := by
    intro existing found view
    unfold workspaceView at view
    split at view
    · split at view
      case h_1 isHead =>
        cases view
        exact ⟨rfl, isHead⟩
      case h_2 => cases view
    · cases view
  unfold ensureThreadWorkspace at ensured
  split at ensured
  case h_1 existing isExisting =>
    simp only [Prod.mk.injEq] at ensured
    obtain ⟨rfl, rfl⟩ := ensured
    refine .inl ⟨rfl, fun found view => ?_⟩
    obtain ⟨rfl, isHead⟩ := viewed existing found view
    exact ⟨isExisting, isHead⟩
  case h_2 =>
    split at ensured
    case h_1 =>
      cases ensured
      exact .inl ⟨rfl, fun _ impossible => by cases impossible⟩
    case h_2 headCommit =>
      split at ensured
      case h_1 done =>
        cases ensured
        exact .inr ⟨headCommit, rfl, done, rfl⟩
      case h_2 =>
        cases ensured
        exact .inl ⟨rfl, fun _ impossible => by cases impossible⟩

inductive StartStep (deployment : Deployment) (db : Database)
    (call : StartCall) : Database → StartStage → Prop where
  | workspaceFailed {error : Thrown} :
      call.stage = .ensured (.error error) →
      StartStep deployment db call db (.rejected error)
  | workspaceFound {workspace : WorkspaceView} :
      call.stage = .ensured (.ok workspace) →
      StartStep deployment db call db (createTurnRuntime db
        (durableRuntime deployment call.input call.instanceId workspace))
  | probed {runtime : RuntimeInput} :
      call.stage = .preflight runtime →
      checkProbe runtime.backend call.environment.preflight = .ok () →
      StartStep deployment db call db (.makeDirectory runtime)
  | probeFailed {runtime : RuntimeInput} {error : Thrown} :
      call.stage = .preflight runtime →
      checkProbe runtime.backend call.environment.preflight =
        .error error →
      StartStep deployment db call db (.rejected error)
  | directoryMade {runtime : RuntimeInput} :
      call.stage = .makeDirectory runtime →
      call.environment.makeDirectory = .ok () →
      StartStep deployment db call db (.materialize runtime)
  | directoryFailed {runtime : RuntimeInput} {error : Thrown} :
      call.stage = .makeDirectory runtime →
      call.environment.makeDirectory = .error error →
      StartStep deployment db call db (.rejected error)
  | materializeFailed {runtime : RuntimeInput} {error : Thrown} :
      call.stage = .materialize runtime →
      call.environment.materialize = .error error →
      StartStep deployment db call db (.rejected error)
  | recorded {runtime : RuntimeInput} {next : Database} :
      call.stage = .materialize runtime →
      call.environment.materialize = .ok () →
      db.createInstance runtime.instanceId
        (provisioningRow deployment runtime) = .ok next →
      StartStep deployment db call next (.create runtime)
  | recordFailed {runtime : RuntimeInput} {error : Thrown} :
      call.stage = .materialize runtime →
      call.environment.materialize = .ok () →
      db.createInstance runtime.instanceId
        (provisioningRow deployment runtime) = .error error →
      StartStep deployment db call db (.rejected error)
  | created {runtime : RuntimeInput} {opaqueId : String} :
      call.stage = .create runtime →
      call.environment.create = .ok opaqueId →
      (recordHandle db runtime opaqueId).hasInstance runtime.instanceId =
        true →
      StartStep deployment db call (recordHandle db runtime opaqueId)
        (.created runtime)
  | vanished {runtime : RuntimeInput} {opaqueId : String} :
      call.stage = .create runtime →
      call.environment.create = .ok opaqueId →
      (recordHandle db runtime opaqueId).hasInstance runtime.instanceId =
        false →
      StartStep deployment db call (recordHandle db runtime opaqueId)
        (.rejected (.coded .backendError
          "Runtime record disappeared after creation"))
  | createFailed {runtime : RuntimeInput} {error : Thrown} :
      call.stage = .create runtime →
      call.environment.create = .error error →
      StartStep deployment db call
        (recordCreateFailure db runtime.instanceId error) (.cleanup error)
  | cleaned {error later : Thrown} :
      call.stage = .cleanup error →
      (call.environment.removeDirectory = .ok () ∧ later = error ∨
        call.environment.removeDirectory = .error later) →
      StartStep deployment db call db (.rejected later)
  | opened {runtime : RuntimeInput} {next : Database} {record : TurnRow} :
      call.stage = .created runtime →
      db.updateTurn call.input.key (openUpdate runtime) = .ok next →
      next.getTurn call.input.key = some record →
      StartStep deployment db call next
        (.settled (.ok (view call.input.key record)))
  | openFailed {runtime : RuntimeInput} {error : Thrown} :
      call.stage = .created runtime →
      db.updateTurn call.input.key (openUpdate runtime) = .error error →
      StartStep deployment db call (Deletion.start db call.instanceId).1
        (.deleting error (Deletion.start db call.instanceId).2)
  | turnVanished {runtime : RuntimeInput} {next : Database} {error : Thrown} :
      call.stage = .created runtime →
      db.updateTurn call.input.key (openUpdate runtime) = .ok next →
      next.getTurn call.input.key = none →
      StartStep deployment db call (Deletion.start next call.instanceId).1
        (.deleting error (Deletion.start next call.instanceId).2)
  | failed {error : Thrown} {next : Database} {stage : StartStage} :
      (call.stage = .rejected error ∨
        ∃ result, call.stage = .deleting error (.done result)) →
      failStart db call.input.key call.instanceId error = (next, stage) →
      StartStep deployment db call next stage
  | deleting {error : Thrown} {progress later : Deletion} {next : Database} :
      call.stage = .deleting error progress →
      progress.resume call.environment.deletion db call.instanceId =
        some (next, later) →
      StartStep deployment db call next (.deleting error later)

theorem advanceStart_step {deployment : Deployment} {db next : Database}
    {call : StartCall} {stage : StartStage}
    (advanced : advanceStart deployment db call = some (next, stage)) :
    StartStep deployment db call next stage := by
  unfold advanceStart at advanced
  split at advanced
  case h_1 isStage =>
    cases advanced
    exact .workspaceFailed isStage
  case h_2 isStage =>
    cases advanced
    exact .workspaceFound isStage
  case h_3 isStage =>
    split at advanced
    case h_1 answer =>
      cases advanced
      exact .probed isStage answer
    case h_2 answer =>
      cases advanced
      exact .probeFailed isStage answer
  case h_4 isStage =>
    split at advanced
    case h_1 answer =>
      cases advanced
      exact .directoryMade isStage answer
    case h_2 answer =>
      cases advanced
      exact .directoryFailed isStage answer
  case h_5 isStage =>
    split at advanced
    case h_1 answer =>
      cases advanced
      exact .materializeFailed isStage answer
    case h_2 answer =>
      split at advanced
      case h_1 done =>
        cases advanced
        exact .recorded isStage answer done
      case h_2 done =>
        cases advanced
        exact .recordFailed isStage answer done
  case h_6 isStage =>
    split at advanced
    case h_1 answer =>
      dsimp only at advanced
      split at advanced
      case isTrue present =>
        cases advanced
        exact .created isStage answer present
      case isFalse absent =>
        cases advanced
        exact .vanished isStage answer (by simpa using absent)
    case h_2 answer =>
      cases advanced
      exact .createFailed isStage answer
  case h_7 isStage =>
    split at advanced
    case h_1 answer =>
      cases advanced
      exact .cleaned isStage (.inl ⟨answer, rfl⟩)
    case h_2 answer =>
      cases advanced
      exact .cleaned isStage (.inr answer)
  case h_8 isStage =>
    split at advanced
    case h_1 done =>
      cases advanced
      exact .openFailed isStage done
    case h_2 done =>
      split at advanced
      case h_1 found =>
        cases advanced
        exact .opened isStage done found
      case h_2 absent =>
        cases advanced
        exact .turnVanished isStage done absent
  case h_9 isStage =>
    exact .failed (.inl isStage) (Option.some.inj advanced)
  case h_10 isStage =>
    exact .failed (.inr ⟨_, isStage⟩) (Option.some.inj advanced)
  case h_11 isStage =>
    obtain ⟨⟨later, progress⟩, resumed, same⟩ :=
      Option.map_eq_some_iff.mp advanced
    cases same
    exact .deleting isStage resumed
  case h_12 => cases advanced

/-! ## Finishing -/

/-- The tree that a finish captures. -/
def capturedTree (deployment : Deployment) (call : FinishCall) :
    Except Thrown CfsObject :=
  call.environment.capture.map fun (treeDigest, sizeBytes) =>
    { treeDigest, path := deployment.treePath treeDigest, sizeBytes }

def storedObjects (objects : List String) :
    Except Thrown CfsObject → List String
  | .ok tree => tree.path :: objects
  | .error _ => objects

inductive FinishStep (deployment : Deployment) (db : Database)
    (objects : List String) (call : FinishCall) : FinishSegment → Prop where
  | noRuntime {error : Thrown} :
      call.stage = .drained → call.record.instanceId = none →
      FinishStep deployment db objects call
        (.plain objects (failTurn db call error))
  | closing {instanceId : InstanceId} :
      call.stage = .drained → call.record.instanceId = some instanceId →
      FinishStep deployment db objects call
        (.plain objects (db, .closingSessions))
  | sessionsEnded {instanceId : InstanceId} :
      call.stage = .closingSessions →
      call.record.instanceId = some instanceId →
      FinishStep deployment db objects call (.plain objects
        (readyAfterSessions db instanceId, .sessionsClosed (.ok ())))
  | sessionsStuck {instanceId : InstanceId} {error : Thrown} :
      call.stage = .closingSessions →
      call.record.instanceId = some instanceId →
      FinishStep deployment db objects call
        (.plain objects (db, .sessionsClosed (.error error)))
  | sessionsFailed {error : Thrown} :
      call.stage = .sessionsClosed (.error error) →
      FinishStep deployment db objects call
        (.plain objects (failTurn db call error))
  | proceed {instanceId : InstanceId} :
      call.stage = .sessionsClosed (.ok ()) →
      call.record.instanceId = some instanceId →
      FinishStep deployment db objects call
        (.plain objects (finishRuntime db call instanceId))
  | snapshotTaken {commit : CommitInput} {guestArchive : Bool} :
      call.stage = .snapshot commit →
      FinishStep deployment db objects call
        (.plain objects (db, .capture commit guestArchive))
  | snapshotFailed {commit : CommitInput} {error : Thrown} :
      call.stage = .snapshot commit →
      FinishStep deployment db objects call
        (finishCapture deployment db objects commit (.error error))
  | guestCaptured {commit : CommitInput} {guestArchive : Bool} :
      call.stage = .capture commit guestArchive →
      FinishStep deployment db objects call
        { db
          objects := storedObjects objects (capturedTree deployment call)
          stage := .removeSnapshot commit (capturedTree deployment call) }
  | hostCaptured {commit : CommitInput} {guestArchive : Bool} :
      call.stage = .capture commit guestArchive →
      FinishStep deployment db objects call
        (finishCapture deployment db
          (storedObjects objects (capturedTree deployment call)) commit
          (capturedTree deployment call))
  | snapshotRemoved {commit : CommitInput}
      {captured : Except Thrown CfsObject} :
      call.stage = .removeSnapshot commit captured →
      FinishStep deployment db objects call
        (finishCapture deployment db objects commit captured)
  | snapshotKept {commit : CommitInput} {captured : Except Thrown CfsObject}
      {error : Thrown} :
      call.stage = .removeSnapshot commit captured →
      FinishStep deployment db objects call
        (finishCapture deployment db objects commit (.error error))
  | commitFailed {error : Thrown} :
      call.stage = .committed (.error error) →
      FinishStep deployment db objects call
        (.plain objects (failTurn db call error))
  | cleaning {result : TurnCommitResult} {instanceId : InstanceId} :
      call.stage = .committed (.ok result) →
      call.record.instanceId = some instanceId →
      FinishStep deployment db objects call
        (.plain objects (deleteFor db instanceId (.committed result)))
  | deleted {purpose : DeletionPurpose} {result : Except Thrown Unit}
      {instanceId : InstanceId} :
      call.stage = .deleting purpose (.done result) →
      call.record.instanceId = some instanceId →
      FinishStep deployment db objects call
        (.plain objects
          (afterDeletion db call.key instanceId purpose result))
  | deleting {purpose : DeletionPurpose} {progress later : Deletion}
      {instanceId : InstanceId} {next : Database} :
      call.stage = .deleting purpose progress →
      call.record.instanceId = some instanceId →
      progress.resume call.environment.deletion db instanceId =
        some (next, later) →
      FinishStep deployment db objects call
        (.plain objects (next, .deleting purpose later))

theorem advanceFinish_step {deployment : Deployment} {db : Database}
    {objects : List String} {call : FinishCall} {segment : FinishSegment}
    (advanced : advanceFinish deployment db objects call = some segment) :
    FinishStep deployment db objects call segment := by
  unfold advanceFinish at advanced
  split at advanced
  case h_1 => cases advanced
  case h_2 isStage absent =>
    cases advanced
    exact .noRuntime isStage absent
  case h_3 isStage present =>
    cases advanced
    exact .closing isStage present
  case h_4 isStage present =>
    split at advanced <;> cases advanced
    · exact .sessionsEnded isStage present
    · exact .sessionsStuck isStage present
  case h_5 isStage =>
    cases advanced
    exact .sessionsFailed isStage
  case h_6 isStage present =>
    cases advanced
    exact .proceed isStage present
  case h_7 isStage =>
    split at advanced <;> cases advanced
    · exact .snapshotTaken isStage
    · exact .snapshotFailed isStage
  case h_8 commit guestArchive _ isStage =>
    dsimp only at advanced
    split at advanced <;> cases advanced
    · exact .guestCaptured isStage
    · exact .hostCaptured isStage
  case h_9 isStage =>
    split at advanced <;> cases advanced
    · exact .snapshotRemoved isStage
    · exact .snapshotKept isStage
  case h_10 isStage =>
    cases advanced
    exact .commitFailed isStage
  case h_11 isStage present =>
    cases advanced
    exact .cleaning isStage present
  case h_12 isStage present =>
    cases advanced
    exact .deleted isStage present
  case h_13 isStage present =>
    obtain ⟨⟨next, later⟩, resumed, same⟩ :=
      Option.map_eq_some_iff.mp advanced
    cases same
    exact .deleting isStage present resumed
  case h_14 => cases advanced

end Electrosphere
