import Electrosphere.Domain.LifeCycle

/-!
# What belongs to a turn

A turn has one runtime and one operation for its whole life, and the calls of
other turns leave both alone.  `World.Moved` is the resulting view of a move
from a single turn: what the call in flight has done to it, or nothing.
-/

namespace Electrosphere

open Foundation

/-! ## Rows of other turns -/

/-- Instance and operation rows are the same but for those named. -/
structure Database.Apart (id : InstanceId) (key : TurnKey)
    (db next : Database) : Prop where
  instances : ∀ other, other ≠ id →
    next.instances.lookup other = db.instances.lookup other
  operations : ∀ other, other ≠ finishOperationId key →
    next.operations.lookup other = db.operations.lookup other

namespace Database.Apart

variable {id : InstanceId} {key : TurnKey} {first second third : Database}

theorem refl (db : Database) : Apart id key db db :=
  ⟨fun _ _ => rfl, fun _ _ => rfl⟩

theorem trans (left : Apart id key first second)
    (right : Apart id key second third) : Apart id key first third := by
  constructor
  · intro other different
    exact (right.instances other different).trans
      (left.instances other different)
  · intro other different
    exact (right.operations other different).trans
      (left.operations other different)

theorem of_same (instances : second.instances = first.instances)
    (operations : second.operations = first.operations) :
    Apart id key first second := by
  constructor
  · intro other _
    rw [instances]
  · intro other _
    rw [operations]

theorem updateInstance (db : Database) (update : InstanceUpdate) :
    Apart id key db (db.updateInstance id update) := by
  constructor
  · intro other different
    exact AList.lookup_modify_ne different _ _
  · intro other _
    rfl

theorem failOperation (db : Database) (error : Thrown) :
    Apart id key db (db.failOperation (finishOperationId key) error) := by
  constructor
  · intro other _
    rfl
  · intro other different
    exact AList.lookup_modify_ne different _ _

theorem succeedOperation (db : Database) (response : TurnResponse) :
    Apart id key db
      (db.succeedOperation (finishOperationId key) response) := by
  constructor
  · intro other _
    rfl
  · intro other different
    exact AList.lookup_modify_ne different _ _

theorem of_updateTurn {other : TurnKey} {update : TurnUpdate}
    (done : first.updateTurn other update = .ok second) :
    Apart id key first second := by
  rw [Database.updateTurn_frame done]
  exact of_same rfl rfl

theorem deletionStart (db : Database) :
    Apart id key db (Deletion.start db id).1 := by
  unfold Deletion.start
  split
  · exact refl db
  split
  · exact refl db
  · exact updateInstance db _

theorem deletionResume {environment : DeletionEnvironment}
    {progress later : Deletion}
    (resumed : progress.resume environment first id = some (second, later)) :
    Apart id key first second := by
  unfold Deletion.resume at resumed
  split at resumed
  · split at resumed <;> cases resumed <;> exact refl first
  · split at resumed <;> cases resumed
    · exact updateInstance first _
    · exact refl first
  · cases resumed

theorem beginHarnessOperation {kind : String} {request : OperationId}
    (begun : first.beginHarnessOperation (finishOperationId key) kind
      request = .ok second) : Apart id key first second := by
  rw [Database.beginHarnessOperation_eq_ok begun]
  constructor
  · intro other _
    rfl
  · intro other different
    dsimp only
    rw [AList.lookup_insert_if, if_neg different]

end Database.Apart

/-- A start touches its own runtime and no operation. -/
theorem StartStep.apart {deployment : Deployment} {db next : Database}
    {call : StartCall} {stage : StartStage}
    (step : StartStep deployment db call next stage) (fits : call.Fits) :
    Database.Apart call.instanceId call.input.key db next ∧
      next.operations = db.operations := by
  have own : ∀ {runtime : RuntimeInput}, call.stage.runtime = some runtime →
      runtime.instanceId = call.instanceId :=
    fun isRuntime => (fits.runtime _ isRuntime).instanceId
  have updated : ∀ (before : Database) update,
      Database.Apart call.instanceId call.input.key before
        (before.updateInstance call.instanceId update) ∧
      (before.updateInstance call.instanceId update).operations =
        before.operations :=
    fun before update => ⟨.updateInstance before update, rfl⟩
  have marked : ∀ {before later : Database} {update},
      before.updateTurn call.input.key update = .ok later →
      Database.Apart call.instanceId call.input.key before later ∧
        later.operations = before.operations := by
    intro before later update done
    refine ⟨.of_updateTurn done, ?_⟩
    unfold Database.updateTurn at done
    split at done
    · cases done
      rfl
    split at done
    · cases done
    split at done <;> cases done
    rfl
  have deleted : ∀ before : Database,
      (Deletion.start before call.instanceId).1.operations =
        before.operations := by
    intro before
    unfold Deletion.start
    split
    · rfl
    split <;> rfl
  cases step with
  | workspaceFailed | workspaceFound | probed | probeFailed | directoryMade
  | directoryFailed | materializeFailed | recordFailed | cleaned =>
      exact ⟨.refl db, rfl⟩
  | @recorded runtime _ isStage _ done =>
      obtain ⟨_, _, rfl⟩ := Database.createInstance_eq_ok.mp done
      rw [own (by rw [isStage]; rfl)]
      refine ⟨⟨fun other different => ?_, fun _ _ => rfl⟩, rfl⟩
      dsimp only
      rw [AList.lookup_insert_if, if_neg different]
  | created isStage | vanished isStage | createFailed isStage =>
      have isOwn := own (by rw [isStage]; rfl)
      first | unfold recordHandle | unfold recordCreateFailure
      rw [isOwn]
      exact updated db _
  | opened _ done => exact marked done
  | openFailed => exact ⟨.deletionStart db, deleted db⟩
  | turnVanished _ done =>
      obtain ⟨apart, same⟩ := marked done
      exact ⟨apart.trans (.deletionStart _), (deleted _).trans same⟩
  | failed _ failed =>
      unfold failStart at failed
      split at failed <;> cases failed
      case h_1 done => exact marked done
      case h_2 => exact ⟨.refl db, rfl⟩
  | deleting _ resumed =>
      refine ⟨.deletionResume resumed, ?_⟩
      unfold Deletion.resume at resumed
      split at resumed
      · split at resumed <;> cases resumed <;> rfl
      · split at resumed <;> cases resumed <;> rfl
      · cases resumed

section Finish

variable {deployment : Deployment} {db : Database} {objects : List String}
  {call : FinishCall} {id : InstanceId}

theorem abandonCommit_apart {commit : CommitInput}
    (operation : commit.operationId = finishOperationId call.key)
    (db : Database) (error : Thrown) :
    Database.Apart commit.instanceId call.key db
      (abandonCommit db commit error) := by
  have failed : Database.Apart commit.instanceId call.key db
      (db.failOperation commit.operationId error) := by
    rw [operation]
    exact .failOperation db error
  unfold abandonCommit
  dsimp only
  split
  · split
    · exact failed.trans (.updateInstance _ _)
    · exact failed
  · exact failed

theorem publish_apart {commit : CommitInput} {tree : CfsObject}
    {next : Database}
    (operation : commit.operationId = finishOperationId call.key)
    (done : db.publishTurnCommit (publishInput deployment commit tree) =
      .ok (next, true)) :
    Database.Apart commit.instanceId call.key db next := by
  obtain ⟨captured, row, inserted, _, _, _, rfl⟩ :=
    Database.publishTurnCommit_eq_ok done
  obtain ⟨_, _, _, instances, _, operations⟩ :=
    Database.insertCapture_frame inserted
  have opened : Database.Apart commit.instanceId call.key db captured :=
    .of_same instances operations
  unfold Database.recordPublication
  apply opened.trans
  have moved : Database.Apart commit.instanceId call.key captured
      { captured with
        refs := captured.refs.insert (commit.workspaceId, mainRef)
          (publishInput deployment commit tree).commitId
        turns := captured.turns.insert commit.key
          (Database.publishedRow (publishInput deployment commit tree)
            row) } := .of_same rfl rfl
  have ready : ∀ before : Database,
      Database.Apart commit.instanceId call.key before
        (before.updateInstance commit.instanceId { state := some .ready }) :=
    fun before => .updateInstance before _
  have succeeded : ∀ (before : Database) response,
      Database.Apart commit.instanceId call.key before
        (before.succeedOperation commit.operationId response) := by
    intro before response
    rw [operation]
    exact .succeedOperation before response
  exact (moved.trans (ready _)).trans (succeeded _ _)

theorem finishCapture_apart {commit : CommitInput}
    {captured : Except Thrown CfsObject}
    (operation : commit.operationId = finishOperationId call.key) :
    Database.Apart commit.instanceId call.key db
      (finishCapture deployment db objects commit captured).db := by
  cases captured with
  | error error => exact abandonCommit_apart operation db error
  | ok tree =>
      unfold finishCapture publishCapture
      dsimp only
      cases done : db.publishTurnCommit
          (publishInput deployment commit tree) with
      | error error => exact abandonCommit_apart operation db error
      | ok outcome =>
          obtain ⟨published, isMoved⟩ := outcome
          cases isMoved with
          | true => exact publish_apart operation done
          | false => exact abandonCommit_apart operation db _

theorem recordFailure_apart (db : Database) (error : Thrown) :
    Database.Apart id call.key db (recordFailure db call.key error).1 := by
  unfold recordFailure
  split
  case h_1 done => exact .of_updateTurn done
  case h_2 => exact .refl db

theorem afterDeletion_apart (db : Database) (purpose : DeletionPurpose)
    (result : Except Thrown Unit) :
    Database.Apart id call.key db
      (afterDeletion db call.key id purpose result).1 := by
  have lost : ∀ error, Database.Apart id call.key db
      (recordLost db id error) := fun error => .updateInstance db _
  cases purpose with
  | instant =>
      cases result with
      | ok =>
          unfold afterDeletion completeInstant
          dsimp only
          split
          case h_1 done => exact .of_updateTurn done
          case h_2 => exact .refl db
      | error error => exact (lost error).trans (recordFailure_apart _ _)
  | committed result' =>
      cases result with
      | ok => exact .refl db
      | error error =>
          unfold afterDeletion
          dsimp only
          split
          case h_1 done => exact (lost error).trans (.of_updateTurn done)
          case h_2 => exact lost error
  | failing cause =>
      cases result with
      | ok => exact recordFailure_apart db cause
      | error error => exact (lost error).trans (recordFailure_apart _ _)

/-- A finish touches its own runtime and its own operation. -/
theorem FinishStep.apart {segment : FinishSegment}
    (step : FinishStep deployment db objects call segment)
    (fits : call.Fits) (isOwn : call.record.instanceId = some id) :
    Database.Apart id call.key db segment.db := by
  have failed : ∀ error, Database.Apart id call.key db
      (failTurn db call error).1 := by
    intro error
    unfold failTurn
    rw [isOwn]
    exact .deletionStart db
  have captured : ∀ {commit objects captured},
      call.stage.commit = some commit →
      Database.Apart id call.key db
        (finishCapture deployment db objects commit captured).db := by
    intro commit objects captured isCommit
    have known := fits.commit commit isCommit
    have same := known.runtime
    rw [isOwn] at same
    cases same
    exact finishCapture_apart known.operation
  have own : ∀ {other}, call.record.instanceId = some other → other = id := by
    intro other isOther
    rw [isOwn] at isOther
    cases isOther
    rfl
  cases step with
  | noRuntime | sessionsFailed | commitFailed => exact failed _
  | closing | sessionsStuck | snapshotTaken | guestCaptured =>
      exact .refl db
  | sessionsEnded _ isOther =>
      cases own isOther
      show Database.Apart id call.key db (readyAfterSessions db id)
      unfold readyAfterSessions
      split
      · split
        · exact .updateInstance db _
        · exact .refl db
      · exact .refl db
  | proceed _ isOther =>
      cases own isOther
      show Database.Apart id call.key db (finishRuntime db call id).1
      unfold finishRuntime
      split
      · exact .deletionStart db
      · unfold startCommit
        split
        case h_1 begun =>
          unfold beginCommit at begun
          repeat' split at begun
          all_goals try cases begun
          case h_2 started =>
            exact .trans (.beginHarnessOperation started)
              (.updateInstance _ _)
        case h_2 => exact .refl db
      · exact failed _
  | snapshotFailed isStage | snapshotRemoved isStage | snapshotKept isStage
  | hostCaptured isStage =>
      exact captured (by rw [isStage]; rfl)
  | cleaning _ isOther | deleted _ isOther =>
      cases own isOther
      first
      | exact .deletionStart db
      | exact afterDeletion_apart db _ _
  | deleting _ isOther resumed =>
      cases own isOther
      exact .deletionResume resumed

end Finish

/-! ## The runtime of a turn -/

namespace World

variable {deployment : Deployment} {world after : World}

/-- The runtime of a turn is that of its start, or the one in its row. -/
def runtimeId (world : World) (key : TurnKey) : Option InstanceId :=
  ((world.starts.lookup key).map StartCall.instanceId).or
    ((world.db.turns.lookup key).bind TurnRow.instanceId)

/-- Rows, finishes and leases name the runtime of their turn, and no two
turns share one. -/
structure Owned (world : World) : Prop where
  rows : ∀ key row id, world.db.turns.lookup key = some row →
    row.instanceId = some id → world.runtimeId key = some id
  finishes : ∀ key call id, world.finishes.lookup key = some call →
    call.record.instanceId = some id → world.runtimeId key = some id
  leases : ∀ lease turn, world.activeLeases.lookup lease = some turn →
    world.runtimeId turn.key = some turn.instanceId
  fresh : ∀ key id, world.runtimeId key = some id → id < world.nextUuid
  disjoint : ∀ key other id, world.runtimeId key = some id →
    world.runtimeId other = some id → other = key

theorem runtimeId_of_start {key : TurnKey} {call : StartCall}
    (found : world.starts.lookup key = some call) :
    world.runtimeId key = some call.instanceId := by
  unfold runtimeId
  rw [found]
  rfl

namespace Owned

theorem empty : World.empty.Owned := by
  refine ⟨?_, ?_, ?_, ?_, ?_⟩ <;>
    simp [World.empty, Database.empty, runtimeId]

/-- A step after which every turn has the runtime it had. -/
theorem frame (owned : world.Owned)
    (same : ∀ key, after.runtimeId key = world.runtimeId key)
    (rows : ∀ key row id, after.db.turns.lookup key = some row →
      row.instanceId = some id → world.runtimeId key = some id)
    (finishes : ∀ key call id, after.finishes.lookup key = some call →
      call.record.instanceId = some id → world.runtimeId key = some id)
    (leases : ∀ lease turn, after.activeLeases.lookup lease = some turn →
      world.runtimeId turn.key = some turn.instanceId)
    (later : world.nextUuid ≤ after.nextUuid) : after.Owned := by
  constructor
  · intro key row id found isOwn
    rw [same]
    exact rows key row id found isOwn
  · intro key call id found isOwn
    rw [same]
    exact finishes key call id found isOwn
  · intro lease turn active
    rw [same]
    exact leases lease turn active
  · intro key id isOwn
    rw [same] at isOwn
    exact (owned.fresh key id isOwn).trans_le later
  · intro key other id isOwn isOther
    rw [same] at isOwn isOther
    exact owned.disjoint key other id isOwn isOther

/-- A step that changes neither rows nor starts. -/
theorem same (owned : world.Owned)
    (turns : after.db.turns = world.db.turns)
    (starts : after.starts = world.starts)
    (finishes : ∀ key call id, after.finishes.lookup key = some call →
      call.record.instanceId = some id → world.runtimeId key = some id)
    (leases : ∀ lease turn, after.activeLeases.lookup lease = some turn →
      world.runtimeId turn.key = some turn.instanceId)
    (later : world.nextUuid ≤ after.nextUuid) : after.Owned := by
  apply owned.frame _ _ finishes leases later
  · intro key
    unfold runtimeId
    rw [turns, starts]
  · rw [turns]
    exact owned.rows

/-- A step that keeps the runtime in every row. -/
theorem keepRows (owned : world.Owned)
    (turns : ∀ key, (after.db.turns.lookup key).bind TurnRow.instanceId =
      (world.db.turns.lookup key).bind TurnRow.instanceId)
    (starts : after.starts = world.starts)
    (finishes : ∀ key call id, after.finishes.lookup key = some call →
      call.record.instanceId = some id → world.runtimeId key = some id)
    (leases : after.activeLeases = world.activeLeases)
    (later : world.nextUuid ≤ after.nextUuid) : after.Owned := by
  apply owned.frame _ _ finishes _ later
  · intro key
    unfold runtimeId
    rw [turns, starts]
  · intro key row id found isOwn
    have before := turns key
    rw [found, Option.bind_some, isOwn] at before
    obtain ⟨earlier, isEarlier, wasOwn⟩ :=
      Option.bind_eq_some_iff.mp before.symm
    exact owned.rows key earlier id isEarlier wasOwn
  · rw [leases]
    exact owned.leases

theorem beginStart (owned : world.Owned) (orderly : world.Orderly)
    {input : StartTurnInput} {created : Database}
    (done : world.db.createTurn input.key input.startingRow = .ok created)
    (environment : StartEnvironment) :
    (world.beginStart created input environment).Owned := by
  obtain ⟨absent, _, _, rfl⟩ := Database.createTurn_eq_ok done
  unfold World.beginStart
  dsimp only
  generalize began : startCreated world.emptyCommit _ input
    world.nextUuid (world.nextUuid + 1) = outcome
  obtain ⟨next, stage⟩ := outcome
  dsimp only
  have phase := orderly.phased input.key
  have noCalls := phase.absent absent
  have nothing : world.runtimeId input.key = none := by
    unfold runtimeId
    rw [noCalls.1, absent]
    rfl
  have elsewhere : ∀ key, key ≠ input.key →
      next.turns.lookup key = world.db.turns.lookup key := by
    intro key different
    rcases startCreated_turns began with ⟨_, failed⟩ | ⟨same, _⟩
    · rw [(failStart_lookup failed).2.1 key different]
      dsimp only
      rw [AList.lookup_insert_if, if_neg different]
    · rw [same]
      dsimp only
      rw [AList.lookup_insert_if, if_neg different]
  have own : ∀ row, next.turns.lookup input.key = some row →
      ∀ id, row.instanceId = some id → id = world.nextUuid := by
    intro row found id isOwn
    have isStarting : ({ world.db with
        turns := world.db.turns.insert input.key
          input.startingRow } : Database).turns.lookup input.key =
        some input.startingRow := AList.lookup_insert _
    rcases startCreated_turns began with ⟨error, failed⟩ | ⟨same, _⟩
    · obtain ⟨_, _, kept | stopped⟩ := failStart_lookup failed
      · rw [kept, isStarting] at found
        cases found
        cases isOwn
      · rw [stopped, isStarting] at found
        cases found
        exact (Option.some.inj isOwn).symm
    · rw [same, isStarting] at found
      cases found
      cases isOwn
  have runtimes : ∀ key, World.runtimeId { world with
      db := next
      starts := world.starts.insert input.key
        { input, instanceId := world.nextUuid, environment, stage }
      nextUuid := world.nextUuid + 2 } key =
      if key = input.key then some world.nextUuid
      else world.runtimeId key := by
    intro key
    unfold runtimeId
    dsimp only
    rw [AList.lookup_insert_if]
    split
    · rfl
    · rw [elsewhere key ‹_›]
  constructor
  · intro key row id found isOwn
    refine (runtimes key).trans ?_
    split
    case isTrue same =>
      rw [own row (same ▸ found) id isOwn]
    case isFalse different =>
      exact owned.rows key row id ((elsewhere key different) ▸ found) isOwn
  · intro key call id found isOwn
    refine (runtimes key).trans ?_
    split
    case isTrue same =>
      dsimp only at found
      rw [same, noCalls.2] at found
      cases found
    case isFalse => exact owned.finishes key call id found isOwn
  · intro lease turn active
    refine (runtimes turn.key).trans ?_
    have before := owned.leases lease turn active
    split
    case isTrue same =>
      rw [same, nothing] at before
      cases before
    case isFalse => exact before
  · intro key id isOwn
    have before := (runtimes key).symm.trans isOwn
    split at before
    · cases before
      exact Nat.lt_add_of_pos_right (by decide)
    · exact (owned.fresh key id before).trans_le (Nat.le_add_right _ 2)
  · intro key other id isOwn isOther
    have left := (runtimes key).symm.trans isOwn
    have right := (runtimes other).symm.trans isOther
    split at left <;> split at right
    case isTrue.isTrue isKey isOther => rw [isKey, isOther]
    case isTrue.isFalse =>
      cases left
      exact (Nat.lt_irrefl _ (owned.fresh other _ right)).elim
    case isFalse.isTrue =>
      cases right
      exact (Nat.lt_irrefl _ (owned.fresh key _ left)).elim
    case isFalse.isFalse =>
      exact owned.disjoint key other id left right

theorem advanceStart (owned : world.Owned) (orderly : world.Orderly)
    {call : StartCall} {next : Database} {stage : StartStage}
    (found : world.starts.lookup call.input.key = some call)
    (step : StartStep deployment world.db call next stage) :
    World.Owned { world with
      db := next
      starts := world.starts.insert call.input.key { call with stage } } := by
  have phase := orderly.phased call.input.key
  rw [found] at phase
  have isStarting := phase.starting call rfl step.unsettled
  have fits := (phase.starts call rfl).2
  have isOwn := runtimeId_of_start found
  have elsewhere := fun key (different : key ≠ call.input.key) =>
    step.other_turns isStarting fits different
  refine owned.frame ?_ ?_ owned.finishes owned.leases le_rfl
  · intro key
    by_cases same : key = call.input.key
    · subst same
      rw [isOwn]
      unfold runtimeId
      dsimp only
      rw [AList.lookup_insert]
      rfl
    · unfold runtimeId
      dsimp only
      rw [AList.lookup_insert_if, if_neg same, elsewhere key same]
  · intro key row id isRow isRuntime
    by_cases same : key = call.input.key
    · subst same
      rw [isOwn]
      rcases step.turn isStarting fits with
        ⟨unchanged, _⟩ | ⟨runtime, isStage, _, written, _⟩ |
          ⟨error, _, failed⟩
      · dsimp only at isRow
        rw [unchanged, isStarting] at isRow
        cases isRow
        cases isRuntime
      · cases isRow.symm.trans written
        have known := (fits.runtime runtime (by rw [isStage]; rfl)).instanceId
        unfold openUpdate at isRuntime
        split at isRuntime <;> cases isRuntime <;> rw [known]
      · obtain ⟨_, _, kept | stopped⟩ := failStart_lookup failed
        · dsimp only at isRow
          rw [kept, isStarting] at isRow
          cases isRow
          cases isRuntime
        · dsimp only at isRow
          rw [stopped, isStarting] at isRow
          cases isRow
          exact isRuntime
    · dsimp only at isRow
      rw [elsewhere key same] at isRow
      exact owned.rows key row id isRow isRuntime

/-- No change of a finish moves a turn to another runtime. -/
theorem finishOutcome_runtime (fits : FinishCall.Fits call)
    {db : Database} {segment : FinishSegment}
    (outcome : FinishOutcome deployment db call segment) (key : TurnKey) :
    (segment.db.turns.lookup key).bind TurnRow.instanceId =
      (db.turns.lookup key).bind TurnRow.instanceId := by
  have inserted : ∀ {table : Table TurnKey TurnRow} {row later : TurnRow},
      table.lookup call.key = some row → later.instanceId = row.instanceId →
      ((table.insert call.key later).lookup key).bind TurnRow.instanceId =
        (table.lookup key).bind TurnRow.instanceId := by
    intro table row later found same
    rw [AList.lookup_insert_if]
    split
    case isTrue isKey =>
      rw [isKey, found]
      exact same
    case isFalse => rfl
  cases outcome with
  | runs unchanged => rw [unchanged.turns]
  | publishes isCommit done =>
      obtain ⟨row, isRow, _, turns⟩ := publish_turns done
      rw [(fits.commit _ isCommit).key] at isRow
      rw [turns, (fits.commit _ isCommit).key]
      exact inserted isRow rfl
  | fails _ unchanged isRow isDb | notes _ unchanged isRow isDb =>
      rw [isDb]
      dsimp only
      rw [unchanged.turns]
      exact inserted isRow rfl
  | completes _ isRow _ isDb =>
      rw [isDb]
      exact inserted isRow rfl
  | returns _ isDb => rw [isDb]

theorem marksFailed_runtime {db next : Database}
    (marks : db.MarksFailed next) (key : TurnKey) :
    (next.turns.lookup key).bind TurnRow.instanceId =
      (db.turns.lookup key).bind TurnRow.instanceId := by
  rcases marks.turns key with same | ⟨row, error, found, _, written⟩
  · rw [same]
  · rw [found, written]
    rfl

theorem boot {destroy : InstanceId → Except Thrown Unit}
    (owned : world.Owned)
    (booted : world.boot deployment destroy = some after) :
    after.Owned := by
  have rows := boot_row booted
  obtain ⟨_, next, _, _, rfl⟩ := boot_eq booted
  have before : ∀ key row id, next.turns.lookup key = some row →
      row.instanceId = some id → world.runtimeId key = some id := by
    intro key row id found isOwn
    rcases rows key with same | ⟨earlier, _, isEarlier, _, written⟩
    · exact owned.rows key row id (same ▸ found) isOwn
    · cases found.symm.trans written
      exact owned.rows key earlier id isEarlier isOwn
  have runtimes : ∀ key id, World.runtimeId { world.restart with
      db := next
      objects := deployment.emptyTree.path :: world.objects
      emptyCommit := some deployment.emptyCommit } key = some id →
      world.runtimeId key = some id := by
    intro key id isOwn
    obtain ⟨row, found, isRuntime⟩ := Option.bind_eq_some_iff.mp isOwn
    exact before key row id found isRuntime
  constructor
  · intro key row id found isOwn
    unfold runtimeId
    rw [found]
    exact isOwn
  · intro key call id found
    cases found
  · intro lease turn active
    cases active
  · intro key id isOwn
    exact owned.fresh key id (runtimes key id isOwn)
  · intro key other id isOwn isOther
    exact owned.disjoint key other id (runtimes key id isOwn)
      (runtimes other id isOther)

theorem callMove (owned : world.Owned) (orderly : world.Orderly)
    (move : CallMove deployment world after) : after.Owned := by
  have replaced : ∀ {call : FinishCall} {later : FinishCall},
      world.finishes.lookup call.key = some call →
      later.record = call.record → ∀ key found id,
      (world.finishes.insert call.key later).lookup key = some found →
      found.record.instanceId = some id →
        world.runtimeId key = some id := by
    intro call later isCall sameRecord key found id isFound isOwn
    rw [AList.lookup_insert_if] at isFound
    split at isFound
    case isTrue same =>
      cases isFound
      rw [sameRecord] at isOwn
      exact same ▸ owned.finishes call.key call id isCall isOwn
    case isFalse => exact owned.finishes key found id isFound isOwn
  cases move with
  | beginStart environment _ _ done =>
      exact owned.beginStart orderly done environment
  | advanceStart found step => exact owned.advanceStart orderly found step
  | @forgetStart call found settled =>
      refine owned.frame ?_ owned.rows owned.finishes owned.leases le_rfl
      intro key
      unfold runtimeId
      dsimp only
      rw [AList.lookup_insert_if]
      split
      case isTrue same =>
        rw [same, found]
        rfl
      case isFalse => rfl
  | @grant key turn isBound =>
      refine owned.same rfl rfl owned.finishes ?_ (Nat.le_succ _)
      intro lease other active
      unfold World.grant at active
      dsimp only at active
      rw [AList.lookup_insert_if] at active
      split at active
      case isTrue =>
        cases active
        unfold resolve Database.getTurn at isBound
        split at isBound
        case h_1 => cases isBound
        case h_2 row found =>
        unfold Electrosphere.bound at isBound
        split at isBound
        case h_2 => cases isBound
        case h_1 id _ isRuntime =>
        split at isBound <;> cases isBound
        exact owned.rows _ row id found isRuntime
      case isFalse => exact owned.leases lease other active
  | release released =>
      obtain ⟨db, _, _, _, starts, finishes, _, uuids, _⟩ :=
        release_leasesOnly released
      refine owned.same (by rw [db]) starts ?_ ?_ uuids.ge
      · intro key call id found isOwn
        rcases finishes with same | ⟨other, woken⟩
        · rw [same] at found
          exact owned.finishes key call id found isOwn
        · rw [woken] at found
          unfold World.wake at found
          rw [AList.lookup_modify_if] at found
          split at found
          case isFalse => exact owned.finishes key call id found isOwn
          case isTrue =>
            obtain ⟨before, isBefore, rfl⟩ := Option.map_eq_some_iff.mp found
            apply owned.finishes key before id isBefore
            rw [← isOwn]
            split <;> rfl
      · intro lease turn active
        exact owned.leases lease turn (release_activeLeases released active)
  | @beginFinish key row environment found isOpened =>
      refine owned.keepRows ?_ rfl ?_ rfl le_rfl
      · intro other
        unfold World.beginFinish
        dsimp only
        rw [AList.lookup_insert_if]
        split
        case isTrue same =>
          rw [same, found]
          rfl
        case isFalse => rfl
      · intro other call id isCall isOwn
        unfold World.beginFinish at isCall
        dsimp only at isCall
        rw [AList.lookup_insert_if] at isCall
        split at isCall
        case isTrue same =>
          cases isCall
          exact same ▸ owned.rows key row id found isOwn
        case isFalse => exact owned.finishes other call id isCall isOwn
  | advanceFinish found fits _ outcome =>
      exact owned.keepRows (finishOutcome_runtime fits outcome) rfl
        (replaced found rfl) rfl le_rfl
  | forgetFinish found =>
      exact owned.same rfl rfl (replaced found rfl) owned.leases le_rfl
  | fork done =>
      obtain ⟨_, _, _, _, rfl⟩ := Database.insertThreadWorkspace_eq_ok done
      exact owned.same rfl rfl owned.finishes owned.leases (Nat.le_succ _)
  | mark marked =>
      obtain ⟨_, _, rfl⟩ := markInstance_eq marked
      exact owned.same rfl rfl owned.finishes owned.leases le_rfl
  | force _ _ _ _ marks =>
      exact owned.keepRows (marksFailed_runtime marks) rfl owned.finishes rfl
        le_rfl
  | closing =>
      exact owned.same rfl rfl owned.finishes owned.leases le_rfl

end Owned

end World

theorem Served.owned {deployment : Deployment} {world : World}
    (served : Served deployment world) : world.Owned := by
  apply served.invariant World.Owned.empty
  intro before after _ orderly owned move
  cases move with
  | call move => exact owned.callMove orderly move
  | boot booted => exact owned.boot booted

end Electrosphere
