import Electrosphere.Domain.LeaseExclusion
import Electrosphere.Domain.Ownership
import Electrosphere.Domain.RecoveryEffect
import Electrosphere.Domain.StartFailure

/-!
# The daemon seen from one turn

`World.sight` is all that the daemon holds about a turn: its row, its calls,
its runtime and its operation.  A move either changes nothing of it or is a
`SightMove`, so a property of one turn is proved by cases on those and holds
of every turn of every served world.
-/

namespace Electrosphere

open Foundation

structure Sight where
  row : Option TurnRow
  start : Option StartCall
  finish : Option FinishCall
  runtime : Option InstanceRow
  operation : Option OperationRow

namespace World

def sight (world : World) (key : TurnKey) : Sight :=
  { row := world.db.turns.lookup key
    start := world.starts.lookup key
    finish := world.finishes.lookup key
    runtime := (world.runtimeId key).bind world.db.getInstance
    operation := world.db.operations.lookup (finishOperationId key) }

/-- What every move of a serving daemon keeps. -/
structure Known (deployment : Deployment) (world : World) : Prop where
  provisioned : Provisioned deployment world
  orderly : world.Orderly
  leased : world.Leased
  lineage : world.Lineage deployment
  earnest : world.Earnest deployment
  owned : world.Owned

/-- What a move does to the sight of a turn. -/
inductive SightMove (deployment : Deployment) (world : World)
    (key : TurnKey) : Sight → Prop where
  | began {input : StartTurnInput} (environment : StartEnvironment)
      {created next : Database} {stage : StartStage} :
      key = input.key → world.closing = false →
      world.db.createTurn key input.startingRow = .ok created →
      startCreated world.emptyCommit created input world.nextUuid
        (world.nextUuid + 1) = (next, stage) →
      next.turns.lookup key = some input.startingRow →
      stage.isSettled = false →
      SightMove deployment world key
        { row := some input.startingRow
          start := some
            { input, instanceId := world.nextUuid, environment, stage }
          finish := none
          runtime := none
          operation := (world.sight key).operation }
  | start {call : StartCall} {next : Database} {stage : StartStage} :
      world.starts.lookup key = some call → call.input.key = key →
      StartStep deployment world.db call next stage →
      SightMove deployment world key
        { row := next.turns.lookup key
          start := some { call with stage }
          finish := (world.sight key).finish
          runtime := next.getInstance call.instanceId
          operation := (world.sight key).operation }
  | forgetStart {call : StartCall} :
      world.starts.lookup key = some call → call.stage.isSettled = true →
      SightMove deployment world key
        { world.sight key with start := some { call with listed := false } }
  | beginFinish {row : TurnRow} (environment : FinishEnvironment) :
      world.db.turns.lookup key = some row → row.state = .opened →
      SightMove deployment world key
        { world.sight key with
          row := some { row with state := .finishing }
          finish := some
            { key
              record := { row with state := .finishing }
              environment
              stage := if world.leaseCount key = 0 then .drained
                else .waiting } }
  | finish {call : FinishCall} {segment : FinishSegment}
      {id : InstanceId} :
      world.finishes.lookup key = some call → call.key = key → call.Fits →
      call.record.instanceId = some id → world.runtimeId key = some id →
      FinishStep deployment world.db world.objects call segment →
      FinishOutcome deployment world.db call segment →
      SightMove deployment world key
        { row := segment.db.turns.lookup key
          start := (world.sight key).start
          finish := some { call with stage := segment.stage }
          runtime := segment.db.getInstance id
          operation :=
            segment.db.operations.lookup (finishOperationId key) }
  | forgetFinish {call : FinishCall} :
      world.finishes.lookup key = some call → call.stage.isSettled = true →
      SightMove deployment world key
        { world.sight key with
          finish := some { call with listed := false } }
  | woken {call : FinishCall} :
      world.finishes.lookup key = some call → call.stage = .waiting →
      SightMove deployment world key
        { world.sight key with
          finish := some { call with stage := .drained } }
  | marked {lease : LeaseId} {turn : BoundTurn} (running : Bool) :
      world.activeLeases.lookup lease = some turn → turn.key = key →
      SightMove deployment world key
        { world.sight key with
          runtime := (world.sight key).runtime.map
            ({ state := some (if running then .running else .ready) } :
              InstanceUpdate).apply }
  | forced {row : TurnRow} {error : ServiceError} :
      world.db.turns.lookup key = some row → row.state.active = true →
      ¬ world.Opened key → ¬ world.Starting key → ¬ world.Finishing key →
      SightMove deployment world key
        { world.sight key with
          row := some { row with
            state := .failed, errorJson := some error } }

/-- What a boot leaves of a turn. -/
structure Rebooted (before after : Sight) : Prop where
  start : after.start = none
  finish : after.finish = none
  row : (after.row = before.row ∧
      ∀ row, after.row = some row → row.state.active = false) ∨
    ∃ row error, before.row = some row ∧ row.state.active = true ∧
      after.row = some { row with
        state := .failed, errorJson := some error }
  runtime : ∀ row, after.runtime = some row → row.state.dead = true
  operation : after.operation = before.operation.filter fun row =>
    decide (row.status ≠ .running)

section Sighting

variable {deployment : Deployment} {world after : World}

theorem boot_sight {destroy : InstanceId → Except Thrown Unit}
    (booted : world.boot deployment destroy = some after) (key : TurnKey) :
    Rebooted (world.sight key) (after.sight key) := by
  have rows := boot_row booted key
  obtain ⟨seeded, next, done, isNext, rfl⟩ := boot_eq booted
  obtain ⟨_, _, _, _, sameTurns, sameOperations⟩ :=
    Database.putCapture_frame done
  obtain ⟨dead, operations⟩ := recover_rows isNext
  obtain ⟨_, _, _, inactive⟩ := recover_eq isNext
  refine ⟨rfl, rfl, ?_, ?_, ?_⟩
  · rcases rows with same | ⟨row, error, found, active, written⟩
    · exact .inl ⟨same, fun row found => inactive key row found⟩
    · exact .inr ⟨row, error, found, active, written⟩
  · intro row found
    obtain ⟨id, _, isRow⟩ := Option.bind_eq_some_iff.mp found
    exact dead id row isRow
  · unfold sight
    dsimp only
    rw [operations, sameOperations]

/-- Rows, runtime and operation of a turn are the same. -/
theorem sight_same {key : TurnKey}
    (turns : after.db.turns.lookup key = world.db.turns.lookup key)
    (starts : after.starts.lookup key = world.starts.lookup key)
    (finishes : after.finishes.lookup key = world.finishes.lookup key)
    (instances : ∀ id, world.runtimeId key = some id →
      after.db.instances.lookup id = world.db.instances.lookup id)
    (operations : after.db.operations.lookup (finishOperationId key) =
      world.db.operations.lookup (finishOperationId key)) :
    after.sight key = world.sight key := by
  have runtimes : after.runtimeId key = world.runtimeId key := by
    unfold runtimeId
    rw [turns, starts]
  unfold sight
  rw [turns, starts, finishes, operations, runtimes]
  congr 1
  cases isOwn : world.runtimeId key with
  | none => rfl
  | some id => exact instances id isOwn

theorem finishOperationId_injective {left right : TurnKey}
    (same : finishOperationId left = finishOperationId right) :
    left = right := by
  unfold finishOperationId at same
  cases left
  cases right
  simp_all

/-- A step that touches one turn alone. -/
theorem sight_elsewhere (owned : world.Owned) {key other : TurnKey}
    (different : key ≠ other) {id : InstanceId}
    (isOwn : world.runtimeId other = some id)
    (apart : Database.Apart id other world.db after.db)
    (turns : after.db.turns.lookup key = world.db.turns.lookup key)
    (starts : after.starts.lookup key = world.starts.lookup key)
    (finishes : after.finishes.lookup key = world.finishes.lookup key) :
    after.sight key = world.sight key := by
  refine sight_same turns starts finishes ?_ ?_
  · intro own isRuntime
    apply apart.instances
    rintro rfl
    exact different (owned.disjoint other key own isOwn isRuntime)
  · apply apart.operations
    intro same
    exact different (finishOperationId_injective same)

/-- Rows that a start leaves alone before its first await. -/
theorem startCreated_frame {canonicalEmpty : Option Digest}
    {db next : Database} {input : StartTurnInput} {id : InstanceId}
    {fresh : WorkspaceId} {stage : StartStage}
    (began : startCreated canonicalEmpty db input id fresh = (next, stage))
    (unsettled : stage.isSettled = false) :
    next.turns = db.turns ∧ next.instances = db.instances ∧
      next.operations = db.operations := by
  unfold startCreated at began
  split at began
  case h_1 =>
    split at began
    case h_1 =>
      obtain ⟨⟨_, rfl⟩, _⟩ := failStart_lookup began
      cases unsettled
    case h_2 =>
      cases began
      exact ⟨rfl, rfl, rfl⟩
  case h_2 =>
    generalize ensured : ensureThreadWorkspace canonicalEmpty db
      input.threadId fresh = outcome at began
    obtain ⟨later, result⟩ := outcome
    cases began
    rcases ensureThreadWorkspace_eq ensured with ⟨rfl, _⟩ | ⟨_, _, done, _⟩
    · exact ⟨rfl, rfl, rfl⟩
    · obtain ⟨_, _, _, _, rfl⟩ := Database.insertThreadWorkspace_eq_ok done
      exact ⟨rfl, rfl, rfl⟩

/-- Replacing the finish of one turn. -/
theorem sight_finish {key : TurnKey} (call : FinishCall) (other : TurnKey) :
    World.sight { world with
      finishes := world.finishes.insert key call } other =
      if other = key then
        { world.sight other with finish := some call }
      else world.sight other := by
  unfold sight runtimeId
  dsimp only
  rw [AList.lookup_insert_if]
  split <;> rfl

/-- Replacing the start of one turn by one with the same runtime. -/
theorem sight_start {key : TurnKey} {call : StartCall} (later : StartCall)
    (found : world.starts.lookup key = some call)
    (same : later.instanceId = call.instanceId) (other : TurnKey) :
    World.sight { world with
      starts := world.starts.insert key later } other =
      if other = key then
        { world.sight other with start := some later }
      else world.sight other := by
  unfold sight runtimeId
  dsimp only
  rw [AList.lookup_insert_if]
  split
  case isTrue isKey =>
    rw [isKey, found]
    dsimp only [Option.map_some, Option.some_or, Option.bind_some]
    rw [same]
  case isFalse => rfl

theorem beginStart_sight (known : world.Known deployment)
    {input : StartTurnInput} {created : Database}
    (serving : world.closing = false)
    (done : world.db.createTurn input.key input.startingRow = .ok created)
    (environment : StartEnvironment) (key : TurnKey) :
    (world.beginStart created input environment).sight key =
        world.sight key ∨
      SightMove deployment world key
        ((world.beginStart created input environment).sight key) := by
  generalize began : startCreated world.emptyCommit created input
    world.nextUuid (world.nextUuid + 1) = outcome
  obtain ⟨next, stage⟩ := outcome
  obtain ⟨absent, _, _, isCreated⟩ := Database.createTurn_eq_ok done
  obtain ⟨_, _, _, _, unsettled, _⟩ :=
    known.earnest.began known.provisioned done began
  obtain ⟨turns, instances, operations⟩ :=
    startCreated_frame began unsettled
  have noCalls := (known.orderly.phased input.key).absent absent
  have isNext : (world.beginStart created input environment).sight key =
      { row := next.turns.lookup key
        start := (world.starts.insert input.key
          { input, instanceId := world.nextUuid, environment,
            stage }).lookup key
        finish := world.finishes.lookup key
        runtime := (World.runtimeId { world with
          db := next
          starts := world.starts.insert input.key
            { input, instanceId := world.nextUuid, environment,
              stage } } key).bind next.getInstance
        operation := next.operations.lookup (finishOperationId key) } := by
    unfold World.beginStart
    dsimp only
    rw [began]
    rfl
  by_cases same : key = input.key
  · right
    subst same
    have written : next.turns.lookup input.key =
        some input.startingRow := by
      rw [turns, isCreated]
      exact AList.lookup_insert _
    have noRuntime : next.getInstance world.nextUuid = none := by
      have absent := known.earnest.instances world.nextUuid le_rfl
      unfold Database.getInstance
      rw [instances, isCreated]
      simpa [Database.hasInstance] using absent
    have after : SightMove deployment world input.key _ :=
      .began environment rfl serving done began written unsettled
    rw [isNext, written, noCalls.2, AList.lookup_insert]
    unfold World.runtimeId
    dsimp only
    rw [AList.lookup_insert]
    dsimp only [Option.map_some, Option.some_or, Option.bind_some]
    rw [noRuntime, operations, isCreated]
    exact after
  · left
    refine Eq.trans ?_ (@sight_same world
      (world.beginStart created input environment) key ?_ ?_ ?_ ?_ ?_)
    · rfl
    · unfold World.beginStart
      dsimp only
      rw [began, turns, isCreated]
      dsimp only
      rw [AList.lookup_insert_if, if_neg same]
    · unfold World.beginStart
      dsimp only
      rw [AList.lookup_insert_if, if_neg same]
    · rfl
    · intro id _
      unfold World.beginStart
      dsimp only
      rw [began, instances, isCreated]
    · unfold World.beginStart
      dsimp only
      rw [began, operations, isCreated]

/-- A start that goes on is seen by its own turn alone. -/
theorem advanceStart_sight (known : world.Known deployment) {call : StartCall}
    {next : Database} {stage : StartStage}
    (found : world.starts.lookup call.input.key = some call)
    (step : StartStep deployment world.db call next stage)
    (isAfter : after = { world with
      db := next
      starts := world.starts.insert call.input.key { call with stage } })
    (key : TurnKey) :
    after.sight key = world.sight key ∨
      SightMove deployment world key (after.sight key) := by
  subst isAfter
  have phase := known.orderly.phased call.input.key
  rw [found] at phase
  have isStarting := phase.starting call rfl step.unsettled
  have fits := (phase.starts call rfl).2
  obtain ⟨apart, operations⟩ := step.apart fits
  by_cases same : key = call.input.key
  · right
    subst same
    have moved := SightMove.start found rfl step
    unfold World.sight World.runtimeId at moved ⊢
    dsimp only at moved ⊢
    rw [AList.lookup_insert, operations]
    exact moved
  · left
    refine sight_elsewhere known.owned same (runtimeId_of_start found) apart
      (step.other_turns isStarting fits same) ?_ rfl
    dsimp only
    rw [AList.lookup_insert_if, if_neg same]

/-- A released lease can wake the finish of its turn. -/
theorem release_sight {id : LeaseId} (released : world.release id = some after)
    (key : TurnKey) :
    after.sight key = world.sight key ∨
      SightMove deployment world key (after.sight key) := by
  obtain ⟨db, _, _, _, starts, finishes, _, _, _⟩ :=
    release_leasesOnly released
  rcases finishes with same | ⟨other, woken⟩
  · left
    exact sight_same (by rw [db]) (by rw [starts]) (by rw [same])
      (fun _ _ => by rw [db]) (by rw [db])
  · have kept : ∀ stage, after.finishes.lookup key = stage →
        after.sight key = { world.sight key with finish := stage } := by
      intro stage isStage
      unfold World.sight World.runtimeId
      rw [db, starts, isStage]
    rw [kept _ rfl, woken]
    unfold World.wake
    rw [AList.lookup_modify_if]
    split
    case isFalse => exact .inl rfl
    case isTrue isKey =>
      cases found : world.finishes.lookup key with
      | none =>
          left
          unfold World.sight
          rw [found]
          rfl
      | some call =>
          rw [Option.map_some]
          split
          case h_1 isWaiting => exact .inr (.woken found isWaiting)
          case h_2 =>
            left
            unfold World.sight
            rw [found]

/-- A finish begins in its own turn alone. -/
theorem beginFinish_sight {other : TurnKey} {row : TurnRow}
    (environment : FinishEnvironment)
    (found : world.db.turns.lookup other = some row)
    (isOpened : row.state = .opened)
    (isAfter : after = world.beginFinish { world.db with
      turns := world.db.turns.insert other { row with state := .finishing } }
      other row environment)
    (key : TurnKey) :
    after.sight key = world.sight key ∨
      SightMove deployment world key (after.sight key) := by
  subst isAfter
  by_cases same : key = other
  · right
    subst same
    have moved : SightMove deployment world key _ :=
      .beginFinish environment found isOpened
    unfold World.beginFinish World.sight World.runtimeId at *
    dsimp only at *
    rw [AList.lookup_insert, AList.lookup_insert]
    rw [found] at moved
    exact moved
  · left
    refine sight_same ?_ rfl ?_ (fun _ _ => rfl) rfl
    · unfold World.beginFinish
      dsimp only
      rw [AList.lookup_insert_if, if_neg same]
    · unfold World.beginFinish
      dsimp only
      rw [AList.lookup_insert_if, if_neg same]

/-- A finish that goes on is seen by its own turn alone. -/
theorem advanceFinish_sight (known : world.Known deployment)
    {call : FinishCall} {segment : FinishSegment}
    (found : world.finishes.lookup call.key = some call) (fits : call.Fits)
    (step : FinishStep deployment world.db world.objects call segment)
    (outcome : FinishOutcome deployment world.db call segment)
    (isAfter : after = { world with
      db := segment.db
      objects := segment.objects
      finishes := world.finishes.insert call.key
        { call with stage := segment.stage }
      history := { world.history with
        publications := segment.publication.toList ++
          world.history.publications } })
    (key : TurnKey) :
    after.sight key = world.sight key ∨
      SightMove deployment world key (after.sight key) := by
  subst isAfter
  obtain ⟨id, isOwn⟩ := fits.complete.runtime
  have isRuntime := known.owned.finishes call.key call id found isOwn
  have apart := step.apart fits isOwn
  by_cases same : key = call.key
  · right
    subst same
    have moved := SightMove.finish found rfl fits isOwn isRuntime step
      outcome
    have later : World.runtimeId { world with
        db := segment.db
        objects := segment.objects
        finishes := world.finishes.insert call.key
          { call with stage := segment.stage }
        history := { world.history with
          publications := segment.publication.toList ++
            world.history.publications } } call.key = some id := by
      rw [← isRuntime]
      unfold World.runtimeId
      rw [Owned.finishOutcome_runtime fits outcome]
    unfold World.sight at moved ⊢
    rw [later]
    dsimp only at moved ⊢
    rw [AList.lookup_insert]
    exact moved
  · left
    refine sight_elsewhere known.owned same isRuntime apart
      (outcome.other_turns fits same) rfl ?_
    dsimp only
    rw [AList.lookup_insert_if, if_neg same]

/-- The state of a runtime is seen by the turn that it belongs to. -/
theorem mark_sight (known : world.Known deployment) {lease : LeaseId}
    {running : Bool} (marked : world.markInstance lease running = some after)
    (key : TurnKey) :
    after.sight key = world.sight key ∨
      SightMove deployment world key (after.sight key) := by
  obtain ⟨turn, active, rfl⟩ := markInstance_eq marked
  have isOwn := known.owned.leases lease turn active
  by_cases same : key = turn.key
  · right
    subst same
    have moved : SightMove deployment world turn.key _ :=
      .marked running active rfl
    unfold World.sight at moved ⊢
    have later : World.runtimeId { world with
        db := world.db.updateInstance turn.instanceId
          { state := some (if running then .running else .ready) } }
        turn.key = some turn.instanceId := isOwn
    rw [later]
    rw [isOwn] at moved
    dsimp only [Option.bind_some, Database.getInstance] at moved ⊢
    unfold Database.updateInstance
    dsimp only
    rw [AList.lookup_modify_self]
    exact moved
  · left
    exact sight_elsewhere known.owned same isOwn (.updateInstance _ _) rfl rfl
      rfl

/-- A close that overwrites turns is seen by those. -/
theorem force_sight {next : Database} {close : Option CloseCall}
    (noOpened : ∀ key, ¬ world.Opened key)
    (noStarts : ∀ key, ¬ world.Starting key)
    (noFinishes : ∀ key, ¬ world.Finishing key)
    (marks : world.db.MarksFailed next)
    (isAfter : after = { world with db := next, close }) (key : TurnKey) :
    after.sight key = world.sight key ∨
      SightMove deployment world key (after.sight key) := by
  subst isAfter
  rcases marks.turns key with same | ⟨row, error, found, active, written⟩
  · left
    refine sight_same same rfl rfl (fun _ _ => ?_) ?_
    · rw [marks.frame]
    · rw [marks.frame]
  · right
    have sameSight : World.sight { world with db := next, close } key =
        { world.sight key with
          row := some { row with
            state := .failed, errorJson := some error } } := by
      unfold World.sight World.runtimeId
      dsimp only
      rw [written, found, marks.frame]
      rfl
    rw [sameSight]
    exact .forced found active (noOpened key) (noStarts key)
      (noFinishes key)

/-- Each move leaves the sight of a turn alone or is one of its own. -/
theorem CallMove.sight (known : world.Known deployment)
    (move : CallMove deployment world after) (key : TurnKey) :
    after.sight key = world.sight key ∨
      SightMove deployment world key (after.sight key) := by
  cases move with
  | beginStart environment serving _ done =>
      exact beginStart_sight known serving done environment key
  | advanceStart found step =>
      exact advanceStart_sight known found step rfl key
  | @forgetStart call found settled =>
      rw [sight_start { call with listed := false } found rfl key]
      split
      case isTrue same =>
        subst same
        exact .inr (.forgetStart found settled)
      case isFalse => exact .inl rfl
  | grant | closing => exact .inl rfl
  | release released => exact release_sight released key
  | beginFinish environment found isOpened =>
      exact beginFinish_sight environment found isOpened rfl key
  | advanceFinish found fits step outcome =>
      exact advanceFinish_sight known found fits step outcome rfl key
  | @forgetFinish call found settled =>
      rw [sight_finish { call with listed := false } key]
      split
      case isTrue same =>
        subst same
        exact .inr (.forgetFinish found settled)
      case isFalse => exact .inl rfl
  | fork done =>
      obtain ⟨_, _, _, _, rfl⟩ := Database.insertThreadWorkspace_eq_ok done
      exact .inl rfl
  | mark marked => exact mark_sight known marked key
  | force close noOpened noStarts noFinishes marks =>
      exact force_sight noOpened noStarts noFinishes marks rfl key

end Sighting

end World

theorem Served.known {deployment : Deployment} {world : World}
    (served : Served deployment world) : world.Known deployment :=
  ⟨served.provisioned, served.orderly, served.leased, served.lineage,
    served.earnest, served.owned⟩

section Rules

variable {deployment : Deployment} {world : World}

/-- An event preserves what every move of the sight preserves. -/
theorem Served.sight_step {property : Sight → Prop} {key : TurnKey}
    (moved : ∀ world, world.Known deployment → ∀ after,
      property (world.sight key) →
      World.SightMove deployment world key after → property after)
    (booted : ∀ before after, property before →
      World.Rebooted before after → property after)
    (served : Served deployment world) (holds : property (world.sight key))
    {event : Event} {after : World} (serving : event.serving = true)
    (taken : world.step deployment event = some after) :
    property (after.sight key) := by
  let whole (world : World) : Prop :=
    world.Leased ∧ world.Lineage deployment ∧ world.Earnest deployment ∧
      world.Owned ∧ property (world.sight key)
  have before : whole world :=
    ⟨served.leased, served.lineage, served.earnest, served.owned, holds⟩
  have all : whole after := by
    refine World.step_preserves ?_ served.provisioned served.orderly before
      serving taken
    rintro before after provisioned orderly
      ⟨leased, lineage, earnest, owned, holds⟩ move
    have known : before.Known deployment :=
      ⟨provisioned, orderly, leased, lineage, earnest, owned⟩
    refine ⟨leased.move orderly move,
      lineage.move provisioned orderly move,
      earnest.move provisioned orderly lineage move, ?_, ?_⟩
    · cases move with
      | call move => exact owned.callMove orderly move
      | boot isBoot => exact owned.boot isBoot
    · cases move with
      | call move =>
          rcases move.sight known key with same | own
          · rw [same]
            exact holds
          · exact moved before known _ holds own
      | boot isBoot =>
          exact booted _ _ holds (World.boot_sight isBoot key)
  exact all.2.2.2.2

/-- A property of one turn that every move of its sight preserves. -/
theorem Served.turn_invariant {property : TurnKey → Sight → Prop}
    (absent : ∀ key, property key (World.empty.sight key))
    (moved : ∀ key world, world.Known deployment → ∀ after,
      property key (world.sight key) →
      World.SightMove deployment world key after → property key after)
    (booted : ∀ key before after, property key before →
      World.Rebooted before after → property key after)
    (served : Served deployment world) (key : TurnKey) :
    property key (world.sight key) := by
  let holds (world : World) : Prop := property key (world.sight key)
  have invariant : holds world := by
    refine Reachable.invariant_under
      (fun state (reached : Served deployment state) => reached) ?_ ?_ served
    · rintro first ⟨destroy, isBoot⟩
      exact booted key _ _ (absent key) (World.boot_sight isBoot key)
    · intro before event after earlier _ holds serving taken
      exact earlier.sight_step (moved key) (booted key) holds serving taken
  exact invariant

end Rules

end Electrosphere
