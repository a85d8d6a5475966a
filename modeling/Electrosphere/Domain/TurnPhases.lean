import Electrosphere.Domain.DaemonSoundness

/-!
# The phases of a turn

A turn is described by three things: its row, its start in flight and its
finish in flight.  `Phase` says how they fit together, key by key, and the two
step theorems say that a call running on to its next await keeps them so.
-/

namespace Electrosphere

open Foundation

/-! ## Stages -/

/-- The runtime a start is creating. -/
def StartStage.runtime : StartStage → Option RuntimeInput
  | .preflight runtime | .makeDirectory runtime | .materialize runtime
  | .create runtime | .created runtime => some runtime
  | _ => none

/-- The finish has not published a commit and has not settled. -/
def FinishStage.unpublished : FinishStage → Bool
  | .committed (.ok _) | .deleting (.committed _) _ | .settled _ => false
  | _ => true

/-- The finish has published its commit and has not settled. -/
def FinishStage.published : FinishStage → Bool
  | .committed (.ok _) | .deleting (.committed _) _ => true
  | _ => false

/-- The argument of a commit in progress. -/
def FinishStage.commit : FinishStage → Option CommitInput
  | .snapshot commit | .capture commit _ | .removeSnapshot commit _ =>
      some commit
  | _ => none

theorem FinishStage.unsettled_cases {stage : FinishStage}
    (unsettled : stage.isSettled = false) :
    stage.unpublished = true ∨ stage.published = true := by
  unfold unpublished published
  split <;> simp_all [isSettled]

theorem FinishStage.unsettled_of_unpublished {stage : FinishStage}
    (unpublished : stage.unpublished = true) : stage.isSettled = false := by
  cases stage <;> first | rfl | cases unpublished

/-- A row that `bound` accepts. -/
structure TurnRow.Complete (row : TurnRow) : Prop where
  runtime : ∃ id, row.instanceId = some id
  durable : row.mode = .durable → ∃ workspace head,
    row.workspaceId = some workspace ∧ row.expectedHead = some head

/-- The runtime belongs to the start and is fit for its mode. -/
structure RuntimeInput.For (runtime : RuntimeInput) (call : StartCall) :
    Prop where
  kind : runtime.kind = call.input.mode
  instanceId : runtime.instanceId = call.instanceId
  durable : runtime.kind = .durable →
    ∃ workspace, runtime.workspaceId = some workspace

/-- The stage of a start belongs to its call. -/
structure StartCall.Fits (call : StartCall) : Prop where
  ensured : ∀ result, call.stage = .ensured result →
    call.input.mode = .durable
  runtime : ∀ runtime, call.stage.runtime = some runtime → runtime.For call

/-- The commit is the one the finished record asks for. -/
structure CommitInput.For (commit : CommitInput) (call : FinishCall) :
    Prop where
  key : commit.key = call.key
  mode : call.record.mode = .durable
  runtime : call.record.instanceId = some commit.instanceId
  workspace : call.record.workspaceId = some commit.workspaceId
  head : call.record.expectedHead = some commit.expectedHead
  operation : commit.operationId = finishOperationId call.key

/-- The record and the stage of a finish belong to its call. -/
structure FinishCall.Fits (call : FinishCall) : Prop where
  finishing : call.record.state = .finishing
  complete : call.record.Complete
  commit : ∀ commit, call.stage.commit = some commit → commit.For call

structure Phase (key : TurnKey) (row : Option TurnRow)
    (start : Option StartCall) (finish : Option FinishCall) : Prop where
  valid : row ≠ none → World.validateKey key = .ok ()
  absent : row = none → start = none ∧ finish = none
  starts : ∀ call, start = some call → call.input.key = key ∧ call.Fits
  starting : ∀ call, start = some call → call.stage.isSettled = false →
    row = some call.input.startingRow
  unbound : ∀ turn, row = some turn → turn.state = .starting →
    finish = none ∧ turn.instanceId = none
  opened : ∀ turn, row = some turn → turn.state = .opened →
    finish = none ∧ turn.Complete
  finishes : ∀ call, finish = some call → call.key = key ∧ call.Fits
  pending : ∀ call, finish = some call → call.stage.unpublished = true →
    row = some call.record
  published : ∀ call, finish = some call → call.stage.published = true →
    ∃ turn, row = some turn ∧ turn.state = .finished
  finishing : ∀ turn, row = some turn → turn.state = .finishing →
    ∃ call, finish = some call ∧ call.stage.unpublished = true

namespace Phase

variable {key : TurnKey} {row : Option TurnRow} {start : Option StartCall}
  {finish : Option FinishCall}

theorem none (key : TurnKey) : Phase key none none none := by
  constructor <;> simp

/-- A turn without calls in flight whose row is not active. -/
theorem inactive {turn : TurnRow} (valid : World.validateKey key = .ok ())
    (isInactive : turn.state.active = false) :
    Phase key (some turn) Option.none Option.none := by
  have never : ∀ state : TurnState, state.active = true →
      turn.state ≠ state := by
    rintro state isActive rfl
    rw [isInactive] at isActive
    cases isActive
  refine ⟨fun _ => valid, by simp, by simp, by simp, ?_, ?_, by simp, by simp,
    by simp, ?_⟩
  · rintro _ ⟨⟩ isStarting
    exact (never .starting rfl isStarting).elim
  · rintro _ ⟨⟩ isOpened
    exact (never .opened rfl isOpened).elim
  · rintro _ ⟨⟩ isFinishing
    exact (never .finishing rfl isFinishing).elim

/-- Marking the row failed when no call in flight needs it. -/
theorem fail (phase : Phase key row start finish)
    (startSettled : ∀ call, start = some call →
      call.stage.isSettled = true)
    (finishSettled : ∀ call, finish = some call →
      call.stage.isSettled = true) {turn : TurnRow}
    (present : row ≠ Option.none) (failed : turn.state = .failed) :
    Phase key (some turn) start finish := by
  refine ⟨fun _ => phase.valid present, by simp, phase.starts, ?_, ?_, ?_,
    phase.finishes, ?_, ?_, ?_⟩
  · intro call isCall unsettled
    rw [startSettled call isCall] at unsettled
    cases unsettled
  · rintro _ ⟨⟩ isStarting
    rw [failed] at isStarting
    cases isStarting
  · rintro _ ⟨⟩ isOpened
    rw [failed] at isOpened
    cases isOpened
  · intro call isCall unpublished
    have settled := finishSettled call isCall
    rw [FinishStage.unsettled_of_unpublished unpublished] at settled
    cases settled
  · intro call isCall published
    have settled := finishSettled call isCall
    cases stage : call.stage <;> rw [stage] at published settled <;>
      first | cases published | cases settled
  · rintro _ ⟨⟩ isFinishing
    rw [failed] at isFinishing
    cases isFinishing

/-- The start runs on without settling and leaves its row alone. -/
theorem advanceStart {call : StartCall} {stage : StartStage}
    (phase : Phase key row (some call) finish)
    (unsettled : call.stage.isSettled = false)
    (fits : { call with stage }.Fits) :
    Phase key row (some { call with stage }) finish := by
  refine { phase with absent := ?_, starts := ?_, starting := ?_ }
  · intro isAbsent
    cases (phase.absent isAbsent).1
  · rintro _ ⟨⟩
    exact ⟨(phase.starts call rfl).1, fits⟩
  · rintro _ ⟨⟩ _
    exact phase.starting call rfl unsettled

/-- The start has settled and its row is as it leaves it. -/
theorem settleStart {call : StartCall} {result : Except Thrown TurnView}
    {turn : TurnRow} (phase : Phase key row (some call) finish)
    (unsettled : call.stage.isSettled = false)
    (calm : turn.state ≠ .finishing)
    (unbound : turn.state = .starting → turn.instanceId = Option.none)
    (complete : turn.state = .opened → turn.Complete) :
    Phase key (some turn) (some { call with stage := .settled result })
      finish := by
  have isRow := phase.starting call rfl unsettled
  have noFinish : finish = Option.none :=
    (phase.unbound _ isRow rfl).1
  subst noFinish
  refine ⟨fun _ => phase.valid (by simp [isRow]), by simp, ?_, ?_, ?_, ?_,
    by simp, by simp, by simp, ?_⟩
  · rintro _ ⟨⟩
    refine ⟨(phase.starts call rfl).1, ?_, ?_⟩
    · intro other isStage
      cases isStage
    · intro runtime isRuntime
      cases isRuntime
  · rintro _ ⟨⟩ isUnsettled
    cases isUnsettled
  · rintro _ ⟨⟩ isStarting
    exact ⟨rfl, unbound isStarting⟩
  · rintro _ ⟨⟩ isOpened
    exact ⟨rfl, complete isOpened⟩
  · rintro _ ⟨⟩ isFinishing
    exact (calm isFinishing).elim

end Phase

/-! ## One step of a start -/

/-- An update touches the row of its turn alone. -/
theorem updateTurn_lookup {db next : Database} {key : TurnKey}
    {update : TurnUpdate} (done : db.updateTurn key update = .ok next)
    (other : TurnKey) :
    next.turns.lookup other =
      if other = key then (db.turns.lookup key).map update.apply
      else db.turns.lookup other := by
  cases found : db.turns.lookup key with
  | none =>
      rw [Database.updateTurn_of_absent found] at done
      cases done
      split
      · rename_i same
        rw [same, found]
        rfl
      · rfl
  | some row =>
      obtain ⟨_, _, rfl⟩ := (Database.updateTurn_eq_ok found).mp done
      rw [AList.lookup_insert_if]
      rfl

/-- What a failed start leaves in the row of its turn: nothing, when the
update is refused. -/
theorem failStart_lookup {db next : Database} {key : TurnKey}
    {id : InstanceId} {error : Thrown} {stage : StartStage}
    (failed : failStart db key id error = (next, stage)) :
    (∃ result, stage = .settled result) ∧
    (∀ other, other ≠ key →
      next.turns.lookup other = db.turns.lookup other) ∧
    (next.turns.lookup key = db.turns.lookup key ∨
      next.turns.lookup key = (db.turns.lookup key).map fun row =>
        { row with
          state := .failed
          instanceId := some id
          errorJson := some error.serviceError }) := by
  unfold failStart at failed
  split at failed
  case h_1 done =>
    cases failed
    have lookups := updateTurn_lookup done
    refine ⟨⟨_, rfl⟩, fun other different => ?_, .inr ?_⟩
    · rw [lookups, if_neg different]
    · rw [lookups, if_pos rfl]
      rfl
  case h_2 =>
    cases failed
    exact ⟨⟨_, rfl⟩, fun _ _ => rfl, .inl rfl⟩

theorem createTurnRuntime_fits {db : Database} {call : StartCall}
    {runtime : RuntimeInput} (fits : runtime.For call) :
    { call with stage := createTurnRuntime db runtime }.Fits := by
  unfold createTurnRuntime
  split
  · refine ⟨?_, ?_⟩
    · intro result isStage
      cases isStage
    · rintro _ ⟨⟩
      exact ⟨fits.kind, fits.instanceId, fits.durable⟩
  · refine ⟨?_, ?_⟩
    · intro result isStage
      cases isStage
    · intro other isRuntime
      cases isRuntime

theorem openUpdate_complete {call : StartCall} {runtime : RuntimeInput}
    (fits : runtime.For call) :
    ((openUpdate runtime).apply call.input.startingRow).Complete := by
  unfold openUpdate
  split
  case h_1 isInstant =>
    refine ⟨⟨_, rfl⟩, fun isDurable => ?_⟩
    have mode : call.input.mode = .durable := isDurable
    rw [← fits.kind, isInstant] at mode
    cases mode
  case h_2 isDurable =>
    obtain ⟨workspace, isWorkspace⟩ := fits.durable isDurable
    refine ⟨⟨_, rfl⟩, fun _ => ⟨workspace, runtime.baseCommit, ?_, rfl⟩⟩
    simp [TurnUpdate.apply, isWorkspace]

section Starting

variable {deployment : Deployment} {db next : Database} {call : StartCall}
  {stage : StartStage}

theorem StartStep.unsettled
    (step : StartStep deployment db call next stage) :
    call.stage.isSettled = false := by
  cases step with
  | failed isStage =>
      rcases isStage with isStage | ⟨result, isStage⟩ <;> rw [isStage] <;> rfl
  | _ => simp_all [StartStage.isSettled]

/-- What a start does to its turn on the way to its next await. -/
theorem StartStep.turn (step : StartStep deployment db call next stage)
    (isStarting : db.turns.lookup call.input.key =
      some call.input.startingRow) (fits : call.Fits) :
    (next.turns = db.turns ∧ stage.isSettled = false ∧
      { call with stage }.Fits) ∨
    (∃ runtime, call.stage = .created runtime ∧
      db.updateTurn call.input.key (openUpdate runtime) = .ok next ∧
      next.turns.lookup call.input.key =
        some ((openUpdate runtime).apply call.input.startingRow) ∧
      stage = .settled (.ok (view call.input.key
        ((openUpdate runtime).apply call.input.startingRow)))) ∨
    (∃ error, (call.stage = .rejected error ∨
        ∃ result, call.stage = .deleting error (.done result)) ∧
      failStart db call.input.key call.instanceId error = (next, stage)) := by
  have plain : ∀ {later : StartStage}, later.runtime = none →
      (∀ result, later ≠ .ensured result) →
        { call with stage := later }.Fits := by
    intro later noRuntime notEnsured
    refine ⟨fun result isStage => (notEnsured result isStage).elim, ?_⟩
    intro runtime isRuntime
    rw [show later.runtime = some runtime from isRuntime] at noRuntime
    cases noRuntime
  have carry : ∀ {runtime : RuntimeInput} {later : StartStage},
      call.stage.runtime = some runtime → later.runtime = some runtime →
        (∀ result, later ≠ .ensured result) →
          { call with stage := later }.Fits := by
    intro runtime later before after notEnsured
    refine ⟨fun result isStage => (notEnsured result isStage).elim, ?_⟩
    intro other isRuntime
    rw [show later.runtime = some other from isRuntime] at after
    cases after
    have known := fits.runtime _ before
    exact ⟨known.kind, known.instanceId, known.durable⟩
  cases step with
  | workspaceFailed | probeFailed | directoryFailed | materializeFailed
  | recordFailed | cleaned =>
      exact .inl ⟨rfl, rfl, plain rfl (by simp)⟩
  | @workspaceFound workspace isStage =>
      refine .inl ⟨rfl, ?_, createTurnRuntime_fits ⟨?_, rfl, ?_⟩⟩
      · unfold createTurnRuntime
        split <;> rfl
      · exact (fits.ensured _ isStage).symm
      · intro _
        exact ⟨workspace.workspaceId, rfl⟩
  | probed isStage | directoryMade isStage =>
      exact .inl ⟨rfl, rfl, carry (by rw [isStage]; rfl) rfl (by simp)⟩
  | recorded isStage _ done =>
      obtain ⟨_, _, rfl⟩ := Database.createInstance_eq_ok.mp done
      exact .inl ⟨rfl, rfl, carry (by rw [isStage]; rfl) rfl (by simp)⟩
  | created isStage =>
      refine .inl ⟨?_, rfl, carry (by rw [isStage]; rfl) rfl (by simp)⟩
      exact (Database.updateInstance_quiet db _ _).turns
  | vanished | createFailed =>
      refine .inl ⟨?_, rfl, plain rfl (by simp)⟩
      exact (Database.updateInstance_quiet db _ _).turns
  | @opened runtime next record isStage done found =>
      refine .inr (.inl ⟨runtime, isStage, done, ?_⟩)
      have lookups := updateTurn_lookup done call.input.key
      rw [if_pos rfl, isStarting] at lookups
      refine ⟨lookups, ?_⟩
      rw [show next.turns.lookup call.input.key = some record from found]
        at lookups
      rw [Option.some.inj lookups]
  | openFailed =>
      refine .inl ⟨?_, rfl, plain rfl (by simp)⟩
      exact (Deletion.start_quiet db _).turns
  | turnVanished _ done absent =>
      have lookups := updateTurn_lookup done call.input.key
      rw [if_pos rfl, isStarting] at lookups
      cases lookups.symm.trans absent
  | failed isStage failed => exact .inr (.inr ⟨_, isStage, failed⟩)
  | deleting _ resumed =>
      refine .inl ⟨?_, rfl, plain rfl (by simp)⟩
      exact (Deletion.resume_quiet resumed).turns

theorem StartStep.other_turns
    (step : StartStep deployment db call next stage)
    (isStarting : db.turns.lookup call.input.key =
      some call.input.startingRow) (fits : call.Fits) {other : TurnKey}
    (different : other ≠ call.input.key) :
    next.turns.lookup other = db.turns.lookup other := by
  rcases step.turn isStarting fits with ⟨same, _⟩ | ⟨_, _, done, _⟩ |
    ⟨_, _, failed⟩
  · rw [same]
  · rw [updateTurn_lookup done, if_neg different]
  · exact (failStart_lookup failed).2.1 other different

/-- A start running on to its next await keeps its turn in phase. -/
theorem Phase.startStep {key : TurnKey} {finish : Option FinishCall}
    (phase : Phase key (db.turns.lookup key) (some call) finish)
    (step : StartStep deployment db call next stage) :
    Phase key (next.turns.lookup key) (some { call with stage }) finish := by
  have unsettled := step.unsettled
  obtain ⟨rfl, fits⟩ := phase.starts call rfl
  have isStarting := phase.starting call rfl unsettled
  rcases step.turn isStarting fits with ⟨same, _, fits⟩ |
    ⟨runtime, isStage, _, found, rfl⟩ | ⟨error, _, failed⟩
  · rw [same]
    exact phase.advanceStart unsettled fits
  · rw [found]
    have isOpened : ((openUpdate runtime).apply
        call.input.startingRow).state = .opened := by
      simp [TurnUpdate.apply, openUpdate_state]
    refine phase.settleStart unsettled ?_ ?_ ?_
    · simp [isOpened]
    · simp [isOpened]
    · intro _
      exact openUpdate_complete (fits.runtime runtime (by rw [isStage]; rfl))
  · obtain ⟨⟨result, rfl⟩, _, found | found⟩ := failStart_lookup failed
    · rw [found, isStarting]
      refine phase.settleStart unsettled ?_ ?_ ?_ <;>
        simp [StartTurnInput.startingRow]
    · rw [found, isStarting]
      refine phase.settleStart unsettled ?_ ?_ ?_ <;> simp

end Starting

/-! ## One step of a finish -/

/-- What a finish does to its turn on the way to its next await. -/
inductive FinishOutcome (deployment : Deployment) (db : Database)
    (call : FinishCall) : FinishSegment → Prop where
  | runs {segment : FinishSegment} :
      db.Quiet segment.db → segment.publication = none →
      segment.stage.isSettled = false →
      segment.stage.unpublished = call.stage.unpublished →
      { call with stage := segment.stage }.Fits →
      FinishOutcome deployment db call segment
  | publishes {segment : FinishSegment} {commit : CommitInput}
      {tree : CfsObject} {result : TurnCommitResult} :
      call.stage.commit = some commit →
      db.publishTurnCommit (publishInput deployment commit tree) =
        .ok (segment.db, true) →
      segment.stage = .committed (.ok result) →
      segment.publication = some
        { key := commit.key
          workspaceId := commit.workspaceId
          parentId := commit.expectedHead
          commitId := (publishInput deployment commit tree).commitId } →
      FinishOutcome deployment db call segment
  | fails {segment : FinishSegment} {middle : Database} {row : TurnRow}
      {error : Thrown} :
      call.stage.unpublished = true → db.Quiet middle →
      db.turns.lookup call.key = some row →
      segment.db = { middle with
        turns := middle.turns.insert call.key
          { row with
            state := .failed, errorJson := some error.serviceError } } →
      segment.publication = none → segment.stage = .settled (.error error) →
      FinishOutcome deployment db call segment
  | completes {segment : FinishSegment} {row : TurnRow}
      {response : TurnResponse} :
      call.stage.unpublished = true →
      db.turns.lookup call.key = some row → row.mode = .instant →
      segment.db = { db with
        turns := db.turns.insert call.key
          { row with
            state := .finished
            resultJson := some { response := some response }
            errorJson := none } } →
      segment.publication = none →
      segment.stage = .settled (.ok response.view) →
      FinishOutcome deployment db call segment
  | notes {segment : FinishSegment} {middle : Database} {row : TurnRow}
      {message : String} {result : Except Thrown TurnView} :
      call.stage.published = true → db.Quiet middle →
      db.turns.lookup call.key = some row →
      segment.db = { middle with
        turns := middle.turns.insert call.key
          { row with
            resultJson := some
              { response := row.resultJson.bind StoredResult.response
                cleanupError := some message } } } →
      segment.publication = none → segment.stage = .settled result →
      FinishOutcome deployment db call segment
  | returns {segment : FinishSegment} {result : Except Thrown TurnView} :
      call.stage.published = true → segment.db = db →
      segment.publication = none → segment.stage = .settled result →
      FinishOutcome deployment db call segment

section Finishing

variable {deployment : Deployment} {db : Database} {objects : List String}
  {call : FinishCall} {segment : FinishSegment}

theorem FinishStep.unsettled
    (step : FinishStep deployment db objects call segment) :
    call.stage.isSettled = false := by
  cases step <;> simp_all [FinishStage.isSettled]

theorem recordFailure_eq (sound : Sound deployment ⟨db, objects⟩)
    {key : TurnKey} {row : TurnRow}
    (found : db.turns.lookup key = some row) (error : Thrown) :
    recordFailure db key error =
      ({ db with
          turns := db.turns.insert key
            { row with
              state := .failed, errorJson := some error.serviceError } },
        .settled (.error error)) := by
  have done := sound.markTurn_succeeds
    { state := some .failed, errorJson := some (some error.serviceError) }
    found (by simp [TurnUpdate.apply, TurnState.active]) ⟨rfl, rfl, rfl⟩
  unfold recordFailure
  rw [done]
  rfl

theorem FinishCall.Fits.plain (fits : call.Fits) {stage : FinishStage}
    (noCommit : stage.commit = none) : { call with stage }.Fits := by
  refine ⟨fits.finishing, fits.complete, fun commit isCommit => ?_⟩
  rw [show stage.commit = some commit from isCommit] at noCommit
  cases noCommit

theorem FinishCall.Fits.carry (fits : call.Fits) {stage : FinishStage}
    (same : stage.commit = call.stage.commit) :
    { call with stage }.Fits := by
  refine ⟨fits.finishing, fits.complete, fun commit isCommit => ?_⟩
  have before := fits.commit commit (same ▸ isCommit)
  exact ⟨before.key, before.mode, before.runtime, before.workspace,
    before.head, before.operation⟩

theorem failTurn_outcome (fits : call.Fits)
    (unpublished : call.stage.unpublished = true) (error : Thrown) :
    FinishOutcome deployment db call
      (.plain objects (failTurn db call error)) := by
  obtain ⟨id, isRuntime⟩ := fits.complete.runtime
  unfold failTurn
  rw [isRuntime]
  exact .runs (Deletion.start_quiet db id) rfl rfl unpublished.symm
    (fits.plain rfl)

theorem finishRuntime_outcome (fits : call.Fits)
    (unpublished : call.stage.unpublished = true) {id : InstanceId}
    (isRuntime : call.record.instanceId = some id) :
    FinishOutcome deployment db call
      (.plain objects (finishRuntime db call id)) := by
  unfold finishRuntime
  split
  case h_1 =>
    exact .runs (Deletion.start_quiet db id) rfl rfl unpublished.symm
      (fits.plain rfl)
  case h_2 mode isWorkspace isHead =>
    unfold startCommit
    split
    case h_1 begun =>
      refine .runs (beginCommit_quiet begun) rfl rfl unpublished.symm
        ⟨fits.finishing, fits.complete, ?_⟩
      rintro _ ⟨⟩
      exact ⟨rfl, mode, isRuntime, isWorkspace, isHead, rfl⟩
    case h_2 =>
      exact .runs (.refl db) rfl rfl unpublished.symm (fits.plain rfl)
  case h_3 => exact failTurn_outcome fits unpublished _

theorem finishCapture_outcome (fits : call.Fits) {commit : CommitInput}
    (isCommit : call.stage.commit = some commit)
    (captured : Except Thrown CfsObject) :
    FinishOutcome deployment db call
      (finishCapture deployment db objects commit captured) := by
  have unpublished : call.stage.unpublished = true := by
    cases stage : call.stage <;> rw [stage] at isCommit <;>
      first | rfl | cases isCommit
  have abandons : ∀ error, FinishOutcome deployment db call
      { db := abandonCommit db commit error, objects,
        stage := .committed (.error error) } := fun error =>
    .runs (abandonCommit_quiet commit error) rfl rfl unpublished.symm
      (fits.plain rfl)
  unfold finishCapture
  split
  case h_1 => exact abandons _
  case h_2 tree =>
    unfold publishCapture
    dsimp only
    cases done : db.publishTurnCommit (publishInput deployment commit tree)
      with
    | error error => exact abandons error
    | ok outcome =>
        obtain ⟨next, committed⟩ := outcome
        cases committed with
        | false => exact abandons _
        | true => exact .publishes isCommit done rfl rfl

theorem afterDeletion_outcome (sound : Sound deployment ⟨db, objects⟩)
    {row : TurnRow} (found : db.turns.lookup call.key = some row)
    {id : InstanceId} {purpose : DeletionPurpose}
    {result : Except Thrown Unit}
    (isStage : call.stage = .deleting purpose (.done result))
    (instant : purpose = .instant → row.mode = .instant) :
    FinishOutcome deployment db call
      (.plain objects (afterDeletion db call.key id purpose result)) := by
  have lost : ∀ error, db.Quiet (recordLost db id error) := fun error =>
    Database.updateInstance_quiet db id _
  have keeps : ∀ error,
      (recordLost db id error).turns.lookup call.key = some row := by
    intro error
    rw [(lost error).turns]
    exact found
  unfold afterDeletion
  split
  · have done := sound.markTurn_succeeds
      { state := some .finished
        resultJson := some { response := some (instantResponse call.key id) }
        errorJson := some none }
      found (by simp [TurnUpdate.apply, TurnState.active]) ⟨rfl, rfl, rfl⟩
    unfold completeInstant
    dsimp only
    rw [done]
    exact .completes (by rw [isStage]; rfl) found (instant rfl) rfl rfl rfl
  case h_2 error =>
    rw [recordFailure_eq (sound.quiet (lost error)) (keeps error)]
    exact .fails (by rw [isStage]; rfl) (lost error) found rfl rfl rfl
  · have settles : ∀ current committed, ∃ result,
        completeCommitted current call.key committed = .settled result := by
      intro current committed
      unfold completeCommitted
      split <;> exact ⟨_, rfl⟩
    obtain ⟨result, isSettled⟩ := settles db _
    exact .returns (by rw [isStage]; rfl) rfl rfl isSettled
  case h_4 committed error =>
    have done := (sound.quiet (lost error)).markTurn_succeeds
      { resultJson := some
          { response := row.resultJson.bind StoredResult.response
            cleanupError := some error.message } }
      (keeps error) (fun isActive => isActive) ⟨rfl, rfl, rfl⟩
    unfold recordCleanupError Database.getTurn
    dsimp only
    rw [keeps error]
    dsimp only [Option.bind_some]
    rw [done]
    unfold completeCommitted
    dsimp only
    split <;>
      exact .notes (by rw [isStage]; rfl) (lost error) found rfl rfl rfl
  · rw [recordFailure_eq sound found]
    exact .fails (by rw [isStage]; rfl) (.refl db) found rfl rfl rfl
  case h_6 error =>
    rw [recordFailure_eq (sound.quiet (lost error)) (keeps error)]
    exact .fails (by rw [isStage]; rfl) (lost error) found rfl rfl rfl

theorem FinishStep.outcome
    (step : FinishStep deployment db objects call segment)
    (sound : Sound deployment ⟨db, objects⟩) (fits : call.Fits)
    {row : TurnRow} (found : db.turns.lookup call.key = some row)
    (instant : ∀ progress, call.stage = .deleting .instant progress →
      row.mode = .instant) :
    FinishOutcome deployment db call segment := by
  cases step with
  | noRuntime isStage | sessionsFailed isStage | commitFailed isStage =>
      exact failTurn_outcome fits (by rw [isStage]; rfl) _
  | closing isStage | sessionsStuck isStage =>
      exact .runs (.refl db) rfl rfl (by rw [isStage]; rfl) (fits.plain rfl)
  | sessionsEnded isStage =>
      refine .runs ?_ rfl rfl (by rw [isStage]; rfl) (fits.plain rfl)
      simp only [FinishSegment.plain, readyAfterSessions]
      split
      · split
        · exact Database.updateInstance_quiet db _ _
        · exact .refl db
      · exact .refl db
  | proceed isStage isRuntime =>
      exact finishRuntime_outcome fits (by rw [isStage]; rfl) isRuntime
  | snapshotTaken isStage =>
      exact .runs (.refl db) rfl rfl (by rw [isStage]; rfl)
        (fits.carry (by rw [isStage]; rfl))
  | guestCaptured isStage =>
      exact .runs (.refl db) rfl rfl (by rw [isStage]; rfl)
        (fits.carry (by rw [isStage]; rfl))
  | snapshotFailed isStage | hostCaptured isStage | snapshotRemoved isStage
  | snapshotKept isStage =>
      exact finishCapture_outcome fits (by rw [isStage]; rfl) _
  | cleaning isStage =>
      exact .runs (Deletion.start_quiet db _) rfl rfl (by rw [isStage]; rfl)
        (fits.plain rfl)
  | deleted isStage =>
      refine afterDeletion_outcome sound found isStage fun isInstant => ?_
      exact instant _ (isInstant ▸ isStage)
  | @deleting purpose _ _ _ _ isStage _ resumed =>
      refine .runs (Deletion.resume_quiet resumed) rfl rfl ?_ (fits.plain rfl)
      rw [isStage]
      cases purpose <;> rfl

theorem FinishOutcome.fits {segment : FinishSegment}
    (outcome : FinishOutcome deployment db call segment) (fits : call.Fits) :
    { call with stage := segment.stage }.Fits := by
  cases outcome with
  | runs _ _ _ _ later => exact later
  | publishes _ _ isStage _ => exact fits.plain (by rw [isStage]; rfl)
  | fails _ _ _ _ _ isStage => exact fits.plain (by rw [isStage]; rfl)
  | completes _ _ _ _ _ isStage => exact fits.plain (by rw [isStage]; rfl)
  | notes _ _ _ _ _ isStage => exact fits.plain (by rw [isStage]; rfl)
  | returns _ _ _ isStage => exact fits.plain (by rw [isStage]; rfl)

/-- A publish finishes the row of its turn. -/
theorem publish_turns {commit : CommitInput} {tree : CfsObject}
    {next : Database}
    (done : db.publishTurnCommit (publishInput deployment commit tree) =
      .ok (next, true)) :
    ∃ row, db.turns.lookup commit.key = some row ∧ row.state = .finishing ∧
      next.turns = db.turns.insert commit.key
        (Database.publishedRow (publishInput deployment commit tree) row) := by
  obtain ⟨captured, row, inserted, _, found, publishable, rfl⟩ :=
    Database.publishTurnCommit_eq_ok done
  obtain ⟨_, _, _, _, sameTurns, _⟩ := Database.insertCapture_frame inserted
  refine ⟨row, ?_, (Database.publishable_iff.mp publishable).1, ?_⟩
  · rw [← sameTurns]
    exact found
  · rw [← sameTurns]
    rfl

theorem FinishOutcome.other_turns
    (outcome : FinishOutcome deployment db call segment) (fits : call.Fits)
    {other : TurnKey} (different : other ≠ call.key) :
    segment.db.turns.lookup other = db.turns.lookup other := by
  cases outcome with
  | runs unchanged => rw [unchanged.turns]
  | publishes isCommit done =>
      obtain ⟨_, _, _, turns⟩ := publish_turns done
      rw [turns, AList.lookup_insert_if, if_neg]
      rw [(fits.commit _ isCommit).key]
      exact different
  | fails _ unchanged _ isDb =>
      rw [isDb]
      dsimp only
      rw [AList.lookup_insert_if, if_neg different, unchanged.turns]
  | completes _ _ _ isDb =>
      rw [isDb]
      dsimp only
      rw [AList.lookup_insert_if, if_neg different]
  | notes _ unchanged _ isDb =>
      rw [isDb]
      dsimp only
      rw [AList.lookup_insert_if, if_neg different, unchanged.turns]
  | returns _ isDb => rw [isDb]

end Finishing

namespace Phase

variable {key : TurnKey} {row : Option TurnRow} {start : Option StartCall}
  {call : FinishCall}

/-- A turn that is being finished has no start in flight. -/
theorem start_settled (phase : Phase key row start (some call))
    {starting : StartCall} (isStart : start = some starting) :
    starting.stage.isSettled = true := by
  by_contra unsettled
  have isRow := phase.starting starting isStart (by simpa using unsettled)
  cases (phase.unbound _ isRow rfl).1

/-- The finish runs on without publishing or settling. -/
theorem advanceFinish (phase : Phase key row start (some call))
    {stage : FinishStage} (unsettled : stage.isSettled = false)
    (same : stage.unpublished = call.stage.unpublished)
    (before : call.stage.isSettled = false)
    (fits : { call with stage }.Fits) :
    Phase key row start (some { call with stage }) := by
  have samePublished : stage.published = true →
      call.stage.published = true := by
    intro published
    rcases FinishStage.unsettled_cases before with unpublished | published
    · rw [unpublished] at same
      cases stage <;> simp_all [FinishStage.unpublished,
        FinishStage.published]
      all_goals
        split at published <;> simp_all
    · exact published
  refine { phase with
    absent := ?_
    unbound := ?_
    opened := ?_
    finishes := ?_
    pending := ?_
    published := ?_
    finishing := ?_ }
  · intro isAbsent
    cases (phase.absent isAbsent).2
  · intro turn isRow isStarting
    cases (phase.unbound turn isRow isStarting).1
  · intro turn isRow isOpened
    cases (phase.opened turn isRow isOpened).1
  · rintro _ ⟨⟩
    exact ⟨(phase.finishes call rfl).1, fits⟩
  · rintro _ ⟨⟩ unpublished
    exact phase.pending call rfl (same ▸ unpublished)
  · rintro _ ⟨⟩ published
    exact phase.published call rfl (samePublished published)
  · intro turn isRow isFinishing
    obtain ⟨_, ⟨⟩, unpublished⟩ := phase.finishing turn isRow isFinishing
    exact ⟨_, rfl, same.trans unpublished⟩

/-- The finish has published or settled, and its row is no longer active. -/
theorem leaveFinishing (phase : Phase key row start (some call))
    {stage : FinishStage} {turn : TurnRow}
    (isInactive : turn.state = .finished ∨ turn.state = .failed)
    (gone : stage.unpublished = false)
    (isFinished : stage.published = true → turn.state = .finished)
    (fits : { call with stage }.Fits) :
    Phase key (some turn) start (some { call with stage }) := by
  have present : row ≠ Option.none := by
    intro isAbsent
    cases (phase.absent isAbsent).2
  have never : ∀ state : TurnState, state.active = true →
      turn.state ≠ state := by
    rintro state isActive rfl
    rcases isInactive with same | same <;> rw [same] at isActive <;>
      cases isActive
  refine ⟨fun _ => phase.valid present, by simp, phase.starts, ?_, ?_, ?_,
    ?_, ?_, ?_, ?_⟩
  · intro starting isStart unsettled
    rw [phase.start_settled isStart] at unsettled
    cases unsettled
  · rintro _ ⟨⟩ isStarting
    exact (never .starting rfl isStarting).elim
  · rintro _ ⟨⟩ isOpened
    exact (never .opened rfl isOpened).elim
  · rintro _ ⟨⟩
    exact ⟨(phase.finishes call rfl).1, fits⟩
  · rintro _ ⟨⟩ unpublished
    rw [show stage.unpublished = true from unpublished] at gone
    cases gone
  · rintro _ ⟨⟩ published
    exact ⟨turn, rfl, isFinished published⟩
  · rintro _ ⟨⟩ isFinishing
    exact (never .finishing rfl isFinishing).elim

/-- A finish running on to its next await keeps its turn in phase. -/
theorem finishStep {deployment : Deployment} {db : Database}
    {segment : FinishSegment}
    (phase : Phase key (db.turns.lookup key) start (some call))
    (before : call.stage.isSettled = false)
    (outcome : FinishOutcome deployment db call segment) :
    Phase key (segment.db.turns.lookup key) start
      (some { call with stage := segment.stage }) := by
  obtain ⟨rfl, fits⟩ := phase.finishes call rfl
  have later := outcome.fits fits
  cases outcome with
  | runs unchanged _ unsettled same =>
      rw [unchanged.turns]
      exact phase.advanceFinish unsettled same before later
  | publishes isCommit done isStage =>
      obtain ⟨row, _, _, turns⟩ := publish_turns done
      rw [turns, (fits.commit _ isCommit).key, AList.lookup_insert]
      apply phase.leaveFinishing (.inl rfl) ?_ (fun _ => rfl) later
      rw [isStage]
      rfl
  | fails _ _ _ isDb _ isStage =>
      rw [isDb, isStage]
      dsimp only
      rw [AList.lookup_insert]
      rw [isStage] at later
      exact phase.leaveFinishing (.inr rfl) rfl
        (fun published => by cases published) later
  | completes _ _ _ isDb _ isStage =>
      rw [isDb, isStage]
      dsimp only
      rw [AList.lookup_insert]
      rw [isStage] at later
      exact phase.leaveFinishing (.inl rfl) rfl (fun _ => rfl) later
  | @notes _ row _ _ published _ found isDb _ isStage =>
      obtain ⟨turn, isTurn, isFinished⟩ := phase.published call rfl published
      rw [found] at isTurn
      cases isTurn
      rw [isDb, isStage]
      dsimp only
      rw [AList.lookup_insert]
      rw [isStage] at later
      exact phase.leaveFinishing (.inl isFinished) rfl
        (fun _ => isFinished) later
  | returns published isDb _ isStage =>
      obtain ⟨turn, isTurn, isFinished⟩ := phase.published call rfl published
      rw [isDb, isTurn, isStage]
      rw [isStage] at later
      exact phase.leaveFinishing (.inl isFinished) rfl
        (fun _ => isFinished) later

end Phase

end Electrosphere
