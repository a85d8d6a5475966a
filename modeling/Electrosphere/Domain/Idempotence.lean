import Electrosphere.Domain.Shutdown

/-!
# Retried requests

The first answer to a finish is built from live values, the later ones from
the stored row.  `FinishStage.Told` relates a row to the answer that a finish
is about to give, and carries the agreement from the publication to the end
of the call.  Side effects are counted over runs.
-/

namespace Electrosphere

open Foundation

/-! ## Answers and rows -/

/-- A row that has ended and replays the answer. -/
def TurnRow.Answers (key : TurnKey) (row : TurnRow) :
    Except Thrown TurnView → Prop
  | .ok turn => row.state = .finished ∧ view key row = turn
  | .error error =>
      row.state = .failed ∧ row.errorJson = some error.serviceError

/-- The row stores what the finish answers. -/
def FinishStage.Told (key : TurnKey) (row : TurnRow) : FinishStage → Prop
  | .committed (.ok result) | .deleting (.committed result) _ =>
      (view key row).headCommit = some result.headCommit
  | .settled result => row.Answers key result
  | _ => True

/-- The row of an instant turn has no workspace. -/
def TurnRow.Bare (row : TurnRow) : Prop :=
  row.mode = .instant → row.workspaceId = none ∧ row.expectedHead = none

theorem TurnRow.Bare.change {row later : Option TurnRow}
    (change : TurnRow.Change row later)
    (bare : ∀ before, row = some before → before.Bare) :
    ∀ written, later = some written → written.Bare := by
  rintro written rfl
  cases change with
  | inserted => exact fun _ => ⟨rfl, rfl⟩
  | @opened call runtime known =>
      intro isInstant
      have mode : call.input.mode = .instant := isInstant
      unfold openUpdate
      rw [known.kind, mode]
      exact ⟨rfl, rfl⟩
  | stopped | finishing | published | completed | failed | noted =>
      have known := bare _ rfl
      exact known

theorem TurnRow.Bare.written {row later : Option TurnRow}
    (written : TurnRow.Written row later)
    (bare : ∀ before, row = some before → before.Bare) :
    ∀ after, later = some after → after.Bare := by
  cases written with
  | refl => exact bare
  | single change => exact TurnRow.Bare.change change bare

/-- Only the stored response of a row matters to its view. -/
theorem view_note (key : TurnKey) (row : TurnRow) (message : String) :
    view key (TurnUpdate.apply
      { resultJson := some
          { response := row.resultJson.bind StoredResult.response
            cleanupError := some message } } row) = view key row := by
  simp [view, TurnUpdate.apply]

/-! ## One step of a finish -/

section Telling

variable {deployment : Deployment} {db : Database} {objects : List String}
  {call : FinishCall} {row : TurnRow}

theorem failTurn_told (fits : call.Fits)
    (found : db.turns.lookup call.key = some row) (error : Thrown) :
    (failTurn db call error).1.turns.lookup call.key = some row ∧
      (failTurn db call error).2.Told call.key row := by
  obtain ⟨id, isRuntime⟩ := fits.complete.runtime
  unfold failTurn
  rw [isRuntime]
  refine ⟨?_, trivial⟩
  unfold deleteFor
  dsimp only
  rw [(Deletion.start_quiet db id).turns]
  exact found

theorem finishCapture_told (fits : call.Fits)
    (found : db.turns.lookup call.key = some row) {commit : CommitInput}
    (isCommit : call.stage.commit = some commit)
    (captured : Except Thrown CfsObject) :
    ∃ later, (finishCapture deployment db objects commit
        captured).db.turns.lookup call.key = some later ∧
      (finishCapture deployment db objects commit captured).stage.Told
        call.key later := by
  have isKey := (fits.commit _ isCommit).key
  have abandoned : ∀ error,
      (abandonCommit db commit error).turns.lookup call.key = some row := by
    intro error
    rw [(abandonCommit_quiet commit error).turns]
    exact found
  unfold finishCapture
  split
  case h_1 => exact ⟨row, abandoned _, trivial⟩
  case h_2 tree =>
    unfold publishCapture
    dsimp only
    cases done : db.publishTurnCommit (publishInput deployment commit tree)
      with
    | error error => exact ⟨row, abandoned _, trivial⟩
    | ok outcome =>
        obtain ⟨next, committed⟩ := outcome
        cases committed with
        | false => exact ⟨row, abandoned _, trivial⟩
        | true =>
            obtain ⟨before, _, _, turns⟩ := publish_turns done
            refine ⟨Database.publishedRow
              (publishInput deployment commit tree) before, ?_, ?_⟩
            · dsimp only
              rw [turns, isKey]
              exact AList.lookup_insert _
            · rfl

/-- The answer is the one that the stored row gives again. -/
theorem afterDeletion_told (sound : Sound deployment ⟨db, objects⟩)
    (found : db.turns.lookup call.key = some row) {id : InstanceId}
    (isRuntime : call.record.instanceId = some id)
    {purpose : DeletionPurpose} {result : Except Thrown Unit}
    (isStage : call.stage = .deleting purpose (.done result))
    (told : call.stage.Told call.key row) (bare : row.Bare)
    (pending : call.stage.unpublished = true → row = call.record)
    (published : call.stage.published = true → row.state = .finished)
    (instant : purpose = .instant → row.mode = .instant) :
    ∃ later, (afterDeletion db call.key id purpose result).1.turns.lookup
        call.key = some later ∧
      (afterDeletion db call.key id purpose result).2.Told call.key later := by
  have lost : ∀ error, db.Quiet (recordLost db id error) := fun error =>
    Database.updateInstance_quiet db id _
  have keeps : ∀ error,
      (recordLost db id error).turns.lookup call.key = some row := by
    intro error
    rw [(lost error).turns]
    exact found
  rw [isStage] at told pending published
  unfold afterDeletion
  split
  case h_1 =>
    have mode := instant rfl
    obtain ⟨noWorkspace, noHead⟩ := bare mode
    have isRecord := pending rfl
    have done := sound.markTurn_succeeds
      { state := some .finished
        resultJson := some { response := some (instantResponse call.key id) }
        errorJson := some none }
      found (by simp [TurnUpdate.apply, TurnState.active]) ⟨rfl, rfl, rfl⟩
    unfold completeInstant
    dsimp only
    rw [done]
    refine ⟨_, AList.lookup_insert _, rfl, ?_⟩
    rw [← isRecord] at isRuntime
    simp [view, instantResponse, TurnUpdate.apply, mode, noWorkspace, noHead,
      isRuntime]
  case h_2 error =>
    rw [recordFailure_eq (sound.quiet (lost error)) (keeps error)]
    exact ⟨_, AList.lookup_insert _, rfl, rfl⟩
  case h_3 committed =>
    refine ⟨row, found, ?_⟩
    unfold completeCommitted Database.getTurn
    rw [found]
    refine ⟨published rfl, ?_⟩
    rw [← show (view call.key row).headCommit = some committed.headCommit
      from told]
  case h_4 committed error =>
    have done := (sound.quiet (lost error)).markTurn_succeeds
      { resultJson := some
          { response := row.resultJson.bind StoredResult.response
            cleanupError := some error.message } }
      (keeps error) (fun isActive => isActive) ⟨rfl, rfl, rfl⟩
    have noted := view_note call.key row error.message
    unfold recordCleanupError Database.getTurn
    dsimp only
    rw [keeps error]
    dsimp only [Option.bind_some]
    rw [done]
    refine ⟨_, AList.lookup_insert _, ?_⟩
    unfold completeCommitted Database.getTurn
    dsimp only
    rw [AList.lookup_insert]
    refine ⟨published rfl, ?_⟩
    rw [noted, ← show (view call.key row).headCommit =
      some committed.headCommit from told]
  case h_5 error =>
    rw [recordFailure_eq sound found]
    exact ⟨_, AList.lookup_insert _, rfl, rfl⟩
  case h_6 error =>
    rw [recordFailure_eq (sound.quiet (lost error)) (keeps error)]
    exact ⟨_, AList.lookup_insert _, rfl, rfl⟩

/-- A finish that runs on tells what its row stores. -/
theorem FinishStep.told {segment : FinishSegment}
    (step : FinishStep deployment db objects call segment)
    (sound : Sound deployment ⟨db, objects⟩) (fits : call.Fits)
    (found : db.turns.lookup call.key = some row)
    (told : call.stage.Told call.key row) (bare : row.Bare)
    (pending : call.stage.unpublished = true → row = call.record)
    (published : call.stage.published = true → row.state = .finished)
    (instant : ∀ progress, call.stage = .deleting .instant progress →
      row.mode = .instant) :
    ∃ later, segment.db.turns.lookup call.key = some later ∧
      segment.stage.Told call.key later := by
  have kept : ∀ {next : Database}, db.Quiet next →
      next.turns.lookup call.key = some row := by
    intro next quiet
    rw [quiet.turns]
    exact found
  cases step with
  | noRuntime | sessionsFailed | commitFailed =>
      exact ⟨row, failTurn_told fits found _⟩
  | closing | sessionsStuck | snapshotTaken | guestCaptured =>
      exact ⟨row, found, trivial⟩
  | sessionsEnded =>
      refine ⟨row, kept ?_, trivial⟩
      unfold readyAfterSessions
      split
      · split
        · exact Database.updateInstance_quiet db _ _
        · exact .refl db
      · exact .refl db
  | proceed =>
      unfold finishRuntime
      split
      case h_1 => exact ⟨row, kept (Deletion.start_quiet db _), trivial⟩
      case h_2 =>
        unfold startCommit
        split
        case h_1 begun => exact ⟨row, kept (beginCommit_quiet begun), trivial⟩
        case h_2 => exact ⟨row, found, trivial⟩
      case h_3 => exact ⟨row, failTurn_told fits found _⟩
  | snapshotFailed isStage | hostCaptured isStage | snapshotRemoved isStage
  | snapshotKept isStage =>
      exact finishCapture_told fits found (by rw [isStage]; rfl) _
  | cleaning isStage =>
      rw [isStage] at told
      exact ⟨row, kept (Deletion.start_quiet db _), told⟩
  | @deleting purpose _ _ _ _ isStage _ resumed =>
      rw [isStage] at told
      refine ⟨row, kept (Deletion.resume_quiet resumed), ?_⟩
      cases purpose <;> exact told
  | deleted isStage isRuntime =>
      apply afterDeletion_told sound found isRuntime isStage told bare pending
        published
      intro isInstant
      exact instant _ (isInstant ▸ isStage)

end Telling

/-! ## What a turn replays -/

/-- The rows of a turn agree with the answers that its calls have given. -/
structure Sight.Replays (key : TurnKey) (sight : Sight) : Prop where
  bare : ∀ row, sight.row = some row → row.Bare
  opened : ∀ row, sight.row = some row → row.state = .opened →
    ∃ call, sight.start = some call ∧
      call.stage = .settled (.ok (view key row))
  told : ∀ call, sight.finish = some call →
    ∃ row, sight.row = some row ∧ call.stage.Told key row

/-- The start of a turn tells of an open row and of no other. -/
theorem World.startStep_opened {deployment : Deployment} {world : World}
    (known : world.Known deployment) {key : TurnKey} {call : StartCall}
    {next : Database} {stage : StartStage}
    (found : world.starts.lookup key = some call)
    (isKey : call.input.key = key)
    (step : StartStep deployment world.db call next stage) {row : TurnRow}
    (isRow : next.turns.lookup key = some row)
    (isOpened : row.state = .opened) :
    stage = .settled (.ok (view key row)) := by
  subst isKey
  have phase := known.orderly.phased call.input.key
  rw [found] at phase
  have isStarting := phase.starting call rfl step.unsettled
  rcases step.turn isStarting (phase.starts call rfl).2 with
    ⟨same, _⟩ | ⟨runtime, _, _, written, settled⟩ | ⟨error, _, failed⟩
  · rw [same, isStarting] at isRow
    cases isRow
    cases isOpened
  · rw [written] at isRow
    cases isRow
    exact settled
  · obtain ⟨_, _, kept | stopped⟩ := failStart_lookup failed
    · rw [kept, isStarting] at isRow
      cases isRow
      cases isOpened
    · rw [stopped, isStarting] at isRow
      cases isRow
      cases isOpened

theorem Sight.Replays.move {deployment : Deployment} {world : World}
    {key : TurnKey} {after : Sight} (known : world.Known deployment)
    (replays : (world.sight key).Replays key)
    (move : World.SightMove deployment world key after) :
    after.Replays key := by
  have phase := known.orderly.phased key
  obtain ⟨bare, opened, told⟩ := replays
  cases move with
  | began =>
      refine ⟨?_, ?_, by simp⟩
      · rintro _ ⟨⟩ _
        exact ⟨rfl, rfl⟩
      · rintro _ ⟨⟩ isOpened
        cases isOpened
  | @start call next stage found isKey step =>
      refine ⟨?_, ?_, ?_⟩
      · exact TurnRow.Bare.written
          (step.written known.orderly (isKey ▸ found) key) bare
      · intro row isRow isOpened
        exact ⟨_, rfl, World.startStep_opened known found isKey step isRow
          isOpened⟩
      · intro finishCall isFinish
        rw [found] at phase
        have isStarting := phase.starting call rfl step.unsettled
        cases (phase.unbound _ isStarting rfl).1.symm.trans isFinish
  | @forgetStart call found settled =>
      refine ⟨bare, ?_, told⟩
      intro row isRow isOpened
      obtain ⟨other, isOther, isStage⟩ := opened row isRow isOpened
      cases found.symm.trans isOther
      exact ⟨_, rfl, isStage⟩
  | @beginFinish row _ found isOpened =>
      refine ⟨?_, ?_, ?_⟩
      · rintro _ ⟨⟩
        have known := bare row found
        exact known
      · rintro _ ⟨⟩ impossible
        cases impossible
      · rintro _ ⟨⟩
        refine ⟨_, rfl, ?_⟩
        dsimp only
        split <;> trivial
  | @finish call segment id found isKey fits isOwn _ step outcome =>
      subst isKey
      rw [found] at phase
      have later := phase.finishStep step.unsettled outcome
      obtain ⟨row, isRow, isTold⟩ := told call found
      refine ⟨?_, ?_, ?_⟩
      · exact TurnRow.Bare.written
          (World.finishOutcome_written known.orderly found fits outcome _) bare
      · intro row isRow isOpened
        cases (later.opened row isRow isOpened).1
      · rintro _ ⟨⟩
        apply step.told known.provisioned.sound fits isRow isTold
          (bare row isRow)
        · intro unpublished
          cases isRow.symm.trans (phase.pending call rfl unpublished)
          rfl
        · intro published
          obtain ⟨turn, isTurn, isFinished⟩ :=
            phase.published call rfl published
          cases isRow.symm.trans isTurn
          exact isFinished
        · intro progress isStage
          have grounded := known.provisioned.grounded call.key call found
          obtain ⟨turn, isTurn, sameMode⟩ := grounded.record
          cases isRow.symm.trans isTurn
          exact sameMode.trans (grounded.instant progress isStage)
  | @forgetFinish call found settled =>
      refine ⟨bare, opened, ?_⟩
      rintro _ ⟨⟩
      exact told call found
  | @woken call found isWaiting =>
      refine ⟨bare, opened, ?_⟩
      rintro _ ⟨⟩
      obtain ⟨row, isRow, _⟩ := told call found
      exact ⟨row, isRow, trivial⟩
  | marked => exact ⟨bare, opened, told⟩
  | @forced row error found active noOpened noStart noFinish =>
      refine ⟨?_, ?_, ?_⟩
      · rintro _ ⟨⟩
        have known := bare row found
        exact known
      · rintro _ ⟨⟩ impossible
        cases impossible
      · intro call isCall
        obtain ⟨row', isRow, isTold⟩ := told call isCall
        cases found.symm.trans isRow
        cases stage : call.stage with
        | settled result =>
            rw [stage] at isTold
            cases result <;> rw [isTold.1] at active <;> cases active
        | _ =>
            refine (noFinish ⟨call, isCall, ?_⟩).elim
            rw [stage]
            rfl

theorem Served.replays {deployment : Deployment} {world : World}
    (served : Served deployment world) (key : TurnKey) :
    (world.sight key).Replays key := by
  refine served.turn_invariant  ?_ ?_ ?_ key
  · intro key
    refine ⟨?_, ?_, ?_⟩ <;>
      simp [World.sight, World.empty, Database.empty]
  · intro key world known after replays move
    exact replays.move known move
  · intro key before after replays booted
    refine ⟨?_, ?_, ?_⟩
    · intro row isRow
      rcases booted.row with ⟨same, _⟩ | ⟨turn, _, found, _, written⟩
      · exact replays.bare row (same ▸ isRow)
      · cases written.symm.trans isRow
        have known := replays.bare turn found
        exact known
    · intro row isRow isOpened
      rcases booted.row with ⟨_, inactive⟩ | ⟨_, _, _, _, written⟩
      · have isInactive := inactive row isRow
        rw [isOpened] at isInactive
        cases isInactive
      · cases written.symm.trans isRow
        cases isOpened
    · intro call isCall
      rw [booted.finish] at isCall
      cases isCall

/-! ## Answers over runs -/

theorem TurnRow.Answers.change {key : TurnKey}
    {result : Except Thrown TurnView} (row : TurnRow)
    (later : Option TurnRow) (answers : row.Answers key result)
    (change : TurnRow.Change (some row) later) :
    ∃ written, later = some written ∧ written.Answers key result := by
  have ended : row.state = .finished ∨ row.state = .failed := by
    cases result with
    | ok => exact .inl answers.1
    | error => exact .inr answers.1
  cases change with
  | opened => rcases ended with same | same <;> cases same
  | stopped isState | finishing isState | published _ isState
  | completed _ isState =>
      rw [isState] at ended
      rcases ended with same | same <;> cases same
  | failed isState =>
      rcases isState with isState | isState <;> rw [isState] at ended <;>
        rcases ended with same | same <;> cases same
  | noted message isFinished =>
      refine ⟨_, rfl, ?_⟩
      cases result with
      | ok turn =>
          have noted := view_note key row message
          exact ⟨isFinished, noted.trans answers.2⟩
      | error =>
          have isFailed := answers.1
          rw [isFinished] at isFailed
          cases isFailed

theorem TurnRow.Answers.inactive {key : TurnKey}
    {result : Except Thrown TurnView} {row : TurnRow}
    (answers : row.Answers key result) : row.state.active = false := by
  cases result <;> rw [answers.1] <;> rfl

/-- Two answers are the same, errors up to what `serializeError` keeps. -/
def SameAnswer : Except Thrown TurnView → Except Thrown TurnView → Prop
  | .ok first, .ok again => first = again
  | .error first, .error again => first.serviceError = again.serviceError
  | _, _ => False

theorem SameAnswer.of_first {result first again : Except Thrown TurnView}
    (same : SameAnswer result first) (later : SameAnswer result again) :
    SameAnswer first again := by
  cases result <;> cases first <;> cases again <;>
    simp_all [SameAnswer]

/-- A finish of a turn that has ended replays its row. -/
theorem World.finish_replays {world : World} (phased : world.Phased)
    {key : TurnKey} {row : TurnRow}
    (found : world.db.turns.lookup key = some row)
    {result : Except Thrown TurnView} (answers : row.Answers key result)
    (environment : FinishEnvironment) :
    ∃ again, world.finish key environment = (world, .view again) ∧
      SameAnswer result again := by
  have phase := phased key
  have valid := phase.valid (by simp [found])
  unfold World.finish Database.getTurn
  rw [valid, found]
  dsimp only
  cases result with
  | ok turn =>
      rw [answers.1]
      exact ⟨_, rfl, answers.2.symm⟩
  | error error =>
      rw [answers.1]
      refine ⟨_, rfl, ?_⟩
      unfold replayError
      rw [answers.2]
      rfl

theorem Served.answers_again {deployment : Deployment} {world : World}
    (served : Served deployment world) {key : TurnKey} {row : TurnRow}
    (found : world.db.turns.lookup key = some row)
    {result : Except Thrown TurnView} (answers : row.Answers key result)
    {events : List Event} {later : World}
    (serving : ∀ event ∈ events, event.serving = true)
    (replay : run (World.step deployment) world events = some later)
    (environment : FinishEnvironment) :
    ∃ again, later.finish key environment = (later, .view again) ∧
      SameAnswer result again := by
  have stopped : ∀ (row : TurnRow) (error : ServiceError),
      row.state.active = true → row.Answers key result →
      TurnRow.Answers key { row with
        state := .failed, errorJson := some error } result := by
    intro row error active answers
    rw [answers.inactive] at active
    cases active
  obtain ⟨servedLater, written, isWritten, known⟩ :=
    served.row_run TurnRow.Answers.change stopped found answers serving replay
  exact World.finish_replays servedLater.orderly.phased isWritten known
    environment

/-! ## Counting runtimes -/

/-- The backend has not been asked for the runtime yet. -/
def StartStage.beforeCreate : StartStage → Bool
  | .ensured _ | .preflight _ | .makeDirectory _ | .materialize _ => true
  | _ => false

def StartStage.isCreate : StartStage → Bool
  | .create _ => true
  | _ => false

/-- The event runs the start of the turn on. -/
def Event.resumes (key : TurnKey) : Event → Bool
  | .resumeStart other => decide (other = key)
  | _ => false

/-- The start of the turn waits for the backend to create the runtime. -/
def World.awaitsRuntime (world : World) (key : TurnKey) : Bool :=
  (world.starts.lookup key).any fun call => call.stage.isCreate

/-- How often a run asks the backend for a runtime of the turn. -/
def runtimesCreated (deployment : Deployment) (key : TurnKey) :
    World → List Event → Nat
  | _, [] => 0
  | world, event :: events =>
      match world.step deployment event with
      | none => 0
      | some next =>
          (if event.resumes key && next.awaitsRuntime key then 1 else 0) +
            runtimesCreated deployment key next events

/-- The turn will not ask for a runtime any more. -/
def Sight.Spent (sight : Sight) : Prop :=
  sight.row ≠ none ∧
    ∀ call, sight.start = some call → call.stage.beforeCreate = false

theorem TurnRow.Written.isSome {row later : Option TurnRow}
    (written : TurnRow.Written row later) (present : row ≠ none) :
    later ≠ none := by
  cases written with
  | refl => exact present
  | single change => cases change <;> simp

theorem StartStep.beforeCreate {deployment : Deployment}
    {db next : Database} {call : StartCall} {stage : StartStage}
    (step : StartStep deployment db call next stage)
    (asked : call.stage.beforeCreate = false) :
    stage.beforeCreate = false ∧ stage.isCreate = false := by
  cases step with
  | workspaceFound isStage | probed isStage | directoryMade isStage
  | recorded isStage =>
      rw [isStage] at asked
      cases asked
  | failed _ failed =>
      obtain ⟨⟨_, rfl⟩, _⟩ := failStart_lookup failed
      exact ⟨rfl, rfl⟩
  | _ => exact ⟨rfl, rfl⟩

theorem Sight.Spent.move {deployment : Deployment} {world : World}
    {key : TurnKey} {after : Sight} (known : world.Known deployment)
    (spent : (world.sight key).Spent)
    (move : World.SightMove deployment world key after) : after.Spent := by
  obtain ⟨present, asked⟩ := spent
  cases move with
  | began _ isKey _ done =>
      subst isKey
      exact (present (Database.createTurn_eq_ok done).1).elim
  | start found isKey step =>
      refine ⟨(step.written known.orderly (isKey ▸ found) key).isSome present, ?_⟩
      rintro _ ⟨⟩
      exact (step.beforeCreate (asked _ found)).1
  | forgetStart found =>
      refine ⟨present, ?_⟩
      rintro _ ⟨⟩
      have known := asked _ found
      exact known
  | beginFinish => exact ⟨by simp, asked⟩
  | finish found isKey fits _ _ _ outcome =>
      subst isKey
      exact ⟨(World.finishOutcome_written known.orderly found fits outcome
        _).isSome present, asked⟩
  | forgetFinish | woken | marked => exact ⟨present, asked⟩
  | forced => exact ⟨by simp, asked⟩

theorem Sight.Spent.boot {before after : Sight} (spent : before.Spent)
    (booted : World.Rebooted before after) : after.Spent := by
  constructor
  · rcases booted.row with ⟨same, _⟩ | ⟨_, _, _, _, written⟩
    · rw [same]
      exact spent.1
    · simp [written]
  · intro call isCall
    rw [booted.start] at isCall
    cases isCall

section Counting

variable {deployment : Deployment} {world next : World} {key : TurnKey}

theorem Served.spent_step (served : Served deployment world)
    (spent : (world.sight key).Spent) {event : Event}
    (serving : event.serving = true)
    (taken : world.step deployment event = some next) :
    (next.sight key).Spent :=
  served.sight_step (fun _ known _ spent move => spent.move known move)
    (fun _ _ spent booted => spent.boot booted) spent serving taken

/-- A start that asks for a runtime had not asked before. -/
theorem Served.asks (served : Served deployment world) {event : Event}
    (serving : event.serving = true)
    (taken : world.step deployment event = some next)
    (resumes : event.resumes key = true)
    (awaits : next.awaitsRuntime key = true) :
    ¬ (world.sight key).Spent ∧ (next.sight key).Spent := by
  cases World.stepped taken with
  | @resumeStart other _ resumed =>
      have isKey : other = key := of_decide_eq_true resumes
      subst isKey
      have servedNext : Served deployment next := served.step serving taken
      have later := servedNext.orderly.phased other
      unfold World.resumeStart at resumed
      split at resumed
      case h_1 => cases resumed
      case h_2 call found =>
      obtain ⟨⟨db, stage⟩, advanced, rfl⟩ :=
        Option.map_eq_some_iff.mp resumed
      have step := advanceStart_step advanced
      have isCreate : stage.isCreate = true := by
        unfold World.awaitsRuntime at awaits
        dsimp only at awaits
        rw [AList.lookup_insert] at awaits
        exact awaits
      refine ⟨?_, ?_, ?_⟩
      · rintro ⟨_, asked⟩
        rw [(step.beforeCreate (asked call found)).2] at isCreate
        cases isCreate
      · intro absent
        have noStart := (later.absent absent).1
        dsimp only at noStart
        rw [AList.lookup_insert] at noStart
        cases noStart
      · intro started isStarted
        unfold World.sight at isStarted
        dsimp only at isStarted
        rw [AList.lookup_insert] at isStarted
        cases isStarted
        dsimp only
        cases stage <;> first | rfl | cases isCreate
  | _ => cases resumes

theorem Served.none_created (served : Served deployment world)
    (spent : (world.sight key).Spent) {events : List Event}
    (serving : ∀ event ∈ events, event.serving = true) :
    runtimesCreated deployment key world events = 0 := by
  induction events generalizing world with
  | nil => rfl
  | cons event events induction =>
      have isServing := serving event List.mem_cons_self
      unfold runtimesCreated
      split
      case h_1 => rfl
      case h_2 next taken =>
        have rest := induction (served.step isServing taken)
          (served.spent_step spent isServing taken)
          (fun other member => serving other (List.mem_cons_of_mem _ member))
        rw [rest, if_neg]
        intro asks
        obtain ⟨resumes, awaits⟩ := Bool.and_eq_true_iff.mp asks
        exact (served.asks isServing taken resumes awaits).1 spent

theorem Served.one_created (served : Served deployment world)
    {events : List Event}
    (serving : ∀ event ∈ events, event.serving = true) :
    runtimesCreated deployment key world events ≤ 1 := by
  induction events generalizing world with
  | nil => exact Nat.zero_le 1
  | cons event events induction =>
      have isServing := serving event List.mem_cons_self
      have others : ∀ other ∈ events, other.serving = true :=
        fun other member => serving other (List.mem_cons_of_mem _ member)
      unfold runtimesCreated
      split
      case h_1 => exact Nat.zero_le 1
      case h_2 next taken =>
        have later : Served deployment next := served.step isServing taken
        split
        case isTrue asks =>
          obtain ⟨resumes, awaits⟩ := Bool.and_eq_true_iff.mp asks
          have spent := (served.asks isServing taken resumes awaits).2
          rw [later.none_created spent others]
        case isFalse =>
          rw [Nat.zero_add]
          exact induction later others

end Counting

/-! ## Retried requests -/

theorem TurnRow.Change.request {row : TurnRow} {later : Option TurnRow}
    {request : StartRequest} (change : TurnRow.Change (some row) later)
    (same : row.requestJson = request) :
    ∃ written, later = some written ∧ written.requestJson = request := by
  cases change <;> exact ⟨_, rfl, same⟩

/-- The request of a turn is the one it was started with. -/
theorem World.start_request {world began : World} {input : StartTurnInput}
    {environment : StartEnvironment}
    (pending : world.start input environment = (began, .pending)) :
    ∃ row, began.db.turns.lookup input.key = some row ∧
      row.requestJson = input.normalizedRequest := by
  unfold World.start at pending
  split at pending
  case isTrue => cases pending
  split at pending
  case h_1 => cases pending
  split at pending
  case h_1 => cases pending
  split at pending
  case h_1 => cases pending
  split at pending
  case h_1 => cases pending
  case h_2 created done =>
  obtain ⟨_, _, _, isCreated⟩ := Database.createTurn_eq_ok done
  obtain rfl := (Prod.mk.inj pending).1
  have isStarting : created.turns.lookup input.key =
      some input.startingRow := by
    rw [isCreated]
    exact AList.lookup_insert _
  unfold World.beginStart
  dsimp only
  generalize run : startCreated world.emptyCommit created input
    world.nextUuid (world.nextUuid + 1) = outcome
  obtain ⟨next, stage⟩ := outcome
  rcases startCreated_turns run with ⟨_, failed⟩ | ⟨same, _⟩
  · obtain ⟨_, _, kept | stopped⟩ := failStart_lookup failed
    · exact ⟨_, kept.trans isStarting, rfl⟩
    · rw [isStarting] at stopped
      exact ⟨_, stopped, rfl⟩
  · refine ⟨input.startingRow, ?_, rfl⟩
    rw [same]
    exact isStarting

theorem Served.request_kept {deployment : Deployment} {world : World}
    (served : Served deployment world) {key : TurnKey} {row : TurnRow}
    (found : world.db.turns.lookup key = some row) {events : List Event}
    {later : World} (serving : ∀ event ∈ events, event.serving = true)
    (replay : run (World.step deployment) world events = some later) :
    Served deployment later ∧
      ∃ written, later.db.turns.lookup key = some written ∧
        written.requestJson = row.requestJson := by
  let holds (written : TurnRow) : Prop :=
    written.requestJson = row.requestJson
  have before : holds row := rfl
  have kept : Served deployment later ∧
      ∃ written, later.db.turns.lookup key = some written ∧
        holds written := by
    refine served.row_run ?_ ?_ found before serving replay
    · intro before after same change
      exact change.request same
    · intro _ _ _ same
      exact same
  exact kept

/-- What a harness may rely on when it repeats requests. -/
structure Idempotent (deployment : Deployment) (world : World) : Prop where
  oneRuntime : ∀ key events, (∀ event ∈ events, Event.serving event = true) →
    runtimesCreated deployment key world events ≤ 1
  oneCommit : (world.history.publications.map Publication.key).Nodup
  otherRequest : ∀ first environment began,
    world.start first environment = (began, .pending) → ∀ events later,
    (∀ event ∈ events, Event.serving event = true) →
    run (World.step deployment) began events = some later →
    later.close = none → ∀ (second : StartTurnInput) environment,
    second.key = first.key →
    second.normalizedRequest ≠ first.normalizedRequest →
    later.start second environment = (later, .view (.error
      (.coded .invalidArgument
        "Turn ID was already used with a different request")))
  sameRequest : ∀ first environment began,
    world.start first environment = (began, .pending) → ∀ events later,
    (∀ event ∈ events, Event.serving event = true) →
    run (World.step deployment) began events = some later →
    later.close = none → later.turnState first.key = some .opened →
    ∃ turn, later.startResult first.key = some (.ok turn) ∧
      ∀ (second : StartTurnInput) environment, second.key = first.key →
        second.normalizedRequest = first.normalizedRequest →
        later.start second environment = (later, .view (.ok turn))
  finishAgain : ∀ key result, world.finishResult key = some result →
    ∀ events later, (∀ event ∈ events, Event.serving event = true) →
    run (World.step deployment) world events = some later →
    ∀ environment, ∃ again,
      later.finish key environment = (later, .view again) ∧
        SameAnswer result again
  replayAgain : ∀ key state, state = .finished ∨ state = .failed →
    world.turnState key = some state → ∀ environment, ∃ result,
      world.finish key environment = (world, .view result) ∧
      ∀ events later, (∀ event ∈ events, Event.serving event = true) →
      run (World.step deployment) world events = some later →
      ∀ environment, ∃ again,
        later.finish key environment = (later, .view again) ∧
          SameAnswer result again

/-- A repeated start of a turn whose row exists is answered from the row. -/
theorem Served.start_existing {deployment : Deployment} {world : World}
    (served : Served deployment world) (unclosed : world.close = none)
    {input : StartTurnInput} {row : TurnRow}
    (found : world.db.turns.lookup input.key = some row)
    (environment : StartEnvironment) :
    world.start input environment = (world, .view
      (existingStart input.key row input.normalizedRequest)) := by
  have serving : world.closing = false := by
    by_contra closing
    exact served.closing_iff.mp (by simpa using closing) unclosed
  have phase := served.orderly.phased input.key
  have valid := phase.valid (by simp [found])
  unfold World.start Database.getTurn
  rw [serving, valid, found]
  rfl

theorem finishResult_eq_some {world : World} {key : TurnKey}
    {result : Except Thrown TurnView}
    (isResult : world.finishResult key = some result) :
    ∃ call, world.finishes.lookup key = some call ∧
      call.stage = .settled result := by
  unfold World.finishResult at isResult
  split at isResult
  case h_1 found =>
    cases isResult
    exact ⟨_, found, rfl⟩
  case h_2 => cases isResult

theorem harness_retries_idempotent {deployment : Deployment} {world : World}
    (served : Served deployment world) : Idempotent deployment world := by
  have started : ∀ {first environment began},
      world.start first environment = (began, .pending) → ∀ {events later},
      (∀ event ∈ events, Event.serving event = true) →
      run (World.step deployment) began events = some later →
      Served deployment later ∧ ∃ row,
        later.db.turns.lookup first.key = some row ∧
          row.requestJson = first.normalizedRequest := by
    intro first environment began pending events later serving replay
    obtain ⟨row, isRow, requested⟩ := World.start_request pending
    have taken : world.step deployment (.start first environment) =
        some began := by
      unfold World.step World.respond
      dsimp only
      rw [pending]
      rfl
    have servedBegan : Served deployment began := served.step rfl taken
    obtain ⟨servedLater, written, isWritten, same⟩ :=
      servedBegan.request_kept isRow serving replay
    exact ⟨servedLater, written, isWritten, same.trans requested⟩
  constructor
  · intro key events serving
    exact served.one_created serving
  · exact served.lineage.once
  · intro first environment began pending events later serving replay
      unclosed second environment sameKey different
    obtain ⟨servedLater, row, isRow, requested⟩ :=
      started pending serving replay
    rw [← sameKey] at isRow
    rw [servedLater.start_existing unclosed isRow]
    unfold existingStart
    rw [if_pos]
    rw [requested]
    exact fun same => different same.symm
  · intro first environment began pending events later serving replay
      unclosed isOpened
    obtain ⟨servedLater, row, isRow, requested⟩ :=
      started pending serving replay
    have state : row.state = .opened := by
      unfold World.turnState at isOpened
      rw [isRow] at isOpened
      exact Option.some.inj isOpened
    obtain ⟨call, isCall, isStage⟩ :=
      (servedLater.replays first.key).opened row isRow state
    refine ⟨view first.key row, ?_, ?_⟩
    · unfold World.startResult
      rw [show later.starts.lookup first.key = some call from isCall]
      cases call
      cases isStage
      rfl
    · intro second environment sameKey same
      rw [← sameKey] at isRow
      rw [servedLater.start_existing unclosed isRow]
      unfold existingStart
      rw [if_neg (by simp [requested, same]), state, sameKey]
  · intro key result isResult events later serving replay environment
    obtain ⟨call, isCall, isStage⟩ := finishResult_eq_some isResult
    obtain ⟨row, isRow, told⟩ := (served.replays key).told call isCall
    rw [isStage] at told
    exact served.answers_again isRow told serving replay environment
  · intro key state ended isState environment
    obtain ⟨row, isRow, rfl⟩ := Option.map_eq_some_iff.mp isState
    have answers : ∃ result, row.Answers key result := by
      rcases ended with isFinished | isFailed
      · exact ⟨.ok (view key row), isFinished, rfl⟩
      · obtain ⟨error, isError⟩ :=
          (served.formed key row isRow).failed isFailed
        exact ⟨.error (.service error), isFailed, isError⟩
    obtain ⟨result, isAnswer⟩ := answers
    obtain ⟨first, replied, same⟩ := World.finish_replays
      served.orderly.phased isRow isAnswer environment
    refine ⟨first, replied, ?_⟩
    intro events later serving replay environment
    obtain ⟨again, repliedAgain, sameAgain⟩ :=
      served.answers_again isRow isAnswer serving replay environment
    exact ⟨again, repliedAgain, same.of_first sameAgain⟩

private def retriedKey : TurnKey := ⟨"thread", "turn"⟩

/-- An instant turn is started twice and finished. -/
private def retriedRun : List Event :=
  .start { threadId := "thread", turnId := "turn", mode := .instant } {} ::
    .start { threadId := "thread", turnId := "turn", mode := .instant } {} ::
    List.replicate 5 (.resumeStart retriedKey) ++
    .finish retriedKey { capture := .error (.plain "unused") } ::
    List.replicate 6 (.resumeFinish retriedKey)

theorem harness_retries_idempotent_sample :
    ∃ world, run (World.step Deployment.transparent) World.empty
        (.boot (fun _ => .ok ()) :: retriedRun) = some world ∧
      world.turnState retriedKey = some .finished ∧
      Idempotent Deployment.transparent world := by
  have replay : (run (World.step Deployment.transparent) World.empty
      (.boot (fun _ => .ok ()) :: retriedRun)).any (fun world =>
        decide (world.turnState retriedKey = some .finished)) = true := by
    decide +kernel
  obtain ⟨world, isWorld, isFinished⟩ := (Option.any_eq_true _ _).mp replay
  have served : Served Deployment.transparent world :=
    Served.of_run (by decide) isWorld
  exact ⟨world, isWorld, of_decide_eq_true isFinished,
    harness_retries_idempotent served⟩

end Electrosphere
