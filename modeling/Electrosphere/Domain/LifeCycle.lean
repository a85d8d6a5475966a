import Electrosphere.Domain.Moves

/-!
# The life of a turn

`TurnRow.Change` lists what the calls of a process do to the row of a turn,
and each event makes at most one such change to each row.  What holds of rows
over whole runs follows from the list alone.
-/

namespace Electrosphere

open Foundation Relation

/-! ## Changes of a row -/

inductive TurnRow.Change : Option TurnRow → Option TurnRow → Prop where
  | inserted (input : StartTurnInput) :
      Change none (some input.startingRow)
  | opened {call : StartCall} {runtime : RuntimeInput} :
      runtime.For call →
      Change (some call.input.startingRow)
        (some ((openUpdate runtime).apply call.input.startingRow))
  | stopped {row : TurnRow} {id : InstanceId} {error : ServiceError} :
      row.state = .starting →
      Change (some row) (some { row with
        state := .failed, instanceId := some id, errorJson := some error })
  | finishing {row : TurnRow} :
      row.state = .opened →
      Change (some row) (some { row with state := .finishing })
  | published {row : TurnRow} (input : PublishInput) :
      row.state = .finishing →
      Change (some row) (some (Database.publishedRow input row))
  | completed {row : TurnRow} (response : TurnResponse) :
      row.state = .finishing →
      Change (some row) (some { row with
        state := .finished
        resultJson := some { response := some response }
        errorJson := none })
  | failed {row : TurnRow} {error : ServiceError} :
      row.state = .starting ∨ row.state = .finishing →
      Change (some row) (some { row with
        state := .failed, errorJson := some error })
  | noted {row : TurnRow} (message : String) :
      row.state = .finished →
      Change (some row) (some { row with
        resultJson := some
          { response := row.resultJson.bind StoredResult.response
            cleanupError := some message } })

/-- At most one change. -/
def TurnRow.Written : Option TurnRow → Option TurnRow → Prop :=
  ReflGen TurnRow.Change

namespace World

variable {deployment : Deployment} {world after : World}

/-- The service has been initialised, so `startCreated` does not throw before
its first await. -/
def Initialized (world : World) : Prop :=
  ∃ emptyCommit, world.emptyCommit = some emptyCommit

theorem Initialized.startCreated (initialized : world.Initialized)
    {created next : Database} {input : StartTurnInput} {id : InstanceId}
    {fresh : WorkspaceId} {stage : StartStage}
    (began : startCreated world.emptyCommit created input id fresh =
      (next, stage)) : next.turns = created.turns := by
  obtain ⟨emptyCommit, isEmpty⟩ := initialized
  rw [isEmpty] at began
  unfold Electrosphere.startCreated at began
  split at began
  case h_1 =>
    cases began
    rfl
  case h_2 =>
    simp only [Prod.mk.injEq] at began
    rcases ensureThreadWorkspace_eq (Prod.ext began.1 rfl) with
      ⟨rfl, _⟩ | ⟨_, _, done, _⟩
    · rfl
    · obtain ⟨_, _, _, _, rfl⟩ := Database.insertThreadWorkspace_eq_ok done
      rfl

theorem CallMove.emptyCommit (move : CallMove deployment world after) :
    after.emptyCommit = world.emptyCommit := by
  cases move with
  | release released => exact (release_leasesOnly released).emptyCommit
  | mark marked =>
      obtain ⟨_, _, rfl⟩ := markInstance_eq marked
      rfl
  | beginStart | advanceStart | forgetStart | grant | beginFinish
  | advanceFinish | forgetFinish | fork | force | closing => rfl

end World

/-- A start in flight changes its own row alone. -/
theorem StartStep.written {deployment : Deployment} {world : World}
    {call : StartCall} {next : Database} {stage : StartStage}
    (step : StartStep deployment world.db call next stage)
    (orderly : world.Orderly)
    (found : world.starts.lookup call.input.key = some call)
    (key : TurnKey) :
    TurnRow.Written (world.db.turns.lookup key) (next.turns.lookup key) := by
  have phase := orderly.phased call.input.key
  rw [found] at phase
  have isStarting := phase.starting call rfl step.unsettled
  have fits := (phase.starts call rfl).2
  by_cases same : key = call.input.key
  · subst same
    rcases step.turn isStarting fits with ⟨unchanged, _⟩ |
      ⟨runtime, isStage, _, written, _⟩ | ⟨error, _, failed⟩
    · rw [unchanged]
      exact .refl
    · rw [isStarting, written]
      exact .single (.opened (fits.runtime runtime (by rw [isStage]; rfl)))
    · obtain ⟨_, _, kept | stopped⟩ := failStart_lookup failed
      · rw [kept]
        exact .refl
      · rw [stopped, isStarting]
        exact .single (.stopped rfl)
  · rw [step.other_turns isStarting fits same]
    exact .refl

namespace World

variable {deployment : Deployment} {world after : World}

/-- A finish in flight changes its own row alone. -/
theorem finishOutcome_written (orderly : world.Orderly) {call : FinishCall}
    {segment : FinishSegment}
    (found : world.finishes.lookup call.key = some call) (fits : call.Fits)
    (outcome : FinishOutcome deployment world.db call segment)
    (key : TurnKey) :
    TurnRow.Written (world.db.turns.lookup key)
      (segment.db.turns.lookup key) := by
  by_cases same : key = call.key
  · subst same
    have phase := orderly.phased call.key
    rw [found] at phase
    have pending : ∀ {row}, call.stage.unpublished = true →
        world.db.turns.lookup call.key = some row →
        row.state = .finishing := by
      intro row unpublished isRow
      rw [phase.pending call rfl unpublished] at isRow
      cases isRow
      exact fits.finishing
    cases outcome with
    | runs unchanged =>
        rw [unchanged.turns]
        exact .refl
    | publishes isCommit done =>
        obtain ⟨row, isRow, isFinishing, turns⟩ := publish_turns done
        rw [turns, (fits.commit _ isCommit).key, AList.lookup_insert]
        rw [(fits.commit _ isCommit).key] at isRow
        rw [isRow]
        exact .single (.published _ isFinishing)
    | fails unpublished unchanged isRow isDb =>
        rw [isDb, isRow]
        dsimp only
        rw [AList.lookup_insert]
        exact .single (.failed (.inr (pending unpublished isRow)))
    | completes unpublished isRow _ isDb =>
        rw [isDb, isRow]
        dsimp only
        rw [AList.lookup_insert]
        exact .single (.completed _ (pending unpublished isRow))
    | notes published unchanged isRow isDb =>
        obtain ⟨row, isTurn, isFinished⟩ :=
          phase.published call rfl published
        cases isRow.symm.trans isTurn
        rw [isDb, isRow]
        dsimp only
        rw [AList.lookup_insert]
        exact .single (.noted _ isFinished)
    | returns _ isDb =>
        rw [isDb]
        exact .refl
  · rw [outcome.other_turns fits same]
    exact .refl

/-- A close forces turns that are not open. -/
theorem forced_written (noOpened : ∀ key, ¬ world.Opened key) {next : Database}
    (marks : world.db.MarksFailed next) (key : TurnKey) :
    TurnRow.Written (world.db.turns.lookup key) (next.turns.lookup key) := by
  rcases marks.turns key with same | ⟨row, error, found, active, written⟩
  · rw [same]
    exact .refl
  · rw [found, written]
    refine .single (.failed ?_)
    cases state : row.state with
    | starting => exact .inl rfl
    | finishing => exact .inr rfl
    | opened => exact (noOpened key ⟨row, found, state⟩).elim
    | finished | failed =>
        rw [state] at active
        cases active

/-- Each move changes each row at most once. -/
theorem CallMove.written (initialized : world.Initialized)
    (orderly : world.Orderly) (move : CallMove deployment world after) (key : TurnKey) :
    TurnRow.Written (world.db.turns.lookup key) (after.db.turns.lookup key) := by
  cases move with
  | @beginStart input created environment _ _ done =>
      obtain ⟨absent, _, _, rfl⟩ := Database.createTurn_eq_ok done
      unfold World.beginStart
      dsimp only
      generalize began : startCreated world.emptyCommit _ input
        world.nextUuid (world.nextUuid + 1) = outcome
      obtain ⟨next, stage⟩ := outcome
      dsimp only
      rw [initialized.startCreated began, AList.lookup_insert_if]
      split
      case isTrue same =>
        rw [same, absent]
        exact .single (.inserted input)
      case isFalse => exact .refl
  | advanceStart found step => exact step.written orderly found key
  | forgetStart | grant | forgetFinish | closing => exact .refl
  | release released =>
      rw [(release_leasesOnly released).db]
      exact .refl
  | @beginFinish other row environment found isOpened =>
      unfold World.beginFinish
      dsimp only
      rw [AList.lookup_insert_if]
      split
      case isTrue same =>
        rw [same, found]
        exact .single (.finishing isOpened)
      case isFalse => exact .refl
  | advanceFinish found fits _ outcome =>
      exact finishOutcome_written orderly found fits outcome key
  | fork done =>
      obtain ⟨_, _, _, _, rfl⟩ := Database.insertThreadWorkspace_eq_ok done
      exact .refl
  | mark marked =>
      obtain ⟨_, _, rfl⟩ := markInstance_eq marked
      exact .refl
  | force _ noOpened _ _ marks => exact forced_written noOpened marks key

theorem Moves.written (initialized : world.Initialized)
    (moves : Moves deployment world after) (key : TurnKey) :
    TurnRow.Written (world.db.turns.lookup key)
      (after.db.turns.lookup key) := by
  induction moves with
  | none => exact .refl
  | move _ orderly move => exact move.written initialized orderly key
  | before _ _ _ _ _ induction => exact induction initialized
  | after _ _ _ _ _ induction => exact induction initialized

/-- What a boot does to the row of a turn. -/
theorem boot_row {destroy : InstanceId → Except Thrown Unit}
    (booted : world.boot deployment destroy = some after) (key : TurnKey) :
    after.db.turns.lookup key = world.db.turns.lookup key ∨
      ∃ row error, world.db.turns.lookup key = some row ∧
        row.state.active = true ∧ after.db.turns.lookup key =
          some { row with state := .failed, errorJson := some error } := by
  obtain ⟨seeded, next, done, isNext, rfl⟩ := boot_eq booted
  obtain ⟨_, _, _, _, sameTurns, _⟩ := Database.putCapture_frame done
  obtain ⟨stopped, quiet, marks, _⟩ := recover_eq isNext
  have turns := marks.turns key
  rw [quiet.turns, sameTurns] at turns
  exact turns

end World

/-! ## What holds of every row -/

/-- The columns that go with the state of a row. -/
structure TurnRow.Formed (row : TurnRow) : Prop where
  opened : row.state = .opened → row.Complete
  finished : row.state = .finished →
    (∃ response, row.resultJson.bind StoredResult.response = some response) ∧
      row.errorJson = none
  failed : row.state = .failed → ∃ error, row.errorJson = some error

theorem TurnRow.Formed.change {row later : Option TurnRow}
    (change : TurnRow.Change row later)
    (formed : ∀ before, row = some before → before.Formed) :
    ∀ written, later = some written → written.Formed := by
  rintro written rfl
  cases change with
  | inserted => exact ⟨by simp [StartTurnInput.startingRow],
      by simp [StartTurnInput.startingRow],
      by simp [StartTurnInput.startingRow]⟩
  | opened known =>
      refine ⟨fun _ => openUpdate_complete known, ?_, ?_⟩ <;>
        simp [TurnUpdate.apply, openUpdate_state]
  | stopped | failed => exact ⟨by simp, by simp, by simp⟩
  | finishing => exact ⟨by simp, by simp, by simp⟩
  | published | completed => constructor <;> simp [Database.publishedRow]
  | @noted before message isFinished =>
      have known := (formed before rfl).finished isFinished
      refine ⟨?_, fun _ => known, ?_⟩ <;> simp [isFinished]

theorem TurnRow.Formed.written {row later : Option TurnRow}
    (written : TurnRow.Written row later)
    (formed : ∀ before, row = some before → before.Formed) :
    ∀ after, later = some after → after.Formed := by
  cases written with
  | refl => exact formed
  | single change => exact TurnRow.Formed.change change formed

theorem Served.initialized {deployment : Deployment} {world : World}
    (served : Served deployment world) : world.Initialized := by
  apply served.invariant_from_boot
  · rintro first ⟨destroy, booted⟩
    obtain ⟨_, _, _, _, rfl⟩ := World.boot_eq booted
    exact ⟨_, rfl⟩
  · intro before after _ _ initialized move
    cases move with
    | call move =>
        obtain ⟨emptyCommit, isEmpty⟩ := initialized
        exact ⟨emptyCommit, move.emptyCommit.trans isEmpty⟩
    | boot booted =>
        obtain ⟨_, _, _, _, rfl⟩ := World.boot_eq booted
        exact ⟨_, rfl⟩

/-- Rows that a boot leaves. -/
theorem TurnRow.Formed.boot {deployment : Deployment} {world after : World}
    {destroy : InstanceId → Except Thrown Unit}
    (booted : world.boot deployment destroy = some after)
    (formed : ∀ key row, world.db.turns.lookup key = some row → row.Formed) :
    ∀ key row, after.db.turns.lookup key = some row → row.Formed := by
  intro key row found
  rcases World.boot_row booted key with same | ⟨_, _, _, _, written⟩
  · exact formed key row (same ▸ found)
  · cases found.symm.trans written
    exact ⟨by simp, by simp, by simp⟩

theorem Served.formed {deployment : Deployment} {world : World}
    (served : Served deployment world) :
    ∀ key row, world.db.turns.lookup key = some row → row.Formed := by
  suffices both : world.Initialized ∧
      ∀ key row, world.db.turns.lookup key = some row → row.Formed from both.2
  apply served.invariant_from_boot
  · rintro first ⟨destroy, booted⟩
    refine ⟨Served.initialized (.start ⟨destroy, booted⟩), ?_⟩
    apply TurnRow.Formed.boot booted
    simp [World.empty, Database.empty]
  · rintro before after _ orderly ⟨initialized, formed⟩ move
    cases move with
    | call move =>
        obtain ⟨emptyCommit, isEmpty⟩ := initialized
        refine ⟨⟨emptyCommit, move.emptyCommit.trans isEmpty⟩, ?_⟩
        intro key row found
        exact TurnRow.Formed.written
          (move.written ⟨emptyCommit, isEmpty⟩ orderly key) (formed key) row
          found
    | boot booted =>
        obtain ⟨_, _, _, _, isAfter⟩ := World.boot_eq booted
        exact ⟨⟨_, by rw [isAfter]⟩, TurnRow.Formed.boot booted formed⟩

/-! ## Rows over runs -/

section Rows

variable {deployment : Deployment} {world : World} {property : TurnRow → Prop}

theorem TurnRow.Written.preserve
    (changed : ∀ row later, property row →
      TurnRow.Change (some row) later →
      ∃ written, later = some written ∧ property written)
    {row : TurnRow} {later : Option TurnRow}
    (written : TurnRow.Written (some row) later) (holds : property row) :
    ∃ after, later = some after ∧ property after := by
  cases written with
  | refl => exact ⟨row, rfl, holds⟩
  | single change => exact changed row later holds change

/-- What every change of a row and every restart preserve, every event
preserves. -/
theorem Served.row_step
    (changed : ∀ row later, property row →
      TurnRow.Change (some row) later →
      ∃ written, later = some written ∧ property written)
    (stopped : ∀ row error, row.state.active = true → property row →
      property { row with state := .failed, errorJson := some error })
    (served : Served deployment world) {key : TurnKey} {row : TurnRow}
    (found : world.db.turns.lookup key = some row) (holds : property row)
    {event : Event} {after : World} (serving : event.serving = true)
    (taken : world.step deployment event = some after) :
    ∃ later, after.db.turns.lookup key = some later ∧ property later := by
  by_cases calling : event.calling = true
  · have written := (World.step_moves served.provisioned served.orderly
      calling taken).written served.initialized key
    rw [found] at written
    exact written.preserve changed holds
  · cases World.stepped taken with
    | boot booted =>
        rcases World.boot_row booted key with
          same | ⟨before, error, isRow, active, written⟩
        · exact ⟨row, same.trans found, holds⟩
        · cases found.symm.trans isRow
          exact ⟨_, written, stopped row error active holds⟩
    | restart | initializeService | recover | closeSandboxService =>
        cases serving
    | _ => exact (calling rfl).elim

theorem Served.row_run
    (changed : ∀ row later, property row →
      TurnRow.Change (some row) later →
      ∃ written, later = some written ∧ property written)
    (stopped : ∀ row error, row.state.active = true → property row →
      property { row with state := .failed, errorJson := some error })
    (served : Served deployment world) {key : TurnKey} {row : TurnRow}
    (found : world.db.turns.lookup key = some row) (holds : property row)
    {events : List Event} {later : World}
    (serving : ∀ event ∈ events, event.serving = true)
    (replay : run (World.step deployment) world events = some later) :
    Served deployment later ∧
      ∃ written, later.db.turns.lookup key = some written ∧
        property written := by
  induction events generalizing world row with
  | nil =>
      cases replay
      exact ⟨served, row, found, holds⟩
  | cons event events induction =>
      obtain ⟨next, taken, rest⟩ := Option.bind_eq_some_iff.mp replay
      have isServing := serving event List.mem_cons_self
      obtain ⟨middle, isMiddle, known⟩ :=
        served.row_step changed stopped found holds isServing taken
      exact induction (served.step isServing taken) isMiddle known
        (fun other member => serving other (List.mem_cons_of_mem _ member))
        rest

end Rows

/-! ## States -/

/-- The state that follows another in the life of a turn. -/
inductive TurnState.Next : Option TurnState → Option TurnState → Prop where
  | inserted : Next none (some .starting)
  | opened : Next (some .starting) (some .opened)
  | stopped : Next (some .starting) (some .failed)
  | finishing : Next (some .opened) (some .finishing)
  | finished : Next (some .finishing) (some .finished)
  | failed : Next (some .finishing) (some .failed)

def World.turnState (world : World) (key : TurnKey) : Option TurnState :=
  (world.db.turns.lookup key).map TurnRow.state

/-- The state stays, or the next one follows. -/
def TurnState.Follows (before after : Option TurnState) : Prop :=
  after = before ∨ TurnState.Next before after

theorem TurnRow.Change.follows {row later : Option TurnRow}
    (change : TurnRow.Change row later) :
    TurnState.Follows (row.map TurnRow.state) (later.map TurnRow.state) := by
  cases change with
  | inserted => exact .inr .inserted
  | opened =>
      simp only [Option.map_some, TurnUpdate.apply, openUpdate_state]
      exact .inr .opened
  | stopped isStarting =>
      rw [Option.map_some, isStarting]
      exact .inr .stopped
  | finishing isOpened =>
      rw [Option.map_some, isOpened]
      exact .inr .finishing
  | published _ isFinishing | completed _ isFinishing =>
      rw [Option.map_some, isFinishing]
      exact .inr .finished
  | failed isActive =>
      rcases isActive with isStarting | isFinishing
      · rw [Option.map_some, isStarting]
        exact .inr .stopped
      · rw [Option.map_some, isFinishing]
        exact .inr .failed
  | noted => exact .inl rfl

theorem TurnRow.Written.follows {row later : Option TurnRow}
    (written : TurnRow.Written row later) :
    TurnState.Follows (row.map TurnRow.state) (later.map TurnRow.state) := by
  cases written with
  | refl => exact .inl rfl
  | single change => exact change.follows

/-- No state follows a terminal one. -/
theorem TurnState.Follows.terminal {state : TurnState}
    {later : Option TurnState} (inactive : state.active = false)
    (follows : TurnState.Follows (some state) later) :
    later = some state := by
  cases follows with
  | inl same => exact same
  | inr next => cases next <;> cases inactive

/-- The life of every turn. -/
structure LifeCycle (deployment : Deployment) (world : World) : Prop where
  follows : ∀ event after, event.calling = true →
    world.step deployment event = some after → ∀ key,
      TurnState.Follows (world.turnState key) (after.turnState key)
  terminal : ∀ event after, event.serving = true →
    world.step deployment event = some after → ∀ key state,
      state = .finished ∨ state = .failed →
      world.turnState key = some state → after.turnState key = some state
  oneActive : ∀ key row other otherRow,
    world.db.turns.lookup key = some row →
    world.db.turns.lookup other = some otherRow →
    row.state.active = true → otherRow.state.active = true →
    other.threadId = key.threadId → other = key
  finished : ∀ key row, world.db.turns.lookup key = some row →
    row.state = .finished → row.resultJson ≠ none ∧ row.errorJson = none
  failed : ∀ key row, world.db.turns.lookup key = some row →
    row.state = .failed → row.errorJson ≠ none
  opened : ∀ key row, world.db.turns.lookup key = some row →
    row.state = .opened → row.instanceId ≠ none ∧
      (row.mode = .durable →
        row.workspaceId ≠ none ∧ row.expectedHead ≠ none)
  bound : ∀ key, resolve world.db key ≠
    .error (.coded .backendError "Durable turn binding is incomplete")

/-- Whatever the interleaving, every turn lives its life in order. -/
theorem turn_life_cycle {deployment : Deployment} {world : World}
    (served : Served deployment world) : LifeCycle deployment world := by
  have complete : ∀ key row, world.db.turns.lookup key = some row →
      row.state = .opened → row.instanceId ≠ none ∧
        (row.mode = .durable →
          row.workspaceId ≠ none ∧ row.expectedHead ≠ none) := by
    intro key row found isOpened
    obtain ⟨⟨id, isRuntime⟩, durable⟩ :=
      (served.formed key row found).opened isOpened
    refine ⟨by simp [isRuntime], fun isDurable => ?_⟩
    obtain ⟨workspace, head, isWorkspace, isHead⟩ := durable isDurable
    simp [isWorkspace, isHead]
  have follows : ∀ event after, event.calling = true →
      world.step deployment event = some after → ∀ key,
        TurnState.Follows (world.turnState key) (after.turnState key) := by
    intro event after calling taken key
    have moves := World.step_moves served.provisioned served.orderly calling
      taken
    exact (moves.written served.initialized key).follows
  refine ⟨follows, ?_, served.provisioned.sound.activeUnique, ?_, ?_,
    complete, ?_⟩
  · intro event after serving taken key state terminal isState
    obtain ⟨row, found, rfl⟩ := Option.map_eq_some_iff.mp isState
    have inactive : row.state.active = false := by
      rcases terminal with same | same <;> rw [same] <;> rfl
    have kept : ∀ before later, before.state = row.state →
        TurnRow.Change (some before) later →
        ∃ written, later = some written ∧ written.state = row.state := by
      intro before later same change
      have follows := change.follows
      rw [Option.map_some, same] at follows
      obtain ⟨written, isWritten, sameState⟩ :=
        Option.map_eq_some_iff.mp (follows.terminal inactive)
      exact ⟨written, isWritten, sameState⟩
    have stopped : ∀ (before : TurnRow) (error : ServiceError),
        before.state.active = true → before.state = row.state →
        TurnState.failed = row.state := by
      intro before error active same
      rw [same, inactive] at active
      cases active
    obtain ⟨later, isLater, same⟩ :=
      served.row_step kept stopped found rfl serving taken
    unfold World.turnState
    rw [isLater, Option.map_some, same]
  · intro key row found isFinished
    obtain ⟨⟨response, stored⟩, noError⟩ :=
      (served.formed key row found).finished isFinished
    refine ⟨?_, noError⟩
    intro none
    rw [none] at stored
    cases stored
  · intro key row found isFailed
    obtain ⟨error, isError⟩ := (served.formed key row found).failed isFailed
    simp [isError]
  · intro key
    unfold resolve Database.getTurn
    cases found : world.db.turns.lookup key with
    | none => simp [Thrown.coded]
    | some row =>
        dsimp only
        unfold Electrosphere.bound
        split
        case h_1 isOpened _ =>
          obtain ⟨_, durable⟩ := complete key row found isOpened
          rw [if_neg]
          · simp
          · rintro ⟨isDurable, noWorkspace | noHead⟩
            · exact (durable isDurable).1 noWorkspace
            · exact (durable isDurable).2 noHead
        case h_2 => simp [Thrown.coded]

private def lifeKey : TurnKey := ⟨"thread", "turn"⟩

/-- An instant turn is opened and its finish has begun. -/
private def finishingTurn : List Event :=
  .start { threadId := "thread", turnId := "turn", mode := .instant } {} ::
    List.replicate 5 (.resumeStart lifeKey) ++
    [.finish lifeKey { capture := .error (.plain "unused") }]

theorem turn_life_cycle_sample :
    ∃ world, run (World.step Deployment.transparent) World.empty
        (.boot (fun _ => .ok ()) :: finishingTurn) = some world ∧
      world.turnState lifeKey = some .finishing ∧
      LifeCycle Deployment.transparent world := by
  have replay : (run (World.step Deployment.transparent) World.empty
      (.boot (fun _ => .ok ()) :: finishingTurn)).any (fun world =>
        decide (world.turnState lifeKey = some .finishing)) = true := by
    decide +kernel
  obtain ⟨world, isWorld, isFinishing⟩ := (Option.any_eq_true _ _).mp replay
  have served : Served Deployment.transparent world :=
    Served.of_run (by decide) isWorld
  exact ⟨world, isWorld, of_decide_eq_true isFinishing,
    turn_life_cycle served⟩

end Electrosphere
