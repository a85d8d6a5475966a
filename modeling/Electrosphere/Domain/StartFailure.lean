import Electrosphere.Domain.WorkspaceHistory

/-!
# How a start ends

Every stage of a start knows which answers of the layers below brought it
there and whether the row of its runtime exists yet.  A start that is stopped
before that row exists cannot mark its turn failed, because the update names
the missing row: the turn stays behind as starting.
-/

namespace Electrosphere

open Foundation

/-! ## What stops a start -/

/-- The backend that a start asks for. -/
def StartTurnInput.runtimeBackend (deployment : Deployment)
    (input : StartTurnInput) : Backend :=
  match input.mode with
  | .instant => input.backend.getD .firecracker
  | .durable => input.backend.getD deployment.defaultBackend

/-- The answers up to the insert of the runtime's row. -/
def StartEnvironment.materialized (environment : StartEnvironment)
    (backend : Backend) : Except Thrown Unit :=
  match checkProbe backend environment.preflight with
  | .error error => .error error
  | .ok () =>
      match environment.makeDirectory with
      | .error error => .error error
      | .ok () => environment.materialize

/-- The answers of the whole start: what `createTurnRuntime` throws, if it
throws. -/
def StartEnvironment.outcome (environment : StartEnvironment)
    (backend : Backend) : Except Thrown Unit :=
  match environment.materialized backend with
  | .error error => .error error
  | .ok () =>
      match environment.create, environment.removeDirectory with
      | .ok _, _ => .ok ()
      | .error error, .ok () => .error error
      | .error _, .error removeError => .error removeError

def StartCall.materialized (deployment : Deployment) (call : StartCall) :
    Except Thrown Unit :=
  call.environment.materialized (call.input.runtimeBackend deployment)

def StartCall.outcome (deployment : Deployment) (call : StartCall) :
    Except Thrown Unit :=
  call.environment.outcome (call.input.runtimeBackend deployment)

/-! ## Rows that exist -/

/-- Runtimes and workspaces are the same, and no commit is gone. -/
structure Database.Keeps (db next : Database) : Prop where
  instances : ∀ id, next.hasInstance id = db.hasInstance id
  commits : ∀ id, db.hasCommit id = true → next.hasCommit id = true
  workspaces : ∀ id, next.hasWorkspace id = db.hasWorkspace id

namespace Database.Keeps

variable {first second third : Database}

theorem refl (db : Database) : db.Keeps db :=
  ⟨fun _ => rfl, fun _ => id, fun _ => rfl⟩

theorem trans (left : first.Keeps second) (right : second.Keeps third) :
    first.Keeps third :=
  ⟨fun id => (right.instances id).trans (left.instances id),
    fun id present => right.commits id (left.commits id present),
    fun id => (right.workspaces id).trans (left.workspaces id)⟩

theorem of_quiet (quiet : first.Quiet second) : first.Keeps second :=
  ⟨quiet.hasInstance, fun id present => (quiet.hasCommit id).trans present,
    quiet.hasWorkspace⟩

/-- A change of turn rows alone. -/
theorem of_turns (same : second = { first with turns := second.turns }) :
    first.Keeps second := by
  refine ⟨fun id => ?_, fun id present => ?_, fun id => ?_⟩
  · rw [same]
    rfl
  · rw [same]
    exact present
  · rw [same]
    rfl

theorem of_updateTurn {key : TurnKey} {update : TurnUpdate}
    (done : first.updateTurn key update = .ok second) :
    first.Keeps second := by
  cases found : first.turns.lookup key with
  | none =>
      rw [Database.updateTurn_of_absent found] at done
      cases done
      exact refl first
  | some row =>
      obtain ⟨_, _, rfl⟩ := (Database.updateTurn_eq_ok found).mp done
      exact of_turns rfl

theorem of_failStart {key : TurnKey} {id : InstanceId} {error : Thrown}
    {stage : StartStage}
    (failed : failStart first key id error = (second, stage)) :
    first.Keeps second := by
  unfold failStart at failed
  split at failed <;> cases failed
  case h_1 done => exact of_updateTurn done
  case h_2 => exact refl first

/-- Inserting a tree and a commit. -/
theorem of_capture {tree : CfsObject} {id : Digest} {row : CommitRow}
    (done : (first.putTreeObject tree).putCommit id row = .ok second) :
    first.Keeps second := by
  obtain ⟨workspaces, _, _, instances, _⟩ := Database.putCapture_frame done
  refine ⟨fun other => ?_, fun other present => ?_, fun other => ?_⟩
  · unfold Database.hasInstance
    rw [instances]
  · have opened : (first.putTreeObject tree).hasCommit other = true := by
      unfold Database.putTreeObject
      split <;> exact present
    rcases Database.putCommit_eq_ok done with ⟨_, rfl⟩ | ⟨_, _, rfl⟩
    · exact opened
    · unfold Database.hasCommit at opened ⊢
      rw [AList.lookup_insert_if]
      split
      · rfl
      · exact opened
  · unfold Database.hasWorkspace
    rw [workspaces]

theorem of_publish {input : PublishInput}
    (done : first.publishTurnCommit input = .ok (second, true)) :
    first.Keeps second := by
  obtain ⟨captured, row, inserted, _, _, _, rfl⟩ :=
    Database.publishTurnCommit_eq_ok done
  refine (of_capture (Database.insertCapture_eq_ok inserted)).trans ?_
  unfold Database.recordPublication
  have moved : captured.Keeps { captured with
      refs := captured.refs.insert (input.workspaceId, input.ref)
        input.commitId
      turns := captured.turns.insert input.key
        (Database.publishedRow input row) } :=
    ⟨fun _ => rfl, fun _ => id, fun _ => rfl⟩
  exact (moved.trans (of_quiet (Database.updateInstance_quiet _ _ _))).trans
    (of_quiet (Database.succeedOperation_quiet _ _ _))

theorem of_marksFailed (marks : first.MarksFailed second) :
    first.Keeps second :=
  of_turns marks.frame

theorem of_outcome {deployment : Deployment} {call : FinishCall}
    {segment : FinishSegment}
    (outcome : FinishOutcome deployment first call segment) :
    first.Keeps segment.db := by
  cases outcome with
  | runs unchanged => exact of_quiet unchanged
  | publishes _ done => exact of_publish done
  | fails _ unchanged _ isDb | notes _ unchanged _ isDb =>
      rw [isDb]
      exact (of_quiet unchanged).trans (of_turns rfl)
  | completes _ _ _ isDb =>
      rw [isDb]
      exact of_turns rfl
  | returns _ isDb =>
      rw [isDb]
      exact refl first

theorem of_recover {destroy : InstanceId → Except Thrown Unit}
    (recovered : recover destroy first = .ok second) :
    first.Keeps second := by
  obtain ⟨stopped, quiet, marks, _⟩ := World.recover_eq recovered
  exact (of_quiet quiet).trans (of_marksFailed marks)

end Database.Keeps

/-! ## The stages of a start -/

/-- The references of the runtime's row exist. -/
structure RuntimeInput.Grounded (db : Database) (runtime : RuntimeInput) :
    Prop where
  base : db.hasCommit runtime.baseCommit = true
  workspace : ∀ id, runtime.workspaceId = some id →
    db.hasWorkspace id = true

/-- The runtime is the one its start asks for. -/
structure StartTurnInput.Asks (deployment : Deployment) (db : Database)
    (input : StartTurnInput) (runtime : RuntimeInput) : Prop where
  backend : runtime.backend = input.runtimeBackend deployment
  grounded : runtime.Grounded db

/-- What the stage of a start says about the answers so far and about the
row of its runtime. -/
def StartCall.Sincere (deployment : Deployment) (db : Database)
    (call : StartCall) : Prop :=
  match call.stage with
  | .ensured result =>
      (∃ workspace, result = .ok workspace) ∧
        db.hasInstance call.instanceId = false
  | .preflight runtime =>
      call.input.Asks deployment db runtime ∧
        db.hasInstance call.instanceId = false
  | .makeDirectory runtime =>
      call.input.Asks deployment db runtime ∧
        db.hasInstance call.instanceId = false ∧
        checkProbe runtime.backend call.environment.preflight = .ok ()
  | .materialize runtime =>
      call.input.Asks deployment db runtime ∧
        db.hasInstance call.instanceId = false ∧
        checkProbe runtime.backend call.environment.preflight = .ok () ∧
        call.environment.makeDirectory = .ok ()
  | .create runtime =>
      call.input.Asks deployment db runtime ∧
        db.hasInstance call.instanceId = true ∧
        call.materialized deployment = .ok ()
  | .cleanup error =>
      db.hasInstance call.instanceId = true ∧
        call.materialized deployment = .ok () ∧
        call.environment.create = .error error
  | .created runtime =>
      call.input.Asks deployment db runtime ∧
        db.hasInstance call.instanceId = true ∧
        call.materialized deployment = .ok () ∧
        call.outcome deployment = .ok ()
  | .rejected error =>
      call.outcome deployment = .error error ∧
        (db.hasInstance call.instanceId = true ↔
          call.materialized deployment = .ok ())
  | .deleting _ _ => False
  | .settled _ => True

theorem StartTurnInput.Asks.keep {deployment : Deployment}
    {db next : Database} {input : StartTurnInput} {runtime : RuntimeInput}
    (asks : input.Asks deployment db runtime)
    (commits : ∀ id, db.hasCommit id = true → next.hasCommit id = true)
    (workspaces : ∀ id, db.hasWorkspace id = true →
      next.hasWorkspace id = true) : input.Asks deployment next runtime :=
  ⟨asks.backend, commits _ asks.grounded.base,
    fun id isWorkspace => workspaces id (asks.grounded.workspace id
      isWorkspace)⟩

namespace StartCall

variable {deployment : Deployment} {db next : Database} {call : StartCall}

/-- A change of the database that leaves the runtime of a start alone. -/
theorem Sincere.keep (sincere : call.Sincere deployment db)
    (runtime : next.hasInstance call.instanceId =
      db.hasInstance call.instanceId)
    (commits : ∀ id, db.hasCommit id = true → next.hasCommit id = true)
    (workspaces : ∀ id, db.hasWorkspace id = true →
      next.hasWorkspace id = true) : call.Sincere deployment next := by
  unfold Sincere at sincere ⊢
  split at sincere
  · exact ⟨sincere.1, runtime.trans sincere.2⟩
  · exact ⟨sincere.1.keep commits workspaces, runtime.trans sincere.2⟩
  · exact ⟨sincere.1.keep commits workspaces, runtime.trans sincere.2.1,
      sincere.2.2⟩
  · exact ⟨sincere.1.keep commits workspaces, runtime.trans sincere.2.1,
      sincere.2.2⟩
  · exact ⟨sincere.1.keep commits workspaces, runtime.trans sincere.2.1,
      sincere.2.2⟩
  · exact ⟨runtime.trans sincere.1, sincere.2⟩
  · exact ⟨sincere.1.keep commits workspaces, runtime.trans sincere.2.1,
      sincere.2.2⟩
  · exact ⟨sincere.1, by rw [runtime]; exact sincere.2⟩
  · exact sincere
  · trivial

/-- An error before the row of the runtime is inserted. -/
theorem sincere_rejected (absent : db.hasInstance call.instanceId = false)
    {error : Thrown} (stopped : call.materialized deployment = .error error) :
    { call with stage := .rejected error }.Sincere deployment db := by
  refine ⟨?_, ?_⟩
  · show call.outcome deployment = .error error
    unfold outcome StartEnvironment.outcome
    rw [show call.environment.materialized
      (call.input.runtimeBackend deployment) = .error error from stopped]
  · show db.hasInstance call.instanceId = true ↔
      call.materialized deployment = .ok ()
    simp [absent, stopped]

/-- A runtime whose commit is archived passes the checks. -/
theorem checkRuntimeInput_succeeds {objects : List String}
    (sound : Sound deployment ⟨db, objects⟩) (runtime : RuntimeInput)
    (base : db.hasCommit runtime.baseCommit = true)
    (kind : runtime.kind = .durable ↔ runtime.workspaceId ≠ none) :
    checkRuntimeInput db runtime = .ok () := by
  obtain ⟨commit, isCommit⟩ := Option.isSome_iff_exists.mp base
  obtain ⟨tree, isTree⟩ := sound.archived _ _ isCommit
  unfold checkRuntimeInput Database.getCommit Database.getTreeObject
  rw [isCommit]
  dsimp only
  rw [isTree]
  cases mode : runtime.kind <;> simp_all

end StartCall

section Step

variable {deployment : Deployment} {db next : Database} {call : StartCall}
  {stage : StartStage}

/-- A start leaves every runtime but its own alone. -/
theorem StartStep.keeps (step : StartStep deployment db call next stage)
    (fits : call.Fits) :
    (∀ id, id ≠ call.instanceId →
      next.hasInstance id = db.hasInstance id) ∧
    (∀ id, db.hasCommit id = true → next.hasCommit id = true) ∧
    (∀ id, next.hasWorkspace id = db.hasWorkspace id) := by
  have whole : db.Keeps next → (∀ id, id ≠ call.instanceId →
      next.hasInstance id = db.hasInstance id) ∧
      (∀ id, db.hasCommit id = true → next.hasCommit id = true) ∧
      (∀ id, next.hasWorkspace id = db.hasWorkspace id) :=
    fun keeps => ⟨fun id _ => keeps.instances id, keeps.commits,
      keeps.workspaces⟩
  cases step with
  | workspaceFailed | workspaceFound | probed | probeFailed | directoryMade
  | directoryFailed | materializeFailed | recordFailed | cleaned =>
      exact whole (.refl db)
  | @recorded runtime _ isStage _ done =>
      obtain ⟨_, _, rfl⟩ := Database.createInstance_eq_ok.mp done
      have isOwn := (fits.runtime runtime (by rw [isStage]; rfl)).instanceId
      refine ⟨fun id different => ?_, fun _ => id, fun _ => rfl⟩
      unfold Database.hasInstance
      dsimp only
      rw [AList.lookup_insert_if, isOwn, if_neg different]
  | created | vanished | createFailed =>
      exact whole (.of_quiet (Database.updateInstance_quiet db _ _))
  | opened _ done => exact whole (.of_updateTurn done)
  | openFailed => exact whole (.of_quiet (Deletion.start_quiet db _))
  | turnVanished _ done =>
      exact whole ((Database.Keeps.of_updateTurn done).trans
        (.of_quiet (Deletion.start_quiet _ _)))
  | failed _ failed => exact whole (.of_failStart failed)
  | deleting _ resumed =>
      exact whole (.of_quiet (Deletion.resume_quiet resumed))

/-- A turn is opened once its runtime exists. -/
theorem openTurn_succeeds {objects : List String}
    (sound : Sound deployment ⟨db, objects⟩) (fits : call.Fits)
    {runtime : RuntimeInput} (isStage : call.stage = .created runtime)
    (asks : call.input.Asks deployment db runtime)
    (present : db.hasInstance call.instanceId = true)
    (isStarting : db.turns.lookup call.input.key =
      some call.input.startingRow) :
    db.updateTurn call.input.key (openUpdate runtime) =
      .ok { db with
        turns := db.turns.insert call.input.key
          ((openUpdate runtime).apply call.input.startingRow) } := by
  have isOwn := (fits.runtime runtime (by rw [isStage]; rfl)).instanceId
  refine sound.updateTurn_succeeds isStarting (fun _ => rfl) ?_ ?_ ?_
  · intro id isInstance
    have same : id = call.instanceId := by
      unfold openUpdate at isInstance
      split at isInstance <;> cases isInstance <;> exact isOwn
    rw [same]
    exact present
  · intro id isWorkspace
    unfold openUpdate at isWorkspace
    split at isWorkspace
    · cases isWorkspace
    · exact asks.grounded.workspace id isWorkspace
  · intro id isHead
    unfold openUpdate at isHead
    split at isHead <;> cases isHead
    exact asks.grounded.base

/-- Each stretch of a start leads to a stage that tells the truth. -/
theorem StartStep.sincere {objects : List String}
    (step : StartStep deployment db call next stage)
    (sincere : call.Sincere deployment db) (fits : call.Fits)
    (sound : Sound deployment ⟨db, objects⟩)
    (claims : ∀ workspaceId head,
      call.stage.claim = some (workspaceId, head) →
      db.IsHead call.input.threadId workspaceId head)
    (isStarting : db.turns.lookup call.input.key =
      some call.input.startingRow) :
    { call with stage }.Sincere deployment next := by
  unfold StartCall.Sincere at sincere
  cases step with
  | workspaceFailed isStage =>
      rw [isStage] at sincere
      obtain ⟨⟨_, impossible⟩, _⟩ := sincere
      cases impossible
  | @workspaceFound workspace isStage =>
      rw [isStage] at sincere claims
      have isHead := claims _ _ rfl
      have base := (sound.consistent.heads _ _ isHead.head).1
      have known := sound.consistent.threads _ _ isHead.workspace
      have mode := fits.ensured _ isStage
      have checked := StartCall.checkRuntimeInput_succeeds sound
        (durableRuntime deployment call.input call.instanceId workspace) base
        (by simp [durableRuntime])
      unfold createTurnRuntime
      rw [checked]
      refine ⟨⟨?_, base, ?_⟩, sincere.2⟩
      · simp [durableRuntime, StartTurnInput.runtimeBackend, mode]
      · rintro _ ⟨⟩
        exact known
  | probed isStage answer =>
      rw [isStage] at sincere
      exact ⟨sincere.1, sincere.2, answer⟩
  | probeFailed isStage answer =>
      rw [isStage] at sincere
      refine StartCall.sincere_rejected sincere.2 ?_
      unfold StartCall.materialized StartEnvironment.materialized
      rw [← sincere.1.backend, answer]
  | directoryMade isStage answer =>
      rw [isStage] at sincere
      exact ⟨sincere.1, sincere.2.1, sincere.2.2, answer⟩
  | directoryFailed isStage answer =>
      rw [isStage] at sincere
      refine StartCall.sincere_rejected sincere.2.1 ?_
      unfold StartCall.materialized StartEnvironment.materialized
      rw [← sincere.1.backend, sincere.2.2, answer]
  | materializeFailed isStage answer =>
      rw [isStage] at sincere
      refine StartCall.sincere_rejected sincere.2.1 ?_
      unfold StartCall.materialized StartEnvironment.materialized
      rw [← sincere.1.backend, sincere.2.2.1, sincere.2.2.2, answer]
  | @recorded runtime _ isStage answer done =>
      rw [isStage] at sincere
      obtain ⟨_, _, rfl⟩ := Database.createInstance_eq_ok.mp done
      have isOwn := (fits.runtime runtime (by rw [isStage]; rfl)).instanceId
      refine ⟨sincere.1.keep (fun _ => id) (fun _ => id), ?_, ?_⟩
      · unfold Database.hasInstance
        dsimp only
        rw [isOwn, AList.lookup_insert]
        rfl
      · show StartEnvironment.materialized _ _ = _
        unfold StartEnvironment.materialized
        rw [← sincere.1.backend, sincere.2.2.1, sincere.2.2.2, answer]
  | @recordFailed runtime _ isStage _ refused =>
      rw [isStage] at sincere
      have isOwn := (fits.runtime runtime (by rw [isStage]; rfl)).instanceId
      have absent : db.instances.lookup runtime.instanceId = none := by
        rw [isOwn]
        simpa [Database.hasInstance] using sincere.2.1
      have references : db.instanceReferencesExist
          (provisioningRow deployment runtime) = true :=
        Database.instanceReferencesExist_iff.mpr
          ⟨sincere.1.grounded.workspace, sincere.1.grounded.base⟩
      cases refused.symm.trans
        (Database.createInstance_eq_ok.mpr ⟨absent, references, rfl⟩)
  | @created runtime opaqueId isStage answer =>
      rw [isStage] at sincere
      have keeps : db.Keeps (recordHandle db runtime opaqueId) :=
        .of_quiet (Database.updateInstance_quiet db _ _)
      refine ⟨sincere.1.keep keeps.commits
        (fun id present => (keeps.workspaces id).trans present),
        (keeps.instances _).trans sincere.2.1, sincere.2.2, ?_⟩
      show StartEnvironment.outcome _ _ = _
      unfold StartEnvironment.outcome
      rw [show call.environment.materialized
        (call.input.runtimeBackend deployment) = .ok () from sincere.2.2,
        answer]
  | @vanished runtime opaqueId isStage _ absent =>
      rw [isStage] at sincere
      have keeps : db.Keeps (recordHandle db runtime opaqueId) :=
        .of_quiet (Database.updateInstance_quiet db _ _)
      have isOwn := (fits.runtime runtime (by rw [isStage]; rfl)).instanceId
      rw [keeps.instances, isOwn, sincere.2.1] at absent
      cases absent
  | @createFailed runtime error isStage answer =>
      rw [isStage] at sincere
      have keeps : db.Keeps
          (recordCreateFailure db runtime.instanceId error) :=
        .of_quiet (Database.updateInstance_quiet db _ _)
      exact ⟨(keeps.instances _).trans sincere.2.1, sincere.2.2, answer⟩
  | cleaned isStage answer =>
      rw [isStage] at sincere
      refine ⟨?_, fun _ => sincere.2.1, fun _ => sincere.1⟩
      show StartEnvironment.outcome _ _ = _
      unfold StartEnvironment.outcome
      rw [show call.environment.materialized
        (call.input.runtimeBackend deployment) = .ok () from sincere.2.1,
        sincere.2.2]
      rcases answer with ⟨removed, rfl⟩ | removed <;> rw [removed]
  | opened => trivial
  | openFailed isStage refused =>
      rw [isStage] at sincere
      cases refused.symm.trans (openTurn_succeeds sound fits isStage
        sincere.1 sincere.2.1 isStarting)
  | turnVanished _ done absent =>
      have rows := updateTurn_lookup done call.input.key
      rw [if_pos rfl, isStarting] at rows
      cases rows.symm.trans absent
  | failed _ failed =>
      obtain ⟨⟨result, rfl⟩, _⟩ := failStart_lookup failed
      trivial
  | deleting isStage =>
      rw [isStage] at sincere
      exact sincere.elim

end Step

/-! ## Every start in flight -/

theorem ensureThreadWorkspace_succeeds {deployment : Deployment}
    {objects : List String} {db : Database}
    (sound : Sound deployment ⟨db, objects⟩) {emptyCommit : Digest}
    (present : db.hasCommit emptyCommit = true) {fresh : WorkspaceId}
    (unborn : db.hasWorkspace fresh = false) (threadId : ThreadId) :
    ∃ workspace, (ensureThreadWorkspace (some emptyCommit) db threadId
      fresh).2 = .ok workspace := by
  unfold ensureThreadWorkspace Database.getThreadWorkspace
  cases found : db.threadWorkspaces.lookup threadId with
  | some existing =>
      have known := sound.consistent.threads _ _ found
      obtain ⟨head, isHead⟩ := sound.mainRefs existing known
      dsimp only
      unfold workspaceView Database.getRef
      rw [if_pos known, isHead]
      exact ⟨_, rfl⟩
  | none =>
      obtain ⟨next, done⟩ := Database.insertThreadWorkspace_succeeds
        sound.consistent unborn present found
      dsimp only
      unfold Database.createThreadWorkspace
      rw [done]
      exact ⟨_, rfl⟩

/-- The service is ready, identifiers to come are unused, and every start in
flight has its own runtime and a stage that tells the truth. -/
structure World.Earnest (deployment : Deployment) (world : World) : Prop where
  ready : ∃ emptyCommit, world.emptyCommit = some emptyCommit
  instances : ∀ id, world.nextUuid ≤ id → world.db.hasInstance id = false
  workspaces : ∀ id, world.nextUuid ≤ id → world.db.hasWorkspace id = false
  fresh : ∀ key call, world.starts.lookup key = some call →
    call.instanceId < world.nextUuid
  distinct : ∀ key call other otherCall,
    world.starts.lookup key = some call →
    world.starts.lookup other = some otherCall →
    call.instanceId = otherCall.instanceId → key = other
  sincere : ∀ key call, world.starts.lookup key = some call →
    call.Sincere deployment world.db

namespace World.Earnest

variable {deployment : Deployment} {world after : World}

/-- A step that starts nothing and creates no runtime or workspace. -/
theorem frame (earnest : world.Earnest deployment)
    (keeps : world.db.Keeps after.db)
    (ready : after.emptyCommit = world.emptyCommit)
    (uuids : after.nextUuid = world.nextUuid)
    (starts : after.starts = world.starts) : after.Earnest deployment := by
  refine ⟨ready ▸ earnest.ready, fun id later => ?_, fun id later => ?_, ?_,
    ?_, ?_⟩
  · rw [keeps.instances]
    exact earnest.instances id (uuids ▸ later)
  · rw [keeps.workspaces]
    exact earnest.workspaces id (uuids ▸ later)
  · rw [starts, uuids]
    exact earnest.fresh
  · rw [starts]
    exact earnest.distinct
  · intro key call found
    rw [starts] at found
    exact (earnest.sincere key call found).keep (keeps.instances _)
      keeps.commits (fun id present => (keeps.workspaces id).trans present)

/-- A step that creates a workspace under the next identifier. -/
theorem createWorkspace (earnest : world.Earnest deployment)
    {threadId : ThreadId} {headCommit : Digest} {next : Database}
    (done : world.db.insertThreadWorkspace threadId world.nextUuid
      headCommit = .ok next)
    (db : after.db = next) (ready : after.emptyCommit = world.emptyCommit)
    (uuids : after.nextUuid = world.nextUuid + 1)
    (starts : after.starts = world.starts) : after.Earnest deployment := by
  obtain ⟨_, _, _, _, rfl⟩ := Database.insertThreadWorkspace_eq_ok done
  refine ⟨ready ▸ earnest.ready, fun id later => ?_, fun id later => ?_, ?_,
    ?_, ?_⟩
  · rw [uuids] at later
    rw [db]
    exact earnest.instances id (Nat.le_of_succ_le later)
  · rw [uuids] at later
    have different : id ≠ world.nextUuid := Nat.ne_of_gt later
    have before := earnest.workspaces id (Nat.le_of_succ_le later)
    rw [db]
    unfold Database.hasWorkspace at before ⊢
    dsimp only
    rw [AList.lookup_insert_if, if_neg different]
    exact before
  · rw [starts, uuids]
    intro key call found
    exact Nat.lt_succ_of_lt (earnest.fresh key call found)
  · rw [starts]
    exact earnest.distinct
  · intro key call found
    rw [starts] at found
    rw [db]
    refine (earnest.sincere key call found).keep rfl (fun _ => id) ?_
    intro id present
    unfold Database.hasWorkspace at present ⊢
    dsimp only
    rw [AList.lookup_insert_if]
    split
    · rfl
    · exact present

/-- What a start that inserts its row has done at its first await. -/
theorem began (earnest : world.Earnest deployment)
    (provisioned : Provisioned deployment world) {input : StartTurnInput}
    {created : Database}
    (done : world.db.createTurn input.key input.startingRow = .ok created)
    {next : Database} {stage : StartStage}
    (began : startCreated world.emptyCommit created input world.nextUuid
      (world.nextUuid + 1) = (next, stage)) :
    (∀ id, next.hasInstance id = world.db.hasInstance id) ∧
    (∀ id, world.db.hasCommit id = true → next.hasCommit id = true) ∧
    (∀ id, id ≠ world.nextUuid + 1 →
      next.hasWorkspace id = world.db.hasWorkspace id) ∧
    (∀ id, world.db.hasWorkspace id = true → next.hasWorkspace id = true) ∧
    stage.isSettled = false ∧
    ∀ environment listed, StartCall.Sincere deployment next
      { input, instanceId := world.nextUuid, environment, stage, listed } := by
  have ready : Provisioned deployment { world with db := created } :=
    provisioned.write_db (.single (.createTurn rfl rfl done))
  obtain ⟨_, _, _, isCreated⟩ := Database.createTurn_eq_ok done
  have keeps : world.db.Keeps created := .of_turns (by rw [isCreated])
  obtain ⟨emptyCommit, isEmpty⟩ := earnest.ready
  obtain ⟨_, present⟩ := ready.ready emptyCommit isEmpty
  have absent := (keeps.instances world.nextUuid).trans
    (earnest.instances _ le_rfl)
  have unborn := (keeps.workspaces (world.nextUuid + 1)).trans
    (earnest.workspaces _ (Nat.le_succ _))
  rw [isEmpty] at began
  unfold startCreated at began
  split at began
  case h_1 isInstant =>
    have checked := StartCall.checkRuntimeInput_succeeds ready.sound
      (instantRuntime input world.nextUuid emptyCommit) present
      (by simp [instantRuntime])
    dsimp only at began
    unfold createTurnRuntime at began
    rw [show checkRuntimeInput created _ = .ok () from checked] at began
    cases began
    refine ⟨keeps.instances, keeps.commits, fun id _ => keeps.workspaces id,
      fun id known => (keeps.workspaces id).trans known, rfl,
      fun environment listed => ⟨⟨?_, present, ?_⟩, absent⟩⟩
    · simp [instantRuntime, StartTurnInput.runtimeBackend, isInstant]
    · intro id isWorkspace
      cases isWorkspace
  case h_2 =>
    obtain ⟨workspace, isOk⟩ := ensureThreadWorkspace_succeeds ready.sound
      present unborn input.threadId
    generalize ensured : ensureThreadWorkspace (some emptyCommit) created
      input.threadId (world.nextUuid + 1) = outcome at began isOk
    obtain ⟨later, result⟩ := outcome
    cases began
    rcases ensureThreadWorkspace_eq ensured with
      ⟨rfl, _⟩ | ⟨_, _, inserted, _⟩
    · exact ⟨keeps.instances, keeps.commits, fun id _ => keeps.workspaces id,
        fun id known => (keeps.workspaces id).trans known, rfl,
        fun environment listed => ⟨⟨workspace, isOk⟩, absent⟩⟩
    · obtain ⟨_, _, _, _, rfl⟩ :=
        Database.insertThreadWorkspace_eq_ok inserted
      refine ⟨keeps.instances, keeps.commits, fun id different => ?_,
        fun id known => ?_, rfl,
        fun environment listed => ⟨⟨workspace, isOk⟩, absent⟩⟩
      · rw [← keeps.workspaces]
        unfold Database.hasWorkspace
        dsimp only
        rw [AList.lookup_insert_if, if_neg different]
      · have before := (keeps.workspaces id).trans known
        unfold Database.hasWorkspace at before ⊢
        dsimp only
        rw [AList.lookup_insert_if]
        split
        · rfl
        · exact before

theorem beginStart (earnest : world.Earnest deployment)
    (provisioned : Provisioned deployment world) {input : StartTurnInput}
    {created : Database}
    (done : world.db.createTurn input.key input.startingRow = .ok created)
    (environment : StartEnvironment) :
    (world.beginStart created input environment).Earnest deployment := by
  generalize began : startCreated world.emptyCommit created input
    world.nextUuid (world.nextUuid + 1) = outcome
  obtain ⟨next, stage⟩ := outcome
  obtain ⟨instances, commits, elsewhere, workspaces, _, sincere⟩ :=
    earnest.began provisioned done began
  unfold World.beginStart
  dsimp only
  rw [began]
  have older : ∀ id, world.nextUuid + 2 ≤ id → world.nextUuid ≤ id :=
    fun id later => (Nat.le_add_right _ 2).trans later
  refine ⟨earnest.ready, fun id later => ?_, fun id later => ?_, ?_, ?_, ?_⟩
  · exact (instances id).trans (earnest.instances id (older id later))
  · refine (elsewhere id ?_).trans (earnest.workspaces id (older id later))
    exact Nat.ne_of_gt later
  · intro key call found
    dsimp only at found ⊢
    rw [AList.lookup_insert_if] at found
    split at found
    case isTrue =>
      cases found
      exact Nat.lt_add_of_pos_right (by decide)
    case isFalse =>
      exact (earnest.fresh key call found).trans_le (Nat.le_add_right _ 2)
  · intro key call other otherCall found otherFound same
    dsimp only at found otherFound
    rw [AList.lookup_insert_if] at found otherFound
    split at found <;> split at otherFound
    case isTrue.isTrue isKey isOther => exact isKey.trans isOther.symm
    case isTrue.isFalse =>
      cases found
      exact (Nat.ne_of_gt (earnest.fresh other otherCall otherFound)
        same).elim
    case isFalse.isTrue =>
      cases otherFound
      exact (Nat.ne_of_lt (earnest.fresh key call found) same).elim
    case isFalse.isFalse =>
      exact earnest.distinct key call other otherCall found otherFound same
  · intro key call found
    dsimp only at found
    rw [AList.lookup_insert_if] at found
    split at found
    case isTrue =>
      cases found
      exact sincere environment true
    case isFalse =>
      exact (earnest.sincere key call found).keep (instances _) commits
        workspaces

theorem advanceStart (earnest : world.Earnest deployment)
    (provisioned : Provisioned deployment world) (orderly : world.Orderly)
    (lineage : world.Lineage deployment) {call : StartCall}
    {next : Database} {stage : StartStage}
    (found : world.starts.lookup call.input.key = some call)
    (step : StartStep deployment world.db call next stage) :
    World.Earnest deployment { world with
      db := next
      starts := world.starts.insert call.input.key { call with stage } } := by
  have phase := orderly.phased call.input.key
  rw [found] at phase
  have isStarting := phase.starting call rfl step.unsettled
  have fits := (phase.starts call rfl).2
  obtain ⟨instances, commits, workspaces⟩ := step.keeps fits
  have later := step.sincere (earnest.sincere _ call found) fits
    provisioned.sound
    (fun workspaceId head => lineage.starts _ call workspaceId head found)
    isStarting
  have own := earnest.fresh _ call found
  refine ⟨earnest.ready, fun id isLater => ?_, fun id isLater => ?_, ?_, ?_,
    ?_⟩
  · refine (instances id ?_).trans (earnest.instances id isLater)
    exact Nat.ne_of_gt (own.trans_le isLater)
  · exact (workspaces id).trans (earnest.workspaces id isLater)
  · intro key other isOther
    dsimp only at isOther
    rw [AList.lookup_insert_if] at isOther
    split at isOther
    · cases isOther
      exact own
    · exact earnest.fresh key other isOther
  · intro key left other right isLeft isRight same
    dsimp only at isLeft isRight
    rw [AList.lookup_insert_if] at isLeft isRight
    split at isLeft <;> split at isRight
    case isTrue.isTrue isKey isOther => exact isKey.trans isOther.symm
    case isTrue.isFalse isKey _ =>
      cases isLeft
      rw [isKey]
      exact earnest.distinct _ call other right found isRight same
    case isFalse.isTrue isOther =>
      cases isRight
      rw [isOther]
      exact earnest.distinct key left _ call isLeft found same
    case isFalse.isFalse =>
      exact earnest.distinct key left other right isLeft isRight same
  · intro key other isOther
    dsimp only at isOther
    rw [AList.lookup_insert_if] at isOther
    split at isOther
    case isTrue =>
      cases isOther
      exact later
    case isFalse different =>
      refine (earnest.sincere key other isOther).keep (instances _ ?_)
        commits (fun id present => (workspaces id).trans present)
      intro same
      exact different (earnest.distinct key other _ call isOther found same)

theorem boot (fresh : (∀ id, world.nextUuid ≤ id →
        world.db.hasInstance id = false) ∧
      ∀ id, world.nextUuid ≤ id → world.db.hasWorkspace id = false)
    {destroy : InstanceId → Except Thrown Unit}
    (booted : world.boot deployment destroy = some after) :
    after.Earnest deployment := by
  obtain ⟨seeded, next, done, isNext, rfl⟩ := World.boot_eq booted
  have keeps : world.db.Keeps next :=
    (Database.Keeps.of_capture done).trans (.of_recover isNext)
  refine ⟨⟨_, rfl⟩, fun id later => ?_, fun id later => ?_,
    by simp [World.restart], by simp [World.restart],
    by simp [World.restart]⟩
  · exact (keeps.instances id).trans (fresh.1 id later)
  · exact (keeps.workspaces id).trans (fresh.2 id later)

theorem move (earnest : world.Earnest deployment)
    (provisioned : Provisioned deployment world) (orderly : world.Orderly)
    (lineage : world.Lineage deployment)
    (move : Move deployment world after) : after.Earnest deployment := by
  cases move with
  | boot booted =>
      exact Earnest.boot ⟨earnest.instances, earnest.workspaces⟩ booted
  | call move =>
  cases move with
  | beginStart environment _ _ done =>
      exact earnest.beginStart provisioned done environment
  | advanceStart found step =>
      exact earnest.advanceStart provisioned orderly lineage found step
  | @forgetStart call found settled =>
      have unlisted : ∀ key other, (world.starts.insert call.input.key
          { call with listed := false }).lookup key = some other →
          ∃ before, world.starts.lookup key = some before ∧
            before.instanceId = other.instanceId ∧
            (before.Sincere deployment world.db →
              other.Sincere deployment world.db) := by
        intro key other isOther
        rw [AList.lookup_insert_if] at isOther
        split at isOther
        case isTrue same =>
          cases isOther
          exact ⟨call, same ▸ found, rfl, id⟩
        case isFalse => exact ⟨other, isOther, rfl, id⟩
      refine ⟨earnest.ready, earnest.instances, earnest.workspaces, ?_, ?_,
        ?_⟩
      · intro key other isOther
        obtain ⟨before, isBefore, same, _⟩ := unlisted key other isOther
        exact same ▸ earnest.fresh key before isBefore
      · intro key left other right isLeft isRight same
        obtain ⟨earlier, isEarlier, sameLeft, _⟩ := unlisted key left isLeft
        obtain ⟨before, isBefore, sameRight, _⟩ :=
          unlisted other right isRight
        exact earnest.distinct key earlier other before isEarlier isBefore
          (sameLeft.trans (same.trans sameRight.symm))
      · intro key other isOther
        obtain ⟨before, isBefore, _, carries⟩ := unlisted key other isOther
        exact carries (earnest.sincere key before isBefore)
  | grant =>
      refine ⟨earnest.ready, fun id later => ?_, fun id later => ?_, ?_,
        earnest.distinct, earnest.sincere⟩
      · exact earnest.instances id (Nat.le_of_succ_le later)
      · exact earnest.workspaces id (Nat.le_of_succ_le later)
      · intro key call found
        exact Nat.lt_succ_of_lt (earnest.fresh key call found)
  | release released =>
      obtain ⟨db, _, ready, _, starts, _, _, uuids, _⟩ :=
        World.release_leasesOnly released
      exact earnest.frame (db ▸ .refl world.db) ready uuids starts
  | beginFinish => exact earnest.frame (.of_turns rfl) rfl rfl rfl
  | advanceFinish _ _ _ outcome =>
      exact earnest.frame (.of_outcome outcome) rfl rfl rfl
  | forgetFinish | closing => exact earnest.frame (.refl _) rfl rfl rfl
  | fork done => exact earnest.createWorkspace done rfl rfl rfl rfl
  | mark marked =>
      obtain ⟨_, _, rfl⟩ := World.markInstance_eq marked
      exact earnest.frame (.of_quiet (Database.updateInstance_quiet _ _ _))
        rfl rfl rfl
  | force _ _ _ _ marks =>
      exact earnest.frame (.of_marksFailed marks) rfl rfl rfl

end World.Earnest

theorem Served.earnest {deployment : Deployment} {world : World}
    (served : Served deployment world) : world.Earnest deployment := by
  have both : world.Lineage deployment ∧ world.Earnest deployment := by
    apply served.invariant_from_boot
    · rintro first ⟨destroy, booted⟩
      refine ⟨World.Lineage.empty.boot booted, World.Earnest.boot ?_ booted⟩
      simp [World.empty, Database.empty, Database.hasInstance,
        Database.hasWorkspace]
    · rintro before after provisioned orderly ⟨lineage, earnest⟩ move
      exact ⟨lineage.move provisioned orderly move,
        earnest.move provisioned orderly lineage move⟩
  exact both.2

/-! ## What a settled start leaves behind -/

theorem Database.getOpenTurn_eq_none {db : Database} {threadId : ThreadId} :
    db.getOpenTurn threadId = none ↔
      ∀ key row, db.turns.lookup key = some row →
        key.threadId = threadId → row.state.active = false := by
  unfold getOpenTurn
  rw [List.head?_eq_none_iff, List.eq_nil_iff_forall_not_mem]
  constructor
  · intro none key row found thread
    by_contra active
    exact none (key, row) (AList.mem_select.mpr ⟨found, by
      simp [thread, active]⟩)
  · rintro inactive ⟨key, row⟩ member
    obtain ⟨found, holds⟩ := AList.mem_select.mp member
    simp only [Bool.and_eq_true, decide_eq_true_eq] at holds
    rw [inactive key row found holds.1] at holds
    cases holds.2

/-- The turn is open, or it is marked failed with the error that stopped its
start and its thread is free. -/
def World.StartKept (deployment : Deployment) (world : World)
    (call : StartCall) : Except Thrown TurnView → Prop
  | .ok turn => ∃ row, world.db.turns.lookup call.input.key = some row ∧
      row.state = .opened ∧ turn = view call.input.key row
  | .error error => call.outcome deployment = .error error ∧
      (∃ row, world.db.turns.lookup call.input.key = some row ∧
        row.state = .failed ∧ row.errorJson = some error.serviceError) ∧
      world.db.getOpenTurn call.input.threadId = none

section Settle

variable {deployment : Deployment} {db next : Database} {call : StartCall}
  {stage : StartStage}

/-- Once the runtime's row exists the turn is marked failed. -/
theorem failStart_succeeds {objects : List String}
    (sound : Sound deployment ⟨db, objects⟩)
    (isStarting : db.turns.lookup call.input.key =
      some call.input.startingRow)
    (present : db.hasInstance call.instanceId = true) (error : Thrown) :
    failStart db call.input.key call.instanceId error =
      ({ db with
        turns := db.turns.insert call.input.key
          { call.input.startingRow with
            state := .failed
            instanceId := some call.instanceId
            errorJson := some error.serviceError } },
        .settled (.error error)) := by
  let update : TurnUpdate :=
    { state := some .failed
      instanceId := some call.instanceId
      errorJson := some (some error.serviceError) }
  have done : db.updateTurn call.input.key update = .ok { db with
      turns := db.turns.insert call.input.key
        (update.apply call.input.startingRow) } := by
    apply sound.updateTurn_succeeds isStarting (fun _ => rfl)
    · rintro _ ⟨⟩
      exact present
    · simp [update]
    · simp [update]
  unfold failStart
  rw [done]
  rfl

/-- Without the runtime's row the update is refused. -/
theorem failStart_refused
    (isStarting : db.turns.lookup call.input.key =
      some call.input.startingRow)
    (absent : db.hasInstance call.instanceId = false) (error : Thrown) :
    ∃ updateError, failStart db call.input.key call.instanceId error =
      (db, .settled (.error updateError)) := by
  have refused : ∃ updateError, db.updateTurn call.input.key
      { state := some .failed
        instanceId := some call.instanceId
        errorJson := some (some error.serviceError) } =
      .error updateError := by
    unfold Database.updateTurn
    rw [isStarting]
    dsimp only
    split
    · exact ⟨_, rfl⟩
    split
    · exact ⟨_, rfl⟩
    · rename_i references
      simp [Database.turnReferencesExist, TurnUpdate.apply, absent]
        at references
  obtain ⟨updateError, refused⟩ := refused
  refine ⟨updateError, ?_⟩
  unfold failStart
  rw [refused]

/-- The stretch in which a start settles. -/
theorem StartStep.settles {objects : List String}
    {result : Except Thrown TurnView}
    (step : StartStep deployment db call next (.settled result))
    (sincere : call.Sincere deployment db)
    (sound : Sound deployment ⟨db, objects⟩)
    (isStarting : db.turns.lookup call.input.key =
      some call.input.startingRow) (fits : call.Fits) :
    (call.materialized deployment = .ok () ∧
      ((∃ row, next.turns.lookup call.input.key = some row ∧
          row.state = .opened ∧ result = .ok (view call.input.key row)) ∨
        ∃ error, result = .error error ∧
          call.outcome deployment = .error error ∧
          next.turns = db.turns.insert call.input.key
            { call.input.startingRow with
              state := .failed
              instanceId := some call.instanceId
              errorJson := some error.serviceError })) ∨
    (call.materialized deployment ≠ .ok () ∧ next = db ∧
      ∃ error, result = .error error) := by
  rcases step.turn isStarting fits with
    ⟨_, unsettled, _⟩ | ⟨runtime, isStage, _, written, isResult⟩ |
      ⟨error, isStage, failed⟩
  · cases unsettled
  · unfold StartCall.Sincere at sincere
    rw [isStage] at sincere
    cases isResult
    refine .inl ⟨sincere.2.2.1, .inl ⟨_, written, ?_, rfl⟩⟩
    unfold openUpdate
    split <;> rfl
  · unfold StartCall.Sincere at sincere
    rcases isStage with isStage | ⟨_, isStage⟩
    · rw [isStage] at sincere
      obtain ⟨stopped, present⟩ := sincere
      cases known : db.hasInstance call.instanceId with
      | true =>
          rw [failStart_succeeds sound isStarting known] at failed
          cases failed
          exact .inl ⟨present.mp known, .inr ⟨error, rfl, stopped, rfl⟩⟩
      | false =>
          obtain ⟨updateError, refused⟩ :=
            failStart_refused isStarting known error
          rw [refused] at failed
          cases failed
          refine .inr ⟨fun materialized => ?_, rfl, updateError, rfl⟩
          rw [present.mpr materialized] at known
          cases known
    · rw [isStage] at sincere
      exact sincere.elim

end Settle

/-- What the settling of a start's promise says about its turn. -/
theorem start_settles_iff {deployment : Deployment} {world after : World}
    (served : Served deployment world) {key : TurnKey} {call : StartCall}
    {result : Except Thrown TurnView}
    (inFlight : world.starts.lookup key = some call)
    (resumed : world.step deployment (.resumeStart key) = some after)
    (settled : after.startResult key = some result) :
    after.StartKept deployment call result ↔
      call.materialized deployment = .ok () := by
  cases World.stepped resumed with
  | resumeStart resumed =>
  unfold World.resumeStart at resumed
  rw [inFlight] at resumed
  obtain ⟨⟨next, stage⟩, advanced, same⟩ := Option.map_eq_some_iff.mp resumed
  cases same
  unfold World.startResult at settled
  dsimp only at settled
  rw [AList.lookup_insert] at settled
  have isSettled : stage = .settled result := by
    cases stage <;> cases settled
    rfl
  subst isSettled
  have step := advanceStart_step advanced
  have phase := served.orderly.phased key
  rw [inFlight] at phase
  obtain ⟨rfl, fits⟩ := phase.starts call rfl
  have isStarting := phase.starting call rfl step.unsettled
  have sincere := served.earnest.sincere _ call inFlight
  rcases step.settles sincere served.provisioned.sound isStarting fits with
    ⟨materialized, ⟨row, written, isOpen, rfl⟩ | ⟨error, rfl, stopped, turns⟩⟩ |
      ⟨stopped, rfl, error, rfl⟩
  · exact ⟨fun _ => materialized, fun _ => ⟨row, written, isOpen, rfl⟩⟩
  · have written := AList.lookup_insert (a := call.input.key)
      (b := { call.input.startingRow with
        state := .failed
        instanceId := some call.instanceId
        errorJson := some error.serviceError }) world.db.turns
    rw [← turns] at written
    refine ⟨fun _ => materialized,
      fun _ => ⟨stopped, ⟨_, written, rfl, rfl⟩, ?_⟩⟩
    · apply Database.getOpenTurn_eq_none.mpr
      intro other row found thread
      dsimp only at found
      rw [turns, AList.lookup_insert_if] at found
      split at found
      case isTrue =>
        cases found
        rfl
      case isFalse different =>
        by_contra active
        exact different (served.provisioned.sound.activeUnique _ _ other row
          isStarting found rfl (by simpa using active) thread)
  · refine ⟨?_, fun materialized => (stopped materialized).elim⟩
    rintro ⟨_, ⟨row, found, isFailed, _⟩, _⟩
    cases isStarting.symm.trans found
    cases isFailed

private def startKey : TurnKey := ⟨"thread", "turn"⟩

/-- A durable turn is started and opened. -/
private def openedStart : List Event :=
  .start { threadId := "thread", turnId := "turn", mode := .durable } {} ::
    List.replicate 5 (.resumeStart startKey)

theorem start_settles_durable :
    ∃ world call after result,
      run (World.step Deployment.transparent) World.empty
        (.boot (fun _ => .ok ()) :: openedStart) = some world ∧
      world.starts.lookup startKey = some call ∧
      world.step Deployment.transparent (.resumeStart startKey) =
        some after ∧
      after.startResult startKey = some result ∧
      after.StartKept Deployment.transparent call result := by
  have replay : (run (World.step Deployment.transparent) World.empty
      (.boot (fun _ => .ok ()) :: openedStart)).any (fun world =>
        (world.starts.lookup startKey).any (fun call =>
          (call.materialized Deployment.transparent).isOk) &&
        (world.step Deployment.transparent (.resumeStart startKey)).any
          fun after => (after.startResult startKey).isSome) = true := by
    decide +kernel
  obtain ⟨world, isWorld, both⟩ := (Option.any_eq_true _ _).mp replay
  obtain ⟨isCall, isAfter⟩ := Bool.and_eq_true_iff.mp both
  obtain ⟨call, found, materialized⟩ := (Option.any_eq_true _ _).mp isCall
  obtain ⟨after, resumed, isSettled⟩ := (Option.any_eq_true _ _).mp isAfter
  obtain ⟨result, settled⟩ := Option.isSome_iff_exists.mp isSettled
  have served : Served Deployment.transparent world :=
    Served.of_run (by decide) isWorld
  refine ⟨world, call, after, result, isWorld, found, resumed, settled, ?_⟩
  apply (start_settles_iff served found resumed settled).mpr
  cases answer : call.materialized Deployment.transparent with
  | ok => rfl
  | error =>
      rw [answer] at materialized
      cases materialized

/-- The backend of an instant turn reports itself unavailable. -/
private def unavailableStart : List Event :=
  [.start { threadId := "thread", turnId := "turn", mode := .instant }
      { preflight := .ok (.unavailable "no backend") },
    .resumeStart startKey]

/-- The error of the backend is lost in the catch block: the row names a
runtime that was never inserted, the update is refused by the foreign key,
and the turn stays behind as starting. -/
theorem start_left_starting :
    ¬ ∀ world key call after result,
      Served Deployment.transparent world →
      world.starts.lookup key = some call →
      world.step Deployment.transparent (.resumeStart key) = some after →
      after.startResult key = some result →
      after.StartKept Deployment.transparent call result := by
  intro kept
  have replay : (run (World.step Deployment.transparent) World.empty
      (.boot (fun _ => .ok ()) :: unavailableStart)).any (fun world =>
        (world.starts.lookup startKey).isSome &&
        (world.step Deployment.transparent (.resumeStart startKey)).any
          fun after => (after.startResult startKey).isSome &&
            (after.db.turns.lookup startKey).any fun row =>
              decide (row.state = .starting)) = true := by
    decide +kernel
  obtain ⟨world, isWorld, both⟩ := (Option.any_eq_true _ _).mp replay
  obtain ⟨isCall, isAfter⟩ := Bool.and_eq_true_iff.mp both
  obtain ⟨call, found⟩ := Option.isSome_iff_exists.mp isCall
  obtain ⟨after, resumed, both⟩ := (Option.any_eq_true _ _).mp isAfter
  obtain ⟨isSettled, isRow⟩ := Bool.and_eq_true_iff.mp both
  obtain ⟨result, settled⟩ := Option.isSome_iff_exists.mp isSettled
  obtain ⟨row, isRow, isStarting⟩ := (Option.any_eq_true _ _).mp isRow
  have served : Served Deployment.transparent world :=
    Served.of_run (by decide) isWorld
  have outcome := kept world startKey call after result served found resumed
    settled
  have isKey : call.input.key = startKey := by
    have phase := served.orderly.phased startKey
    rw [found] at phase
    exact (phase.starts call rfl).1
  have starting := of_decide_eq_true isStarting
  cases result with
  | ok turn =>
      obtain ⟨other, isOther, isOpen, _⟩ := outcome
      rw [isKey, isRow] at isOther
      cases isOther
      cases starting.symm.trans isOpen
  | error error =>
      obtain ⟨_, ⟨other, isOther, isFailed, _⟩, _⟩ := outcome
      rw [isKey, isRow] at isOther
      cases isOther
      cases starting.symm.trans isFailed

end Electrosphere
