import Electrosphere.Domain.SessionManager

/-!
# What becomes of an execution

`Evolves` says how a stretch of the session manager changes sessions that
exist: they keep their execution, a session becomes inactive or leaves the map
only when its execution has ended, and what the backend has answered is never
forgotten.  Every event but the answer to an `exec` evolves the world,
provided the kills whose failure the manager swallows do not fail.
-/

namespace Electrosphere

open Foundation

namespace SessionWorld

variable {world middle after : SessionWorld}

/-- The backend has reported the end of an execution or confirmed a kill. -/
def Ended (world : SessionWorld) (execution : ExecutionId) : Prop :=
  ∃ record, world.executions.lookup execution = some record ∧
    (record.reported = true ∨ record.killed = true)

/-! ## Evolution -/

/-- A session after a stretch, and what it was before. -/
structure Succeeds (world : SessionWorld) (before later : Session) :
    Prop where
  id : later.id = before.id
  instanceId : later.instanceId = before.instanceId
  execution : later.execution = before.execution
  inactive : later.active = false →
    before.active = false ∨ world.Ended later.execution

structure Evolves (world after : SessionWorld) : Prop where
  objects : ∀ id later, after.manager.objects.lookup id = some later →
    ∃ before, world.manager.objects.lookup id = some before ∧
      after.Succeeds before later
  kept : ∀ id before, world.manager.objects.lookup id = some before →
    ∃ later, after.manager.objects.lookup id = some later
  recorded : ∀ execution record,
    world.executions.lookup execution = some record →
      ∃ later, after.executions.lookup execution = some later ∧
        later.instanceId = record.instanceId ∧
        (record.reported = true → later.reported = true) ∧
        (record.killed = true → later.killed = true)
  unrecorded : ∀ execution, world.executions.lookup execution = none →
    after.executions.lookup execution = none
  listed : ∀ id ∈ after.manager.sessions, id ∈ world.manager.sessions
  dropped : ∀ id ∈ world.manager.sessions, id ∉ after.manager.sessions →
    ∀ session, after.manager.objects.lookup id = some session →
      after.Ended session.execution
  later : world.nextUuid ≤ after.nextUuid

theorem Succeeds.refl (session : Session) :
    world.Succeeds session session :=
  ⟨rfl, rfl, rfl, Or.inl⟩

namespace Evolves

theorem ended (evolves : world.Evolves after) {execution : ExecutionId}
    (isEnded : world.Ended execution) : after.Ended execution := by
  obtain ⟨record, found, answered⟩ := isEnded
  obtain ⟨later, isLater, _, reported, killed⟩ :=
    evolves.recorded execution record found
  exact ⟨later, isLater, answered.imp reported killed⟩

/-- A session object that exists goes on to exist. -/
theorem successor (evolves : world.Evolves after) {id : SessionId}
    {before : Session}
    (found : world.manager.objects.lookup id = some before) :
    ∃ later, after.manager.objects.lookup id = some later ∧
      after.Succeeds before later := by
  obtain ⟨later, isLater⟩ := evolves.kept id before found
  obtain ⟨earlier, isEarlier, succeeds⟩ := evolves.objects id later isLater
  cases found.symm.trans isEarlier
  exact ⟨later, isLater, succeeds⟩

/-- A change of the calls in flight alone. -/
theorem of_same (manager : after.manager = world.manager)
    (executions : after.executions = world.executions)
    (later : world.nextUuid ≤ after.nextUuid) : world.Evolves after := by
  constructor
  · intro id session found
    rw [manager] at found
    exact ⟨session, found, .refl session⟩
  · intro id session found
    rw [manager]
    exact ⟨session, found⟩
  · intro execution record found
    rw [executions]
    exact ⟨record, found, rfl, id, id⟩
  · intro execution absent
    rw [executions]
    exact absent
  · rw [manager]
    exact fun _ member => member
  · rw [manager]
    exact fun _ member absent => (absent member).elim
  · exact later

theorem refl (world : SessionWorld) : world.Evolves world :=
  of_same rfl rfl le_rfl

theorem trans (left : world.Evolves middle) (right : middle.Evolves after) :
    world.Evolves after := by
  constructor
  · intro id last found
    obtain ⟨between, isBetween, second⟩ := right.objects id last found
    obtain ⟨before, isBefore, first⟩ := left.objects id between isBetween
    refine ⟨before, isBefore, second.id.trans first.id,
      second.instanceId.trans first.instanceId,
      second.execution.trans first.execution, fun isInactive => ?_⟩
    rcases second.inactive isInactive with wasInactive | isEnded
    · refine (first.inactive wasInactive).imp_right fun wasEnded => ?_
      rw [second.execution]
      exact right.ended wasEnded
    · exact .inr isEnded
  · intro id before found
    obtain ⟨between, isBetween⟩ := left.kept id before found
    exact right.kept id between isBetween
  · intro execution record found
    obtain ⟨between, isBetween, firstId, firstReported, firstKilled⟩ :=
      left.recorded execution record found
    obtain ⟨last, isLast, secondId, secondReported, secondKilled⟩ :=
      right.recorded execution between isBetween
    exact ⟨last, isLast, secondId.trans firstId,
      secondReported ∘ firstReported, secondKilled ∘ firstKilled⟩
  · intro execution absent
    exact right.unrecorded execution (left.unrecorded execution absent)
  · intro id member
    exact left.listed id (right.listed id member)
  · intro id member absent last found
    by_cases stillListed : id ∈ middle.manager.sessions
    · exact right.dropped id stillListed absent last found
    · obtain ⟨between, isBetween, succeeds⟩ := right.objects id last found
      rw [succeeds.execution]
      exact right.ended (left.dropped id member stillListed between isBetween)
  · exact left.later.trans right.later

/-- An update of one session object. -/
theorem change {id : SessionId} {update : Session → Session}
    (manager : after.manager = world.manager.change id update)
    (executions : after.executions = world.executions)
    (later : world.nextUuid ≤ after.nextUuid)
    (succeeds : ∀ session, world.manager.objects.lookup id = some session →
      world.Succeeds session (update session)) : world.Evolves after := by
  have ended : ∀ execution, world.Ended execution → after.Ended execution := by
    intro execution isEnded
    unfold Ended
    rw [executions]
    exact isEnded
  constructor
  · intro other last found
    rw [manager] at found
    simp only [SessionManager.change, AList.lookup_modify_if] at found
    split at found
    case isTrue same =>
      subst same
      obtain ⟨before, isBefore, rfl⟩ := Option.map_eq_some_iff.mp found
      have succeeds := succeeds before isBefore
      exact ⟨before, isBefore, succeeds.id, succeeds.instanceId,
        succeeds.execution,
        fun isInactive => (succeeds.inactive isInactive).imp_right (ended _)⟩
    case isFalse => exact ⟨last, found, .refl last⟩
  · intro other before found
    rw [manager, ← Option.isSome_iff_exists]
    simp only [SessionManager.change, AList.lookup_modify_isSome, found,
      Option.isSome_some]
  · intro execution record found
    rw [executions]
    exact ⟨record, found, rfl, fun noted => noted, fun noted => noted⟩
  · intro execution absent
    rw [executions]
    exact absent
  · rw [manager]
    exact fun _ member => member
  · rw [manager]
    exact fun _ member absent => (absent member).elim
  · exact later

/-- Entries leave the map. -/
theorem removal (objects : after.manager.objects = world.manager.objects)
    (executions : after.executions = world.executions)
    (listed : ∀ id ∈ after.manager.sessions, id ∈ world.manager.sessions)
    (dropped : ∀ id ∈ world.manager.sessions, id ∉ after.manager.sessions →
      ∀ session, world.manager.objects.lookup id = some session →
        world.Ended session.execution)
    (later : world.nextUuid ≤ after.nextUuid) : world.Evolves after := by
  constructor
  · intro id session found
    rw [objects] at found
    exact ⟨session, found, .refl session⟩
  · intro id session found
    rw [objects]
    exact ⟨session, found⟩
  · intro execution record found
    rw [executions]
    exact ⟨record, found, rfl, fun noted => noted, fun noted => noted⟩
  · intro execution absent
    rw [executions]
    exact absent
  · exact listed
  · intro id member absent session found
    rw [objects] at found
    unfold Ended
    rw [executions]
    exact dropped id member absent session found
  · exact later

/-- Something has been learned about an execution. -/
theorem note {execution : ExecutionId} {update : Execution → Execution}
    (manager : after.manager = world.manager)
    (executions : after.executions =
      AList.modify execution update world.executions)
    (later : world.nextUuid ≤ after.nextUuid)
    (keeps : ∀ record, (update record).instanceId = record.instanceId ∧
      (record.reported = true → (update record).reported = true) ∧
      (record.killed = true → (update record).killed = true)) :
    world.Evolves after := by
  constructor
  · intro id session found
    rw [manager] at found
    exact ⟨session, found, .refl session⟩
  · intro id session found
    rw [manager]
    exact ⟨session, found⟩
  · intro other record found
    rw [executions, AList.lookup_modify_if, found]
    split
    · exact ⟨update record, rfl, keeps record⟩
    · exact ⟨record, rfl, rfl, id, id⟩
  · intro other absent
    rw [executions, AList.lookup_modify_if, absent]
    simp
  · rw [manager]
    exact fun _ member => member
  · rw [manager]
    exact fun _ member absent => (absent member).elim
  · exact later

end Evolves

theorem noteReport_evolves (world : SessionWorld) (execution : ExecutionId)
    (state : ExecutionState) :
    world.Evolves (world.noteReport execution state) := by
  unfold noteReport
  split
  · exact .refl world
  · exact .note rfl rfl le_rfl fun record => ⟨rfl, fun _ => rfl, id⟩

theorem noteKill_evolves (world : SessionWorld) (execution : ExecutionId)
    (answer : Except Thrown Unit) :
    world.Evolves (world.noteKill execution answer) := by
  unfold noteKill
  split
  · exact .refl world
  · exact .note rfl rfl le_rfl fun record => ⟨rfl, id, fun _ => rfl⟩

theorem noteReport_manager (world : SessionWorld) (execution : ExecutionId)
    (state : ExecutionState) :
    (world.noteReport execution state).manager = world.manager := by
  unfold noteReport
  split <;> rfl

theorem noteKill_manager (world : SessionWorld) (execution : ExecutionId)
    (answer : Except Thrown Unit) :
    (world.noteKill execution answer).manager = world.manager := by
  unfold noteKill
  split <;> rfl

/-- A report of another state than `RUNNING` ends the execution. -/
theorem noteReport_ended {execution : ExecutionId} {state : ExecutionState}
    {record : Execution}
    (found : world.executions.lookup execution = some record)
    (stopped : state ≠ .running) :
    (world.noteReport execution state).Ended execution := by
  unfold noteReport Ended
  rw [if_neg stopped]
  refine ⟨{ record with reported := true }, ?_, .inl rfl⟩
  rw [AList.lookup_modify_self, found]
  rfl

theorem noteKill_ended {execution : ExecutionId} {record : Execution}
    (found : world.executions.lookup execution = some record) :
    (world.noteKill execution (.ok ())).Ended execution := by
  unfold noteKill Ended
  refine ⟨{ record with killed := true }, ?_, .inr rfl⟩
  rw [AList.lookup_modify_self, found]
  rfl

/-! ## Accounts -/

end SessionWorld

/-- The session that a call holds. -/
def SessionStage.session : SessionStage → Option SessionId
  | .starting _ | .settled _ => none
  | .queued session | .interrupting session | .writing session
  | .polling session | .killing session | .killed session
  | .abandoning session _ => some session

/-- The sessions that a `closeInstance` call has not done with. -/
def ClosingStage.remaining : ClosingStage → List SessionId
  | .queued session rest | .killing session rest _
  | .polling session rest _ => session :: rest
  | .settled _ => []

namespace SessionWorld

variable {world middle after : SessionWorld}

/-- A call holds a session of its instance, and `kill` polls an execution
whose kill is confirmed. -/
structure Fits (world : SessionWorld) (call : SessionCall) : Prop where
  bound : ∀ id, call.stage.session = some id →
    ∃ session, world.manager.objects.lookup id = some session ∧
      session.instanceId = call.instanceId
  killed : ∀ id session, call.stage = .killed id →
    world.manager.objects.lookup id = some session →
      world.Ended session.execution

structure Accounted (world : SessionWorld) : Prop where
  fresh : ∀ id, world.nextUuid ≤ id →
    world.manager.objects.lookup id = none ∧
      world.executions.lookup id = none ∧ id ∉ world.manager.sessions
  named : ∀ id session, world.manager.objects.lookup id = some session →
    session.id = id
  known : ∀ id session, world.manager.objects.lookup id = some session →
    ∃ record, world.executions.lookup session.execution = some record ∧
      record.instanceId = session.instanceId
  owned : ∀ execution record,
    world.executions.lookup execution = some record →
      ∃ id session, world.manager.objects.lookup id = some session ∧
        session.execution = execution
  inactive : ∀ id session, world.manager.objects.lookup id = some session →
    session.active = false → world.Ended session.execution
  dropped : ∀ id session, world.manager.objects.lookup id = some session →
    id ∉ world.manager.sessions → world.Ended session.execution
  starting : ∀ id call execution, world.calls.lookup id = some call →
    call.stage = .starting execution →
      execution < world.nextUuid ∧
        world.executions.lookup execution = none ∧
        ∀ other later, world.calls.lookup other = some later →
          later.stage = .starting execution → other = id
  calls : ∀ id call, world.calls.lookup id = some call → world.Fits call

theorem Fits.evolve {call : SessionCall} (fits : world.Fits call)
    (evolves : world.Evolves after) : after.Fits call := by
  constructor
  · intro id isSession
    obtain ⟨before, isBefore, same⟩ := fits.bound id isSession
    obtain ⟨later, found, succeeds⟩ := evolves.successor isBefore
    exact ⟨later, found, succeeds.instanceId.trans same⟩
  · intro id later isKilled found
    obtain ⟨before, isBefore, succeeds⟩ := evolves.objects id later found
    rw [succeeds.execution]
    exact evolves.ended (fits.killed id before isKilled isBefore)

namespace Accounted

theorem inactive_later (accounted : world.Accounted)
    (evolves : world.Evolves after) {id : SessionId} {session : Session}
    (found : after.manager.objects.lookup id = some session)
    (isInactive : session.active = false) :
    after.Ended session.execution := by
  obtain ⟨before, isBefore, succeeds⟩ := evolves.objects id session found
  rcases succeeds.inactive isInactive with wasInactive | isEnded
  · rw [succeeds.execution]
    exact evolves.ended (accounted.inactive id before isBefore wasInactive)
  · exact isEnded

/-- Calls in flight may change as long as they fit. -/
theorem evolve (accounted : world.Accounted) (evolves : world.Evolves after)
    (calls : ∀ id call, after.calls.lookup id = some call →
      world.calls.lookup id = some call ∨
        after.Fits call ∧ ∀ execution, call.stage ≠ .starting execution) :
    after.Accounted := by
  have notListed : ∀ id, world.nextUuid ≤ id →
      id ∉ after.manager.sessions := fun id unused member =>
    (accounted.fresh id unused).2.2 (evolves.listed id member)
  constructor
  · intro id unused
    have unusedBefore := accounted.fresh id (evolves.later.trans unused)
    refine ⟨?_, evolves.unrecorded id unusedBefore.2.1,
      notListed id (evolves.later.trans unused)⟩
    cases found : after.manager.objects.lookup id with
    | none => rfl
    | some later =>
        obtain ⟨before, isBefore, _⟩ := evolves.objects id later found
        cases isBefore.symm.trans unusedBefore.1
  · intro id later found
    obtain ⟨before, isBefore, succeeds⟩ := evolves.objects id later found
    rw [succeeds.id]
    exact accounted.named id before isBefore
  · intro id later found
    obtain ⟨before, isBefore, succeeds⟩ := evolves.objects id later found
    obtain ⟨record, isRecord, same⟩ := accounted.known id before isBefore
    obtain ⟨next, isNext, sameNext, _⟩ :=
      evolves.recorded _ record isRecord
    rw [succeeds.execution, succeeds.instanceId]
    exact ⟨next, isNext, sameNext.trans same⟩
  · intro execution record found
    cases isBefore : world.executions.lookup execution with
    | none =>
        cases found.symm.trans (evolves.unrecorded execution isBefore)
    | some before =>
        obtain ⟨id, session, isSession, rfl⟩ :=
          accounted.owned execution before isBefore
        obtain ⟨later, isLater, succeeds⟩ := evolves.successor isSession
        exact ⟨id, later, isLater, succeeds.execution⟩
  · intro id later found isInactive
    exact accounted.inactive_later evolves found isInactive
  · intro id later found absent
    obtain ⟨before, isBefore, succeeds⟩ := evolves.objects id later found
    by_cases wasListed : id ∈ world.manager.sessions
    · exact evolves.dropped id wasListed absent later found
    · rw [succeeds.execution]
      exact evolves.ended (accounted.dropped id before isBefore wasListed)
  · intro id call execution found isStarting
    rcases calls id call found with same | ⟨_, never⟩
    · obtain ⟨used, absent, single⟩ :=
        accounted.starting id call execution same isStarting
      refine ⟨used.trans_le evolves.later,
        evolves.unrecorded execution absent, fun other later isLater => ?_⟩
      intro alsoStarting
      rcases calls other later isLater with same | ⟨_, never⟩
      · exact single other later same alsoStarting
      · exact (never execution alsoStarting).elim
    · exact (never execution isStarting).elim
  · intro id call found
    rcases calls id call found with same | ⟨fits, _⟩
    · exact (accounted.calls id call same).evolve evolves
    · exact fits

theorem empty (maxOutputBytes : Nat) : (empty maxOutputBytes).Accounted := by
  constructor <;> simp [SessionWorld.empty]

end Accounted

/-! ## Stretches of the manager -/

theorem mem_of_mem_evict {sessions removable : List SessionId}
    {id : SessionId} (member : id ∈ SessionManager.evict sessions removable) :
    id ∈ sessions := by
  induction removable generalizing sessions with
  | nil => exact member
  | cons other removable induction =>
      unfold SessionManager.evict at member
      split at member
      · exact List.mem_of_mem_erase (induction member)
      · exact member

theorem mem_of_not_mem_evict {sessions removable : List SessionId}
    {id : SessionId} (member : id ∈ sessions)
    (absent : id ∉ SessionManager.evict sessions removable) :
    id ∈ removable := by
  induction removable generalizing sessions with
  | nil => exact (absent member).elim
  | cons other removable induction =>
      unfold SessionManager.evict at absent
      split at absent
      · by_cases same : id = other
        · exact same ▸ List.mem_cons_self
        · exact List.mem_cons_of_mem _
            (induction ((List.mem_erase_of_ne same).mpr member) absent)
      · exact (absent member).elim

/-- `reap` deletes sessions that are not active. -/
theorem reap_dropped {manager : SessionManager} {now : Nat} {id : SessionId}
    (member : id ∈ manager.sessions)
    (absent : id ∉ (manager.reap now).sessions) {session : Session}
    (found : manager.objects.lookup id = some session) :
    session.active = false := by
  unfold SessionManager.reap at absent
  dsimp only at absent
  by_cases expired : manager.finishedAndExpired now id = true
  · unfold SessionManager.finishedAndExpired at expired
    rw [found] at expired
    simp only [Bool.and_eq_true, Bool.not_eq_true'] at expired
    exact expired.1
  · have kept : id ∈ manager.sessions.filter
        fun id => !manager.finishedAndExpired now id := by
      simp [member, expired]
    have removable := mem_of_not_mem_evict kept absent
    rw [List.mem_insertionSort, List.mem_filter] at removable
    have notActive := removable.2
    unfold SessionManager.isActive at notActive
    rw [found] at notActive
    simpa using notActive

theorem mem_of_mem_reap {manager : SessionManager} {now : Nat}
    {id : SessionId} (member : id ∈ (manager.reap now).sessions) :
    id ∈ manager.sessions :=
  List.mem_of_mem_filter (mem_of_mem_evict member)

theorem Accounted.reap_evolves (accounted : world.Accounted) (now : Nat)
    (manager : after.manager = world.manager.reap now)
    (executions : after.executions = world.executions)
    (later : world.nextUuid ≤ after.nextUuid) : world.Evolves after := by
  apply Evolves.removal _ executions _ _ later
  · rw [manager]
    rfl
  · rw [manager]
    exact fun id => mem_of_mem_reap
  · rw [manager]
    intro id member absent session found
    exact accounted.inactive id session found
      (reap_dropped member absent found)

/-- Updates that only concern the order of calls and the clock. -/
theorem touch_evolves {id : SessionId} {update : Session → Session}
    (manager : after.manager = world.manager.change id update)
    (executions : after.executions = world.executions)
    (later : world.nextUuid ≤ after.nextUuid)
    (same : ∀ session, (update session).id = session.id ∧
      (update session).instanceId = session.instanceId ∧
      (update session).execution = session.execution ∧
      (update session).active = session.active) : world.Evolves after := by
  apply Evolves.change manager executions later
  intro session _
  obtain ⟨sameId, sameInstance, sameExecution, sameActive⟩ := same session
  refine ⟨sameId, sameInstance, sameExecution, fun isInactive => .inl ?_⟩
  rw [← sameActive]
  exact isInactive

theorem enqueue_evolves (id : SessionId) (waiter : Waiter) :
    world.Evolves { world with manager := world.manager.enqueue id waiter } :=
  touch_evolves rfl rfl le_rfl fun _ => ⟨rfl, rfl, rfl, rfl⟩

theorem enter_evolves (id : SessionId) (now : Nat) :
    world.Evolves { world with manager := world.manager.enter id now } :=
  touch_evolves rfl rfl le_rfl fun _ => ⟨rfl, rfl, rfl, rfl⟩

theorem release_evolves (id : SessionId) (waiter : Waiter) :
    world.Evolves { world with manager := world.manager.release id waiter } :=
  touch_evolves rfl rfl le_rfl fun _ => ⟨rfl, rfl, rfl, rfl⟩

theorem deactivate_evolves {id : SessionId}
    (ended : ∀ session, world.manager.objects.lookup id = some session →
      world.Ended session.execution) :
    world.Evolves { world with manager := world.manager.deactivate id } :=
  .change rfl rfl le_rfl fun session found =>
    ⟨rfl, rfl, rfl, fun _ => .inr (ended session found)⟩

theorem delete_evolves {id : SessionId}
    (ended : ∀ session, world.manager.objects.lookup id = some session →
      world.Ended session.execution) :
    world.Evolves { world with manager := world.manager.delete id } := by
  refine Evolves.removal rfl rfl ?_ ?_ le_rfl
  · intro other member
    exact List.mem_of_mem_erase member
  · intro other member absent session found
    by_cases same : other = id
    · subst same
      exact ended session found
    · exact (absent ((List.mem_erase_of_ne same).mpr member)).elim

/-- Leaving the serial section is all that happens after the stretch. -/
theorem resume_evolves (noted : SessionWorld) (id : CallId)
    (call : SessionCall) (session : SessionId) (segment : SessionSegment) :
    Evolves { noted with manager := segment.manager }
      (noted.resume id call session segment).1 := by
  unfold resume leaveSection
  dsimp only
  split
  · exact (release_evolves session (.call id)).trans (.of_same rfl rfl le_rfl)
  · exact .of_same rfl rfl le_rfl

/-- The session that `response` leaves. -/
theorem response_succeeds (maxOutputBytes now : Nat) {session : Session}
    {result : ExecutionResult} (maxOutputTokens : Option Nat) (killed : Bool)
    (ended : result.state ≠ .running → world.Ended session.execution) :
    world.Succeeds session (response maxOutputBytes now session result
      maxOutputTokens killed).1 := by
  refine ⟨rfl, rfl, rfl, fun isInactive => ?_⟩
  by_cases running : result.state = .running
  · refine .inl ?_
    simpa [response, running] using isInactive
  · exact .inr (ended running)

/-! ## Steps -/

/-- What a call that holds a session does from one await to the next: what it
learns about the execution, and the stretch it runs. -/
inductive CallStep (world : SessionWorld) (moment : Moment)
    (call : SessionCall) (session : SessionId) :
    SessionWorld → SessionSegment → Prop where
  | entered {object : Session} :
      call.stage = .queued session →
      world.manager.objects.lookup session = some object →
      CallStep world moment call session world
        (world.manager.enterSection moment object call.request)
  | polled {object : Session} {result : ExecutionResult} :
      call.stage = .polling session →
      world.manager.objects.lookup session = some object →
      CallStep world moment call session
        (world.noteReport object.execution result.state)
        (world.manager.polled moment object call.request.maxOutputTokens
          result)
  | wrote : call.stage = .writing session →
      CallStep world moment call session world
        (world.manager.pollOrAbandon moment call.instanceId session)
  | failed {error : Thrown} :
      call.stage = .polling session ∨ call.stage = .writing session →
      CallStep world moment call session world
        { manager := world.manager, stage := .abandoning session error }
  | killedAndPolled {object : Session} {result : ExecutionResult} :
      call.stage = .killed session →
      world.manager.objects.lookup session = some object →
      CallStep world moment call session
        (world.noteReport object.execution result.state)
        (world.manager.killedAndPolled moment object result)
  | killedNotPolled {error : Thrown} : call.stage = .killed session →
      CallStep world moment call session world
        { manager := world.manager, stage := .settled (.error error) }
  | killAnswered {object : Session} {answer : Except Thrown Unit}
      {segment : SessionSegment} :
      afterKill world.manager moment call.instanceId call.stage answer =
        some (session, segment) →
      world.manager.objects.lookup session = some object →
      (∀ error, answer = .error error → ∀ thrown,
        call.stage = .abandoning session thrown →
          world.Ended object.execution) →
      CallStep world moment call session
        (world.noteKill object.execution answer) segment

/-- No backend has failed to kill an execution that may still run, where the
manager takes no notice of the failure. -/
def Confirmed (world : SessionWorld) : SessionEvent → Prop
  | .killAnswered id (.error _) =>
      ∀ call session thrown object, world.calls.lookup id = some call →
        call.stage = .abandoning session thrown →
        world.manager.objects.lookup session = some object →
        world.Ended object.execution
  | .reaperKillAnswered id (.error _) =>
      ∀ reaper session object, world.reapers.lookup id = some reaper →
        reaper.stage = .killing session →
        world.manager.objects.lookup session = some object →
        world.Ended object.execution
  | _ => True

/-- The loop of a `closeInstance` call has come to its next session. -/
inductive ClosingStep (world : SessionWorld) (instanceId : InstanceId)
    (call : ClosingCall) : SessionWorld → Prop where
  | entered {session : SessionId} {rest : List SessionId} {now : Nat} :
      call.stage = .queued session rest →
      ClosingStep world instanceId call
        { world with
          manager := world.manager.enter session now
          closings := world.closings.insert instanceId
            { call with stage := .killing session rest false } }
  | killed {session : SessionId} {rest : List SessionId} {again : Bool}
      {object : Session} {answer : Except Thrown Unit} :
      call.stage = .killing session rest again →
      ClosingStep world instanceId call
        { world.noteKill object.execution answer with
          closings := world.closings.insert instanceId
            { call with stage := .polling session rest again } }
  | running {session : SessionId} {rest : List SessionId} {again : Bool}
      {object : Session} {state : ExecutionState} :
      call.stage = .polling session rest again →
      ClosingStep world instanceId call
        { world.noteReport object.execution state with
          closings := world.closings.insert instanceId
            { call with stage := .killing session rest true } }
  | failed {noted : SessionWorld} {session : SessionId}
      {rest : List SessionId} {error : Thrown} :
      call.stage.remaining = session :: rest → world.Evolves noted → noted.closings = world.closings →
      noted.calls = world.calls → noted.reapers = world.reapers →
      ClosingStep world instanceId call
        (noted.closingFails instanceId call.failures session rest error)
  | stopped {session : SessionId} {rest : List SessionId} {again : Bool}
      {object : Session} {state : ExecutionState} :
      call.stage = .polling session rest again →
      world.manager.objects.lookup session = some object →
      state ≠ .running →
      ClosingStep world instanceId call
        (closeNext
          { world.noteReport object.execution state with
            manager := (world.manager.deactivate session).release session
              (.closing instanceId) }
          instanceId call.failures rest)

/-- What an event has done, by the kind of call that has run. -/
inductive Stepped (world : SessionWorld) (moment : Moment) :
    SessionEvent → SessionWorld → Option InstanceMark → Prop where
  | began {id : CallId} {instanceId : InstanceId} {request : SessionRequest}
      {manager : SessionManager} {stage : SessionStage} :
      world.calls.lookup id = none →
      world.manager.begin moment world.nextUuid id instanceId request =
        (manager, stage) →
      Stepped world moment (.begin id instanceId request)
        { world with
          manager
          calls := world.calls.insert id { instanceId, request, stage }
          nextUuid := world.nextUuid + 1 }
        none
  | resumed {event : SessionEvent} {id : CallId} {call : SessionCall}
      {session : SessionId} {noted : SessionWorld}
      {segment : SessionSegment} :
      world.calls.lookup id = some call →
      call.stage.session = some session →
      (world.Confirmed event →
        CallStep world moment call session noted segment) →
      noted.calls = world.calls → noted.closings = world.closings →
      Stepped world moment event (noted.resume id call session segment).1
        (noted.resume id call session segment).2
  | refused {id : CallId} {call : SessionCall} {execution : ExecutionId}
      {error : Thrown} :
      world.calls.lookup id = some call →
      call.stage = .starting execution →
      Stepped world moment (.execAnswered id (.error error))
        { world with
          calls := world.calls.insert id
            { call with stage := .settled (.error error) } }
        none
  | opened {id : CallId} {call : SessionCall} {execution : ExecutionId}
      {tty : Bool} :
      world.calls.lookup id = some call →
      call.stage = .starting execution →
      Stepped world moment (.execAnswered id (.ok ()))
        { (world.resume id call world.nextUuid
            (world.manager.opened moment world.nextUuid call.instanceId
              execution tty)).1 with
          nextUuid := world.nextUuid + 1
          executions := world.executions.insert execution
            { instanceId := call.instanceId } }
        (some { instanceId := call.instanceId, running := true })
  | closes {instanceId : InstanceId} :
      world.closings.lookup instanceId = none →
      Stepped world moment (.closeInstance instanceId)
        (closeNext
          { world with manager :=
            { world.manager with
              closingInstances :=
                instanceId :: world.manager.closingInstances } }
          instanceId [] (activeSessions world.manager instanceId))
        none
  | closing {event : SessionEvent} {instanceId : InstanceId}
      {call : ClosingCall} {after : SessionWorld} :
      world.closings.lookup instanceId = some call →
      ClosingStep world instanceId call after →
      Stepped world moment event after none
  | reaps {id : Nat} :
      Stepped world moment (.reapExpired id)
        (world.reapOn id moment.now []) none
  | reaped {id : Nat} {answer : Except Thrown Unit} {reaper : Reaper}
      {session : SessionId} {object : Session} :
      world.reapers.lookup id = some reaper →
      reaper.stage = .killing session →
      world.manager.objects.lookup session = some object →
      Stepped world moment (.reaperKillAnswered id answer)
        ({ world.noteKill object.execution answer with
            manager := (world.manager.deactivate session).delete session
          }.reapOn id reaper.now (reaper.passed ++ [session]))
        none

@[simp] theorem noteReport_calls (execution : ExecutionId)
    (state : ExecutionState) :
    (world.noteReport execution state).calls = world.calls := by
  unfold noteReport
  split <;> rfl

@[simp] theorem noteReport_closings (execution : ExecutionId)
    (state : ExecutionState) :
    (world.noteReport execution state).closings = world.closings := by
  unfold noteReport
  split <;> rfl

@[simp] theorem noteReport_reapers (execution : ExecutionId)
    (state : ExecutionState) :
    (world.noteReport execution state).reapers = world.reapers := by
  unfold noteReport
  split <;> rfl

@[simp] theorem noteKill_calls (execution : ExecutionId)
    (answer : Except Thrown Unit) :
    (world.noteKill execution answer).calls = world.calls := by
  unfold noteKill
  split <;> rfl

@[simp] theorem noteKill_closings (execution : ExecutionId)
    (answer : Except Thrown Unit) :
    (world.noteKill execution answer).closings = world.closings := by
  unfold noteKill
  split <;> rfl

@[simp] theorem noteKill_reapers (execution : ExecutionId)
    (answer : Except Thrown Unit) :
    (world.noteKill execution answer).reapers = world.reapers := by
  unfold noteKill
  split <;> rfl

attribute [simp] noteReport_manager noteKill_manager

theorem enter_stepped {moment : Moment} {id : CallId}
    {mark : Option InstanceMark}
    (taken : world.enter moment id = some (after, mark)) :
    Stepped world moment (.enter id) after mark := by
  unfold enter at taken
  obtain ⟨call, isCall, taken⟩ := Option.bind_eq_some_iff.mp taken
  split at taken
  case h_2 => cases taken
  case h_1 sessionId isStage =>
  obtain ⟨session, isSession, taken⟩ := Option.bind_eq_some_iff.mp taken
  split at taken
  case isFalse => cases taken
  case isTrue =>
    obtain ⟨rfl, rfl⟩ := Prod.mk.inj (Option.some.inj taken).symm
    exact .resumed isCall (by rw [isStage]; rfl)
      (fun _ => .entered isStage isSession) rfl rfl

theorem execAnswered_stepped {moment : Moment} {id : CallId}
    {answer : Except Thrown Unit} {mark : Option InstanceMark}
    (taken : world.execAnswered moment id answer = some (after, mark)) :
    Stepped world moment (.execAnswered id answer) after mark := by
  unfold execAnswered at taken
  obtain ⟨call, isCall, ran⟩ := Option.bind_eq_some_iff.mp taken
  clear taken
  split at ran
  case h_1 isStage =>
    obtain ⟨rfl, rfl⟩ := Prod.mk.inj (Option.some.inj ran).symm
    exact .refused isCall isStage
  case h_2 isStage _ =>
    obtain ⟨rfl, rfl⟩ := Prod.mk.inj (Option.some.inj ran).symm
    exact .opened isCall isStage
  case h_3 => cases ran

theorem pollAnswered_stepped {moment : Moment} {id : CallId}
    {answer : Except Thrown ExecutionResult} {mark : Option InstanceMark}
    (taken : world.pollAnswered moment id answer = some (after, mark)) :
    Stepped world moment (.pollAnswered id answer) after mark := by
  unfold pollAnswered at taken
  obtain ⟨call, isCall, ran⟩ := Option.bind_eq_some_iff.mp taken
  clear taken
  split at ran
  case h_1 isStage =>
    obtain ⟨session, isSession, ran⟩ := Option.bind_eq_some_iff.mp ran
    obtain ⟨rfl, rfl⟩ := Prod.mk.inj (Option.some.inj ran).symm
    exact .resumed isCall (by rw [isStage]; rfl)
      (fun _ => .polled isStage isSession) (by simp) (by simp)
  case h_2 isStage =>
    obtain ⟨rfl, rfl⟩ := Prod.mk.inj (Option.some.inj ran).symm
    exact .resumed isCall (by rw [isStage]; rfl)
      (fun _ => .failed (.inl isStage)) rfl rfl
  case h_3 isStage =>
    obtain ⟨session, isSession, ran⟩ := Option.bind_eq_some_iff.mp ran
    obtain ⟨rfl, rfl⟩ := Prod.mk.inj (Option.some.inj ran).symm
    exact .resumed isCall (by rw [isStage]; rfl)
      (fun _ => .killedAndPolled isStage isSession) (by simp) (by simp)
  case h_4 isStage =>
    obtain ⟨rfl, rfl⟩ := Prod.mk.inj (Option.some.inj ran).symm
    exact .resumed isCall (by rw [isStage]; rfl)
      (fun _ => .killedNotPolled isStage) rfl rfl
  case h_5 => cases ran

theorem writeAnswered_stepped {moment : Moment} {id : CallId}
    {answer : Except Thrown Unit} {mark : Option InstanceMark}
    (taken : world.writeAnswered moment id answer = some (after, mark)) :
    Stepped world moment (.writeAnswered id answer) after mark := by
  unfold writeAnswered at taken
  obtain ⟨call, isCall, ran⟩ := Option.bind_eq_some_iff.mp taken
  clear taken
  split at ran
  case h_1 isStage =>
    obtain ⟨rfl, rfl⟩ := Prod.mk.inj (Option.some.inj ran).symm
    exact .resumed isCall (by rw [isStage]; rfl)
      (fun _ => .wrote isStage) rfl rfl
  case h_2 isStage =>
    obtain ⟨rfl, rfl⟩ := Prod.mk.inj (Option.some.inj ran).symm
    exact .resumed isCall (by rw [isStage]; rfl)
      (fun _ => .failed (.inr isStage)) rfl rfl
  case h_3 => cases ran

theorem afterKill_session {manager : SessionManager} {moment : Moment}
    {instanceId : InstanceId} {stage : SessionStage}
    {answer : Except Thrown Unit} {session : SessionId}
    {segment : SessionSegment}
    (found : afterKill manager moment instanceId stage answer =
      some (session, segment)) : stage.session = some session := by
  unfold afterKill at found
  split at found <;> cases found <;> rfl

theorem killAnswered_stepped {moment : Moment} {id : CallId}
    {answer : Except Thrown Unit} {mark : Option InstanceMark}
    (taken : world.killAnswered moment id answer = some (after, mark)) :
    Stepped world moment (.killAnswered id answer) after mark := by
  unfold killAnswered at taken
  obtain ⟨call, isCall, taken⟩ := Option.bind_eq_some_iff.mp taken
  obtain ⟨⟨sessionId, segment⟩, isSegment, taken⟩ :=
    Option.bind_eq_some_iff.mp taken
  obtain ⟨session, isSession, taken⟩ := Option.bind_eq_some_iff.mp taken
  obtain ⟨rfl, rfl⟩ := Prod.mk.inj (Option.some.inj taken).symm
  have holds := afterKill_session isSegment
  refine .resumed isCall holds (fun confirmed => ?_) (by simp) (by simp)
  refine .killAnswered isSegment isSession ?_
  rintro error rfl thrown isAbandoning
  have same : sessionId = sessionId := rfl
  rw [isAbandoning] at holds
  cases holds
  exact confirmed call sessionId thrown session isCall isAbandoning isSession

theorem closingEnters_stepped {moment : Moment} {instanceId : InstanceId}
    (taken : world.closingEnters moment instanceId = some after) :
    Stepped world moment (.closingEnters instanceId) after none := by
  unfold closingEnters at taken
  obtain ⟨call, isCall, taken⟩ := Option.bind_eq_some_iff.mp taken
  split at taken
  case h_2 => cases taken
  case h_1 isStage =>
  split at taken
  case isFalse => cases taken
  case isTrue =>
    cases taken
    exact .closing isCall (.entered isStage)

theorem closingKillAnswered_stepped {moment : Moment}
    {instanceId : InstanceId} {answer : Except Thrown Unit}
    (taken : world.closingKillAnswered moment instanceId answer =
      some after) :
    Stepped world moment (.closingKillAnswered instanceId answer) after
      none := by
  unfold closingKillAnswered at taken
  obtain ⟨call, isCall, taken⟩ := Option.bind_eq_some_iff.mp taken
  split at taken
  case h_2 => cases taken
  case h_1 isStage =>
  obtain ⟨session, isSession, taken⟩ := Option.bind_eq_some_iff.mp taken
  dsimp only at taken
  split at taken
  case h_1 =>
    cases taken
    exact .closing isCall (.failed (by rw [isStage]; rfl)
      (noteKill_evolves _ _ _) (by simp) (by simp) (by simp))
  case h_2 =>
    split at taken
    case h_1 =>
      cases taken
      exact .closing isCall (.failed (by rw [isStage]; rfl)
        (noteKill_evolves _ _ _) (by simp) (by simp) (by simp))
    case h_2 =>
      cases taken
      rw [noteKill_closings]
      exact .closing isCall (.killed isStage)

theorem closingPollAnswered_stepped {moment : Moment}
    {instanceId : InstanceId} {answer : Except Thrown ExecutionResult}
    (taken : world.closingPollAnswered instanceId answer = some after) :
    Stepped world moment (.closingPollAnswered instanceId answer) after
      none := by
  unfold closingPollAnswered at taken
  obtain ⟨call, isCall, ran⟩ := Option.bind_eq_some_iff.mp taken
  clear taken
  split at ran
  case h_1 isStage =>
    cases ran
    exact .closing isCall
      (.failed (by rw [isStage]; rfl) (.refl world) rfl rfl rfl)
  case h_2 isStage =>
    obtain ⟨session, isSession, ran⟩ := Option.bind_eq_some_iff.mp ran
    dsimp only at ran
    split at ran
    case isTrue =>
      split at ran
      case isTrue =>
        cases ran
        exact .closing isCall (.failed (by rw [isStage]; rfl)
          (noteReport_evolves _ _ _) (by simp) (by simp) (by simp))
      case isFalse =>
        cases ran
        rw [noteReport_closings]
        exact .closing isCall (.running isStage)
    case isFalse stopped =>
      cases ran
      rw [noteReport_manager]
      exact .closing isCall (.stopped isStage isSession stopped)
  case h_3 => cases ran

theorem stepped {moment : Moment} {event : SessionEvent}
    {mark : Option InstanceMark}
    (taken : world.step moment event = some (after, mark)) :
    Stepped world moment event after mark := by
  have silent : ∀ {outcome : Option SessionWorld},
      outcome.map (·, (none : Option InstanceMark)) = some (after, mark) →
        outcome = some after ∧ mark = none := by
    rintro outcome same
    obtain ⟨found, isFound, pair⟩ := Option.map_eq_some_iff.mp same
    obtain ⟨rfl, rfl⟩ := Prod.mk.inj pair
    exact ⟨isFound, rfl⟩
  cases event with
  | begin id instanceId request =>
      obtain ⟨ran, rfl⟩ := silent taken
      unfold begin at ran
      split at ran
      case h_1 => cases ran
      case h_2 absent =>
        cases ran
        exact .began absent rfl
  | enter => exact enter_stepped taken
  | execAnswered => exact execAnswered_stepped taken
  | pollAnswered => exact pollAnswered_stepped taken
  | writeAnswered => exact writeAnswered_stepped taken
  | killAnswered => exact killAnswered_stepped taken
  | closeInstance instanceId =>
      obtain ⟨ran, rfl⟩ := silent taken
      unfold closeInstance at ran
      split at ran
      case h_1 => cases ran
      case h_2 absent =>
        cases ran
        exact .closes absent
  | closingEnters =>
      obtain ⟨ran, rfl⟩ := silent taken
      exact closingEnters_stepped ran
  | closingKillAnswered =>
      obtain ⟨ran, rfl⟩ := silent taken
      exact closingKillAnswered_stepped ran
  | closingPollAnswered =>
      obtain ⟨ran, rfl⟩ := silent taken
      exact closingPollAnswered_stepped ran
  | reapExpired id =>
      obtain ⟨ran, rfl⟩ := silent taken
      unfold reapExpired at ran
      split at ran
      case h_1 => cases ran
      case h_2 =>
        cases ran
        exact .reaps
  | reaperKillAnswered id answer =>
      obtain ⟨ran, rfl⟩ := silent taken
      unfold reaperKillAnswered at ran
      obtain ⟨reaper, isReaper, ran⟩ := Option.bind_eq_some_iff.mp ran
      split at ran
      case h_2 => cases ran
      case h_1 isStage =>
      obtain ⟨session, isSession, ran⟩ := Option.bind_eq_some_iff.mp ran
      cases ran
      rw [noteKill_manager]
      exact .reaped isReaper isStage isSession

/-! ## What a step does to the accounts -/

/-- What a stretch of a call leaves behind. -/
structure CallEffect (world noted : SessionWorld) (session : SessionId)
    (segment : SessionSegment) : Prop where
  evolves : world.Evolves { noted with manager := segment.manager }
  session : ∀ id, segment.stage.session = some id → id = session
  unstarted : ∀ execution, segment.stage ≠ .starting execution
  killed : ∀ id object, segment.stage = .killed id →
    world.manager.objects.lookup id = some object →
      noted.Ended object.execution

/-- A stretch that goes on to poll, or to abandon the session. -/
theorem pollOrAbandon_effect {noted : SessionWorld}
    {manager : SessionManager} {moment : Moment} {instanceId : InstanceId}
    {session : SessionId}
    (evolves : world.Evolves { noted with manager }) :
    world.CallEffect noted session
      (manager.pollOrAbandon moment instanceId session) := by
  unfold SessionManager.pollOrAbandon
  split <;> exact ⟨evolves, by rintro _ ⟨⟩; rfl, by simp, by simp⟩

theorem enterSection_effect {moment : Moment} {object : Session}
    {request : SessionRequest} :
    world.CallEffect world object.id
      (world.manager.enterSection moment object request) := by
  have evolves := world.enter_evolves object.id moment.now
  cases request with
  | exec => exact ⟨.refl world, by rintro _ ⟨⟩; rfl, by simp
      [SessionManager.enterSection], by simp [SessionManager.enterSection]⟩
  | poll => exact pollOrAbandon_effect evolves
  | write =>
      unfold SessionManager.enterSection
      dsimp only
      split
      · exact ⟨evolves, by rintro _ ⟨⟩; rfl, by simp, by simp⟩
      split
      · exact ⟨evolves, by rintro _ ⟨⟩; rfl, by simp, by simp⟩
      · exact ⟨evolves, by rintro _ ⟨⟩, by simp, by simp⟩
  | kill => exact ⟨evolves, by rintro _ ⟨⟩; rfl, by simp
      [SessionManager.enterSection], by simp [SessionManager.enterSection]⟩

/-- The manager replaces a session by one that succeeds it. -/
theorem replace_evolves (noted : SessionWorld) (object later : Session)
    (found : noted.manager.objects.lookup object.id = some object)
    (succeeds : noted.Succeeds object later) :
    noted.Evolves
      { noted with manager := noted.manager.change object.id fun _ => later } :=
  .change rfl rfl le_rfl fun session isSession => by
    cases isSession.symm.trans found
    exact succeeds

theorem polled_effect (accounted : world.Accounted) {moment : Moment}
    {object : Session} {result : ExecutionResult}
    {maxOutputTokens : Option Nat}
    (found : world.manager.objects.lookup object.id = some object) :
    world.CallEffect (world.noteReport object.execution result.state)
      object.id
      (world.manager.polled moment object maxOutputTokens result) := by
  obtain ⟨record, isRecord, _⟩ := accounted.known object.id object found
  have reports := world.noteReport_evolves object.execution result.state
  have replaces := replace_evolves
    (world.noteReport object.execution result.state) object _
    (by rw [noteReport_manager]; exact found)
    (response_succeeds world.manager.maxOutputBytes moment.now
      maxOutputTokens false fun stopped => noteReport_ended isRecord stopped)
  rw [noteReport_manager] at replaces
  exact ⟨reports.trans replaces, by rintro _ ⟨⟩, by
    simp [SessionManager.polled], by simp [SessionManager.polled]⟩

theorem killedAndPolled_effect {moment : Moment} {object : Session}
    {result : ExecutionResult}
    (found : world.manager.objects.lookup object.id = some object)
    (ended : world.Ended object.execution) :
    world.CallEffect (world.noteReport object.execution result.state)
      object.id (world.manager.killedAndPolled moment object result) := by
  have reports := world.noteReport_evolves object.execution result.state
  have stopped := reports.ended ended
  have replaces := replace_evolves
    (world.noteReport object.execution result.state) object
    (response world.manager.maxOutputBytes moment.now
      { object with active := false } result none true).1
    (by rw [noteReport_manager]; exact found)
    ⟨rfl, rfl, rfl, fun _ => .inr stopped⟩
  rw [noteReport_manager] at replaces
  exact ⟨reports.trans replaces, by rintro _ ⟨⟩, by
    simp [SessionManager.killedAndPolled],
    by simp [SessionManager.killedAndPolled]⟩

theorem killAnswered_effect (accounted : world.Accounted) {moment : Moment}
    {instanceId : InstanceId} {stage : SessionStage}
    {answer : Except Thrown Unit} {object : Session}
    {segment : SessionSegment}
    (answered : afterKill world.manager moment instanceId stage answer =
      some (object.id, segment))
    (found : world.manager.objects.lookup object.id = some object)
    (confirmed : ∀ error, answer = .error error → ∀ thrown,
      stage = .abandoning object.id thrown → world.Ended object.execution) :
    world.CallEffect (world.noteKill object.execution answer) object.id
      segment := by
  obtain ⟨record, isRecord, _⟩ := accounted.known object.id object found
  have notes := world.noteKill_evolves object.execution answer
  have unchanged : world.Evolves
      { world.noteKill object.execution answer with
        manager := world.manager } := by
    have same := notes
    rw [← noteKill_manager world object.execution answer]
    exact same
  unfold afterKill at answered
  split at answered
  case h_1 =>
    cases answered
    exact pollOrAbandon_effect unchanged
  case h_2 =>
    cases answered
    exact ⟨unchanged, by rintro _ ⟨⟩; rfl, by simp, by simp⟩
  case h_3 =>
    cases answered
    refine ⟨unchanged, ?_, ?_, ?_⟩
    · intro id isSession
      dsimp only at isSession
      split at isSession <;> cases isSession
      rfl
    · intro execution isStarting
      dsimp only at isStarting
      split at isStarting <;> cases isStarting
    · intro id later isKilled isLater
      dsimp only at isKilled
      split at isKilled <;> cases isKilled
      cases found.symm.trans isLater
      exact noteKill_ended isRecord
  case h_4 =>
    cases answered
    exact ⟨unchanged, by rintro _ ⟨⟩, by simp, by simp⟩
  case h_5 thrown =>
    cases answered
    have ended : (world.noteKill object.execution answer).Ended
        object.execution := by
      cases answer with
      | ok => exact noteKill_ended isRecord
      | error error => exact confirmed error rfl thrown rfl
    refine ⟨unchanged.trans (deactivate_evolves fun later isLater => ?_),
      by rintro _ ⟨⟩, by simp [SessionManager.abandoned],
      by simp [SessionManager.abandoned]⟩
    cases found.symm.trans isLater
    exact ended
  case h_6 => cases answered

theorem CallStep.effect (accounted : world.Accounted) {moment : Moment}
    {call : SessionCall} (fits : world.Fits call) {session : SessionId}
    {noted : SessionWorld} {segment : SessionSegment}
    (step : CallStep world moment call session noted segment) :
    world.CallEffect noted session segment := by
  cases step with
  | @entered object isStage found =>
      obtain rfl := accounted.named session object found
      exact enterSection_effect
  | @polled object _ isStage found =>
      obtain rfl := accounted.named session object found
      exact polled_effect accounted found
  | wrote => exact pollOrAbandon_effect (.refl world)
  | failed =>
      exact ⟨.refl world, by rintro _ ⟨⟩; rfl, by simp, by simp⟩
  | @killedAndPolled object _ isStage found =>
      have ended := fits.killed session object isStage found
      obtain rfl := accounted.named session object found
      exact killedAndPolled_effect found ended
  | killedNotPolled =>
      exact ⟨.refl world, by rintro _ ⟨⟩, by simp, by simp⟩
  | @killAnswered object _ _ answered found confirmed =>
      obtain rfl := accounted.named session object found
      exact killAnswered_effect accounted answered found confirmed

/-! ## The closing calls and the reaper -/

theorem closeNext_evolves (instanceId : InstanceId) (failures : List Thrown)
    (sessions : List SessionId) :
    world.Evolves (closeNext world instanceId failures sessions) := by
  cases sessions with
  | nil => exact .of_same rfl rfl le_rfl
  | cons session rest =>
      exact (enqueue_evolves session (.closing instanceId)).trans
        (.of_same rfl rfl le_rfl)

theorem closingFails_evolves (instanceId : InstanceId)
    (failures : List Thrown) (session : SessionId) (rest : List SessionId)
    (error : Thrown) :
    world.Evolves (world.closingFails instanceId failures session rest error) :=
  (release_evolves session (.closing instanceId)).trans
    (closeNext_evolves instanceId _ rest)

/-- `closeInstance` has learned that an execution has stopped. -/
theorem stopped_evolves (accounted : world.Accounted) {session : SessionId}
    {object : Session} {state : ExecutionState}
    (found : world.manager.objects.lookup session = some object)
    (stopped : state ≠ .running) (waiter : Waiter) :
    world.Evolves { world.noteReport object.execution state with
      manager := (world.manager.deactivate session).release session waiter } ∧
    Ended { world.noteReport object.execution state with
      manager := (world.manager.deactivate session).release session waiter }
      object.execution := by
  obtain ⟨record, isRecord, _⟩ := accounted.known session object found
  have ended := noteReport_ended isRecord stopped
  have deactivates : (world.noteReport object.execution state).Evolves
      { world.noteReport object.execution state with
        manager := (world.noteReport object.execution
          state).manager.deactivate session } := by
    refine deactivate_evolves fun later isLater => ?_
    rw [noteReport_manager] at isLater
    cases found.symm.trans isLater
    exact ended
  rw [noteReport_manager] at deactivates
  have releases := deactivates.trans (release_evolves session waiter)
  exact ⟨(noteReport_evolves world object.execution state).trans releases,
    releases.ended ended⟩

theorem ClosingStep.evolves (accounted : world.Accounted)
    {instanceId : InstanceId} {call : ClosingCall}
    (step : world.ClosingStep instanceId call after) :
    world.Evolves after := by
  cases step with
  | entered => exact (enter_evolves _ _).trans (.of_same rfl rfl le_rfl)
  | killed => exact (noteKill_evolves _ _ _).trans (.of_same rfl rfl le_rfl)
  | running =>
      exact (noteReport_evolves _ _ _).trans (.of_same rfl rfl le_rfl)
  | failed _ evolves => exact evolves.trans (closingFails_evolves _ _ _ _ _)
  | stopped _ found notRunning =>
      exact (stopped_evolves accounted found notRunning _).1.trans
        (closeNext_evolves _ _ _)

theorem reapNext_evolves (accounted : ∀ id session,
      world.manager.objects.lookup id = some session →
      session.active = false → world.Ended session.execution)
    (now : Nat) (passed candidates : List SessionId) :
    world.Evolves { world with
      manager := (reapNext world.manager now passed candidates).1 } := by
  induction candidates generalizing world passed with
  | nil => exact .refl world
  | cons id rest induction =>
      unfold reapNext
      split
      case h_1 => exact induction accounted _
      case h_2 session found =>
      split
      case isTrue => exact induction accounted _
      case isFalse =>
      split
      case isTrue => exact .refl world
      case isFalse isInactive =>
        have deletes : world.Evolves
            { world with manager := world.manager.delete id } := by
          refine delete_evolves fun later isLater => ?_
          cases found.symm.trans isLater
          exact accounted id session found (by simpa using isInactive)
        exact deletes.trans (@induction
          { world with manager := world.manager.delete id } accounted _)

theorem reapOn_evolves (inactive : ∀ id session,
      world.manager.objects.lookup id = some session →
      session.active = false → world.Ended session.execution)
    (id now : Nat) (passed : List SessionId) :
    world.Evolves (world.reapOn id now passed) :=
  (reapNext_evolves inactive now passed _).trans (.of_same rfl rfl le_rfl)

theorem begin_cases {manager later : SessionManager} {moment : Moment}
    {fresh : ExecutionId} {id : CallId} {instanceId : InstanceId}
    {request : SessionRequest} {stage : SessionStage}
    (begun : manager.begin moment fresh id instanceId request =
      (later, stage)) :
    (later = manager.reap moment.now ∧
      (stage = .starting fresh ∨ ∃ error, stage = .settled (.error error))) ∨
    (later = manager ∧ ∃ error, stage = .settled (.error error)) ∨
    ∃ session object, later = manager.enqueue session (.call id) ∧
      stage = .queued session ∧
      manager.requireSession session instanceId moment.now = .ok object := by
  unfold SessionManager.begin at begun
  split at begun
  case h_1 =>
    dsimp only at begun
    split at begun <;> obtain ⟨rfl, rfl⟩ := Prod.mk.inj begun.symm
    · exact .inl ⟨rfl, .inl rfl⟩
    · exact .inl ⟨rfl, .inr ⟨_, rfl⟩⟩
  case h_2 | h_3 =>
    split at begun <;> obtain ⟨rfl, rfl⟩ := Prod.mk.inj begun.symm
    case h_1 object required =>
      exact .inr (.inr ⟨_, object, rfl, rfl, required⟩)
    case h_2 => exact .inr (.inl ⟨rfl, _, rfl⟩)
  case h_4 =>
    split at begun
    case h_1 =>
      obtain ⟨rfl, rfl⟩ := Prod.mk.inj begun.symm
      exact .inr (.inl ⟨rfl, _, rfl⟩)
    case h_2 object required =>
      split at begun <;> obtain ⟨rfl, rfl⟩ := Prod.mk.inj begun.symm
      · exact .inr (.inl ⟨rfl, _, rfl⟩)
      · exact .inr (.inr ⟨_, object, rfl, rfl, required⟩)

theorem requireSession_eq_ok {manager : SessionManager} {id : SessionId}
    {instanceId : InstanceId} {now : Nat} {session : Session}
    (required : manager.requireSession id instanceId now = .ok session) :
    id ∈ manager.sessions ∧ manager.objects.lookup id = some session ∧
      session.instanceId = instanceId := by
  unfold SessionManager.requireSession SessionManager.get at required
  split at required
  case h_1 object found =>
    split at found
    case isFalse => cases found
    case isTrue member =>
    split at required <;> cases required
    rename_i usable
    exact ⟨member, found, not_not.mp fun different =>
      usable (.inl different)⟩
  case h_2 => cases required

/-- A call that waits for the backend to start an execution. -/
theorem Accounted.insertStarting (accounted : world.Accounted) {id : CallId}
    {instanceId : InstanceId} {request : SessionRequest}
    {execution : ExecutionId}
    (used : execution < world.nextUuid)
    (unrecorded : world.executions.lookup execution = none)
    (unclaimed : ∀ other call, world.calls.lookup other = some call →
      call.stage ≠ .starting execution) :
    Accounted { world with
      calls := world.calls.insert id
        { instanceId, request, stage := .starting execution } } := by
  refine { accounted with starting := ?_, calls := ?_ }
  · intro other call claimed found isStarting
    rw [AList.lookup_insert_if] at found
    split at found
    case isTrue same =>
      cases found
      cases isStarting
      refine ⟨used, unrecorded, fun third later isLater alsoStarting => ?_⟩
      rw [AList.lookup_insert_if] at isLater
      split at isLater
      case isTrue same' => exact same'.trans same.symm
      case isFalse => exact (unclaimed third later isLater alsoStarting).elim
    case isFalse different =>
      obtain ⟨isUsed, isUnrecorded, single⟩ :=
        accounted.starting other call claimed found isStarting
      refine ⟨isUsed, isUnrecorded, fun third later isLater alsoStarting => ?_⟩
      rw [AList.lookup_insert_if] at isLater
      split at isLater
      case isTrue same' =>
        cases isLater
        cases alsoStarting
        exact (unclaimed other call found isStarting).elim
      case isFalse => exact single third later isLater alsoStarting
  · intro other call found
    rw [AList.lookup_insert_if] at found
    split at found
    case isTrue =>
      cases found
      constructor
      · rintro _ ⟨⟩
      · rintro _ _ ⟨⟩
    case isFalse =>
      exact (accounted.calls other call found).evolve (.of_same rfl rfl le_rfl)

theorem begin_evolves (accounted : world.Accounted) {moment : Moment}
    {id : CallId} {instanceId : InstanceId} {request : SessionRequest}
    {manager : SessionManager} {stage : SessionStage}
    (begun : world.manager.begin moment world.nextUuid id instanceId request =
      (manager, stage)) (calls : Table CallId SessionCall) :
    world.Evolves
      { world with manager, calls, nextUuid := world.nextUuid + 1 } := by
  rcases begin_cases begun with ⟨rfl, _⟩ | ⟨rfl, _⟩ | ⟨session, _, rfl, _⟩
  · exact accounted.reap_evolves moment.now rfl rfl (Nat.le_succ _)
  · exact .of_same rfl rfl (Nat.le_succ _)
  · exact touch_evolves rfl rfl (Nat.le_succ _)
      fun _ => ⟨rfl, rfl, rfl, rfl⟩

theorem Accounted.begin (accounted : world.Accounted) {moment : Moment}
    {id : CallId} {instanceId : InstanceId} {request : SessionRequest}
    {manager : SessionManager} {stage : SessionStage}
    (begun : world.manager.begin moment world.nextUuid id instanceId request =
      (manager, stage)) :
    Accounted { world with
      manager
      calls := world.calls.insert id { instanceId, request, stage }
      nextUuid := world.nextUuid + 1 } := by
  have evolves := begin_evolves accounted begun
  have settled : ∀ error, stage = .settled (.error error) →
      Accounted { world with
        manager
        calls := world.calls.insert id { instanceId, request, stage }
        nextUuid := world.nextUuid + 1 } := by
    rintro error rfl
    apply accounted.evolve (evolves _)
    intro other call found
    rw [AList.lookup_insert_if] at found
    split at found
    · cases found
      exact .inr ⟨⟨by rintro _ ⟨⟩, by rintro _ _ ⟨⟩⟩, by simp⟩
    · exact .inl found
  rcases begin_cases begun with ⟨_, rfl | ⟨error, isStage⟩⟩ |
    ⟨_, error, isStage⟩ | ⟨session, object, _, rfl, required⟩
  · have reaped := accounted.evolve (evolves world.calls)
      fun _ _ found => .inl found
    apply reaped.insertStarting (Nat.lt_succ_self _)
      (accounted.fresh _ le_rfl).2.1
    intro other call found isStarting
    exact absurd (accounted.starting other call _ found isStarting).1
      (Nat.lt_irrefl _)
  · exact settled error isStage
  · exact settled error isStage
  · obtain ⟨_, found, isInstance⟩ := requireSession_eq_ok required
    apply accounted.evolve (evolves _)
    intro other call isCall
    rw [AList.lookup_insert_if] at isCall
    split at isCall
    case isTrue =>
      cases isCall
      refine .inr ⟨⟨?_, by rintro _ _ ⟨⟩⟩, by simp⟩
      rintro _ ⟨⟩
      obtain ⟨later, isLater, succeeds⟩ := (evolves _).successor found
      exact ⟨later, isLater, succeeds.instanceId.trans isInstance⟩
    case isFalse => exact .inl isCall

/-- A call that holds a session has run on. -/
theorem Accounted.resume (accounted : world.Accounted) {moment : Moment}
    {id : CallId} {call : SessionCall} {session : SessionId}
    {noted : SessionWorld} {segment : SessionSegment}
    (found : world.calls.lookup id = some call)
    (isSession : call.stage.session = some session)
    (sameCalls : noted.calls = world.calls)
    (step : CallStep world moment call session noted segment) :
    (noted.resume id call session segment).1.Accounted := by
  have fits := accounted.calls id call found
  have effect := step.effect accounted fits
  have evolves := effect.evolves.trans
    (resume_evolves noted id call session segment)
  apply accounted.evolve evolves
  intro other later isLater
  simp only [SessionWorld.resume, sameCalls, AList.lookup_insert_if]
    at isLater
  split at isLater
  case isFalse => exact .inl isLater
  case isTrue =>
    cases isLater
    refine .inr ⟨⟨?_, ?_⟩, effect.unstarted⟩
    · intro held isHeld
      obtain rfl := effect.session held isHeld
      obtain ⟨before, isBefore, same⟩ := fits.bound held isSession
      obtain ⟨object, isObject, succeeds⟩ := evolves.successor isBefore
      exact ⟨object, isObject, succeeds.instanceId.trans same⟩
    · intro held object isKilled isObject
      obtain ⟨before, isBefore, succeeds⟩ :=
        evolves.objects held object isObject
      rw [succeeds.execution]
      exact effect.killed held before isKilled isBefore

/-- A call whose `exec` the backend has refused. -/
theorem Accounted.settle (accounted : world.Accounted) {id : CallId}
    {call : SessionCall} {result : Except Thrown ShellResult} :
    Accounted { world with
      calls := world.calls.insert id
        { call with stage := .settled result } } := by
  refine accounted.evolve (.of_same rfl rfl le_rfl) ?_
  intro other later found
  rw [AList.lookup_insert_if] at found
  split at found
  · cases found
    exact .inr ⟨⟨by rintro _ ⟨⟩, by rintro _ _ ⟨⟩⟩, by simp⟩
  · exact .inl found

/-- The world once the backend has started an execution. -/
def openedWorld (world : SessionWorld) (id : CallId) (call : SessionCall)
    (execution : ExecutionId) (session : Session) (stage : SessionStage) :
    SessionWorld :=
  { world with
    manager :=
      { world.manager with
        objects := world.manager.objects.insert world.nextUuid session
        sessions := world.manager.sessions ++ [world.nextUuid] }
    calls := world.calls.insert id { call with stage }
    nextUuid := world.nextUuid + 1
    executions := world.executions.insert execution
      { instanceId := call.instanceId } }

theorem opened_eq (moment : Moment) (id : CallId) (call : SessionCall)
    (execution : ExecutionId) (tty : Bool) :
    ∃ stage, (stage = .polling world.nextUuid ∨
      ∃ error, stage = .abandoning world.nextUuid error) ∧
    { (world.resume id call world.nextUuid
        (world.manager.opened moment world.nextUuid call.instanceId execution
          tty)).1 with
      nextUuid := world.nextUuid + 1
      executions := world.executions.insert execution
        { instanceId := call.instanceId } } =
    world.openedWorld id call execution
      (SessionManager.newSession moment world.nextUuid call.instanceId
        execution tty) stage := by
  unfold SessionManager.opened SessionManager.pollOrAbandon
  dsimp only
  cases moment.getTurnHandle call.instanceId with
  | ok => exact ⟨_, .inl rfl, rfl⟩
  | error error => exact ⟨_, .inr ⟨error, rfl⟩, rfl⟩

theorem openedWorld_ended {id : CallId} {call : SessionCall}
    {execution other : ExecutionId} {session : Session} {stage : SessionStage}
    (unrecorded : world.executions.lookup execution = none)
    (ended : world.Ended other) :
    (world.openedWorld id call execution session stage).Ended other := by
  obtain ⟨record, isRecord, answered⟩ := ended
  refine ⟨record, ?_, answered⟩
  have different : other ≠ execution := by
    rintro rfl
    cases isRecord.symm.trans unrecorded
  exact (AList.lookup_insert_ne different).trans isRecord

theorem openedWorld_objects {id : CallId} {call : SessionCall}
    {execution : ExecutionId} {session later : Session} {stage : SessionStage}
    {other : SessionId}
    (found : (world.openedWorld id call execution session
      stage).manager.objects.lookup other = some later) :
    other = world.nextUuid ∧ later = session ∨
      other ≠ world.nextUuid ∧
        world.manager.objects.lookup other = some later := by
  simp only [openedWorld, AList.lookup_insert_if] at found
  split at found
  · exact .inl ⟨‹_›, (Option.some.inj found).symm⟩
  · exact .inr ⟨‹_›, found⟩

theorem Accounted.openWorld (accounted : world.Accounted) {id : CallId}
    {call : SessionCall} {execution : ExecutionId} {session : Session}
    {stage : SessionStage} (found : world.calls.lookup id = some call)
    (isStarting : call.stage = .starting execution)
    (isId : session.id = world.nextUuid)
    (isInstance : session.instanceId = call.instanceId)
    (isExecution : session.execution = execution)
    (isActive : session.active = true)
    (isStage : stage = .polling world.nextUuid ∨
      ∃ error, stage = .abandoning world.nextUuid error) :
    (world.openedWorld id call execution session stage).Accounted := by
  obtain ⟨used, unrecorded, single⟩ :=
    accounted.starting id call execution found isStarting
  have ended : ∀ other, world.Ended other →
      (world.openedWorld id call execution session stage).Ended other :=
    fun _ => openedWorld_ended unrecorded
  have old : ∀ held object,
      world.manager.objects.lookup held = some object →
        held ≠ world.nextUuid := by
    rintro held object isObject rfl
    rw [(accounted.fresh _ le_rfl).1] at isObject
    cases isObject
  have objects : ∀ other later,
      (world.openedWorld id call execution session stage).manager.objects.lookup
        other = some later →
      other = world.nextUuid ∧ later = session ∨
        other ≠ world.nextUuid ∧
          world.manager.objects.lookup other = some later :=
    fun _ _ => openedWorld_objects
  have records : ∀ other,
      (world.openedWorld id call execution session stage).executions.lookup
        other = if other = execution
          then some { instanceId := call.instanceId }
          else world.executions.lookup other :=
    fun other => AList.lookup_insert_if _ _ _ _
  constructor
  · intro other unused
    have before := accounted.fresh other (Nat.le_of_succ_le unused)
    have different : other ≠ world.nextUuid := Nat.ne_of_gt unused
    refine ⟨?_, ?_, ?_⟩
    · exact (AList.lookup_insert_ne different).trans before.1
    · rw [records, if_neg (Nat.ne_of_gt (used.trans unused))]
      exact before.2.1
    · simp [openedWorld, before.2.2, different]
  · intro other later isLater
    rcases objects other later isLater with ⟨rfl, rfl⟩ | ⟨_, isBefore⟩
    · exact isId
    · exact accounted.named other later isBefore
  · intro other later isLater
    rw [records]
    rcases objects other later isLater with ⟨rfl, rfl⟩ | ⟨_, isBefore⟩
    · rw [if_pos isExecution]
      exact ⟨_, rfl, isInstance.symm⟩
    · obtain ⟨record, isRecord, same⟩ := accounted.known other later isBefore
      have different : later.execution ≠ execution := by
        intro same
        rw [same, unrecorded] at isRecord
        cases isRecord
      rw [if_neg different]
      exact ⟨record, isRecord, same⟩
  · intro other record isRecord
    rw [records] at isRecord
    split at isRecord
    case isTrue same =>
      refine ⟨world.nextUuid, session, ?_, isExecution.trans same.symm⟩
      exact AList.lookup_insert _
    case isFalse =>
      obtain ⟨held, before, isBefore, same⟩ :=
        accounted.owned other record isRecord
      exact ⟨held, before, (AList.lookup_insert_ne
        (old held before isBefore)).trans isBefore, same⟩
  · intro other later isLater isInactive
    rcases objects other later isLater with ⟨rfl, rfl⟩ | ⟨_, isBefore⟩
    · rw [isActive] at isInactive
      cases isInactive
    · exact ended _ (accounted.inactive other later isBefore isInactive)
  · intro other later isLater unlisted
    simp only [openedWorld, List.mem_append, List.mem_singleton, not_or]
      at unlisted
    rcases objects other later isLater with ⟨same, _⟩ | ⟨_, isBefore⟩
    · exact (unlisted.2 same).elim
    · exact ended _ (accounted.dropped other later isBefore unlisted.1)
  · intro other later claimed isLater laterStarting
    simp only [openedWorld, AList.lookup_insert_if] at isLater
    split at isLater
    case isTrue =>
      cases isLater
      rcases isStage with rfl | ⟨_, rfl⟩ <;> cases laterStarting
    case isFalse different =>
      obtain ⟨isUsed, isUnrecorded, alone⟩ :=
        accounted.starting other later claimed isLater laterStarting
      have unlike : claimed ≠ execution := by
        rintro rfl
        exact different (single other later isLater laterStarting)
      refine ⟨isUsed.trans (Nat.lt_succ_self _), ?_, ?_⟩
      · rw [records, if_neg unlike]
        exact isUnrecorded
      · intro third last isLast lastStarting
        simp only [openedWorld, AList.lookup_insert_if] at isLast
        split at isLast
        · cases isLast
          rcases isStage with rfl | ⟨_, rfl⟩ <;> cases lastStarting
        · exact alone third last isLast lastStarting
  · intro other later isLater
    simp only [openedWorld, AList.lookup_insert_if] at isLater
    split at isLater
    case isTrue =>
      cases isLater
      constructor
      · intro held isHeld
        obtain rfl : held = world.nextUuid := by
          rcases isStage with rfl | ⟨_, rfl⟩ <;> cases isHeld <;> rfl
        exact ⟨session, AList.lookup_insert _, isInstance⟩
      · rintro held object isKilled
        rcases isStage with rfl | ⟨_, rfl⟩ <;> cases isKilled
    case isFalse =>
      have fits := accounted.calls other later isLater
      constructor
      · intro held isHeld
        obtain ⟨object, isObject, same⟩ := fits.bound held isHeld
        refine ⟨object, ?_, same⟩
        exact (AList.lookup_insert_ne (old held object isObject)).trans isObject
      · intro held object isKilled isObject
        obtain ⟨before, isBefore, _⟩ :=
          fits.bound held (by rw [isKilled]; rfl)
        rcases objects held object isObject with ⟨isNew, _⟩ | ⟨_, isBefore⟩
        · exact (old held before isBefore isNew).elim
        · exact ended _ (fits.killed held object isKilled isBefore)

/-- Everything but a call of a session leaves these calls alone. -/
theorem closeNext_calls (instanceId : InstanceId) (failures : List Thrown)
    (sessions : List SessionId) :
    (closeNext world instanceId failures sessions).calls = world.calls := by
  cases sessions <;> rfl

theorem ClosingStep.calls {instanceId : InstanceId} {call : ClosingCall}
    (step : world.ClosingStep instanceId call after) :
    after.calls = world.calls := by
  cases step with
  | entered => rfl
  | killed => exact noteKill_calls _ _
  | running => exact noteReport_calls _ _
  | failed _ _ _ same => exact (closeNext_calls _ _ _).trans same
  | stopped =>
      exact (closeNext_calls _ _ _).trans (noteReport_calls _ _)

/-- A session whose execution has ended may leave the map. -/
theorem retire_evolves {id : SessionId} {object : Session}
    (found : world.manager.objects.lookup id = some object)
    (ended : world.Ended object.execution) :
    world.Evolves { world with
      manager := (world.manager.deactivate id).delete id } := by
  have deactivates : world.Evolves
      { world with manager := world.manager.deactivate id } := by
    refine deactivate_evolves fun later isLater => ?_
    cases found.symm.trans isLater
    exact ended
  refine deactivates.trans (delete_evolves fun later isLater => ?_)
  obtain ⟨next, isNext, succeeds⟩ := deactivates.successor found
  cases isNext.symm.trans isLater
  rw [succeeds.execution]
  exact deactivates.ended ended

theorem reaped_evolves (accounted : world.Accounted) {answer : Except Thrown Unit}
    {session : SessionId} {object : Session}
    (found : world.manager.objects.lookup session = some object)
    (confirmed : ∀ error, answer = .error error →
      world.Ended object.execution) (id now : Nat)
    (passed : List SessionId) :
    world.Evolves
      ({ world.noteKill object.execution answer with
          manager := (world.manager.deactivate session).delete session
        }.reapOn id now passed) := by
  obtain ⟨record, isRecord, _⟩ := accounted.known session object found
  have notes := world.noteKill_evolves object.execution answer
  have ended : (world.noteKill object.execution answer).Ended
      object.execution := by
    cases answer with
    | ok => exact noteKill_ended isRecord
    | error error => exact notes.ended (confirmed error rfl)
  have retires := retire_evolves
    (by rw [noteKill_manager]; exact found) ended
  rw [noteKill_manager] at retires
  have whole := notes.trans retires
  exact whole.trans (reapOn_evolves
    (fun _ _ => accounted.inactive_later whole) id now passed)

/-- The step lemma: whatever is accounted for stays so. -/
theorem Accounted.step (accounted : world.Accounted) {moment : Moment}
    {event : SessionEvent} {mark : Option InstanceMark}
    (confirmed : world.Confirmed event)
    (taken : world.step moment event = some (after, mark)) :
    after.Accounted := by
  cases stepped taken with
  | began _ begun => exact accounted.begin begun
  | resumed found isSession step same =>
      exact accounted.resume found isSession same (step confirmed)
  | refused => exact accounted.settle
  | @opened id call execution tty found isStarting =>
      obtain ⟨stage, isStage, same⟩ :=
        world.opened_eq moment id call execution tty
      rw [same]
      exact accounted.openWorld found isStarting rfl rfl rfl rfl isStage
  | closes =>
      refine accounted.evolve ?_ fun id call found => .inl ?_
      · refine Evolves.trans ?_ (closeNext_evolves _ _ _)
        exact .removal rfl rfl (fun _ member => member)
          (fun _ member absent => (absent member).elim) le_rfl
      · rw [closeNext_calls] at found
        exact found
  | closing found step =>
      refine accounted.evolve (step.evolves accounted)
        fun id call found => .inl ?_
      rw [step.calls] at found
      exact found
  | reaps =>
      exact accounted.evolve (reapOn_evolves accounted.inactive _ _ _)
        fun _ _ found => .inl found
  | @reaped id answer reaper session object isReaper isStage found =>
      refine accounted.evolve (reaped_evolves accounted found ?_ _ _ _)
        fun other call isCall => .inl ?_
      · rintro error rfl
        exact confirmed reaper session object isReaper isStage found
      · exact (noteKill_calls _ _) ▸ isCall

/-! ## Calls in flight -/

/-- A call after a step, and what it was before. -/
def Continues (world : SessionWorld) (id : CallId) (later : SessionCall) :
    Prop :=
  ∃ before, world.calls.lookup id = some before ∧
    later.instanceId = before.instanceId ∧
    (later.stage.isSettled = false → before.stage.isSettled = false)

theorem Continues.insert {id other : CallId} {call later : SessionCall}
    {stage : SessionStage} (found : world.calls.lookup id = some call)
    (unsettled : call.stage.isSettled = false)
    (isLater : (world.calls.insert id { call with stage }).lookup other =
      some later) : world.Continues other later := by
  rw [AList.lookup_insert_if] at isLater
  split at isLater
  case isTrue same =>
    cases isLater
    exact ⟨call, same ▸ found, rfl, fun _ => unsettled⟩
  case isFalse => exact ⟨later, isLater, rfl, fun isUnsettled => isUnsettled⟩

theorem unsettled_of_session {stage : SessionStage} {session : SessionId}
    (held : stage.session = some session) : stage.isSettled = false := by
  cases stage <;> first | rfl | cases held

/-- A step continues the calls there are, and the call it begins. -/
theorem Stepped.calls {moment : Moment} {event : SessionEvent}
    {mark : Option InstanceMark}
    (stepped : world.Stepped moment event after mark) {id : CallId}
    {later : SessionCall} (found : after.calls.lookup id = some later) :
    world.Continues id later ∨
      event = .begin id later.instanceId later.request := by
  have kept : world.calls.lookup id = some later → world.Continues id later :=
    fun same => ⟨later, same, rfl, fun unsettled => unsettled⟩
  cases stepped with
  | began absent =>
      rw [AList.lookup_insert_if] at found
      split at found
      case isTrue same =>
        cases found
        exact .inr (same ▸ rfl)
      case isFalse => exact .inl (kept found)
  | resumed isCall held _ same =>
      simp only [resume, same] at found
      exact .inl (Continues.insert isCall (unsettled_of_session held) found)
  | refused isCall isStarting =>
      exact .inl (Continues.insert isCall (by rw [isStarting]; rfl) found)
  | @opened other call execution tty isCall isStarting =>
      obtain ⟨stage, _, same⟩ :=
        world.opened_eq moment other call execution tty
      rw [same] at found
      exact .inl (Continues.insert isCall (by rw [isStarting]; rfl) found)
  | closes =>
      rw [closeNext_calls] at found
      exact .inl (kept found)
  | closing _ step =>
      rw [step.calls] at found
      exact .inl (kept found)
  | reaps => exact .inl (kept found)
  | reaped =>
      exact .inl (kept ((noteKill_calls _ _) ▸ found))

/-- Only a call in flight writes the state of its instance. -/
theorem Stepped.marks {moment : Moment} {event : SessionEvent}
    {mark : InstanceMark}
    (stepped : world.Stepped moment event after (some mark)) :
    ∃ id call, world.calls.lookup id = some call ∧
      call.stage.isSettled = false ∧ mark.instanceId = call.instanceId := by
  generalize isMark : some mark = outcome at stepped
  cases stepped with
  | @resumed _ id call session noted segment isCall held =>
      refine ⟨id, call, isCall, unsettled_of_session held, ?_⟩
      obtain ⟨running, _, rfl⟩ := Option.map_eq_some_iff.mp isMark.symm
      rfl
  | @opened id call _ _ isCall isStarting =>
      cases isMark
      exact ⟨id, call, isCall, by rw [isStarting]; rfl, rfl⟩
  | began | refused | closes | closing | reaps | reaped => cases isMark

/-! ## Closing an instance -/

/-- As long as nothing has failed, a `closeInstance` call has to do with every
session of its instance whose execution has not ended. -/
structure Covered (world : SessionWorld) (instanceId : InstanceId)
    (call : ClosingCall) : Prop where
  sessions : call.failures = [] → ∀ id session,
    world.manager.objects.lookup id = some session →
      session.instanceId = instanceId →
      world.Ended session.execution ∨ id ∈ call.stage.remaining
  closed : call.stage = .settled (.ok ()) → call.failures = []

theorem Covered.evolve {instanceId : InstanceId} {call : ClosingCall}
    (covered : world.Covered instanceId call)
    (evolves : world.Evolves after) : after.Covered instanceId call := by
  refine ⟨fun unfailed id session found isInstance => ?_, covered.closed⟩
  obtain ⟨before, isBefore, succeeds⟩ := evolves.objects id session found
  rw [succeeds.instanceId] at isInstance
  rw [succeeds.execution]
  exact (covered.sessions unfailed id before isBefore isInstance).imp_left
    evolves.ended

theorem closeNext_closing (world : SessionWorld) (instanceId : InstanceId)
    (failures : List Thrown) (sessions : List SessionId) :
    ∃ call, (closeNext world instanceId failures sessions).closings =
        world.closings.insert instanceId call ∧
      call.failures = failures ∧ call.stage.remaining = sessions ∧
      (call.stage = .settled (.ok ()) → failures = []) := by
  cases sessions with
  | nil =>
      refine ⟨_, rfl, rfl, rfl, fun isClosed => ?_⟩
      cases failures with
      | nil => rfl
      | cons => cases isClosed
  | cons session rest => exact ⟨_, rfl, rfl, rfl, by rintro ⟨⟩⟩

/-- The loop goes on to sessions that cover what is left. -/
theorem closeNext_covered {instanceId : InstanceId} {failures : List Thrown}
    {sessions : List SessionId}
    (left : failures = [] → ∀ id session,
      world.manager.objects.lookup id = some session →
        session.instanceId = instanceId →
        world.Ended session.execution ∨ id ∈ sessions)
    {call : ClosingCall}
    (found : (closeNext world instanceId failures sessions).closings.lookup
      instanceId = some call) :
    (closeNext world instanceId failures sessions).Covered instanceId
      call := by
  obtain ⟨next, isNext, isFailures, isRemaining, isClosed⟩ :=
    world.closeNext_closing instanceId failures sessions
  rw [isNext, AList.lookup_insert] at found
  cases found
  have covered : world.Covered instanceId call := by
    refine ⟨fun unfailed id session isSession isInstance => ?_,
      fun settled => isFailures.trans (isClosed settled)⟩
    rw [isRemaining]
    exact left (isFailures.symm.trans unfailed) id session isSession isInstance
  exact covered.evolve (closeNext_evolves _ _ _)

theorem closeNext_closings_ne {instanceId other : InstanceId}
    {failures : List Thrown} {sessions : List SessionId}
    (different : other ≠ instanceId) :
    (closeNext world instanceId failures sessions).closings.lookup other =
      world.closings.lookup other := by
  obtain ⟨next, isNext, _⟩ :=
    world.closeNext_closing instanceId failures sessions
  rw [isNext]
  exact AList.lookup_insert_ne different

/-- No call of an instance that is being closed is in flight. -/
def Apart (world : SessionWorld) : Prop :=
  ∀ instanceId closing, world.closings.lookup instanceId = some closing →
    ∀ id call, world.calls.lookup id = some call →
      call.stage.isSettled = false → call.instanceId ≠ instanceId

def Covers (world : SessionWorld) : Prop :=
  ∀ instanceId call, world.closings.lookup instanceId = some call →
    world.Covered instanceId call

/-- A step of one `closeInstance` call. -/
theorem ClosingStep.covers (accounted : world.Accounted)
    (covers : world.Covers) {instanceId : InstanceId} {call : ClosingCall}
    (found : world.closings.lookup instanceId = some call)
    (step : world.ClosingStep instanceId call after) : after.Covers := by
  have evolves := step.evolves accounted
  have covered := covers instanceId call found
  have others : (∀ other, other ≠ instanceId →
      after.closings.lookup other = world.closings.lookup other) →
      (∀ later, after.closings.lookup instanceId = some later →
        after.Covered instanceId later) → after.Covers := by
    intro same own other later isLater
    by_cases isOwn : other = instanceId
    · subst isOwn
      exact own later isLater
    · rw [same other isOwn] at isLater
      exact (covers other later isLater).evolve evolves
  -- The call goes on with the sessions that it had left.
  have onward : ∀ stage, after.closings =
      world.closings.insert instanceId { call with stage } →
      stage.remaining = call.stage.remaining →
      stage ≠ .settled (.ok ()) → after.Covers := by
    intro stage isNext same unsettled
    apply others
    · intro other different
      rw [isNext]
      exact AList.lookup_insert_ne different
    · intro later isLater
      rw [isNext, AList.lookup_insert] at isLater
      cases isLater
      refine @Covered.evolve world _ _ _ ⟨?_, fun closed =>
        (unsettled closed).elim⟩ evolves
      intro unfailed
      dsimp only
      rw [same]
      exact covered.sessions unfailed
  cases step with
  | entered isStage =>
      exact onward _ rfl (by rw [isStage]; rfl) (by simp)
  | killed isStage =>
      exact onward _ rfl (by rw [isStage]; rfl) (by simp)
  | running isStage =>
      exact onward _ rfl (by rw [isStage]; rfl) (by simp)
  | failed _ _ same =>
      apply others
      · intro other different
        exact (closeNext_closings_ne different).trans
          (congrArg (AList.lookup other) same)
      · intro later isLater
        refine closeNext_covered (fun unfailed => ?_) isLater
        simp at unfailed
  | @stopped session rest again object state isStage isObject stopped =>
      apply others
      · intro other different
        exact (closeNext_closings_ne different).trans
          (congrArg (AList.lookup other) (noteReport_closings _ _))
      · intro later isLater
        refine closeNext_covered (fun unfailed id next isNext isInstance => ?_)
          isLater
        obtain ⟨stops, isEnded⟩ := stopped_evolves accounted isObject stopped
          (.closing instanceId)
        obtain ⟨before, isBefore, succeeds⟩ := stops.objects id next isNext
        rw [succeeds.execution]
        rw [succeeds.instanceId] at isInstance
        rcases covered.sessions unfailed id before isBefore isInstance with
          wasEnded | member
        · exact .inl (stops.ended wasEnded)
        · rw [isStage] at member
          rcases List.mem_cons.mp member with rfl | later
          · cases isObject.symm.trans isBefore
            exact .inl isEnded
          · exact .inr later

/-- A step under which existing sessions evolve and no call is closed. -/
theorem Covers.evolve (covers : world.Covers) (evolves : world.Evolves after)
    (same : after.closings = world.closings) : after.Covers := by
  intro instanceId call found
  rw [same] at found
  exact (covers instanceId call found).evolve evolves

theorem Covers.step (covers : world.Covers) (accounted : world.Accounted)
    (apart : world.Apart) {moment : Moment} {event : SessionEvent}
    {mark : Option InstanceMark} (confirmed : world.Confirmed event)
    (taken : world.step moment event = some (after, mark)) :
    after.Covers := by
  cases stepped taken with
  | began _ begun => exact covers.evolve (begin_evolves accounted begun _) rfl
  | @resumed _ id call session noted segment found isSession step _ same =>
      have effect := (step confirmed).effect accounted
        (accounted.calls id call found)
      exact covers.evolve (effect.evolves.trans
        (resume_evolves noted id call session segment)) same
  | refused => exact covers.evolve (.of_same rfl rfl le_rfl) rfl
  | @opened id call execution tty isCall isStarting =>
      obtain ⟨stage, isStage, same⟩ :=
        world.opened_eq moment id call execution tty
      rw [same]
      intro instanceId closing found
      obtain ⟨_, unrecorded, _⟩ :=
        accounted.starting id call execution isCall isStarting
      have covered := covers instanceId closing found
      refine ⟨fun unfailed held session isSession isInstance => ?_,
        covered.closed⟩
      rcases openedWorld_objects isSession with ⟨_, rfl⟩ | ⟨_, isBefore⟩
      · exact (apart instanceId closing found id call isCall
          (by rw [isStarting]; rfl) isInstance).elim
      · exact (covered.sessions unfailed held session isBefore
          isInstance).imp_left (openedWorld_ended unrecorded)
  | @closes instanceId absent =>
      intro other later found
      by_cases isOwn : other = instanceId
      · subst isOwn
        refine closeNext_covered (fun _ id session isSession isInstance => ?_)
          found
        by_cases listed : id ∈ world.manager.sessions
        · cases isActive : session.active with
          | false => exact .inl (accounted.inactive id session isSession isActive)
          | true =>
              refine .inr (List.mem_filter.mpr ⟨listed, ?_⟩)
              dsimp only at isSession
              rw [isSession]
              simp [isInstance, isActive]
        · exact .inl (accounted.dropped id session isSession listed)
      · rw [closeNext_closings_ne isOwn] at found
        refine (covers other later found).evolve
          (Evolves.trans ?_ (closeNext_evolves _ _ _))
        exact .removal rfl rfl (fun _ member => member)
          (fun _ member absent => (absent member).elim) le_rfl
  | closing found step => exact step.covers accounted covers found
  | reaps =>
      exact covers.evolve (reapOn_evolves accounted.inactive _ _ _) rfl
  | @reaped id answer reaper session object isReaper isStage found =>
      refine covers.evolve (reaped_evolves accounted found ?_ _ _ _)
        (noteKill_closings _ _)
      rintro error rfl
      exact confirmed reaper session object isReaper isStage found

/-- A settled `closeInstance` stays settled, and only the call itself makes an
entry. -/
theorem Stepped.closings {moment : Moment} {event : SessionEvent}
    {mark : Option InstanceMark}
    (stepped : world.Stepped moment event after mark)
    (instanceId : InstanceId) :
    ((after.closings.lookup instanceId).isSome = true →
      (world.closings.lookup instanceId).isSome = true ∨
        event = .closeInstance instanceId) ∧
    ∀ call, world.closings.lookup instanceId = some call →
      call.stage.remaining = [] →
      after.closings.lookup instanceId = some call := by
  have kept : after.closings = world.closings →
      ((after.closings.lookup instanceId).isSome = true →
        (world.closings.lookup instanceId).isSome = true ∨
          event = .closeInstance instanceId) ∧
      ∀ call, world.closings.lookup instanceId = some call →
        call.stage.remaining = [] →
        after.closings.lookup instanceId = some call := by
    intro same
    rw [same]
    exact ⟨.inl, fun _ found _ => found⟩
  cases stepped with
  | began | refused | reaps => exact kept rfl
  | resumed _ _ _ _ same => exact kept same
  | @opened id call execution tty =>
      obtain ⟨_, _, same⟩ := world.opened_eq moment id call execution tty
      rw [same]
      exact ⟨.inl, fun _ found _ => found⟩
  | reaped => exact kept (noteKill_closings _ _)
  | @closes other absent =>
      by_cases same : instanceId = other
      · subst same
        refine ⟨fun _ => .inr rfl, fun call found => ?_⟩
        cases found.symm.trans absent
      · rw [closeNext_closings_ne same]
        exact ⟨.inl, fun _ found _ => found⟩
  | @closing _ other call after found step =>
      have busy : call.stage.remaining ≠ [] := by
        cases step with
        | entered isStage | killed isStage | running isStage
        | stopped isStage =>
            rw [isStage]
            exact List.cons_ne_nil _ _
        | failed isRemaining =>
            rw [isRemaining]
            exact List.cons_ne_nil _ _
      by_cases same : instanceId = other
      · subst same
        rw [found]
        refine ⟨fun _ => .inl rfl, fun later isLater isDone => ?_⟩
        cases isLater
        exact (busy isDone).elim
      · have unchanged : after.closings.lookup instanceId =
            world.closings.lookup instanceId := by
          cases step with
          | entered | killed | running => exact AList.lookup_insert_ne same
          | failed _ _ sameClosings =>
              exact (closeNext_closings_ne same).trans
                (congrArg (AList.lookup instanceId) sameClosings)
          | stopped =>
              exact (closeNext_closings_ne same).trans
                (congrArg (AList.lookup instanceId) (noteReport_closings _ _))
        rw [unchanged]
        exact ⟨.inl, fun _ found _ => found⟩

end SessionWorld

end Electrosphere
