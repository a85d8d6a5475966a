import Electrosphere.Domain.SessionCapacity

/-!
# The state of an instance and its sessions

Each call writes the state of its instance from its own session alone, and
the reaper writes none.  The row therefore shows whether a session is active
as long as a session that ends is the last one and a session that expires is
not.
-/

namespace Electrosphere

open Foundation

/-- The rows, the session manager and the clock of one process. -/
structure Runtime where
  db : Database
  sessions : SessionWorld
  clock : Nat

inductive RuntimeEvent where
  | session (event : SessionEvent)
  | tick (elapsed : Nat)

def setInstanceState (db : Database) (id : InstanceId) (running : Bool) :
    Database :=
  db.updateInstance id
    { state := some (if running then .running else .ready) }

namespace Runtime

def surroundings (runtime : Runtime) : Surroundings where
  now := runtime.clock
  db := runtime.db

def applyMark (db : Database) : Option InstanceMark → Database
  | none => db
  | some mark => setInstanceState db mark.instanceId mark.running

/-- The session calls and the reaper.  `closeInstance` belongs to the end of
the turn. -/
def step (runtime : Runtime) : RuntimeEvent → Option Runtime
  | .session event =>
      if event.isClosing then none
      else
        (runtime.sessions.step runtime.surroundings.moment event).map
          fun (sessions, mark) =>
            { runtime with db := applyMark runtime.db mark, sessions }
  | .tick elapsed => some { runtime with clock := runtime.clock + elapsed }

/-- The row says whether a session of the instance is active. -/
def Reflects (runtime : Runtime) (instanceId : InstanceId) : Prop :=
  (runtime.db.getInstance instanceId).map InstanceRow.state =
    some (if SessionWorld.activeSessions runtime.sessions.manager
      instanceId = [] then .ready else .running)

end Runtime

/-! ## Active sessions -/

namespace SessionManager

variable {manager later : SessionManager} {id session : SessionId}
  {instanceId : InstanceId}

/-- A session of the instance is active. -/
def Busy (manager : SessionManager) (instanceId : InstanceId) : Prop :=
  ∃ id standing, manager.standing id = some standing ∧
    standing.instanceId = instanceId ∧ standing.active = true

/-- Another session of the same instance is active. -/
def Accompanied (manager : SessionManager) (session : SessionId) : Prop :=
  ∃ standing, manager.standing session = some standing ∧
    ∃ other found, other ≠ session ∧ manager.standing other = some found ∧
      found.instanceId = standing.instanceId ∧ found.active = true

theorem accompanied_iff : manager.Accompanied session ↔
    ∃ standing ∈ manager.standing session, ∃ other ∈ manager.objects.keys,
      other ≠ session ∧ ∃ found ∈ manager.standing other,
        found.instanceId = standing.instanceId ∧ found.active = true := by
  constructor
  · rintro ⟨standing, isStanding, other, found, different, isFound, same⟩
    refine ⟨standing, isStanding, other, ?_, different, found, isFound, same⟩
    apply AList.lookup_isSome.mp
    obtain ⟨object, isObject, -⟩ := Option.map_eq_some_iff.mp isFound
    rw [isObject]
    rfl
  · rintro ⟨standing, isStanding, other, -, different, found, isFound, same⟩
    exact ⟨standing, isStanding, other, found, different, isFound, same⟩

instance decidableAccompanied : Decidable (manager.Accompanied session) :=
  decidable_of_iff _ accompanied_iff.symm

theorem busy_congr (same : ∀ id, later.standing id = manager.standing id) :
    later.Busy instanceId ↔ manager.Busy instanceId := by
  constructor
  · rintro ⟨id, standing, found, active⟩
    exact ⟨id, standing, (same id).symm.trans found, active⟩
  · rintro ⟨id, standing, found, active⟩
    exact ⟨id, standing, (same id).trans found, active⟩

/-- One session is retired. -/
def Retires (manager later : SessionManager) (session : SessionId) : Prop :=
  ∀ id, later.standing id =
    if id = session then (manager.standing id).map Standing.retired
    else manager.standing id

theorem Retires.busy_iff (retires : manager.Retires later session) :
    later.Busy instanceId ↔
      ∃ other found, other ≠ session ∧ manager.standing other = some found ∧
        found.instanceId = instanceId ∧ found.active = true := by
  constructor
  · rintro ⟨id, standing, found, isInstance, active⟩
    rw [retires] at found
    split at found
    · obtain ⟨before, -, rfl⟩ := Option.map_eq_some_iff.mp found
      cases active
    · next other => exact ⟨id, standing, other, found, isInstance, active⟩
  · rintro ⟨id, standing, other, found, both⟩
    refine ⟨id, standing, ?_, both⟩
    rw [retires, if_neg other]
    exact found

theorem Retires.busy (retires : manager.Retires later session)
    (busy : later.Busy instanceId) : manager.Busy instanceId := by
  obtain ⟨other, found, -, rest⟩ := retires.busy_iff.mp busy
  exact ⟨other, found, rest⟩

/-- The instances of other sessions show no difference. -/
theorem Retires.busy_elsewhere (retires : manager.Retires later session)
    {standing : Standing} (stands : manager.standing session = some standing)
    (elsewhere : instanceId ≠ standing.instanceId) :
    later.Busy instanceId ↔ manager.Busy instanceId := by
  refine ⟨retires.busy, ?_⟩
  rintro ⟨other, found, isFound, isInstance, active⟩
  apply retires.busy_iff.mpr
  refine ⟨other, found, ?_, isFound, isInstance, active⟩
  rintro rfl
  rw [isFound] at stands
  cases stands
  exact elsewhere isInstance.symm

theorem Retires.not_busy (retires : manager.Retires later session)
    {standing : Standing} (stands : manager.standing session = some standing)
    (alone : ¬ manager.Accompanied session) :
    ¬ later.Busy standing.instanceId := by
  intro busy
  exact alone ⟨standing, stands, retires.busy_iff.mp busy⟩

/-- An active session whose instance has another one leaves no mark. -/
theorem Retires.busy_same (retires : manager.Retires later session)
    (accompanied : manager.isActive session = true →
      manager.Accompanied session) :
    later.Busy instanceId ↔ manager.Busy instanceId := by
  refine ⟨retires.busy, ?_⟩
  rintro ⟨other, found, isFound, isInstance, active⟩
  apply retires.busy_iff.mpr
  by_cases same : other = session
  · rw [same] at isFound
    have isActive : manager.isActive session = true := by
      rw [isActive_eq, isFound]
      exact active
    obtain ⟨standing, stands, another⟩ := accompanied isActive
    rw [isFound] at stands
    cases stands
    rw [← isInstance]
    exact another
  · exact ⟨other, found, same, isFound, isInstance, active⟩

end SessionManager

/-! ## The row -/

/-- The row is there and says whether the instance is busy. -/
def Marked (db : Database) (manager : SessionManager)
    (instanceId : InstanceId) : Prop :=
  ∃ row, db.getInstance instanceId = some row ∧
    (manager.Busy instanceId ∧ row.state = .running ∨
      ¬ manager.Busy instanceId ∧ row.state = .ready)

section Marks

variable {db : Database} {manager later : SessionManager}
  {instanceId other : InstanceId}

theorem getInstance_setInstanceState (running : Bool) :
    (setInstanceState db other running).getInstance instanceId =
      if instanceId = other then
        (db.getInstance instanceId).map fun row =>
          { row with state := if running then .running else .ready }
      else db.getInstance instanceId :=
  AList.lookup_modify_if _ _ _ _

theorem Marked.of_iff (marked : Marked db manager instanceId)
    (same : later.Busy instanceId ↔ manager.Busy instanceId) :
    Marked db later instanceId := by
  rw [Marked, same]
  exact marked

theorem Marked.elsewhere (marked : Marked db manager instanceId)
    (different : instanceId ≠ other) (running : Bool)
    (same : later.Busy instanceId ↔ manager.Busy instanceId) :
    Marked (setInstanceState db other running) later instanceId := by
  rw [Marked, getInstance_setInstanceState, if_neg different]
  exact marked.of_iff same

theorem Marked.running (marked : Marked db manager instanceId)
    (busy : later.Busy instanceId) :
    Marked (setInstanceState db instanceId true) later instanceId := by
  obtain ⟨row, found, -⟩ := marked
  rw [Marked, getInstance_setInstanceState, if_pos rfl, found]
  exact ⟨_, rfl, .inl ⟨busy, rfl⟩⟩

theorem Marked.ready (marked : Marked db manager instanceId)
    (idle : ¬ later.Busy instanceId) :
    Marked (setInstanceState db instanceId false) later instanceId := by
  obtain ⟨row, found, -⟩ := marked
  rw [Marked, getInstance_setInstanceState, if_pos rfl, found]
  exact ⟨_, rfl, .inr ⟨idle, rfl⟩⟩

end Marks

/-! ## What the steps keep -/

namespace SessionWorld

variable {world after : SessionWorld} {moment : Moment}
  {mark : Option InstanceMark} {event : SessionEvent}

structure Kept (world : SessionWorld) : Prop where
  named : world.Named
  fresh : ∀ id, world.nextUuid ≤ id → world.manager.standing id = none
  bound : ∀ id call, world.calls.lookup id = some call →
    ∀ held, call.stage.session = some held →
      ∃ standing, world.manager.standing held = some standing ∧
        standing.instanceId = call.instanceId
  listed : ∀ id, world.manager.isActive id = true →
    id ∈ world.manager.sessions

theorem kept_empty (maxOutputBytes : Nat) : (empty maxOutputBytes).Kept where
  named := named_empty maxOutputBytes
  fresh _ _ := rfl
  bound _ _ found := by cases found
  listed _ active := by cases active

/-- A session keeps its instance. -/
def Lasting (manager later : SessionManager) : Prop :=
  ∀ id standing, manager.standing id = some standing →
    ∃ stands, later.standing id = some stands ∧
      stands.instanceId = standing.instanceId

/-- No session is opened. -/
structure Subdues (manager later : SessionManager) : Prop where
  lasting : Lasting manager later
  absent : ∀ id, manager.standing id = none → later.standing id = none
  active : ∀ id, later.isActive id = true → manager.isActive id = true

theorem Subdues.of_same {manager later : SessionManager}
    (same : ∀ id, later.standing id = manager.standing id) :
    Subdues manager later where
  lasting id standing found := ⟨standing, (same id).trans found, rfl⟩
  absent id none := (same id).trans none
  active id active := (isActive_of_standing (same id)).symm.trans active

theorem isActive_of_retires {manager later : SessionManager}
    {session id : SessionId} (retires : manager.Retires later session)
    (active : later.isActive id = true) :
    manager.isActive id = true ∧ id ≠ session := by
  rw [SessionManager.isActive_eq, retires] at active
  split at active
  · cases found : manager.standing id with
    | none =>
        rw [found] at active
        cases active
    | some standing =>
        rw [found] at active
        cases active
  · next other =>
      rw [SessionManager.isActive_eq]
      exact ⟨active, other⟩

theorem Subdues.of_retires {manager later : SessionManager}
    {session : SessionId} (retires : manager.Retires later session) :
    Subdues manager later := by
  constructor
  · intro id standing found
    rw [retires, found]
    split
    · exact ⟨_, rfl, rfl⟩
    · exact ⟨_, rfl, rfl⟩
  · intro id absent
    rw [retires, absent]
    split
    · rfl
    · rfl
  · intro id active
    exact (isActive_of_retires retires active).1

/-- A call holds its session on. -/
theorem Lasting.holds {manager later : SessionManager} {held : SessionId}
    {instanceId : InstanceId} (lasting : Lasting manager later)
    (holds : ∃ standing, manager.standing held = some standing ∧
      standing.instanceId = instanceId) :
    ∃ standing, later.standing held = some standing ∧
      standing.instanceId = instanceId := by
  obtain ⟨standing, stands, isInstance⟩ := holds
  obtain ⟨stays, isLater, same⟩ := lasting held standing stands
  exact ⟨stays, isLater, same.trans isInstance⟩

/-- The calls hold sessions of their instances if the call that has run
does. -/
theorem bound_insert {calls : Table CallId SessionCall} {id : CallId}
    {call : SessionCall} {manager later : SessionManager}
    (bound : ∀ id call, calls.lookup id = some call →
      ∀ held, call.stage.session = some held →
        ∃ standing, manager.standing held = some standing ∧
          standing.instanceId = call.instanceId)
    (lasting : Lasting manager later)
    (holds : ∀ held, call.stage.session = some held →
      ∃ standing, later.standing held = some standing ∧
        standing.instanceId = call.instanceId) :
    ∀ other found, (calls.insert id call).lookup other = some found →
      ∀ held, found.stage.session = some held →
        ∃ standing, later.standing held = some standing ∧
          standing.instanceId = found.instanceId := by
  intro other found isFound held isHeld
  rw [AList.lookup_insert_if] at isFound
  split at isFound
  · cases isFound
    exact holds held isHeld
  · exact lasting.holds (bound other found isFound held isHeld)

/-- A call that has begun holds a session of the instance it names. -/
theorem begin_holds {manager later : SessionManager} {fresh : ExecutionId}
    {id : CallId} {instanceId : InstanceId} {request : SessionRequest}
    {stage : SessionStage}
    (begun : manager.begin moment fresh id instanceId request =
      (later, stage)) {held : SessionId} (holds : stage.session = some held) :
    ∃ standing, later.standing held = some standing ∧
      standing.instanceId = instanceId := by
  rcases begin_cases begun with ⟨-, isStage⟩ | ⟨-, error, isStage⟩ |
    ⟨session, object, rfl, rfl, required⟩
  · rcases isStage with rfl | ⟨error, rfl⟩
    · cases holds
    · cases holds
  · rw [isStage] at holds
    cases holds
  · cases holds
    obtain ⟨-, found, isInstance⟩ := requireSession_eq_ok required
    refine ⟨object.standing, ?_, isInstance⟩
    rw [SessionManager.standing_enqueue]
    exact SessionManager.standing_of_lookup found

/-- What a session calls' stretch has done to the sessions. -/
theorem retires_or_stays {manager : SessionManager} {held : SessionId}
    {ended : Bool} {segment : SessionSegment}
    (stretch : Stretch manager held ended segment) :
    (ended = true ∧ manager.Retires segment.manager held) ∨
      ended = false ∧
        ∀ id, segment.manager.standing id = manager.standing id := by
  cases ended with
  | true =>
      refine .inl ⟨rfl, fun id => ?_⟩
      rw [stretch.standing]
      simp
  | false =>
      refine .inr ⟨rfl, fun id => ?_⟩
      rw [stretch.standing]
      simp

theorem standing_opened {id other : CallId} {call : SessionCall}
    {execution : ExecutionId} {session : Session} {stage : SessionStage} :
    (world.openedWorld id call execution session stage).manager.standing
        other =
      if other = world.nextUuid then some session.standing
      else world.manager.standing other := by
  rw [openedWorld, SessionManager.standing]
  dsimp only
  rw [AList.lookup_insert_if]
  split
  · rfl
  · rfl

theorem reaped_retires (noted : SessionWorld) (id : Nat) (reaper : Reaper)
    (session : SessionId) :
    world.manager.Retires
      ({ noted with
          manager := (world.manager.deactivate session).delete session
        }.reapOn id reaper.now (reaper.passed ++ [session])).manager
      session := by
  intro other
  rw [standing_reapOn]
  exact SessionManager.standing_deactivate

theorem not_held {stage : SessionStage} {held : SessionId}
    (settled : stage.isSettled = true) : stage.session ≠ some held := by
  cases stage with
  | settled => nofun
  | _ => cases settled

theorem Kept.step (kept : world.Kept) (notClosing : event.isClosing = false)
    (taken : world.step moment event = some (after, mark)) : after.Kept := by
  have advance := world.advance kept.named taken
  have named := kept.named.advance advance
  cases advance with
  | begun _ begun =>
      have begins := begin_beginsWith begun
      have subdues := Subdues.of_same begins.standing
      constructor
      · exact named
      · intro id above
        exact subdues.absent id (kept.fresh id (Nat.le_of_succ_le above))
      · apply bound_insert kept.bound subdues.lasting
        intro held holds
        exact begin_holds begun holds
      · intro id active
        have before := subdues.active id active
        by_contra absent
        have inactive := begins.dropped id (kept.listed id before) absent
        exact absurd before (ne_true_of_eq_false inactive)
  | refused =>
      constructor
      · exact named
      · exact kept.fresh
      · apply bound_insert kept.bound (Subdues.of_same fun _ => rfl).lasting
        intro held holds
        cases holds
      · exact kept.listed
  | opened isCall isStarting goesOn =>
      constructor
      · exact named
      · intro id above
        rw [standing_opened, if_neg (Nat.ne_of_gt above)]
        exact kept.fresh id (Nat.le_of_succ_le above)
      · apply bound_insert kept.bound
        · intro id standing found
          refine ⟨standing, ?_, rfl⟩
          rw [standing_opened, if_neg]
          · exact found
          · rintro rfl
            rw [kept.fresh _ le_rfl] at found
            cases found
        · intro held holds
          cases goesOn.symm.trans holds
          rw [standing_opened, if_pos rfl]
          exact ⟨_, rfl, rfl⟩
      · intro id active
        by_cases same : id = world.nextUuid
        · exact List.mem_append_right _ (List.mem_singleton.mpr same)
        · apply List.mem_append_left
          apply kept.listed
          rw [← active]
          apply isActive_of_standing
          rw [standing_opened, if_neg same]
  | @resumed _ id call held ended noted segment isCall holds stretch _ calls
      nextUuid =>
      let later := (noted.resume id call held segment).1
      have subdues : Subdues world.manager later.manager := by
        rcases retires_or_stays stretch with ⟨-, retires⟩ | ⟨-, same⟩
        · apply Subdues.of_retires
          intro other
          rw [standing_resume]
          exact retires other
        · apply Subdues.of_same
          intro other
          rw [standing_resume]
          exact same other
      have inserted : later.calls =
          world.calls.insert id { call with stage := segment.stage } := by
        rw [← calls]
        rfl
      constructor
      · exact named
      · intro other above
        apply subdues.absent
        exact kept.fresh other (nextUuid.symm.trans_le above)
      · rw [inserted]
        apply bound_insert kept.bound subdues.lasting
        intro other goesOn
        rcases stretch.stage with isHeld | settled
        · cases isHeld.symm.trans goesOn
          exact subdues.lasting.holds (kept.bound id call isCall held holds)
        · exact (not_held settled goesOn).elim
      · intro other active
        rw [sessions_resume, stretch.sessions]
        exact kept.listed other (subdues.active other active)
  | closes closing =>
      rw [notClosing] at closing
      cases closing
  | reaps =>
      constructor
      · exact named
      · intro id above
        rw [standing_reapOn]
        exact kept.fresh id above
      · intro id call isCall held holds
        rw [standing_reapOn]
        exact kept.bound id call isCall held holds
      · intro id active
        rw [isActive_of_standing (standing_reapOn _ _ _ _)] at active
        by_contra absent
        have inactive := reapOn_dropped (kept.listed id active) absent
        exact absurd active (ne_true_of_eq_false inactive)
  | @reaped id answer reaper session object =>
      have retires := world.reaped_retires
        (world.noteKill object.execution answer) id reaper session
      have subdues := Subdues.of_retires retires
      constructor
      · exact named
      · intro other above
        apply subdues.absent
        apply kept.fresh
        rw [← noteKill_nextUuid object.execution answer]
        exact above
      · intro other call isCall held holds
        apply subdues.lasting.holds
        apply kept.bound other call _ held holds
        rw [← noteKill_calls object.execution answer]
        exact isCall
      · intro other active
        obtain ⟨before, different⟩ := isActive_of_retires retires active
        have listed : other ∈ world.manager.sessions.erase session :=
          (List.mem_erase_of_ne different).mpr (kept.listed other before)
        by_contra absent
        have inactive := reapOn_dropped listed absent
        rw [← isActive_of_standing (standing_reapOn _ _ _ _)] at inactive
        exact absurd active (ne_true_of_eq_false inactive)

/-! ## What the steps write -/

/-- A session that a call ends is the last active one of its instance, and one
that expires is not. -/
structure Timely (world : SessionWorld) (event : SessionEvent) : Prop where
  ends : ∀ id, world.ends event = some id → ¬ world.manager.Accompanied id
  expires : ∀ id, world.Expires event id →
    world.manager.isActive id = true → world.manager.Accompanied id

/-- The session that the reaper has found expired. -/
def expiring (world : SessionWorld) : SessionEvent → Option SessionId
  | .reaperKillAnswered reaper _ =>
      match (world.reapers.lookup reaper).map Reaper.stage with
      | some (.killing id) => some id
      | _ => none
  | _ => none

theorem expires_iff {event : SessionEvent} {id : SessionId} :
    world.Expires event id ↔ id ∈ world.expiring event := by
  constructor
  · rintro ⟨reaper, answer, rfl, isStage⟩
    rw [expiring, isStage]
    rfl
  · intro expires
    unfold expiring at expires
    split at expires
    · next reaper answer =>
        split at expires
        · next isStage =>
            cases expires
            exact ⟨reaper, answer, rfl, isStage⟩
        · cases expires
    · cases expires

theorem timely_iff {event : SessionEvent} : world.Timely event ↔
    (∀ id ∈ world.ends event, ¬ world.manager.Accompanied id) ∧
      ∀ id ∈ world.expiring event, world.manager.isActive id = true →
        world.manager.Accompanied id := by
  constructor
  · intro timely
    exact ⟨timely.ends, fun id expires =>
      timely.expires id (expires_iff.mpr expires)⟩
  · rintro ⟨ends, expires⟩
    exact ⟨ends, fun id isExpired => expires id (expires_iff.mp isExpired)⟩

instance decidableTimely (world : SessionWorld) (event : SessionEvent) :
    Decidable (world.Timely event) :=
  decidable_of_iff _ timely_iff.symm

theorem busy_opened (kept : world.Kept) {id : CallId} {call : SessionCall}
    {execution : ExecutionId} {session : Session} {stage : SessionStage}
    {instanceId : InstanceId} (elsewhere : instanceId ≠ session.instanceId) :
    (world.openedWorld id call execution session stage).manager.Busy
        instanceId ↔ world.manager.Busy instanceId := by
  constructor
  · rintro ⟨other, standing, found, isInstance, active⟩
    rw [standing_opened] at found
    split at found
    · cases found
      exact (elsewhere isInstance.symm).elim
    · exact ⟨other, standing, found, isInstance, active⟩
  · rintro ⟨other, standing, found, isInstance, active⟩
    refine ⟨other, standing, ?_, isInstance, active⟩
    rw [standing_opened, if_neg]
    · exact found
    · rintro rfl
      rw [kept.fresh _ le_rfl] at found
      cases found

theorem marked_step (kept : world.Kept) (notClosing : event.isClosing = false)
    (timely : world.Timely event) {db : Database} {instanceId : InstanceId}
    (marked : Marked db world.manager instanceId)
    (taken : world.step moment event = some (after, mark)) :
    Marked (Runtime.applyMark db mark) after.manager instanceId := by
  have advance := world.advance kept.named taken
  cases advance with
  | begun _ begun =>
      have begins := begin_beginsWith begun
      exact marked.of_iff (SessionManager.busy_congr begins.standing)
  | refused => exact marked
  | @opened id call execution tty stage isCall isStarting goesOn =>
      by_cases same : instanceId = call.instanceId
      · rw [same] at marked ⊢
        apply marked.running
        let session := SessionManager.newSession moment world.nextUuid
          call.instanceId execution tty
        refine ⟨world.nextUuid, session.standing, ?_, rfl, rfl⟩
        rw [standing_opened, if_pos rfl]
      · exact marked.elsewhere same true (busy_opened kept same)
  | @resumed _ id call held ended noted segment isCall holds stretch ends =>
      obtain ⟨standing, stands, isInstance⟩ :=
        kept.bound id call isCall held holds
      have isMark := stretch.mark
      rcases retires_or_stays stretch with ⟨rfl, retires⟩ | ⟨rfl, stays⟩
      · have retired : world.manager.Retires
            (noted.resume id call held segment).1.manager held := by
          intro other
          rw [standing_resume]
          exact retires other
        have alone := timely.ends held ends
        rw [resume]
        dsimp only
        rw [isMark]
        by_cases same : instanceId = call.instanceId
        · rw [same] at marked ⊢
          apply marked.ready
          rw [← isInstance]
          exact retired.not_busy stands alone
        · apply marked.elsewhere same false
          apply retired.busy_elsewhere stands
          rw [isInstance]
          exact same
      · have unmarked : (noted.resume id call held segment).2 = none := by
          rw [resume]
          dsimp only
          rw [isMark]
          rfl
        rw [unmarked]
        apply marked.of_iff
        apply SessionManager.busy_congr
        intro other
        rw [standing_resume]
        exact stays other
  | closes closing =>
      rw [notClosing] at closing
      cases closing
  | reaps =>
      apply marked.of_iff
      apply SessionManager.busy_congr
      exact fun other => standing_reapOn _ _ _ other
  | @reaped id answer reaper session object isReaper isStage =>
      have retires := world.reaped_retires
        (world.noteKill object.execution answer) id reaper session
      apply marked.of_iff
      apply retires.busy_same
      apply timely.expires
      refine ⟨id, answer, rfl, ?_⟩
      rw [isReaper, ← isStage]
      rfl

end SessionWorld

/-! ## Runs -/

namespace Runtime

variable {runtime after : Runtime} {instanceId : InstanceId}

theorem mem_activeSessions {manager : SessionManager} {id : SessionId} :
    id ∈ SessionWorld.activeSessions manager instanceId ↔
      id ∈ manager.sessions ∧ ∃ standing,
        manager.standing id = some standing ∧
          standing.instanceId = instanceId ∧ standing.active = true := by
  rw [SessionWorld.activeSessions, List.mem_filter, SessionManager.standing]
  cases manager.objects.lookup id with
  | none => simp
  | some session => simp [Session.standing]

theorem busy_iff_activeSessions (kept : runtime.sessions.Kept) :
    runtime.sessions.manager.Busy instanceId ↔
      SessionWorld.activeSessions runtime.sessions.manager instanceId ≠ [] := by
  constructor
  · rintro ⟨id, standing, found, both⟩
    apply List.ne_nil_of_mem (a := id)
    apply mem_activeSessions.mpr
    refine ⟨?_, standing, found, both⟩
    apply kept.listed
    rw [SessionManager.isActive_eq, found]
    exact both.2
  · intro some
    obtain ⟨id, member⟩ := List.exists_mem_of_ne_nil _ some
    obtain ⟨-, standing, both⟩ := mem_activeSessions.mp member
    exact ⟨id, standing, both⟩

theorem reflects_of_marked (kept : runtime.sessions.Kept)
    (marked : Marked runtime.db runtime.sessions.manager instanceId) :
    runtime.Reflects instanceId := by
  obtain ⟨row, found, cases⟩ := marked
  rw [busy_iff_activeSessions kept] at cases
  rw [Reflects, found]
  rcases cases with ⟨busy, isState⟩ | ⟨idle, isState⟩
  · rw [if_neg busy, ← isState]
    rfl
  · rw [if_pos (not_not.mp idle), ← isState]
    rfl

/-- A process that has made the instance and opened no session. -/
def Initial (instanceId : InstanceId) (runtime : Runtime) : Prop :=
  (runtime.db.getInstance instanceId).map InstanceRow.state = some .ready ∧
    runtime.sessions.Initial

def Timely (runtime : Runtime) : RuntimeEvent → Prop
  | .session event => runtime.sessions.Timely event
  | .tick _ => True

instance decidableTimely (runtime : Runtime) (event : RuntimeEvent) :
    Decidable (runtime.Timely event) :=
  match event with
  | .session _ => inferInstanceAs (Decidable (SessionWorld.Timely _ _))
  | .tick _ => inferInstanceAs (Decidable True)

/-- The states of runs whose sessions all end in time. -/
inductive Orderly (instanceId : InstanceId) : Runtime → Prop where
  | start {runtime : Runtime} :
      runtime.Initial instanceId → Orderly instanceId runtime
  | step {runtime after : Runtime} {event : RuntimeEvent} :
      Orderly instanceId runtime → runtime.Timely event →
      runtime.step event = some after → Orderly instanceId after

theorem Initial.marked (initial : runtime.Initial instanceId) :
    runtime.sessions.Kept ∧
      Marked runtime.db runtime.sessions.manager instanceId := by
  obtain ⟨ready, maxOutputBytes, isEmpty⟩ := initial
  obtain ⟨row, found, isReady⟩ := Option.map_eq_some_iff.mp ready
  rw [isEmpty]
  refine ⟨SessionWorld.kept_empty maxOutputBytes, row, found, .inr ⟨?_, isReady⟩⟩
  rintro ⟨id, standing, stands, -⟩
  cases stands

theorem Orderly.marked (orderly : Orderly instanceId runtime) :
    runtime.sessions.Kept ∧
      Marked runtime.db runtime.sessions.manager instanceId := by
  induction orderly with
  | start initial => exact initial.marked
  | @step runtime after event _ timely taken induction =>
      obtain ⟨kept, marked⟩ := induction
      cases event with
      | tick elapsed =>
          cases taken
          exact ⟨kept, marked⟩
      | session event =>
          rw [step.eq_def] at taken
          dsimp only at taken
          split at taken
          · cases taken
          · next notClosing =>
              obtain ⟨⟨sessions, mark⟩, ran, rfl⟩ :=
                Option.map_eq_some_iff.mp taken
              have stays := Bool.eq_false_iff.mpr notClosing
              exact ⟨kept.step stays ran,
                SessionWorld.marked_step kept stays timely marked ran⟩

/-- As long as each session that ends is the last one and each that expires
is not, the row tells whether a session is active. -/
theorem Orderly.reflects (orderly : Orderly instanceId runtime) :
    runtime.Reflects instanceId := by
  obtain ⟨kept, marked⟩ := orderly.marked
  exact reflects_of_marked kept marked

end Runtime

/-! ## Overlapping sessions -/

/-- A process with one ready instance. -/
private def readyRuntime : Runtime where
  db :=
    { Database.empty with
      instances := (∅ : Table InstanceId InstanceRow).insert 0
        { kind := .instant
          backend := .docker
          state := .ready
          workspaceId := none
          baseCommit := emptyContractDigest
          backendHandle := some
            { backend := .docker, instanceId := 0, opaqueId := "container" }
          workspacePath := "instances/0"
          resourceProfile := .default
          network := .none } }
  sessions := .empty 65536
  clock := 0

private def sleeping : SessionRequest :=
  .exec "sleep 60" none false 1000 60000 none

private def reported (state : ExecutionState) : Except Thrown ExecutionResult :=
  .ok { state, output := [], startedAt := 0 }

/-- Two commands are started; the first exits while the second runs. -/
private def overlapping : List RuntimeEvent :=
  [.session (.begin 0 0 sleeping),
    .session (.execAnswered 0 (.ok ())),
    .session (.begin 1 0 sleeping),
    .session (.execAnswered 1 (.ok ())),
    .session (.pollAnswered 1 (reported .running)),
    .session (.pollAnswered 0 (reported .completed))]

private theorem readyRuntime_initial : readyRuntime.Initial 0 :=
  ⟨rfl, 65536, rfl⟩

/-- Two commands are left running.  The session of the first one expires, and
later a poll finds that the second one has exited. -/
private def outlived : List RuntimeEvent :=
  [.session (.begin 0 0 sleeping),
    .session (.execAnswered 0 (.ok ())),
    .session (.pollAnswered 0 (reported .running)),
    .tick 60000,
    .session (.begin 1 0 sleeping),
    .session (.execAnswered 1 (.ok ())),
    .session (.pollAnswered 1 (reported .running)),
    .tick (SessionManager.ttlMs - 60000),
    .session (.reapExpired 0),
    .session (.reaperKillAnswered 0 (.ok ()))]

/-- The second session has the fourth name that was given. -/
private def exited : List RuntimeEvent :=
  [.session (.begin 2 0 (.poll 3 1000 none)),
    .session (.enter 2),
    .session (.pollAnswered 2 (reported .completed))]

/-- The row follows a session that expires and one that ends. -/
theorem reflects_outlived :
    ∃ before after : Runtime, Runtime.Orderly 0 before ∧
      (before.db.getInstance 0).map InstanceRow.state = some .running ∧
      before.Reflects 0 ∧ Runtime.Orderly 0 after ∧
      (after.db.getInstance 0).map InstanceRow.state = some .ready ∧
      after.Reflects 0 := by
  have replay : (run (guarded Runtime.Timely Runtime.step) readyRuntime
      outlived).any (fun before =>
        decide ((before.db.getInstance 0).map InstanceRow.state =
          some .running) &&
        (run (guarded Runtime.Timely Runtime.step) before exited).any
          fun after => decide ((after.db.getInstance 0).map
            InstanceRow.state = some .ready)) = true := by
    decide +kernel
  obtain ⟨before, isBefore, replay⟩ := (Option.any_eq_true _ _).mp replay
  obtain ⟨running, replay⟩ := Bool.and_eq_true_iff.mp replay
  obtain ⟨after, isAfter, ready⟩ := (Option.any_eq_true _ _).mp replay
  have orderly : Runtime.Orderly 0 before :=
    invariant_of_guarded_run (fun _ _ _ orderly => orderly.step)
      (.start readyRuntime_initial) isBefore
  have orderly' : Runtime.Orderly 0 after :=
    invariant_of_guarded_run (fun _ _ _ orderly => orderly.step) orderly
      isAfter
  exact ⟨before, after, orderly, of_decide_eq_true running, orderly.reflects,
    orderly', of_decide_eq_true ready, orderly'.reflects⟩

/-- The row says `READY` while a command runs and no call is pending. -/
theorem ready_while_active :
    ¬ ∀ runtime : Runtime,
      Reachable Runtime.step (Runtime.Initial 0) (fun _ => True) runtime →
        (∀ id call, runtime.sessions.calls.lookup id = some call →
          call.stage.isSettled = true) →
        runtime.Reflects 0 := by
  intro reflects
  have replay : (run Runtime.step readyRuntime overlapping).any
      (fun runtime =>
        (runtime.sessions.calls.entries.all fun entry =>
          entry.2.stage.isSettled) &&
        decide ((runtime.db.getInstance 0).map InstanceRow.state =
          some .ready) &&
        decide (SessionWorld.activeSessions runtime.sessions.manager 0 ≠
          [])) = true := by
    decide +kernel
  obtain ⟨runtime, isRuntime, checked⟩ := (Option.any_eq_true _ _).mp replay
  simp only [Bool.and_eq_true, decide_eq_true_eq] at checked
  obtain ⟨⟨settled, ready⟩, active⟩ := checked
  have reached := Reachable.of_run (.start readyRuntime_initial)
    (fun _ _ => trivial) isRuntime
  have isState := reflects runtime reached (by
    intro id call found
    have member := AList.mem_lookup_iff.mp found
    exact List.all_eq_true.mp settled ⟨id, call⟩ member)
  rw [Runtime.Reflects, if_neg active, ready] at isState
  cases isState

end Electrosphere
