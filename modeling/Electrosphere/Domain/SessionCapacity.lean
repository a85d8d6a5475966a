import Electrosphere.Domain.Host
import Electrosphere.Domain.SessionSteps
import Mathlib.Data.List.Count

/-!
# The size of the session table

`exec` looks at the size of the map before it asks the backend, and enters its
session after the backend has answered.  Between the two the calls in flight
are not counted.
-/

namespace Electrosphere

open Foundation

/-! ## Eviction -/

theorem evict_eq_diff {sessions removable : List SessionId}
    (full : 64 ≤ (SessionManager.evict sessions removable).length) :
    SessionManager.evict sessions removable = sessions.diff removable := by
  induction removable generalizing sessions with
  | nil => rfl
  | cons id removable induction =>
      rw [SessionManager.evict] at full ⊢
      split at full
      · next more =>
          rw [if_pos more, List.diff_cons]
          exact induction full
      · next fewer => exact (fewer full).elim

/-- What a full map lists after `reap` is active. -/
theorem reap_full {manager : SessionManager} {now : Nat}
    (full : 64 ≤ (manager.reap now).sessions.length) {id : SessionId}
    (member : id ∈ (manager.reap now).sessions) :
    manager.isActive id = true := by
  rw [SessionManager.reap] at full member
  dsimp only at full member
  rw [evict_eq_diff full] at member
  by_contra inactive
  have isRemovable : (!manager.isActive id) = true := by simpa using inactive
  have listed := List.count_pos_iff.mpr member
  generalize manager.sessions.filter
    (fun id => !manager.finishedAndExpired now id) = kept at listed
  have same : List.count id (kept.filter fun id => !manager.isActive id) =
      List.count id kept := List.count_filter isRemovable
  rw [List.count_diff, (List.perm_insertionSort _ _).count_eq, same,
    Nat.sub_self] at listed
  exact Nat.lt_irrefl 0 listed

theorem length_filter_reap {manager : SessionManager} {now : Nat}
    (full : 64 ≤ (manager.reap now).sessions.length) :
    64 ≤ (manager.sessions.filter manager.isActive).length := by
  have all : (manager.reap now).sessions.filter manager.isActive =
      (manager.reap now).sessions :=
    List.filter_eq_self.mpr fun id => reap_full full
  rw [← all] at full
  have fewer := ((SessionWorld.reap_sublist manager now).filter manager.isActive).length_le
  exact full.trans fewer

/-! ## Refusals -/

/-- What the rest of the daemon has made of the clock and of the rows when a
call runs. -/
structure Surroundings where
  now : Nat
  db : Database

def Surroundings.moment (surroundings : Surroundings) : Moment where
  now := surroundings.now
  getTurnHandle := getTurnHandle surroundings.db

def capacityRefusal (message : String) : Except Thrown Unit :=
  .error (.coded .sessionCapacity message)

theorem getTurnHandle_ne_capacity (db : Database) (id : InstanceId)
    (message : String) : getTurnHandle db id ≠ capacityRefusal message := by
  rw [getTurnHandle.eq_def]
  split
  · simp [capacityRefusal, Thrown.coded]
  · split
    · simp [capacityRefusal, Thrown.coded]
    · simp [capacityRefusal]
    · simp [capacityRefusal]
    · simp [capacityRefusal, Thrown.coded]

/-- `exec` refuses for want of capacity only when the map is full. -/
theorem full_of_checkExec {manager : SessionManager}
    {surroundings : Surroundings} {instanceId : InstanceId} {command : String}
    {workdir : Option String} {message : String}
    (refuses : manager.checkExec surroundings.moment instanceId command workdir =
      capacityRefusal message) : 64 ≤ manager.sessions.length := by
  rw [SessionManager.checkExec] at refuses
  split at refuses
  · simp [capacityRefusal, Thrown.coded] at refuses
  · split at refuses
    · next full => exact full
    · split at refuses
      · simp [capacityRefusal, Thrown.coded] at refuses
      · split at refuses
        · simp [capacityRefusal, Thrown.coded] at refuses
        · exact (getTurnHandle_ne_capacity _ _ _ refuses).elim

theorem requireSession_ne_capacity {manager : SessionManager}
    {id : SessionId} {instanceId : InstanceId} {now : Nat} {error : Thrown}
    (refuses : manager.requireSession id instanceId now = .error error)
    (message : String) : error ≠ .coded .sessionCapacity message := by
  rw [SessionManager.requireSession] at refuses
  split at refuses
  · split at refuses
    · cases refuses
      simp [Thrown.coded]
    · cases refuses
  · cases refuses
    simp [Thrown.coded]

theorem full_of_begin {manager later : SessionManager}
    {surroundings : Surroundings} {fresh : ExecutionId} {id : CallId}
    {instanceId : InstanceId} {request : SessionRequest} {message : String}
    (begun : manager.begin surroundings.moment fresh id instanceId request =
      (later, .settled (.error (.coded .sessionCapacity message)))) :
    64 ≤ (manager.reap surroundings.now).sessions.length := by
  cases request with
  | exec command workdir =>
      rw [SessionManager.begin] at begun
      cases checked : (manager.reap surroundings.moment.now).checkExec
          surroundings.moment instanceId command workdir with
      | ok _ =>
          rw [checked] at begun
          cases begun
      | error error =>
          rw [checked] at begun
          cases begun
          exact full_of_checkExec checked
  | poll session =>
      rw [SessionManager.begin] at begun
      cases required : manager.requireSession session instanceId
          surroundings.moment.now with
      | ok _ =>
          rw [required] at begun
          cases begun
      | error error =>
          rw [required] at begun
          cases begun
          exact (requireSession_ne_capacity required message rfl).elim
  | kill session =>
      rw [SessionManager.begin] at begun
      cases required : manager.requireSession session instanceId
          surroundings.moment.now with
      | ok _ =>
          rw [required] at begun
          cases begun
      | error error =>
          rw [required] at begun
          cases begun
          exact (requireSession_ne_capacity required message rfl).elim
  | write session =>
      rw [SessionManager.begin] at begun
      cases required : manager.requireSession session instanceId
          surroundings.moment.now with
      | ok object =>
          rw [required] at begun
          dsimp only at begun
          split at begun
          · simp [Thrown.coded] at begun
          · cases begun
      | error error =>
          rw [required] at begun
          cases begun
          exact (requireSession_ne_capacity required message rfl).elim

/-! ## Runs -/

namespace SessionWorld

variable {world after : SessionWorld} {mark : Option InstanceMark}

/-- How many calls await the backend's `exec`. -/
def inFlight (world : SessionWorld) : Nat :=
  AList.count (fun _ call => call.stage.isStarting) world.calls

/-- An `exec` that passes its checks finds room beside the calls in flight. -/
def FindsRoom (world : SessionWorld) (moment : Moment) : SessionEvent → Prop
  | .begin _ instanceId (.exec command workdir _ _ _ _) =>
      (world.manager.reap moment.now).checkExec moment instanceId command
          workdir = .ok () →
        (world.manager.reap moment.now).sessions.length + world.inFlight < 64
  | _ => True

def MeetsRoom (world : SessionWorld) (label : Surroundings × SessionEvent) :
    Prop :=
  world.FindsRoom label.1.moment label.2

instance decidableFindsRoom (world : SessionWorld) (moment : Moment) :
    DecidablePred (world.FindsRoom moment)
  | .begin _ _ (.exec ..) => inferInstanceAs (Decidable (_ → _))
  | .begin _ _ (.poll ..) | .begin _ _ (.write ..) | .begin _ _ (.kill _) =>
      .isTrue trivial
  | .enter _ | .execAnswered .. | .pollAnswered .. | .writeAnswered ..
  | .killAnswered .. | .closeInstance _ | .closingEnters _
  | .closingKillAnswered .. | .closingPollAnswered .. | .reapExpired _
  | .reaperKillAnswered .. => .isTrue trivial

instance decidableMeetsRoom (world : SessionWorld) :
    DecidablePred world.MeetsRoom := fun label =>
  decidableFindsRoom world label.1.moment label.2

/-- An event in the surroundings it meets. -/
def occur (world : SessionWorld) (label : Surroundings × SessionEvent) :
    Option SessionWorld :=
  (world.step label.1.moment label.2).map Prod.fst

def Initial (world : SessionWorld) : Prop :=
  ∃ maxOutputBytes, world = .empty maxOutputBytes

/-- The states of runs in which each `exec` finds room. -/
inductive Roomy : SessionWorld → Prop where
  | start {world : SessionWorld} : world.Initial → Roomy world
  | step {world after : SessionWorld} {surroundings : Surroundings}
      {event : SessionEvent} :
      Roomy world → world.FindsRoom surroundings.moment event →
      world.occur (surroundings, event) = some after → Roomy after

/-- The sessions and the calls that may still enter one. -/
structure Fitting (world : SessionWorld) : Prop where
  named : world.Named
  room : world.manager.sessions.length + world.inFlight ≤ 64

theorem inFlight_insert_of_absent {calls : Table CallId SessionCall}
    {id : CallId} {call : SessionCall}
    (absent : world.calls.lookup id = none)
    (same : calls = world.calls.insert id call) :
    AList.count (fun _ call => call.stage.isStarting) calls =
      world.inFlight + if call.stage.isStarting then 1 else 0 := by
  rw [same]
  exact AList.count_insert_of_absent absent

/-- The backend has answered. -/
theorem inFlight_insert_of_answered {id : CallId} {call later : SessionCall}
    (found : world.calls.lookup id = some call)
    (starting : call.stage.isStarting = true)
    (runs : later.stage.isStarting = false) :
    AList.count (fun _ call => call.stage.isStarting)
      (world.calls.insert id later) + 1 = world.inFlight := by
  have counted := AList.count_insert_of_found
    (fun _ call => call.stage.isStarting) found later
  rw [if_pos starting, if_neg (ne_true_of_eq_false runs)] at counted
  exact counted

theorem inFlight_insert_of_running {id : CallId} {call later : SessionCall}
    (found : world.calls.lookup id = some call)
    (running : call.stage.isStarting = false)
    (runs : later.stage.isStarting = false) :
    AList.count (fun _ call => call.stage.isStarting)
      (world.calls.insert id later) = world.inFlight := by
  have counted := AList.count_insert_of_found
    (fun _ call => call.stage.isStarting) found later
  rw [if_neg (ne_true_of_eq_false running),
    if_neg (ne_true_of_eq_false runs)] at counted
  exact counted

/-- A call that begins takes a place only if its checks have passed. -/
theorem begun_room {moment : Moment} {id : CallId} {instanceId : InstanceId}
    {request : SessionRequest} {manager : SessionManager}
    {stage : SessionStage}
    (room : world.manager.sessions.length + world.inFlight ≤ 64)
    (finds : world.FindsRoom moment (.begin id instanceId request))
    (begun : world.manager.begin moment world.nextUuid id instanceId request =
      (manager, stage)) :
    manager.sessions.length + world.inFlight +
      (if stage.isStarting then 1 else 0) ≤ 64 := by
  have fewer := (begin_beginsWith begun).sessions.length_le
  cases starting : stage.isStarting with
  | false =>
      rw [if_neg Bool.false_ne_true]
      omega
  | true =>
      rw [if_pos rfl]
      cases request with
      | exec command workdir tty yieldTimeMs timeoutMs tokens =>
          rw [SessionManager.begin] at begun
          cases checked : (world.manager.reap moment.now).checkExec moment
              instanceId command workdir with
          | ok _ =>
              rw [checked] at begun
              cases begun
              have less := finds checked
              omega
          | error error =>
              rw [checked] at begun
              cases begun
              cases starting
      | poll session =>
          rw [SessionManager.begin] at begun
          split at begun
          · cases begun
            cases starting
          · cases begun
            cases starting
      | kill session =>
          rw [SessionManager.begin] at begun
          split at begun
          · cases begun
            cases starting
          · cases begun
            cases starting
      | write session =>
          rw [SessionManager.begin] at begun
          split at begun
          · cases begun
            cases starting
          · split at begun
            · cases begun
              cases starting
            · cases begun
              cases starting

theorem Fitting.step (fitting : world.Fitting) {moment : Moment}
    {event : SessionEvent} (finds : world.FindsRoom moment event)
    (taken : world.step moment event = some (after, mark)) :
    after.Fitting := by
  have advance := world.advance fitting.named taken
  refine ⟨fitting.named.advance advance, ?_⟩
  have room := fitting.room
  cases advance with
  | begun absent begun =>
      have added := begun_room room finds begun
      rw [inFlight, inFlight_insert_of_absent absent rfl]
      dsimp only
      omega
  | @refused id call execution error isCall isStarting =>
      have starting : call.stage.isStarting = true := by
        rw [isStarting]
        rfl
      let settled : SessionCall :=
        { call with stage := .settled (.error error) }
      have counted := inFlight_insert_of_answered isCall starting
        (rfl : settled.stage.isStarting = false)
      change world.manager.sessions.length +
        AList.count _ (world.calls.insert id settled) ≤ 64
      omega
  | @opened id call execution tty stage isCall isStarting goesOn =>
      have starting : call.stage.isStarting = true := by
        rw [isStarting]
        rfl
      let running : SessionCall := { call with stage }
      have runs : running.stage.isStarting = false :=
        SessionStage.not_starting (.inl goesOn)
      have counted := inFlight_insert_of_answered isCall starting runs
      rw [inFlight, openedWorld]
      dsimp only
      rw [List.length_append, List.length_singleton]
      change _ + AList.count _ (world.calls.insert id running) ≤ 64
      omega
  | @resumed _ id call held ended noted segment isCall holds stretch _ calls =>
      let later : SessionCall := { call with stage := segment.stage }
      have runs : later.stage.isStarting = false :=
        SessionStage.not_starting stretch.stage
      have counted := inFlight_insert_of_running isCall
        (SessionStage.not_starting (.inl holds)) runs
      rw [sessions_resume, stretch.sessions, inFlight]
      change _ + AList.count _ (noted.calls.insert id later) ≤ 64
      rw [calls]
      omega
  | closes _ calls sessions =>
      rw [inFlight, calls, sessions]
      exact room
  | @reaps id =>
      have fewer := (world.reapOn_sublist id moment.now []).length_le
      exact (Nat.add_le_add_right fewer _).trans room
  | @reaped id answer reaper session object =>
      let dropped : SessionWorld :=
        { world.noteKill object.execution answer with
          manager := (world.manager.deactivate session).delete session }
      have fewer := (dropped.reapOn_sublist id reaper.now
        (reaper.passed ++ [session])).length_le
      have erased := (List.erase_sublist (a := session)
        (l := world.manager.sessions)).length_le
      have same : (world.noteKill object.execution answer).inFlight =
          world.inFlight := by
        rw [inFlight, noteKill_calls, inFlight]
      exact (Nat.add_le_add (fewer.trans erased) same.le).trans room

theorem step_of_occur {surroundings : Surroundings} {event : SessionEvent}
    (occurs : world.occur (surroundings, event) = some after) :
    ∃ mark, world.step surroundings.moment event = some (after, mark) := by
  obtain ⟨⟨next, mark⟩, taken, rfl⟩ := Option.map_eq_some_iff.mp occurs
  exact ⟨mark, taken⟩

theorem Roomy.fitting (roomy : Roomy world) : world.Fitting := by
  induction roomy with
  | start initial =>
      obtain ⟨maxOutputBytes, rfl⟩ := initial
      exact ⟨named_empty maxOutputBytes, Nat.zero_le _⟩
  | step _ finds occurs induction =>
      obtain ⟨mark, taken⟩ := step_of_occur occurs
      exact induction.step finds taken

/-! ## Active sessions -/

/-- The reaper that the event answers has found this session expired. -/
def Expires (world : SessionWorld) (event : SessionEvent) (id : SessionId) :
    Prop :=
  ∃ reaper answer, event = .reaperKillAnswered reaper answer ∧
    (world.reapers.lookup reaper).map Reaper.stage = some (.killing id)

theorem isActive_of_standing {manager later : SessionManager}
    {id : SessionId} (same : later.standing id = manager.standing id) :
    later.isActive id = manager.isActive id := by
  rw [SessionManager.isActive_eq, same, SessionManager.isActive_eq]

/-- Only expiry drops an active session. -/
theorem expires_of_dropped (named : world.Named) {moment : Moment}
    {event : SessionEvent}
    (taken : world.step moment event = some (after, mark)) {id : SessionId}
    (listed : id ∈ world.manager.sessions)
    (active : world.manager.isActive id = true)
    (dropped : id ∉ after.manager.sessions) : world.Expires event id := by
  have stays : world.manager.isActive id ≠ false := ne_false_of_eq_true active
  have advance := world.advance named taken
  cases advance with
  | begun _ begun =>
      exact (stays ((begin_beginsWith begun).dropped id listed dropped)).elim
  | refused => exact (dropped listed).elim
  | opened => exact (dropped (List.mem_append_left _ listed)).elim
  | resumed _ _ stretch =>
      rw [sessions_resume, stretch.sessions] at dropped
      exact (dropped listed).elim
  | closes _ _ sessions =>
      rw [sessions] at dropped
      exact (dropped listed).elim
  | reaps => exact (stays (reapOn_dropped listed dropped)).elim
  | @reaped reaperId answer reaper session object isReaper isStage =>
      by_cases same : id = session
      · refine ⟨reaperId, answer, rfl, ?_⟩
        rw [isReaper, same, ← isStage]
        rfl
      · have kept : id ∈ world.manager.sessions.erase session :=
          (List.mem_erase_of_ne same).mpr listed
        have inactive := reapOn_dropped kept dropped
        have unchanged : (world.manager.deactivate session).standing id =
            world.manager.standing id := by
          rw [SessionManager.standing_deactivate, if_neg same]
        have still := isActive_of_standing unchanged
        exact (stays (still.symm.trans inactive)).elim

/-! ## The bound -/

/-- What is promised of the session table. -/
structure Bounded (world : SessionWorld) : Prop where
  size : world.manager.sessions.length ≤ 64
  drops : ∀ surroundings event after,
    world.occur (surroundings, event) = some after →
      ∀ id ∈ world.manager.sessions, world.manager.isActive id = true →
        id ∉ after.manager.sessions → world.Expires event id
  refuses : ∀ surroundings id instanceId request after message,
    world.occur (surroundings, .begin id instanceId request) = some after →
      (after.calls.lookup id).map SessionCall.stage =
        some (.settled (.error (.coded .sessionCapacity message))) →
      (world.manager.sessions.filter world.manager.isActive).length = 64

theorem Fitting.refuses (fitting : world.Fitting)
    {surroundings : Surroundings} {id : CallId} {instanceId : InstanceId}
    {request : SessionRequest} {message : String}
    (taken : world.step surroundings.moment (.begin id instanceId request) =
      some (after, mark))
    (refused : (after.calls.lookup id).map SessionCall.stage =
      some (.settled (.error (.coded .sessionCapacity message)))) :
    (world.manager.sessions.filter world.manager.isActive).length = 64 := by
  obtain ⟨next, ran, isNext⟩ := Option.map_eq_some_iff.mp taken
  obtain ⟨rfl, rfl⟩ := Prod.mk.inj isNext
  unfold begin at ran
  split at ran
  · cases ran
  · cases ran
    dsimp only at refused
    rw [AList.lookup_insert] at refused
    have isStage := Option.some.inj refused
    have full := length_filter_reap (full_of_begin (Prod.ext rfl isStage))
    have fewer := List.length_filter_le world.manager.isActive
      world.manager.sessions
    have room := fitting.room
    omega

/-- The table is bounded in the runs in which each `exec` that passes its
checks finds room beside the calls in flight. -/
theorem Roomy.sessions_bounded (roomy : Roomy world) : world.Bounded := by
  have fitting := roomy.fitting
  constructor
  · exact (Nat.le_add_right _ _).trans fitting.room
  · intro surroundings event after occurs id listed active dropped
    obtain ⟨mark, taken⟩ := step_of_occur occurs
    exact expires_of_dropped fitting.named taken listed active dropped
  · intro surroundings id instanceId request after message occurs refused
    obtain ⟨mark, taken⟩ := step_of_occur occurs
    exact fitting.refuses taken refused

end SessionWorld

/-! ## Overlapping calls -/

/-- One instance is ready. -/
private def readyDatabase : Database :=
  { Database.empty with
    instances := (∅ : Table InstanceId InstanceRow).insert 0
      { kind := .instant
        backend := .docker
        state := .ready
        workspaceId := none
        baseCommit := emptyContractDigest
        backendHandle := some
          { backend := .docker, instanceId := 0, opaqueId := "container" }
        workspacePath := "instances/0"
        resourceProfile := .default
        network := .none } }

private def readyMoment : Surroundings := { now := 0, db := readyDatabase }

private def listing : SessionRequest :=
  .exec "ls" none false 1000 60000 none

private def begins (count : Nat) : List (Surroundings × SessionEvent) :=
  (List.range count).map fun id => (readyMoment, .begin id 0 listing)

private def answers (count : Nat) : List (Surroundings × SessionEvent) :=
  (List.range count).map fun id => (readyMoment, .execAnswered id (.ok ()))

private def completes (count : Nat) : List (Surroundings × SessionEvent) :=
  (List.range count).map fun id => (readyMoment, .pollAnswered id
    (.ok { state := .completed, output := [], startedAt := 0 }))

/-- Three calls at once and 61 one after the other, whose commands have all
exited. -/
private def fillsTable : List (Surroundings × SessionEvent) :=
  begins 3 ++ answers 3 ++ completes 3 ++
    ((List.range 61).flatMap fun id =>
      [(readyMoment, .begin (id + 3) 0 listing),
        (readyMoment, .execAnswered (id + 3) (.ok ())),
        (readyMoment, .pollAnswered (id + 3)
          (.ok { state := .completed, output := [], startedAt := 0 }))])

/-- The first session, whose name came after those of three executions, makes
room for another one. -/
private def evictsFirst : List (Surroundings × SessionEvent) :=
  [(readyMoment, .begin 64 0 listing), (readyMoment, .execAnswered 64 (.ok ()))]

/-- The bound is met by calls that overlap, and by one that finds the table
full. -/
theorem bounded_fullTable :
    ∃ before after : SessionWorld, before.Roomy ∧
      before.manager.sessions.length = 64 ∧ 3 ∈ before.manager.sessions ∧
      before.Bounded ∧ after.Roomy ∧ after.manager.sessions.length = 64 ∧
      3 ∉ after.manager.sessions ∧ after.Bounded := by
  have replay : (run (guarded SessionWorld.MeetsRoom SessionWorld.occur)
      (.empty 65536) fillsTable).any (fun before =>
        decide (before.manager.sessions.length = 64 ∧
          3 ∈ before.manager.sessions) &&
        (run (guarded SessionWorld.MeetsRoom SessionWorld.occur) before
          evictsFirst).any fun after =>
            decide (after.manager.sessions.length = 64 ∧
              3 ∉ after.manager.sessions)) = true := by
    decide +kernel
  obtain ⟨before, isBefore, replay⟩ := (Option.any_eq_true _ _).mp replay
  obtain ⟨full, replay⟩ := Bool.and_eq_true_iff.mp replay
  obtain ⟨after, isAfter, evicted⟩ := (Option.any_eq_true _ _).mp replay
  obtain ⟨full, listed⟩ := of_decide_eq_true full
  obtain ⟨stillFull, dropped⟩ := of_decide_eq_true evicted
  have roomy : SessionWorld.Roomy before :=
    invariant_of_guarded_run (fun _ _ _ roomy => roomy.step)
      (.start ⟨65536, rfl⟩) isBefore
  have roomy' : SessionWorld.Roomy after :=
    invariant_of_guarded_run (fun _ _ _ roomy => roomy.step) roomy isAfter
  exact ⟨before, after, roomy, full, listed, roomy.sessions_bounded, roomy',
    stillFull, dropped, roomy'.sessions_bounded⟩

/-- Each of 65 calls finds the table empty, and each enters its session. -/
theorem sessions_beyond_capacity :
    ¬ ∀ world : SessionWorld,
      Reachable SessionWorld.occur SessionWorld.Initial (fun _ => True) world →
        world.Bounded := by
  intro bounded
  have replay : (run SessionWorld.occur (.empty 65536)
      (begins 65 ++ answers 65)).any
        (fun world => decide (world.manager.sessions.length = 65)) = true := by
    decide +kernel
  obtain ⟨world, isWorld, size⟩ := (Option.any_eq_true _ _).mp replay
  have initial : SessionWorld.Initial (.empty 65536) := ⟨65536, rfl⟩
  have reached := Reachable.of_run (.start initial) (fun _ _ => trivial) isWorld
  have room := (bounded world reached).size
  rw [of_decide_eq_true size] at room
  exact absurd room (by decide)

end Electrosphere
