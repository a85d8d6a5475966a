import Electrosphere.Domain.Host

/-!
# What runs while a turn is committed

A finish waits for its leases, so no session call of the turn is in flight
when the sessions are closed, and `closeInstance` ends every execution whose
session the manager still holds active.  What it misses are the executions
that `abandon` or `reapExpired` has given up without a confirmed kill.
-/

namespace Electrosphere

open Foundation

namespace World

variable {deployment : Deployment} {world after : World}

/-- The finish of an instance has passed its wait. -/
def Past (world : World) (instanceId : InstanceId) : Prop :=
  ∃ key call, world.finishes.lookup key = some call ∧
    call.record.instanceId = some instanceId ∧ call.stage ≠ .waiting

theorem Past.move (orderly : world.Orderly) {instanceId : InstanceId}
    (past : world.Past instanceId) (move : CallMove deployment world after) :
    after.Past instanceId := by
  obtain ⟨key, call, found, isInstance, notWaiting⟩ := past
  have replaced : ∀ other later, (other = key → later.record = call.record ∧
      later.stage ≠ .waiting) →
      ∃ key found, (world.finishes.insert other later).lookup key =
        some found ∧ found.record.instanceId = some instanceId ∧
          found.stage ≠ .waiting := by
    intro other later own
    by_cases same : other = key
    · obtain ⟨sameRecord, stillPast⟩ := own same
      exact ⟨other, later, AList.lookup_insert _, sameRecord ▸ isInstance,
        stillPast⟩
    · exact ⟨key, call, (AList.lookup_insert_ne (Ne.symm same)).trans found,
        isInstance, notWaiting⟩
  cases move with
  | beginStart | advanceStart | forgetStart | grant | fork | force
  | closing =>
      exact ⟨key, call, found, isInstance, notWaiting⟩
  | mark marked =>
      obtain ⟨_, _, rfl⟩ := World.markInstance_eq marked
      exact ⟨key, call, found, isInstance, notWaiting⟩
  | release released =>
      rcases (World.release_leasesOnly released).finishes with
        same | ⟨woken, isWoken⟩
      · exact ⟨key, call, same ▸ found, isInstance, notWaiting⟩
      · refine ⟨key, call, ?_, isInstance, notWaiting⟩
        rw [isWoken]
        unfold wake
        rw [AList.lookup_modify_if, found]
        split
        · rw [Option.map_some]
          split
          · exact (notWaiting ‹_›).elim
          · rfl
        · rfl
  | @beginFinish other row environment isRow isOpened =>
      refine replaced other _ ?_
      rintro rfl
      have phase := orderly.phased other
      rw [found] at phase
      cases (phase.opened row isRow isOpened).1
  | @advanceFinish own segment isOwn _ step =>
      refine replaced own.key _ fun same => ?_
      subst same
      cases isOwn.symm.trans found
      exact ⟨rfl, (Leased.not_waiting step).2⟩
  | @forgetFinish own isOwn =>
      refine replaced own.key _ fun same => ?_
      subst same
      cases isOwn.symm.trans found
      exact ⟨rfl, notWaiting⟩

/-- No lease binds an instance whose finish has passed its wait. -/
theorem Past.unleased (served : Served deployment world)
    {instanceId : InstanceId} (past : world.Past instanceId)
    {lease : LeaseId} {turn : BoundTurn}
    (active : world.activeLeases.lookup lease = some turn) :
    turn.instanceId ≠ instanceId := by
  rintro rfl
  obtain ⟨key, call, found, isInstance, notWaiting⟩ := past
  have owned := served.owned
  have isKey : turn.key = key :=
    owned.disjoint key turn.key turn.instanceId
      (owned.finishes key call _ found isInstance) (owned.leases lease turn active)
  rcases served.leased.held lease turn active with
    ⟨row, isRow, isOpened⟩ | ⟨other, isOther, isWaiting⟩
  · have phase := served.orderly.phased key
    rw [found] at phase
    cases (phase.opened row (isKey ▸ isRow) isOpened).1
  · rw [isKey, found] at isOther
    cases isOther
    exact notWaiting isWaiting

/-- A release takes away one lease and wakes a finish that waits. -/
theorem release_aside {id : LeaseId} (released : world.release id = some after) :
    (∀ lease turn, lease ≠ id →
      world.activeLeases.lookup lease = some turn →
      after.activeLeases.lookup lease = some turn) ∧
    ∀ key call, after.finishes.lookup key = some call →
      call.stage.early = true ∨
        ∃ before, world.finishes.lookup key = some before ∧
          before.stage = call.stage ∧ before.record = call.record := by
  constructor
  · intro lease turn different active
    unfold World.release at released
    split at released
    case h_1 => cases released
    split at released
    case isTrue =>
      cases released
      exact active
    dsimp only at released
    split at released
    case isFalse =>
      cases released
      exact active
    have kept : after.activeLeases = world.activeLeases.erase id := by
      cases released
      unfold dropLease
      dsimp only
      split
      · rfl
      split <;> rfl
    rw [kept]
    exact (AList.lookup_erase_ne different).trans active
  · intro key call found
    rcases (World.release_leasesOnly released).finishes with
      same | ⟨woken, isWoken⟩
    · exact .inr ⟨call, same ▸ found, rfl, rfl⟩
    · rw [isWoken] at found
      unfold wake at found
      rw [AList.lookup_modify_if] at found
      split at found
      case isFalse => exact .inr ⟨call, found, rfl, rfl⟩
      case isTrue same =>
        obtain ⟨before, isBefore, rfl⟩ := Option.map_eq_some_iff.mp found
        split
        · exact .inl rfl
        · exact .inr ⟨before, isBefore, rfl, rfl⟩

end World

/-! ## Commits and closed sessions -/

/-- The sessions are closed and the backend has been asked for nothing more
than the snapshot. -/
def FinishStage.quiet : FinishStage → Bool
  | .sessionsClosed (.ok ()) | .snapshot _ => true
  | _ => false

theorem FinishStage.not_quiet {stage : FinishStage}
    (early : stage.early = true) : stage.quiet = false := by
  cases stage <;> first | rfl | cases early

/-- How a finish comes to be quiet. -/
theorem FinishStep.quiet {deployment : Deployment} {db : Database}
    {objects : List String} {call : FinishCall} {segment : FinishSegment}
    (step : FinishStep deployment db objects call segment)
    (isQuiet : segment.stage.quiet = true) :
    call.stage = .closingSessions ∨ call.stage.quiet = true := by
  have settled : ∀ {stage : FinishStage}, stage.isSettled = true →
      stage.quiet = false := by
    intro stage isSettled
    cases stage <;> first | rfl | cases isSettled
  have fails : ∀ error, (failTurn db call error).2.quiet = false := by
    intro error
    unfold failTurn
    split
    · rfl
    · exact settled (recordFailure_settled call.key error)
  have captures : ∀ objects commit captured, (finishCapture deployment db
      objects commit captured).stage.quiet = false := by
    intro objects commit captured
    unfold finishCapture
    split
    · rfl
    · split <;> rfl
  cases step with
  | noRuntime | sessionsFailed | commitFailed =>
      rw [FinishSegment.plain, fails] at isQuiet
      cases isQuiet
  | sessionsEnded isStage | sessionsStuck isStage => exact .inl isStage
  | proceed isStage => exact .inr (by rw [isStage]; rfl)
  | snapshotFailed | hostCaptured | snapshotRemoved | snapshotKept =>
      rw [captures] at isQuiet
      cases isQuiet
  | deleted =>
      rw [FinishSegment.plain, settled (afterDeletion_isSettled _ _ _ _)]
        at isQuiet
      cases isQuiet
  | closing | snapshotTaken | guestCaptured | cleaning | deleting =>
      cases isQuiet

theorem advanceFinish_closingSessions {deployment : Deployment}
    {db : Database} {objects : List String} {call : FinishCall}
    {segment : FinishSegment} (isStage : call.stage = .closingSessions)
    (advanced : advanceFinish deployment db objects call = some segment) :
    segment.stage = .sessionsClosed call.environment.closeSessions := by
  unfold advanceFinish at advanced
  rw [isStage] at advanced
  cases isInstance : call.record.instanceId with
  | none =>
      rw [isInstance] at advanced
      cases advanced
  | some id =>
      rw [isInstance] at advanced
      dsimp only at advanced
      split at advanced <;> cases advanced
      · rw [‹call.environment.closeSessions = _›]
        rfl
      · rw [‹call.environment.closeSessions = _›]
        rfl

namespace Host

variable {deployment : Deployment} {host after : Host}

/-- Every session call in flight holds a lease, every closed instance belongs
to a finish that has passed its wait, and a finish whose sessions are closed
has had that answer from the session manager. -/
structure Hosted (deployment : Deployment) (host : Host) : Prop where
  served : Served deployment host.daemon
  accounted : host.sessions.Accounted
  covers : host.sessions.Covers
  held : ∀ id call, host.sessions.calls.lookup id = some call →
    call.stage.isSettled = false → ∃ lease turn,
      host.held.lookup id = some lease ∧
        host.daemon.activeLeases.lookup lease = some turn ∧
        turn.instanceId = call.instanceId
  past : ∀ instanceId,
    (host.sessions.closings.lookup instanceId).isSome = true →
      host.daemon.Past instanceId
  closed : ∀ key call instanceId, host.daemon.finishes.lookup key = some call →
    call.record.instanceId = some instanceId → call.stage.quiet = true →
      ∃ closing, host.sessions.closings.lookup instanceId = some closing ∧
        closing.stage = .settled (.ok ())

theorem Fresh.hosted (fresh : host.Fresh deployment) :
    host.Hosted deployment := by
  obtain ⟨maxOutputBytes, isEmpty⟩ := fresh.sessions
  refine ⟨fresh.served, ?_, ?_, ?_, ?_, ?_⟩
  · rw [isEmpty]
    exact .empty maxOutputBytes
  · intro instanceId call found
    rw [isEmpty] at found
    simp [SessionWorld.empty] at found
  · intro id call found
    rw [isEmpty] at found
    simp [SessionWorld.empty] at found
  · intro instanceId found
    rw [isEmpty] at found
    simp [SessionWorld.empty] at found
  · intro key call _ found
    rw [fresh.finishes] at found
    simp at found

namespace Hosted

theorem apart (hosted : host.Hosted deployment) : host.sessions.Apart := by
  intro instanceId closing found id call isCall unsettled
  obtain ⟨lease, turn, _, active, isInstance⟩ :=
    hosted.held id call isCall unsettled
  rw [← isInstance]
  exact (hosted.past instanceId (by rw [found]; rfl)).unleased hosted.served
    active

/-- The daemon moves on and the sessions stay as they are. -/
theorem daemon (hosted : host.Hosted deployment) {daemon : World}
    {event : Event} (calling : event.calling = true)
    (taken : host.daemon.step deployment event = some daemon)
    (leases : ∀ id call lease turn,
      host.sessions.calls.lookup id = some call →
      call.stage.isSettled = false → host.held.lookup id = some lease →
      host.daemon.activeLeases.lookup lease = some turn →
      daemon.activeLeases.lookup lease = some turn)
    (closed : ∀ key call instanceId, daemon.finishes.lookup key = some call →
      call.record.instanceId = some instanceId → call.stage.quiet = true →
        ∃ closing, host.sessions.closings.lookup instanceId = some closing ∧
          closing.stage = .settled (.ok ())) :
    Hosted deployment { host with daemon } := by
  have serving : event.serving = true := by
    cases event <;> first | rfl | cases calling
  refine ⟨hosted.served.step serving taken, hosted.accounted, hosted.covers,
    ?_, ?_, closed⟩
  · intro id call found unsettled
    obtain ⟨lease, turn, isHeld, active, isInstance⟩ :=
      hosted.held id call found unsettled
    exact ⟨lease, turn, isHeld,
      leases id call lease turn found unsettled isHeld active, isInstance⟩
  · intro instanceId found
    have moves := World.step_moves hosted.served.provisioned
      hosted.served.orderly calling taken
    have preserved : ∀ before later, Provisioned deployment before →
        before.Orderly → before.Past instanceId →
        World.CallMove deployment before later → later.Past instanceId :=
      fun _ _ _ orderly past move => past.move orderly move
    exact moves.preserve preserved (hosted.past instanceId found)

/-- Every event of the daemon but the two that have to do with sessions. -/
theorem aside (hosted : host.Hosted deployment) {event : Event}
    (calling : event.calling = true)
    (notReleased : ∀ id, event ≠ .release id)
    (notResumed : ∀ key, event ≠ .resumeFinish key)
    (taken : host.daemonStep deployment event = some after) :
    after.Hosted deployment := by
  obtain ⟨daemon, moved, rfl⟩ := Option.map_eq_some_iff.mp taken
  have aside := World.step_aside hosted.served.provisioned
    hosted.served.orderly hosted.served.leased calling notReleased notResumed
    moved
  apply hosted.daemon calling moved
  · intro _ _ lease turn _ _ _ active
    exact aside.leases lease turn active
  · intro key call instanceId found isInstance isQuiet
    rcases aside.finishes key call found with early | ⟨before, isBefore,
      sameStage, sameRecord⟩
    · rw [FinishStage.not_quiet early] at isQuiet
      cases isQuiet
    · exact hosted.closed key before instanceId isBefore
        (sameRecord ▸ isInstance) (sameStage ▸ isQuiet)

/-- A lease that no call in flight holds is released. -/
theorem release (hosted : host.Hosted deployment) {lease : LeaseId}
    (unused : host.inUse lease = false)
    (taken : host.daemonStep deployment (.release lease) = some after) :
    after.Hosted deployment := by
  obtain ⟨daemon, moved, rfl⟩ := Option.map_eq_some_iff.mp taken
  have released : host.daemon.release lease = some daemon := by
    cases World.stepped moved with
    | release released => exact released
  obtain ⟨leases, finishes⟩ := World.release_aside released
  apply hosted.daemon rfl moved
  · intro id call held turn found unsettled isHeld active
    refine leases held turn ?_ active
    rintro rfl
    simp only [inUse, decide_eq_false_iff_not, not_not] at unused
    have member : (id, call) ∈ host.sessions.calls.select fun id call =>
        decide (host.held.lookup id = some held) && !call.stage.isSettled := by
      rw [AList.mem_select]
      exact ⟨found, by simp [isHeld, unsettled]⟩
    rw [unused] at member
    cases member
  · intro key call instanceId found isInstance isQuiet
    rcases finishes key call found with early | ⟨before, isBefore,
      sameStage, sameRecord⟩
    · rw [FinishStage.not_quiet early] at isQuiet
      cases isQuiet
    · exact hosted.closed key before instanceId isBefore
        (sameRecord ▸ isInstance) (sameStage ▸ isQuiet)

/-- A finish goes on, not through the answer of `closeInstance`, or through
the answer that the session manager has given. -/
theorem finish (hosted : host.Hosted deployment) {key : TurnKey}
    (answered : ∀ call instanceId,
      host.daemon.finishes.lookup key = some call →
      call.stage = .closingSessions →
      call.record.instanceId = some instanceId →
      call.environment.closeSessions = .ok () →
      ∃ closing, host.sessions.closings.lookup instanceId = some closing ∧
        closing.stage = .settled (.ok ()))
    (taken : host.daemonStep deployment (.resumeFinish key) = some after) :
    after.Hosted deployment := by
  obtain ⟨daemon, moved, rfl⟩ := Option.map_eq_some_iff.mp taken
  cases World.stepped moved with
  | resumeFinish resumed =>
  unfold World.resumeFinish at resumed
  split at resumed
  case h_1 => cases resumed
  case h_2 call found =>
  obtain ⟨segment, advanced, rfl⟩ := Option.map_eq_some_iff.mp resumed
  apply hosted.daemon rfl moved
  · intro _ _ lease turn _ _ _ active
    exact active
  · intro other later instanceId isLater isInstance isQuiet
    rw [AList.lookup_insert_if] at isLater
    split at isLater
    case isFalse =>
      exact hosted.closed other later instanceId isLater isInstance isQuiet
    case isTrue =>
      cases isLater
      rcases (advanceFinish_step advanced).quiet isQuiet with
        isStage | wasQuiet
      · refine answered call instanceId found isStage isInstance ?_
        have sameStage := advanceFinish_closingSessions isStage advanced
        dsimp only at isQuiet
        rw [sameStage] at isQuiet
        cases isResult : call.environment.closeSessions with
        | ok => rfl
        | error =>
            rw [isResult] at isQuiet
            cases isQuiet
      · exact hosted.closed key call instanceId found isInstance wasQuiet

/-- What a session call writes to its instance it writes under its lease. -/
theorem applyMark_served (hosted : host.Hosted deployment)
    {event : SessionEvent} {sessions : SessionWorld}
    {mark : Option InstanceMark}
    (taken : host.sessions.step host.moment event = some (sessions, mark)) :
    Served deployment (applyMark host.daemon mark) := by
  cases mark with
  | none => exact hosted.served
  | some mark =>
      obtain ⟨id, call, found, unsettled, isInstance⟩ :=
        (SessionWorld.stepped taken).marks
      obtain ⟨lease, turn, _, active, sameInstance⟩ :=
        hosted.held id call found unsettled
      have marked : host.daemon.markInstance lease mark.running =
          some (applyMark host.daemon (some mark)) := by
        unfold World.markInstance applyMark
        rw [active]
        dsimp only
        rw [sameInstance, ← isInstance]
      have moved : host.daemon.step deployment
          (.markInstance lease mark.running) =
            some (applyMark host.daemon (some mark)) := by
        simp only [World.step, World.respond, marked, Option.map_some]
      exact hosted.served.step rfl moved

theorem applyMark_finishes (daemon : World) (mark : Option InstanceMark) :
    (applyMark daemon mark).finishes = daemon.finishes := by
  cases mark <;> rfl

theorem applyMark_activeLeases (daemon : World)
    (mark : Option InstanceMark) :
    (applyMark daemon mark).activeLeases = daemon.activeLeases := by
  cases mark <;> rfl

/-- A session call goes on, or one begins under a lease. -/
theorem session (hosted : host.Hosted deployment) {event : SessionEvent}
    (confirmed : host.sessions.Confirmed event)
    (notClosing : ∀ instanceId, event ≠ .closeInstance instanceId)
    {held : Table CallId LeaseId}
    (begun : ∀ id instanceId request,
      event = .begin id instanceId request → ∃ lease turn,
        held.lookup id = some lease ∧
          host.daemon.activeLeases.lookup lease = some turn ∧
          turn.instanceId = instanceId)
    (kept : ∀ id call, host.sessions.calls.lookup id = some call →
      held.lookup id = host.held.lookup id)
    (taken : host.sessionStep event = some after) :
    Hosted deployment { after with held } := by
  obtain ⟨⟨sessions, mark⟩, moved, rfl⟩ := Option.map_eq_some_iff.mp taken
  have stepped := SessionWorld.stepped moved
  refine ⟨hosted.applyMark_served moved,
    hosted.accounted.step confirmed moved,
    hosted.covers.step hosted.accounted hosted.apart confirmed moved,
    ?_, ?_, ?_⟩
  · intro id call found unsettled
    dsimp only at found ⊢
    rw [applyMark_activeLeases]
    rcases stepped.calls found with ⟨before, isBefore, sameInstance, still⟩ |
      isBegin
    · obtain ⟨lease, turn, isHeld, active, isInstance⟩ :=
        hosted.held id before isBefore (still unsettled)
      exact ⟨lease, turn, (kept id before isBefore).trans isHeld, active,
        isInstance.trans sameInstance.symm⟩
    · exact begun id call.instanceId call.request isBegin
  · intro instanceId found
    rcases (stepped.closings instanceId).1 found with before | isClosing
    · obtain ⟨key, call, isCall, past⟩ := hosted.past instanceId before
      refine ⟨key, call, ?_, past⟩
      rw [applyMark_finishes]
      exact isCall
    · exact (notClosing instanceId isClosing).elim
  · intro key call instanceId found isInstance isQuiet
    dsimp only at found
    rw [applyMark_finishes] at found
    obtain ⟨closing, isClosing, isSettled⟩ :=
      hosted.closed key call instanceId found isInstance isQuiet
    refine ⟨closing, (stepped.closings instanceId).2 closing isClosing ?_,
      isSettled⟩
    rw [isSettled]
    rfl

/-- The finish that has been woken closes the sessions of its instance. -/
theorem closeInstance (hosted : host.Hosted deployment)
    {instanceId : InstanceId} (past : host.daemon.Past instanceId)
    {sessions : SessionWorld}
    (taken : host.sessions.closeInstance instanceId = some sessions) :
    Hosted deployment { host with sessions } := by
  have moved : host.sessions.step host.moment (.closeInstance instanceId) =
      some (sessions, none) := by
    simp only [SessionWorld.step, taken, Option.map_some]
  have stepped := SessionWorld.stepped moved
  have confirmed : host.sessions.Confirmed (.closeInstance instanceId) :=
    trivial
  refine ⟨hosted.served, hosted.accounted.step confirmed moved,
    hosted.covers.step hosted.accounted hosted.apart confirmed moved,
    ?_, ?_, ?_⟩
  · intro id call found unsettled
    rcases stepped.calls found with ⟨before, isBefore, sameInstance, still⟩ |
      isBegin
    · obtain ⟨lease, turn, isHeld, active, isInstance⟩ :=
        hosted.held id before isBefore (still unsettled)
      exact ⟨lease, turn, isHeld, active,
        isInstance.trans sameInstance.symm⟩
    · cases isBegin
  · intro other found
    rcases (stepped.closings other).1 found with before | isClosing
    · exact hosted.past other before
    · cases isClosing
      exact past
  · intro key call other found isInstance isQuiet
    obtain ⟨closing, isClosing, isSettled⟩ :=
      hosted.closed key call other found isInstance isQuiet
    refine ⟨closing, (stepped.closings other).2 closing isClosing ?_,
      isSettled⟩
    rw [isSettled]
    rfl

end Hosted

/-- No event of the session manager swallows the failure to kill an execution
that may still run. -/
def Confirmed (host : Host) : HostEvent → Prop
  | .session event => host.sessions.Confirmed event
  | _ => True

/-- A finish that goes on has passed its wait. -/
theorem past_of_resumed {key : TurnKey} {call : FinishCall}
    {instanceId : InstanceId}
    (found : host.daemon.finishes.lookup key = some call)
    (isInstance : call.record.instanceId = some instanceId)
    (taken : host.daemonStep deployment (.resumeFinish key) = some after) :
    after.daemon.Past instanceId := by
  obtain ⟨daemon, moved, rfl⟩ := Option.map_eq_some_iff.mp taken
  cases World.stepped moved with
  | resumeFinish resumed =>
  unfold World.resumeFinish at resumed
  rw [found] at resumed
  obtain ⟨segment, advanced, rfl⟩ := Option.map_eq_some_iff.mp resumed
  exact ⟨key, _, AList.lookup_insert _, isInstance,
    (World.Leased.not_waiting (advanceFinish_step advanced)).2⟩

theorem resumeFinish_hosted (hosted : host.Hosted deployment) {key : TurnKey}
    (taken : host.resumeFinish deployment key = some after) :
    after.Hosted deployment := by
  unfold resumeFinish at taken
  obtain ⟨call, found, ran⟩ := Option.bind_eq_some_iff.mp taken
  clear taken
  have elsewhere : call.stage ≠ .closingSessions ∨
      call.record.instanceId = none → ∀ other instanceId,
      host.daemon.finishes.lookup key = some other →
      other.stage = .closingSessions →
      other.record.instanceId = some instanceId →
      other.environment.closeSessions = .ok () →
      ∃ closing, host.sessions.closings.lookup instanceId = some closing ∧
        closing.stage = .settled (.ok ()) := by
    intro away other instanceId isOther isStage isInstance
    cases found.symm.trans isOther
    rcases away with notClosing | unbound
    · exact (notClosing isStage).elim
    · rw [unbound] at isInstance
      cases isInstance
  split at ran
  case h_1 instanceId isStage isInstance =>
    obtain ⟨next, moved, ran⟩ := Option.bind_eq_some_iff.mp ran
    obtain ⟨sessions, closes, ran⟩ := Option.bind_eq_some_iff.mp ran
    cases ran
    have nextHosted : next.Hosted deployment :=
      hosted.finish (elsewhere (.inl (by simp [isStage]))) moved
    exact nextHosted.closeInstance (past_of_resumed found isInstance moved)
      closes
  case h_2 instanceId isStage isInstance =>
    obtain ⟨closing, isClosing, ran⟩ := Option.bind_eq_some_iff.mp ran
    split at ran
    case h_2 => cases ran
    case h_1 result isSettled =>
    split at ran
    case isFalse => cases ran
    case isTrue same =>
      refine hosted.finish ?_ ran
      intro other owned isOther _ isOwned isOk
      cases found.symm.trans isOther
      cases isInstance.symm.trans isOwned
      exact ⟨closing, isClosing, by rw [isSettled, same, isOk]⟩
  case h_3 notDrained notClosing =>
    refine hosted.finish (elsewhere ?_) ran
    by_cases isStage : call.stage = .closingSessions
    · refine .inr ?_
      cases isInstance : call.record.instanceId with
      | none => rfl
      | some instanceId => exact (notClosing instanceId isStage isInstance).elim
    · exact .inl isStage

theorem call_absent {id : CallId} {instanceId : InstanceId}
    {request : SessionRequest}
    (taken : host.sessionStep (.begin id instanceId request) = some after) :
    host.sessions.calls.lookup id = none := by
  obtain ⟨_, moved, _⟩ := Option.map_eq_some_iff.mp taken
  obtain ⟨_, begun, _⟩ := Option.map_eq_some_iff.mp moved
  unfold SessionWorld.begin at begun
  split at begun
  · cases begun
  · assumption

/-- The step lemma of a process. -/
theorem Hosted.step (hosted : host.Hosted deployment) {event : HostEvent}
    (confirmed : host.Confirmed event)
    (taken : host.step deployment event = some after) :
    after.Hosted deployment := by
  unfold Host.step at taken
  split at taken
  case h_1 key => exact resumeFinish_hosted hosted taken
  case h_2 lease =>
    split at taken
    case isTrue => cases taken
    case isFalse unused =>
      exact hosted.release (by simpa using unused) taken
  case h_3 => cases taken
  case h_4 event notResumed notReleased notMarked =>
    split at taken
    case isFalse => cases taken
    case isTrue calling =>
      exact hosted.aside calling notReleased notResumed taken
  case h_5 lease id request =>
    obtain ⟨turn, active, ran⟩ := Option.bind_eq_some_iff.mp taken
    obtain ⟨next, moved, ran⟩ := Option.bind_eq_some_iff.mp ran
    cases ran
    have absent := call_absent moved
    have begins : host.sessions.Confirmed
        (.begin id turn.instanceId request) := trivial
    refine hosted.session begins (by rintro _ ⟨⟩) ?_ ?_ moved
    · rintro _ _ _ ⟨⟩
      exact ⟨lease, turn, AList.lookup_insert _, active, rfl⟩
    · intro other call found
      refine AList.lookup_insert_ne ?_
      rintro rfl
      cases found.symm.trans absent
  case h_6 event =>
    split at taken
    case isFalse => cases taken
    case isTrue continuing =>
      have kept := hosted.session confirmed
        (by rintro _ rfl; cases continuing)
        (by rintro _ _ _ rfl; cases continuing) (fun _ _ _ => rfl) taken
      obtain ⟨_, _, rfl⟩ := Option.map_eq_some_iff.mp taken
      exact kept
  case h_7 =>
    cases taken
    exact ⟨hosted.served, hosted.accounted, hosted.covers, hosted.held,
      hosted.past, hosted.closed⟩

/-- The hosts that a process reaches by steps that meet the condition. -/
inductive Reaches (deployment : Deployment) : Host → Prop where
  | fresh {host : Host} : host.Fresh deployment → Reaches deployment host
  | step {host after : Host} {event : HostEvent} :
      Reaches deployment host → host.Confirmed event →
      host.step deployment event = some after → Reaches deployment after

/-- The run lemma. -/
theorem Reaches.hosted (reaches : Reaches deployment host) :
    host.Hosted deployment := by
  induction reaches with
  | fresh isFresh => exact isFresh.hosted
  | step _ confirmed taken induction => exact induction.step confirmed taken

/-- Whether the event reports no failed kill. -/
def killsConfirmed : HostEvent → Bool
  | .session (.killAnswered _ (.error _))
  | .session (.reaperKillAnswered _ (.error _)) => false
  | _ => true

theorem confirmed_of_killsConfirmed {event : HostEvent}
    (kills : killsConfirmed event = true) : host.Confirmed event := by
  unfold killsConfirmed at kills
  split at kills
  case h_1 | h_2 => cases kills
  case h_3 notKill notReaper =>
    cases event with
    | session event =>
        unfold Confirmed SessionWorld.Confirmed
        dsimp only
        split
        · exact (notKill _ _ rfl).elim
        · exact (notReaper _ _ rfl).elim
        · trivial
    | daemon | call | tick => trivial

theorem Reaches.of_run (reaches : Reaches deployment host)
    {events : List HostEvent}
    (kills : ∀ event ∈ events, killsConfirmed event = true)
    (replay : run (Host.step deployment) host events = some after) :
    Reaches deployment after := by
  induction events generalizing host with
  | nil =>
      cases replay
      exact reaches
  | cons event events induction =>
      obtain ⟨next, taken, rest⟩ := Option.bind_eq_some_iff.mp replay
      obtain ⟨first, later⟩ := List.forall_mem_cons.mp kills
      exact induction
        (reaches.step (confirmed_of_killsConfirmed first) taken) later rest

/-- The backend has reported the end of every execution of the instance, or
has confirmed a kill. -/
def AllEnded (host : Host) (instanceId : InstanceId) : Prop :=
  ∀ execution record,
    host.sessions.executions.lookup execution = some record →
      record.instanceId = instanceId →
      record.reported = true ∨ record.killed = true

/-- The commit of a turn finds its runtime at rest, and a finish that does not
fails the turn. -/
structure Quiescent (deployment : Deployment) (host : Host) : Prop where
  snapshot : ∀ key call commit,
    host.daemon.finishes.lookup key = some call →
      call.stage = .snapshot commit → host.AllEnded commit.instanceId
  idle : ∀ key call commit, host.daemon.finishes.lookup key = some call →
    call.stage = .snapshot commit →
      ∀ id other, host.sessions.calls.lookup id = some other →
        other.instanceId = commit.instanceId → other.stage.isSettled = true
  otherwise : ∀ key call instanceId result,
    host.daemon.finishes.lookup key = some call →
      call.record.instanceId = some instanceId →
      call.stage = .sessionsClosed result → ¬ host.AllEnded instanceId →
      ∃ error, result = .error error ∧ ∀ after,
        host.step deployment (.daemon (.resumeFinish key)) = some after →
          ∃ later progress,
            after.daemon.finishes.lookup key = some later ∧
              later.stage = .deleting (.failing error) progress

/-- Sessions that have been closed without a failure have all ended. -/
theorem Hosted.allEnded (hosted : host.Hosted deployment) {key : TurnKey}
    {call : FinishCall} {instanceId : InstanceId}
    (found : host.daemon.finishes.lookup key = some call)
    (isInstance : call.record.instanceId = some instanceId)
    (isQuiet : call.stage.quiet = true) : host.AllEnded instanceId := by
  obtain ⟨closing, isClosing, isSettled⟩ :=
    hosted.closed key call instanceId found isInstance isQuiet
  have covered := hosted.covers instanceId closing isClosing
  intro execution record isRecord sameInstance
  obtain ⟨id, session, isSession, rfl⟩ :=
    hosted.accounted.owned execution record isRecord
  obtain ⟨other, isOther, owns⟩ := hosted.accounted.known id session isSession
  cases isRecord.symm.trans isOther
  rcases covered.sessions (covered.closed isSettled) id session isSession
    (owns.symm.trans sameInstance) with ⟨ended, isEnded, answered⟩ | member
  · cases isRecord.symm.trans isEnded
    exact answered
  · rw [isSettled] at member
    cases member

theorem Hosted.commit_instance (hosted : host.Hosted deployment)
    {key : TurnKey} {call : FinishCall} {commit : CommitInput}
    (found : host.daemon.finishes.lookup key = some call)
    (isStage : call.stage = .snapshot commit) :
    call.record.instanceId = some commit.instanceId := by
  obtain ⟨_, fits⟩ := (hosted.served.orderly.phased key).finishes call found
  exact (fits.commit commit (by rw [isStage]; rfl)).runtime

/-- A finish whose sessions could not be closed goes on to fail its turn. -/
theorem failing_of_sessionsClosed {key : TurnKey} {call : FinishCall}
    {instanceId : InstanceId} {error : Thrown}
    (found : host.daemon.finishes.lookup key = some call)
    (isInstance : call.record.instanceId = some instanceId)
    (isStage : call.stage = .sessionsClosed (.error error))
    (taken : host.step deployment (.daemon (.resumeFinish key)) =
      some after) :
    ∃ later progress, after.daemon.finishes.lookup key = some later ∧
      later.stage = .deleting (.failing error) progress := by
  have ran : host.resumeFinish deployment key = some after := taken
  unfold resumeFinish at ran
  obtain ⟨other, isOther, ran⟩ := Option.bind_eq_some_iff.mp ran
  cases found.symm.trans isOther
  rw [isStage] at ran
  obtain ⟨daemon, moved, rfl⟩ := Option.map_eq_some_iff.mp ran
  cases World.stepped moved with
  | resumeFinish resumed =>
  unfold World.resumeFinish at resumed
  rw [found] at resumed
  obtain ⟨segment, advanced, rfl⟩ := Option.map_eq_some_iff.mp resumed
  unfold advanceFinish at advanced
  rw [isStage] at advanced
  dsimp only at advanced
  cases advanced
  refine ⟨_, (Deletion.start host.daemon.db instanceId).2,
    AList.lookup_insert _, ?_⟩
  unfold FinishSegment.plain failTurn deleteFor
  rw [isInstance]

/-- If no failure to kill an execution is swallowed, nothing runs while a turn
is committed. -/
theorem commit_finds_rest (reaches : Reaches deployment host) :
    host.Quiescent deployment := by
  have hosted := reaches.hosted
  constructor
  · intro key call commit found isStage
    exact hosted.allEnded found (hosted.commit_instance found isStage)
      (by rw [isStage]; rfl)
  · intro key call commit found isStage id other isOther isInstance
    obtain ⟨closing, isClosing, _⟩ := hosted.closed key call commit.instanceId
      found (hosted.commit_instance found isStage) (by rw [isStage]; rfl)
    cases unsettled : other.stage.isSettled with
    | true => rfl
    | false =>
        exact (hosted.apart commit.instanceId closing isClosing id other
          isOther unsettled isInstance).elim
  · intro key call instanceId result found isInstance isStage notEnded
    cases result with
    | ok =>
        exact (notEnded (hosted.allEnded found isInstance
          (by rw [isStage]; rfl))).elim
    | error error =>
        exact ⟨error, rfl, fun after taken =>
          failing_of_sessionsClosed found isInstance isStage taken⟩

end Host

/-! ## Runs -/

private def hostedKey : TurnKey := ⟨"thread", "turn"⟩

private def bootedHost (daemon : World) : Host :=
  { daemon, sessions := .empty 1048576, held := ∅, clock := 0 }

/-- A durable turn is opened and runs a command, whose poll fails; then the
kill is answered, the lease released, and a finish comes to its snapshot. -/
private def abandonedCommand : List HostEvent :=
  [.daemon (.start
    { threadId := "thread", turnId := "turn", mode := .durable } {})] ++
  List.replicate 6 (.daemon (.resumeStart hostedKey)) ++
  [.daemon (.acquire hostedKey),
    .call 2 0 (.exec "sleep 600" none false 10000 0 none),
    .session (.execAnswered 0 (.ok ())),
    .session (.pollAnswered 0 (.error (.plain "poll"))),
    .session (.killAnswered 0 (.ok ())),
    .daemon (.release 2),
    .daemon (.finish hostedKey { capture := .error (.plain "unused") })] ++
  List.replicate 3 (.daemon (.resumeFinish hostedKey))

private theorem bootedHost_fresh {daemon : World}
    (booted : World.empty.boot Deployment.transparent (fun _ => .ok ()) =
      some daemon) : (bootedHost daemon).Fresh Deployment.transparent := by
  refine ⟨.start ⟨_, booted⟩, ?_, ⟨_, rfl⟩⟩
  obtain ⟨_, _, _, _, rfl⟩ := World.boot_eq booted
  rfl

private def takesSnapshot (host : Host) : Bool :=
  match host.daemon.finishes.lookup hostedKey with
  | some { stage := .snapshot _, .. } =>
      !host.sessions.executions.entries.isEmpty
  | _ => false

theorem commit_finds_rest_sample :
    ∃ host commit, Host.Reaches Deployment.transparent host ∧
      (host.daemon.finishes.lookup hostedKey).map FinishCall.stage =
        some (.snapshot commit) ∧
      host.sessions.executions.entries ≠ [] ∧
      host.Quiescent Deployment.transparent := by
  have replay : (World.empty.boot Deployment.transparent
      (fun _ => .ok ())).any (fun daemon =>
        (run (Host.step Deployment.transparent) (bootedHost daemon)
          abandonedCommand).any takesSnapshot) = true := by
    decide +kernel
  obtain ⟨daemon, isBooted, replay⟩ := (Option.any_eq_true _ _).mp replay
  obtain ⟨host, isHost, checked⟩ := (Option.any_eq_true _ _).mp replay
  have reaches : Host.Reaches Deployment.transparent host :=
    Host.Reaches.of_run (.fresh (bootedHost_fresh isBooted)) (by decide) isHost
  unfold takesSnapshot at checked
  split at checked
  case h_1 commit _ found =>
    refine ⟨host, commit, reaches, ?_, ?_, Host.commit_finds_rest reaches⟩
    · rw [found]
      rfl
    · simpa using checked
  case h_2 => cases checked

private def answered (state : ExecutionState) : Except Thrown ExecutionResult :=
  .ok { state, output := [], startedAt := 0 }

/-- A durable turn is opened and runs a command, which is left running until
its session expires, when the kill fails.  Another command comes and goes, and
a finish comes to its snapshot. -/
private def expiredCommand : List HostEvent :=
  [.daemon (.start
    { threadId := "thread", turnId := "turn", mode := .durable } {})] ++
  List.replicate 6 (.daemon (.resumeStart hostedKey)) ++
  [.daemon (.acquire hostedKey),
    .call 2 0 (.exec "sleep 3600" none false 1000 7200000 none),
    .session (.execAnswered 0 (.ok ())),
    .session (.pollAnswered 0 (answered .running)),
    .daemon (.release 2),
    .tick SessionManager.ttlMs,
    .session (.reapExpired 0),
    .session (.reaperKillAnswered 0 (.error (.plain "kill"))),
    .daemon (.acquire hostedKey),
    .call 3 1 (.exec "ls" none false 1000 60000 none),
    .session (.execAnswered 1 (.ok ())),
    .session (.pollAnswered 1 (answered .completed)),
    .daemon (.release 3),
    .daemon (.finish hostedKey { capture := .error (.plain "unused") })] ++
  List.replicate 3 (.daemon (.resumeFinish hostedKey))

private def missesCommand (host : Host) : Bool :=
  match host.daemon.finishes.lookup hostedKey with
  | some { stage := .snapshot commit, .. } =>
      host.sessions.executions.entries.any fun entry =>
        decide (entry.2.instanceId = commit.instanceId) &&
          !entry.2.reported && !entry.2.killed
  | _ => false

/-- The manager gives up an expired session whose kill has failed, and the
snapshot is taken while the command may still run. -/
theorem snapshot_while_running :
    ∃ host, Reachable (Host.step Deployment.transparent)
        (Host.Fresh Deployment.transparent) (fun _ => True) host ∧
      ¬ host.Quiescent Deployment.transparent := by
  have replay : (World.empty.boot Deployment.transparent
      (fun _ => .ok ())).any (fun daemon =>
        (run (Host.step Deployment.transparent) (bootedHost daemon)
          expiredCommand).any missesCommand) = true := by
    decide +kernel
  obtain ⟨daemon, isBooted, replay⟩ := (Option.any_eq_true _ _).mp replay
  obtain ⟨host, isHost, checked⟩ := (Option.any_eq_true _ _).mp replay
  refine ⟨host, Reachable.of_run (.start (bootedHost_fresh isBooted))
    (fun _ _ => trivial) isHost, fun quiescent => ?_⟩
  unfold missesCommand at checked
  split at checked
  case h_1 commit _ found =>
    obtain ⟨⟨execution, record⟩, member, running⟩ :=
      List.any_eq_true.mp checked
    simp only [Bool.and_eq_true, decide_eq_true_eq, Bool.not_eq_true']
      at running
    obtain ⟨⟨isInstance, notReported⟩, notKilled⟩ := running
    rcases quiescent.snapshot hostedKey _ commit found rfl execution record
      (AList.mem_lookup_iff.mpr member) isInstance with reported | killed
    · rw [notReported] at reported
      cases reported
    · rw [notKilled] at killed
      cases killed
  case h_2 => cases checked

end Electrosphere
