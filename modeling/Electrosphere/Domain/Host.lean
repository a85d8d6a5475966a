import Electrosphere.Domain.Ownership
import Electrosphere.Domain.LeaseExclusion
import Electrosphere.Domain.SessionAccounts

/-!
# The daemon and its session manager

One process: the turn service and the session manager on one database.  A
session call runs under a lease and holds it until it settles, `getTurnHandle`
and `setInstanceState` read and write the row of the instance, and a finish
goes on with what `closeInstance` answers.
-/

namespace Electrosphere

open Foundation

/-- `getTurnHandle`. -/
def getTurnHandle (db : Database) (id : InstanceId) : Except Thrown Unit :=
  match db.getInstance id with
  | none => .error (.coded .notFound "Turn runtime is unavailable")
  | some row =>
      match row.backendHandle, row.state with
      | none, _ => .error (.coded .notFound "Turn runtime is unavailable")
      | some _, .ready | some _, .running => .ok ()
      | some _, state =>
          .error (.coded .instanceBusy ("Turn runtime is " ++ state.name))

structure Host where
  daemon : World
  sessions : SessionWorld
  /-- The lease of each session call. -/
  held : Table CallId LeaseId
  clock : Nat

inductive HostEvent where
  | daemon (event : Event)
  /-- A session call of the request that holds a lease. -/
  | call (lease : LeaseId) (id : CallId) (request : SessionRequest)
  | session (event : SessionEvent)
  | tick (elapsed : Nat)

namespace Host

def moment (host : Host) : Moment :=
  { now := host.clock, getTurnHandle := getTurnHandle host.daemon.db }

/-- `setInstanceState`. -/
def applyMark (daemon : World) : Option InstanceMark → World
  | none => daemon
  | some mark =>
      { daemon with
        db := daemon.db.updateInstance mark.instanceId
          { state := some (if mark.running then .running else .ready) } }

/-- A step of the session manager. -/
def sessionStep (host : Host) (event : SessionEvent) : Option Host :=
  (host.sessions.step host.moment event).map fun (sessions, mark) =>
    { host with daemon := applyMark host.daemon mark, sessions }

/-- A session call that runs under a lease has not settled. -/
def inUse (host : Host) (lease : LeaseId) : Bool :=
  (host.sessions.calls.select fun id call =>
    decide (host.held.lookup id = some lease) && !call.stage.isSettled) ≠ []

/-- The daemon takes a step that has nothing to do with sessions. -/
def daemonStep (deployment : Deployment) (host : Host) (event : Event) :
    Option Host :=
  (host.daemon.step deployment event).map fun daemon => { host with daemon }

/-- What a finish awaits of the session manager. -/
def resumeFinish (deployment : Deployment) (host : Host) (key : TurnKey) :
    Option Host := do
  let call ← host.daemon.finishes.lookup key
  match call.stage, call.record.instanceId with
  | .drained, some instanceId =>
      let next ← host.daemonStep deployment (.resumeFinish key)
      let sessions ← next.sessions.closeInstance instanceId
      some { next with sessions }
  | .closingSessions, some instanceId =>
      let closing ← host.sessions.closings.lookup instanceId
      match closing.stage with
      | .settled result =>
          if result = call.environment.closeSessions then
            host.daemonStep deployment (.resumeFinish key)
          else none
      | _ => none
  | _, _ => host.daemonStep deployment (.resumeFinish key)

/-- The continuations of session calls, which need no lease of their own. -/
def continues : SessionEvent → Bool
  | .begin .. | .closeInstance _ => false
  | _ => true

/-- The events of one process. -/
def step (deployment : Deployment) (host : Host) : HostEvent → Option Host
  | .daemon (.resumeFinish key) => host.resumeFinish deployment key
  | .daemon (.release lease) =>
      if host.inUse lease then none
      else host.daemonStep deployment (.release lease)
  | .daemon (.markInstance _ _) => none
  | .daemon event =>
      if event.calling then host.daemonStep deployment event else none
  | .call lease id request => do
      let turn ← host.daemon.activeLeases.lookup lease
      let next ← host.sessionStep (.begin id turn.instanceId request)
      some { next with held := host.held.insert id lease }
  | .session event => if continues event then host.sessionStep event else none
  | .tick elapsed => some { host with clock := host.clock + elapsed }

/-- A process that has just booted. -/
structure Fresh (deployment : Deployment) (host : Host) : Prop where
  served : Served deployment host.daemon
  finishes : host.daemon.finishes = ∅
  sessions : ∃ maxOutputBytes, host.sessions = .empty maxOutputBytes

end Host

/-! ## Events that leave sessions alone -/

def FinishStage.early : FinishStage → Bool
  | .waiting | .drained => true
  | _ => false

namespace World

variable {deployment : Deployment} {world middle after : World}

/-- No lease is released and no finish goes on beyond its wait. -/
structure Aside (world after : World) : Prop where
  leases : ∀ id turn, world.activeLeases.lookup id = some turn →
    after.activeLeases.lookup id = some turn
  finishes : ∀ key call, after.finishes.lookup key = some call →
    call.stage.early = true ∨
      ∃ before, world.finishes.lookup key = some before ∧
        before.stage = call.stage ∧ before.record = call.record

namespace Aside

theorem of_same (leases : after.activeLeases = world.activeLeases)
    (finishes : after.finishes = world.finishes) : world.Aside after := by
  constructor
  · rw [leases]
    exact fun _ _ active => active
  · rw [finishes]
    exact fun _ call found => .inr ⟨call, found, rfl, rfl⟩

theorem trans (left : world.Aside middle) (right : middle.Aside after) :
    world.Aside after := by
  constructor
  · intro id turn active
    exact right.leases id turn (left.leases id turn active)
  · intro key call found
    rcases right.finishes key call found with early | ⟨between, isBetween,
      sameStage, sameRecord⟩
    · exact .inl early
    · rcases left.finishes key between isBetween with early | ⟨before,
        isBefore, firstStage, firstRecord⟩
      · exact .inl (sameStage ▸ early)
      · exact .inr ⟨before, isBefore, firstStage.trans sameStage,
          firstRecord.trans sameRecord⟩

/-- What comes before changes neither leases nor finishes. -/
theorem preceded (right : middle.Aside after)
    (leases : middle.activeLeases = world.activeLeases)
    (finishes : middle.finishes = world.finishes) : world.Aside after :=
  trans (of_same leases finishes) right

/-- One finish has been replaced. -/
theorem insert {key : TurnKey} {call : FinishCall}
    (leases : after.activeLeases = world.activeLeases)
    (finishes : after.finishes = world.finishes.insert key call)
    (own : call.stage.early = true ∨
      ∃ before, world.finishes.lookup key = some before ∧
        before.stage = call.stage ∧ before.record = call.record) :
    world.Aside after := by
  constructor
  · rw [leases]
    exact fun _ _ active => active
  · intro other later found
    rw [finishes, AList.lookup_insert_if] at found
    split at found
    case isTrue same =>
      cases found
      exact same ▸ own
    case isFalse => exact .inr ⟨later, found, rfl, rfl⟩

theorem start (input : StartTurnInput) (environment : StartEnvironment) :
    world.Aside (world.start input environment).1 := by
  have started := world.start_started input environment
  generalize (world.start input environment).1 = outcome at started ⊢
  cases started with
  | refused => exact .of_same rfl rfl
  | began => exact .of_same rfl rfl

theorem finish (provisioned : Provisioned deployment world)
    (phased : world.Phased) (key : TurnKey)
    (environment : FinishEnvironment) :
    world.Aside (world.finish key environment).1 := by
  have finished := finish_finished provisioned phased key environment
  generalize world.finish key environment = outcome at finished ⊢
  cases finished with
  | answered => exact .of_same rfl rfl
  | began =>
      refine .insert rfl rfl (.inl ?_)
      dsimp only
      split <;> rfl

theorem forceLoop (call : CloseCall) (failures : List Thrown)
    (turns : List (TurnKey × TurnRow)) :
    world.Aside (world.forceLoop call failures turns) := by
  induction turns generalizing world with
  | nil => exact .of_same rfl rfl
  | cons turn turns induction =>
      unfold World.forceLoop
      split
      · exact .of_same rfl rfl
      split
      · exact preceded induction rfl rfl
      · exact .of_same rfl rfl

theorem closeOpen (provisioned : Provisioned deployment world)
    (phased : world.Phased) (call : CloseCall) (failures : List Thrown)
    (keys : List TurnKey) :
    world.Aside (world.closeOpen call failures keys) := by
  unfold World.closeOpen
  split
  case h_1 =>
    split
    · exact forceLoop call failures _
    · exact .of_same rfl rfl
  case h_2 key rest =>
    have finishes := finish provisioned phased key
      (call.environment.finish key)
    split <;> rename_i same <;> rw [same] at finishes <;>
      exact finishes.trans (.of_same rfl rfl)

theorem closeService (provisioned : Provisioned deployment world)
    (phased : world.Phased) (environment : CloseEnvironment) :
    world.Aside (world.closeService environment) := by
  unfold World.closeService
  split
  · exact .of_same rfl rfl
  dsimp only
  split
  · have ready : Provisioned deployment { world with closing := true } :=
      provisioned.sameFinishes rfl rfl rfl
    exact preceded (closeOpen ready phased _ _ _) rfl rfl
  · exact .of_same rfl rfl

theorem resumeClose (provisioned : Provisioned deployment world)
    (phased : world.Phased) (resumed : world.resumeClose = some after) :
    world.Aside after := by
  unfold World.resumeClose at resumed
  split at resumed
  case h_1 => cases resumed
  case h_2 call isClose =>
  split at resumed
  case h_1 =>
    split at resumed <;> cases resumed
    exact closeOpen provisioned phased _ _ _
  case h_2 =>
    split at resumed <;> cases resumed
    exact closeOpen provisioned phased _ _ _
  case h_3 =>
    split at resumed <;> cases resumed
    exact forceLoop _ _ _
  case h_4 =>
    dsimp only at resumed
    split at resumed <;> cases resumed
    · exact preceded (forceLoop _ _ _) rfl rfl
    · exact .of_same rfl rfl
  case h_5 =>
    obtain ⟨_, _, rfl⟩ := Option.map_eq_some_iff.mp resumed
    exact .of_same rfl rfl
  case h_6 => cases resumed

end Aside

/-- Every other event of a process. -/
theorem step_aside (provisioned : Provisioned deployment world)
    (orderly : world.Orderly) (leased : world.Leased) {event : Event}
    (calling : event.calling = true)
    (notReleased : ∀ id, event ≠ .release id)
    (notResumed : ∀ key, event ≠ .resumeFinish key)
    (taken : world.step deployment event = some after) :
    world.Aside after := by
  cases World.stepped taken with
  | start input environment => exact .start input environment
  | resumeStart resumed =>
      unfold World.resumeStart at resumed
      split at resumed
      · cases resumed
      · obtain ⟨_, _, rfl⟩ := Option.map_eq_some_iff.mp resumed
        exact .of_same rfl rfl
  | forgetStart forgotten =>
      unfold World.forgetStart at forgotten
      split at forgotten
      · cases forgotten
      · split at forgotten <;> cases forgotten
        exact .of_same rfl rfl
  | acquire key =>
      unfold World.acquire
      split
      · exact .of_same rfl rfl
      split
      · exact .of_same rfl rfl
      split
      · exact .of_same rfl rfl
      · constructor
        · intro id turn active
          refine (AList.lookup_insert_ne ?_).trans active
          rintro rfl
          rw [(leased.fresh _ le_rfl).1] at active
          cases active
        · exact fun _ call found => .inr ⟨call, found, rfl, rfl⟩
  | release => exact (notReleased _ rfl).elim
  | markInstance marked =>
      obtain ⟨_, _, rfl⟩ := World.markInstance_eq marked
      exact .of_same rfl rfl
  | finish key environment =>
      exact .finish provisioned orderly.phased key environment
  | resumeFinish => exact (notResumed _ rfl).elim
  | forgetFinish forgotten =>
      unfold World.forgetFinish at forgotten
      split at forgotten
      case h_1 => cases forgotten
      case h_2 call found =>
        split at forgotten <;> cases forgotten
        exact .insert rfl rfl (.inr ⟨call, found, rfl, rfl⟩)
  | fork input =>
      unfold World.fork
      split
      · exact .of_same rfl rfl
      split
      · exact .of_same rfl rfl
      · exact .of_same rfl rfl
  | close environment =>
      exact .closeService provisioned orderly.phased environment
  | resumeClose resumed =>
      exact .resumeClose provisioned orderly.phased resumed
  | boot | restart | initializeService | recover | closeSandboxService =>
      cases calling

end World

end Electrosphere
