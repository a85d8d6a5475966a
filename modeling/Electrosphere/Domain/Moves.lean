import Electrosphere.Domain.Orderly

/-!
# The moves of a serving daemon

In a sound and orderly world each event is at most one move, one constructor
for each thing that can happen to a turn, next to which a close may be noted.
`Served.invariant` is the induction rule that the properties of runs are proved
by: a property of the empty world that every move preserves holds of every
served world.
-/

namespace Electrosphere

open Foundation

/-- The world once a lease has been granted. -/
def World.grant (world : World) (key : TurnKey) (turn : BoundTurn) : World :=
  { world with
    activeLeases := world.activeLeases.insert world.nextUuid turn
    leases := world.leases.insert world.nextUuid { key }
    leaseCounts := world.leaseCounts.insert key (world.leaseCount key + 1)
    nextUuid := world.nextUuid + 1 }

inductive World.CallMove (deployment : Deployment) (world : World) :
    World → Prop where
  | beginStart {input : StartTurnInput} {created : Database}
      (environment : StartEnvironment) :
      world.closing = false →
      World.validateKey input.key = .ok () →
      world.db.createTurn input.key input.startingRow = .ok created →
      CallMove deployment world (world.beginStart created input environment)
  | advanceStart {call : StartCall} {next : Database} {stage : StartStage} :
      world.starts.lookup call.input.key = some call →
      StartStep deployment world.db call next stage →
      CallMove deployment world { world with
        db := next
        starts := world.starts.insert call.input.key { call with stage } }
  | forgetStart {call : StartCall} :
      world.starts.lookup call.input.key = some call →
      call.stage.isSettled = true →
      CallMove deployment world { world with
        starts := world.starts.insert call.input.key
          { call with listed := false } }
  | grant {key : TurnKey} {turn : BoundTurn} :
      resolve world.db key = .ok turn →
      CallMove deployment world (world.grant key turn)
  | release {id : LeaseId} {after : World} :
      world.release id = some after → CallMove deployment world after
  | beginFinish {key : TurnKey} {row : TurnRow}
      (environment : FinishEnvironment) :
      world.db.turns.lookup key = some row → row.state = .opened →
      CallMove deployment world (world.beginFinish { world.db with
        turns := world.db.turns.insert key { row with state := .finishing } }
        key row environment)
  | advanceFinish {call : FinishCall} {segment : FinishSegment} :
      world.finishes.lookup call.key = some call → call.Fits →
      FinishStep deployment world.db world.objects call segment →
      FinishOutcome deployment world.db call segment →
      CallMove deployment world { world with
        db := segment.db
        objects := segment.objects
        finishes := world.finishes.insert call.key
          { call with stage := segment.stage }
        history := { world.history with
          publications := segment.publication.toList ++
            world.history.publications } }
  | forgetFinish {call : FinishCall} :
      world.finishes.lookup call.key = some call →
      call.stage.isSettled = true →
      CallMove deployment world { world with
        finishes := world.finishes.insert call.key
          { call with listed := false } }
  | fork {threadId : ThreadId} {headCommit : Digest} {forked : Database} :
      world.db.insertThreadWorkspace threadId world.nextUuid headCommit =
        .ok forked →
      CallMove deployment world { world with
        db := forked
        nextUuid := world.nextUuid + 1
        history := World.History.recordOrigin world.history world.db forked
          threadId }
  | mark {id : LeaseId} {running : Bool} {after : World} :
      world.markInstance id running = some after →
      CallMove deployment world after
  /-- A close overwrites turns that no call in flight needs. -/
  | force {next : Database} (close : Option CloseCall) :
      (∀ key, ¬ world.Opened key) → (∀ key, ¬ world.Starting key) →
      (∀ key, ¬ world.Finishing key) → world.db.MarksFailed next →
      CallMove deployment world { world with db := next, close }
  | closing (closing : Bool) (close : Option CloseCall) :
      CallMove deployment world { world with closing, close }
inductive World.Move (deployment : Deployment) (world : World) :
    World → Prop where
  | call {after : World} :
      CallMove deployment world after → Move deployment world after
  | boot {destroy : InstanceId → Except Thrown Unit} {after : World} :
      world.boot deployment destroy = some after →
      Move deployment world after

namespace World

variable {deployment : Deployment} {world after : World}

/-- At most one move between sound and orderly worlds, before and after which a
close is noted. -/
inductive Moves (deployment : Deployment) : World → World → Prop where
  | none {world : World} : Moves deployment world world
  | move {world after : World} :
      Provisioned deployment world → world.Orderly →
      CallMove deployment world after → Moves deployment world after
  | before {world after : World} (closing : Bool) (close : Option CloseCall) :
      Provisioned deployment world → world.Orderly →
      Moves deployment { world with closing, close } after →
      Moves deployment world after
  | after {world middle : World} (closing : Bool) (close : Option CloseCall) :
      Moves deployment world middle → Provisioned deployment middle →
      middle.Orderly → Moves deployment world { middle with closing, close }

theorem Moves.preserve {property : World → Prop}
    (preserved : ∀ world after, Provisioned deployment world →
      world.Orderly → property world →
      World.CallMove deployment world after → property after)
    (holds : property world) (moves : Moves deployment world after) :
    property after := by
  induction moves with
  | none => exact holds
  | move provisioned orderly move =>
      exact preserved _ _ provisioned orderly holds move
  | before closing close provisioned orderly _ induction =>
      exact induction
        (preserved _ _ provisioned orderly holds (.closing closing close))
  | after closing close _ provisioned orderly induction =>
      exact preserved _ _ provisioned orderly (induction holds)
        (.closing closing close)

theorem start_moves (provisioned : Provisioned deployment world)
    (orderly : world.Orderly) (input : StartTurnInput)
    (environment : StartEnvironment) :
    Moves deployment world (world.start input environment).1 := by
  have started := world.start_started input environment
  generalize (world.start input environment).1 = outcome at started ⊢
  cases started with
  | refused => exact .none
  | began serving valid done =>
      exact .move provisioned orderly
        (.beginStart environment serving valid done)

theorem finish_moves (provisioned : Provisioned deployment world)
    (orderly : world.Orderly) (key : TurnKey)
    (environment : FinishEnvironment) :
    Moves deployment world (world.finish key environment).1 := by
  have finished := finish_finished provisioned orderly.phased key environment
  generalize world.finish key environment = outcome at finished ⊢
  cases finished with
  | answered => exact .none
  | began found isOpened =>
      exact .move provisioned orderly (.beginFinish _ found isOpened)

theorem closeForced_moves (provisioned : Provisioned deployment world)
    (orderly : world.Orderly) (noStarts : ∀ key, ¬ world.Starting key)
    (noOpened : ∀ key, ¬ world.Opened key)
    (noFinishes : ∀ key, ¬ world.Finishing key) (call : CloseCall)
    (failures : List Thrown) :
    Moves deployment world (world.closeForced call failures) := by
  obtain ⟨db, result, marks, same⟩ :=
    orderly.closeForced_eq noFinishes call failures
  rw [same]
  exact .move provisioned orderly
    (.force _ noOpened noStarts noFinishes marks)

theorem closeOpen_moves (provisioned : Provisioned deployment world)
    (orderly : world.Orderly) (noStarts : ∀ key, ¬ world.Starting key)
    (call : CloseCall) (failures : List Thrown) {keys : List TurnKey}
    (opened : ∀ key, world.Opened key → key ∈ keys) :
    Moves deployment world (world.closeOpen call failures keys) := by
  unfold closeOpen
  split
  case h_1 =>
    split
    case h_1 none =>
      refine closeForced_moves provisioned orderly noStarts ?_ ?_ _ _
      · intro key isOpened
        exact List.not_mem_nil (opened key isOpened)
      · intro key isFinishing
        have member := orderly.mem_listedFinishes_of_finishing isFinishing
        rw [none] at member
        cases member
    case h_2 => exact .move provisioned orderly (.closing _ _)
  case h_2 key rest =>
    have moves := finish_moves provisioned orderly key
      (call.environment.finish key)
    have later := provisioned.finish key (call.environment.finish key)
    have laterOrderly := orderly.finish provisioned key
      (call.environment.finish key)
    split <;> rename_i same <;> rw [same] at moves later laterOrderly <;>
      exact .after _ _ moves later laterOrderly

theorem closeService_moves (provisioned : Provisioned deployment world)
    (orderly : world.Orderly) (environment : CloseEnvironment) :
    Moves deployment world (world.closeService environment) := by
  unfold closeService
  split
  case h_1 => exact .none
  case h_2 unclosed =>
  have closing := orderly.markClosing unclosed
  have ready : Provisioned deployment { world with closing := true } :=
    provisioned.sameFinishes rfl rfl rfl
  dsimp only
  split
  case h_1 none =>
    refine .before true world.close provisioned orderly
      (closeOpen_moves ready closing ?_ _ _ ?_)
    · intro key isStarting
      have member := orderly.mem_listedStarts_of_starting isStarting
      rw [none] at member
      cases member
    · intro key isOpened
      exact Orderly.mem_openTurns.mpr isOpened
  case h_2 =>
    exact .before true world.close provisioned orderly
      (.move ready closing (.closing _ _))

theorem resumeClose_moves (provisioned : Provisioned deployment world)
    (orderly : world.Orderly) (resumed : world.resumeClose = some after) :
    Moves deployment world after := by
  unfold resumeClose at resumed
  split at resumed
  case h_1 => cases resumed
  case h_2 call isClose =>
  obtain ⟨_, awaited⟩ := orderly.closing call isClose
  split at resumed
  case h_1 keys isStage =>
    rw [isStage] at awaited
    split at resumed
    case isFalse => cases resumed
    case isTrue settled =>
      cases resumed
      exact closeOpen_moves provisioned orderly
        (Orderly.none_starting awaited settled) _ _
        (fun key isOpened => Orderly.mem_openTurns.mpr isOpened)
  case h_2 isStage =>
    rw [isStage] at awaited
    split at resumed
    case h_1 => cases resumed
    case h_2 =>
      cases resumed
      exact closeOpen_moves provisioned orderly awaited.1 _ _ awaited.2
  case h_3 keys isStage =>
    rw [isStage] at awaited
    split at resumed
    case isFalse => cases resumed
    case isTrue settled =>
      cases resumed
      exact closeForced_moves provisioned orderly awaited.1 awaited.2.1
        (Orderly.none_finishing awaited.2.2 settled) _ _
  case h_4 isStage =>
    rw [isStage] at awaited
    exact awaited.elim
  case h_5 isStage =>
    rw [isStage] at awaited
    exact awaited.elim
  case h_6 => cases resumed

/-- Each event of a process is at most one move. -/
theorem step_moves (provisioned : Provisioned deployment world)
    (orderly : world.Orderly) {event : Event}
    (calling : event.calling = true)
    (taken : world.step deployment event = some after) :
    Moves deployment world after := by
  have one : CallMove deployment world after →
      Moves deployment world after :=
    .move provisioned orderly
  cases World.stepped taken with
  | start input environment =>
      exact start_moves provisioned orderly input environment
  | @resumeStart key _ resumed =>
      unfold World.resumeStart at resumed
      split at resumed
      case h_1 => cases resumed
      case h_2 call found =>
      obtain ⟨⟨next, stage⟩, advanced, same⟩ :=
        Option.map_eq_some_iff.mp resumed
      cases same
      have isKey : call.input.key = key :=
        ((orderly.phased key).starts call found).1
      subst isKey
      exact one (.advanceStart found (advanceStart_step advanced))
  | @forgetStart key _ forgotten =>
      unfold World.forgetStart at forgotten
      split at forgotten
      case h_1 => cases forgotten
      case h_2 call found =>
      have isKey : call.input.key = key :=
        ((orderly.phased key).starts call found).1
      subst isKey
      split at forgotten
      case isFalse => cases forgotten
      case isTrue settled =>
        cases forgotten
        exact one (.forgetStart found (Bool.and_eq_true_iff.mp settled).1)
  | acquire key =>
      unfold World.acquire at one ⊢
      split
      case isTrue => exact .none
      split
      case h_1 => exact .none
      split
      case h_1 => exact .none
      case h_2 bound =>
        exact .move provisioned orderly (.grant bound)
  | release released => exact one (.release released)
  | markInstance marked => exact one (.mark marked)
  | finish key environment =>
      exact finish_moves provisioned orderly key environment
  | @resumeFinish key _ resumed =>
      unfold World.resumeFinish at resumed
      split at resumed
      case h_1 => cases resumed
      case h_2 call found =>
      obtain ⟨segment, advanced, same⟩ := Option.map_eq_some_iff.mp resumed
      cases same
      obtain ⟨rfl, fits, _, outcome⟩ :=
        orderly.finishOutcome provisioned found advanced
      exact one (.advanceFinish found fits (advanceFinish_step advanced)
        outcome)
  | @forgetFinish key _ forgotten =>
      unfold World.forgetFinish at forgotten
      split at forgotten
      case h_1 => cases forgotten
      case h_2 call found =>
      have isKey : call.key = key :=
        ((orderly.phased key).finishes call found).1
      subst isKey
      split at forgotten
      case isFalse => cases forgotten
      case isTrue settled =>
        cases forgotten
        exact one (.forgetFinish found (Bool.and_eq_true_iff.mp settled).1)
  | fork input =>
      unfold World.fork at one ⊢
      split
      case h_1 => exact .none
      split
      case h_1 => exact .none
      case h_2 done =>
        exact .move provisioned orderly
          (.fork (Database.createThreadFork_eq_ok done).2)
  | close environment =>
      exact closeService_moves provisioned orderly environment
  | resumeClose resumed => exact resumeClose_moves provisioned orderly resumed
  | boot | restart | initializeService | recover | closeSandboxService =>
      cases calling

theorem Orderly.empty : World.empty.Orderly := by
  refine ⟨fun key => ?_, by simp [World.empty], by simp [World.empty],
    by simp [World.empty]⟩
  exact Phase.none key

end World

/-- A property that every move preserves is preserved by every event. -/
theorem World.step_preserves {deployment : Deployment}
    {property : World → Prop}
    (preserved : ∀ world after, Provisioned deployment world →
      world.Orderly → property world →
      World.Move deployment world after → property after)
    {world after : World} (provisioned : Provisioned deployment world)
    (orderly : world.Orderly) (holds : property world) {event : Event}
    (serving : event.serving = true)
    (taken : world.step deployment event = some after) : property after := by
  by_cases calling : event.calling = true
  · apply (World.step_moves provisioned orderly calling taken).preserve ?_
      holds
    intro before later provisioned orderly holds move
    exact preserved before later provisioned orderly holds (.call move)
  · cases World.stepped taken with
    | boot booted =>
        exact preserved world after provisioned orderly holds (.boot booted)
    | restart | initializeService | recover | closeSandboxService =>
        cases serving
    | _ => exact (calling rfl).elim

/-- A property of every first boot that every move preserves. -/
theorem Served.invariant_from_boot {deployment : Deployment}
    {property : World → Prop}
    (initial : ∀ world, FirstBoot deployment world → property world)
    (preserved : ∀ world after, Provisioned deployment world →
      world.Orderly → property world →
      World.Move deployment world after → property after)
    {world : World} (served : Served deployment world) : property world := by
  refine Reachable.invariant_under
    (fun state (reached : Served deployment state) =>
      And.intro reached.provisioned reached.orderly) initial ?_ served
  rintro before event after ⟨provisioned, orderly⟩ _ holds serving taken
  exact World.step_preserves preserved provisioned orderly holds serving taken

/-- A property of the empty world that every move preserves. -/
theorem Served.invariant {deployment : Deployment}
    {property : World → Prop} (initial : property World.empty)
    (preserved : ∀ world after, Provisioned deployment world →
      world.Orderly → property world →
      World.Move deployment world after → property after)
    {world : World} (served : Served deployment world) : property world := by
  refine served.invariant_from_boot ?_ preserved
  rintro first ⟨destroy, booted⟩
  exact preserved _ _ (Provisioned.empty deployment) World.Orderly.empty
    initial (.boot booted)

/-- A property that every move preserves is kept by every later run. -/
theorem Served.later {deployment : Deployment} {property : World → Prop}
    (preserved : ∀ world after, Provisioned deployment world →
      world.Orderly → property world →
      World.Move deployment world after → property after)
    {world later : World} (served : Served deployment world)
    (holds : property world) {events : List Event}
    (serving : ∀ event ∈ events, event.serving = true)
    (replay : run (World.step deployment) world events = some later) :
    Served deployment later ∧ property later := by
  induction events generalizing world with
  | nil =>
      cases replay
      exact ⟨served, holds⟩
  | cons event events induction =>
      obtain ⟨next, taken, rest⟩ := Option.bind_eq_some_iff.mp replay
      have isServing := serving event List.mem_cons_self
      exact induction (served.step isServing taken)
        (World.step_preserves preserved served.provisioned served.orderly
          holds isServing taken)
        (fun other member => serving other (List.mem_cons_of_mem _ member))
        rest

/-- A run that begins with a boot on an empty store. -/
theorem Served.of_run {deployment : Deployment}
    {destroy : InstanceId → Except Thrown Unit} {events : List Event}
    {world : World} (serving : ∀ event ∈ events, event.serving = true)
    (replay : run (World.step deployment) World.empty
      (.boot destroy :: events) = some world) :
    Served deployment world := by
  obtain ⟨first, booted, rest⟩ := Option.bind_eq_some_iff.mp replay
  cases World.stepped booted with
  | boot booted =>
      exact Reachable.of_run (.start ⟨destroy, booted⟩) serving rest

end Electrosphere
