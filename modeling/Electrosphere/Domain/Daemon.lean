import Electrosphere.Domain.Recovery
import Electrosphere.Domain.TurnService
import Electrosphere.Foundation.Transition

/-!
# The daemon

The state of one process together with its database and tree files, and the
events that move it: a call of the turn service runs to its first await, a
call in flight runs on to its next one, a lease is released, the process
boots.  Any order of events is a run.

`history` records what has been published and where workspaces began.  No
step reads it.
-/

namespace Electrosphere

open Foundation

/-- The closure that `acquire` returns. -/
structure Lease where
  key : TurnKey
  released : Bool := false
  deriving DecidableEq

/-- What the layers below answer to a close. -/
structure CloseEnvironment where
  finish : TurnKey → FinishEnvironment
  deletion : TurnKey → DeletionEnvironment

/-- Where a `closeAll` call stands. -/
inductive CloseStage where
  | awaitingStarts (keys : List TurnKey)
  /-- Awaiting the finish of a turn, which has answered at once or is in
  flight, before the remaining open turns. -/
  | awaitingFinish (key : TurnKey) (answer : Option (Except Thrown TurnView))
      (rest : List TurnKey)
  | awaitingFinishes (keys : List TurnKey)
  /-- Deleting the runtime of a turn that is still active. -/
  | forcing (key : TurnKey) (instanceId : InstanceId) (progress : Deletion)
      (rest : List (TurnKey × TurnRow))
  | settled (result : Except (List Thrown) Unit)

structure CloseCall where
  environment : CloseEnvironment
  stage : CloseStage
  failures : List Thrown := []

structure History where
  /-- The first head of each workspace. -/
  origins : Table WorkspaceId Digest
  /-- Published commits, the latest first. -/
  publications : List Publication

structure World where
  db : Database
  objects : List String
  emptyCommit : Option Digest
  closing : Bool
  activeLeases : Table LeaseId BoundTurn
  leases : Table LeaseId Lease
  leaseCounts : Table TurnKey Nat
  leaseWaiters : Table TurnKey Unit
  starts : Table TurnKey StartCall
  finishes : Table TurnKey FinishCall
  close : Option CloseCall
  nextUuid : Uuid
  history : History

namespace World

/-- What a call hands back at once. -/
inductive Reply where
  | none
  /-- A promise that is still pending. -/
  | pending
  | view (result : Except Thrown TurnView)
  | lease (result : Except Thrown (LeaseId × BoundTurn))
  | fork (result : Except Thrown WorkspaceView)

/-! ## Starting -/

/-- The first head of a workspace that has just been created for a thread. -/
def History.recordOrigin (history : History) (before after : Database)
    (threadId : ThreadId) : History :=
  match before.getThreadWorkspace threadId,
      after.getThreadWorkspace threadId with
  | none, some workspaceId =>
      match after.getRef workspaceId mainRef with
      | some headCommit =>
          { history with
            origins := history.origins.insert workspaceId headCommit }
      | none => history
  | _, _ => history

def validateKey (key : TurnKey) : Except Thrown Unit :=
  match validateIdentifier "threadId" key.threadId with
  | .error error => .error error
  | .ok () => validateIdentifier "turnId" key.turnId

/-- What `start` answers when the row cannot be inserted. -/
def racedStart (db : Database) (input : StartTurnInput) (error : Thrown) :
    Except Thrown TurnView :=
  match db.getTurn input.key with
  | some raced => existingStart input.key raced input.normalizedRequest
  | none =>
      match db.getOpenTurn input.threadId with
      | some (active, _) =>
          .error (.coded .threadBusy
            ("Thread already has active turn " ++ active.turnId))
      | none => .error error

/-- `start` once it has inserted the row of the turn. -/
def beginStart (world : World) (created : Database) (input : StartTurnInput)
    (environment : StartEnvironment) : World :=
  let instanceId := world.nextUuid
  let (db, stage) := startCreated world.emptyCommit created input instanceId
    (world.nextUuid + 1)
  { world with
    db
    starts := world.starts.insert input.key
      { input, instanceId, environment, stage }
    nextUuid := world.nextUuid + 2
    history := History.recordOrigin world.history created db input.threadId }

def start (world : World) (input : StartTurnInput)
    (environment : StartEnvironment) : World × Reply :=
  if world.closing then
    (world, .view (.error (.coded .turnClosed "Turn service is closing")))
  else
    match validateKey input.key with
    | .error error => (world, .view (.error error))
    | .ok () =>
        match world.db.getTurn input.key with
        | some existing =>
            (world, .view
              (existingStart input.key existing input.normalizedRequest))
        | none =>
            match world.db.getOpenTurn input.threadId with
            | some (active, _) =>
                (world, .view (.error (.coded .threadBusy
                  ("Thread already has active turn " ++ active.turnId))))
            | none =>
                match world.db.createTurn input.key input.startingRow with
                | .error error =>
                    (world, .view (racedStart world.db input error))
                | .ok created =>
                    (world.beginStart created input environment, .pending)

def resumeStart (deployment : Deployment) (world : World) (key : TurnKey) :
    Option World :=
  match world.starts.lookup key with
  | none => none
  | some call =>
      (advanceStart deployment world.db call).map fun (db, stage) =>
        { world with
          db, starts := world.starts.insert key { call with stage } }

/-- The continuation that removes a settled promise from `startPromises`. -/
def forgetStart (world : World) (key : TurnKey) : Option World :=
  match world.starts.lookup key with
  | none => none
  | some call =>
      if call.stage.isSettled && call.listed then
        some { world with
          starts := world.starts.insert key { call with listed := false } }
      else none

/-! ## Leases -/

def leaseCount (world : World) (key : TurnKey) : Nat :=
  (world.leaseCounts.lookup key).getD 0

def acquire (world : World) (key : TurnKey) : World × Reply :=
  if world.closing then
    (world, .lease (.error (.coded .turnClosed "Turn service is closing")))
  else
    match validateKey key with
    | .error error => (world, .lease (.error error))
    | .ok () =>
        match resolve world.db key with
        | .error error => (world, .lease (.error error))
        | .ok turn =>
            let id := world.nextUuid
            ({ world with
                activeLeases := world.activeLeases.insert id turn
                leases := world.leases.insert id { key }
                leaseCounts :=
                  world.leaseCounts.insert key (world.leaseCount key + 1)
                nextUuid := world.nextUuid + 1 },
              .lease (.ok (id, turn)))

/-- Fulfil the promise of a waiter. -/
def wake (finishes : Table TurnKey FinishCall) (key : TurnKey) :
    Table TurnKey FinishCall :=
  AList.modify key (fun call =>
    match call.stage with
    | .waiting => { call with stage := .drained }
    | _ => call) finishes

/-- `release` of a lease whose entry was still in `activeLeases`. -/
def dropLease (world : World) (key : TurnKey) : World :=
  let remaining := (world.leaseCounts.lookup key).getD 1 - 1
  if remaining > 0 then
    { world with leaseCounts := world.leaseCounts.insert key remaining }
  else if (world.leaseWaiters.lookup key).isSome then
    { world with
      leaseCounts := world.leaseCounts.erase key
      leaseWaiters := world.leaseWaiters.erase key
      finishes := wake world.finishes key }
  else { world with leaseCounts := world.leaseCounts.erase key }

/-- The `release` closure of a lease. -/
def release (world : World) (id : LeaseId) : Option World :=
  match world.leases.lookup id with
  | none => none
  | some lease =>
      if lease.released then some world
      else
        let marked := { world with
          leases := world.leases.insert id { lease with released := true } }
        if (marked.activeLeases.lookup id).isSome then
          some ({ marked with activeLeases := marked.activeLeases.erase id }
            |>.dropLease lease.key)
        else some marked

/-- `setInstanceState` of a session call under a lease. -/
def markInstance (world : World) (id : LeaseId) (running : Bool) :
    Option World :=
  match world.activeLeases.lookup id with
  | none => none
  | some turn =>
      some { world with
        db := world.db.updateInstance turn.instanceId
          { state := some (if running then .running else .ready) } }

/-! ## Finishing -/

/-- `finish` once the record is known to be open. -/
def beginFinish (world : World) (marked : Database) (key : TurnKey)
    (record : TurnRow) (environment : FinishEnvironment) : World :=
  let call : FinishCall :=
    { key, record := { record with state := .finishing }, environment,
      stage := if world.leaseCount key = 0 then .drained else .waiting }
  { world with
    db := marked
    leaseWaiters := if world.leaseCount key = 0 then world.leaseWaiters
      else world.leaseWaiters.insert key ()
    finishes := world.finishes.insert key call }

/-- The promise of a turn is in `finishPromises`. -/
def finishListed (world : World) (key : TurnKey) : Bool :=
  (world.finishes.lookup key).any FinishCall.listed

def finish (world : World) (key : TurnKey) (environment : FinishEnvironment) :
    World × Reply :=
  match validateKey key with
  | .error error => (world, .view (.error error))
  | .ok () =>
      match world.db.getTurn key with
      | none =>
          (world, .view (.error (.coded .turnClosed "Turn does not exist")))
      | some record =>
          match record.state with
          | .finished => (world, .view (.ok (view key record)))
          | .failed => (world, .view (.error (replayError record)))
          | .starting | .finishing =>
              (world, .view (.error (.coded .threadBusy
                ("Turn is " ++ record.state.name))))
          | .opened =>
              if world.finishListed key then
                (world, .view (.error (.coded .threadBusy
                  "Turn is already finishing")))
              else
                match world.db.updateTurn key
                    { state := some .finishing } with
                | .error error => (world, .view (.error error))
                | .ok marked =>
                    (world.beginFinish marked key record environment,
                      .pending)

def resumeFinish (deployment : Deployment) (world : World) (key : TurnKey) :
    Option World :=
  match world.finishes.lookup key with
  | none => none
  | some call =>
      (advanceFinish deployment world.db world.objects call).map
        fun segment =>
          { world with
            db := segment.db
            objects := segment.objects
            finishes := world.finishes.insert key
              { call with stage := segment.stage }
            history := { world.history with
              publications := segment.publication.toList ++
                world.history.publications } }

/-- The continuation that removes a settled promise from
`finishPromises`. -/
def forgetFinish (world : World) (key : TurnKey) : Option World :=
  match world.finishes.lookup key with
  | none => none
  | some call =>
      if call.stage.isSettled && call.listed then
        some { world with
          finishes := world.finishes.insert key { call with listed := false } }
      else none

/-! ## Forking -/

structure ForkInput where
  sourceThreadId : ThreadId
  destinationThreadId : ThreadId
  commitId : Option Digest := none

/-- The checks of `fork`, up to the source workspace and the head of the new
one. -/
def checkFork (world : World) (input : ForkInput) :
    Except Thrown WorkspaceView :=
  if world.closing then
    .error (.coded .turnClosed "Turn service is closing")
  else
    match validateIdentifier "sourceThreadId" input.sourceThreadId,
        validateIdentifier "destinationThreadId"
          input.destinationThreadId with
    | .error error, _ => .error error
    | .ok (), .error error => .error error
    | .ok (), .ok () =>
        if input.sourceThreadId = input.destinationThreadId then
          .error (.coded .invalidArgument
            "Destination thread must differ from source thread")
        else
          match world.db.getOpenTurn input.sourceThreadId with
          | some (active, _) =>
              .error (.coded .threadBusy
                ("Source thread has active turn " ++ active.turnId))
          | none =>
              match world.db.getThreadWorkspace input.sourceThreadId with
              | none =>
                  .error (.coded .notFound
                    "Source durable thread does not exist")
              | some source =>
                  if (world.db.getThreadWorkspace
                      input.destinationThreadId).isSome then
                    .error (.coded .invalidArgument
                      "Destination thread already exists")
                  else
                    match world.db.getRef source mainRef with
                    | none =>
                        .error (.coded .notFound
                          "Source thread main ref not found")
                    | some current =>
                        match input.commitId with
                        | none =>
                            .ok { workspaceId := source, headCommit := current }
                        | some commitId =>
                            if world.db.commitBelongsToHistory current
                                commitId then
                              .ok { workspaceId := source,
                                    headCommit := commitId }
                            else
                              .error (.coded .invalidArgument
                                "Commit does not belong to source thread history")

def fork (world : World) (input : ForkInput) : World × Reply :=
  match world.checkFork input with
  | .error error => (world, .fork (.error error))
  | .ok source =>
      match world.db.createThreadFork source.workspaceId
          input.destinationThreadId world.nextUuid source.headCommit with
      | .error error => (world, .fork (.error error))
      | .ok forked =>
          ({ world with
              db := forked
              nextUuid := world.nextUuid + 1
              history := History.recordOrigin world.history world.db forked
                input.destinationThreadId },
            .fork (.ok
              { workspaceId := world.nextUuid
                headCommit := source.headCommit }))

/-! ## Closing -/

def listedStarts (world : World) : List TurnKey :=
  (world.starts.select fun _ call => call.listed).map Prod.fst

def listedFinishes (world : World) : List TurnKey :=
  (world.finishes.select fun _ call => call.listed).map Prod.fst

def openTurns (world : World) : List TurnKey :=
  (world.db.listTurns [.opened]).map Prod.fst

def closedError : ServiceError :=
  { code := .turnClosed, message := "Turn service closed during active turn" }

/-- The update that `closeAll` makes to a turn that is still active. -/
def forceFailed (db : Database) (key : TurnKey) : Except Thrown Database :=
  db.updateTurn key
    { state := some .failed, errorJson := some (some closedError) }

def closeResult (failures : List Thrown) : Except (List Thrown) Unit :=
  if failures.isEmpty then .ok () else .error failures

def setClose (world : World) (call : CloseCall) (stage : CloseStage)
    (failures : List Thrown) : World :=
  { world with close := some { call with stage, failures } }

/-- The last loop of `closeAll`, up to its next await. -/
def forceLoop (world : World) (call : CloseCall) (failures : List Thrown) :
    List (TurnKey × TurnRow) → World
  | [] => world.setClose call (.settled (closeResult failures)) failures
  | (key, row) :: rest =>
      match row.instanceId with
      | some instanceId =>
          let (db, progress) := Deletion.start world.db instanceId
          { world with db }.setClose call
            (.forcing key instanceId progress rest) failures
      | none =>
          match forceFailed world.db key with
          | .ok db => forceLoop { world with db } call failures rest
          | .error error =>
              world.setClose call (.settled (.error [error])) failures

/-- `closeAll` once all finishes have settled. -/
def closeForced (world : World) (call : CloseCall) (failures : List Thrown) :
    World :=
  forceLoop world call failures
    (world.db.listTurns [.starting, .finishing])

/-- The loop of `closeAll` over the open turns, up to its next await. -/
def closeOpen (world : World) (call : CloseCall) (failures : List Thrown) :
    List TurnKey → World
  | [] =>
      match world.listedFinishes with
      | [] => closeForced world call failures
      | keys => world.setClose call (.awaitingFinishes keys) failures
  | key :: rest =>
      match world.finish key (call.environment.finish key) with
      | (next, .view answer) =>
          next.setClose call (.awaitingFinish key (some answer) rest) failures
      | (next, _) => next.setClose call (.awaitingFinish key none rest) failures

/-- `close`: a second call returns the promise of the first. -/
def closeService (world : World) (environment : CloseEnvironment) : World :=
  match world.close with
  | some _ => world
  | none =>
      let closing := { world with closing := true }
      let call : CloseCall := { environment, stage := .awaitingStarts [] }
      match world.listedStarts with
      | [] => closeOpen closing call [] closing.openTurns
      | keys => closing.setClose call (.awaitingStarts keys) []

def startResult (world : World) (key : TurnKey) :
    Option (Except Thrown TurnView) :=
  match world.starts.lookup key with
  | some { stage := .settled result, .. } => some result
  | _ => none

def finishResult (world : World) (key : TurnKey) :
    Option (Except Thrown TurnView) :=
  match world.finishes.lookup key with
  | some { stage := .settled result, .. } => some result
  | _ => none

/-- The error of a promise that was rejected. -/
def rejection : Except Thrown TurnView → Option Thrown
  | .ok _ => none
  | .error error => some error

/-- `closeAll` from one await to the next. -/
def resumeClose (world : World) : Option World :=
  match world.close with
  | none => none
  | some call =>
      match call.stage with
      | .awaitingStarts keys =>
          if keys.all fun key => (world.startResult key).isSome then
            some (closeOpen world call call.failures world.openTurns)
          else none
      | .awaitingFinish key answer rest =>
          match answer.or (world.finishResult key) with
          | none => none
          | some result =>
              some (closeOpen world call
                (call.failures ++ (rejection result).toList) rest)
      | .awaitingFinishes keys =>
          if keys.all fun key => (world.finishResult key).isSome then
            some (closeForced world call
              (call.failures ++ keys.filterMap fun key =>
                (world.finishResult key).bind rejection))
          else none
      | .forcing key instanceId (.done result) rest =>
          let (db, failures) := match result with
            | .ok () => (world.db, call.failures)
            | .error error =>
                (recordLost world.db instanceId error,
                  call.failures ++ [error])
          match forceFailed db key with
          | .ok failed => some (forceLoop { world with db := failed } call
              failures rest)
          | .error error =>
              some ({ world with db }.setClose call
                (.settled (.error [error])) failures)
      | .forcing key instanceId progress rest =>
          (Deletion.resume (call.environment.deletion key) world.db instanceId
            progress).map fun (db, later) =>
              { world with db }.setClose call
                (.forcing key instanceId later rest) call.failures
      | .settled _ => none

/-! ## The process -/

/-- A new process on the same database and files. -/
def restart (world : World) : World :=
  { world with
    emptyCommit := none
    closing := false
    activeLeases := ∅
    leases := ∅
    leaseCounts := ∅
    leaseWaiters := ∅
    starts := ∅
    finishes := ∅
    close := none }

/-- `initialize`, once the directories exist. -/
def initializeService (deployment : Deployment) (world : World) : Option World :=
  match initializeDatabase deployment world.db with
  | .error _ => none
  | .ok db =>
      some { world with
        db
        objects := deployment.emptyTree.path :: world.objects
        emptyCommit := some deployment.emptyCommit }

def recoverDatabase (world : World)
    (destroy : InstanceId → Except Thrown Unit) : Option World :=
  match recover destroy world.db with
  | .error _ => none
  | .ok db => some { world with db }

/-- `startDaemon` up to the first request. -/
def boot (deployment : Deployment) (world : World)
    (destroy : InstanceId → Except Thrown Unit) : Option World :=
  (initializeService deployment world.restart).bind fun ready =>
    ready.recoverDatabase destroy

/-- Nothing stored and no process. -/
def empty : World :=
  { db := .empty, objects := [], emptyCommit := none, closing := false,
    activeLeases := ∅, leases := ∅, leaseCounts := ∅, leaseWaiters := ∅,
    starts := ∅, finishes := ∅, close := none, nextUuid := 0,
    history := { origins := ∅, publications := [] } }

end World

/-! ## Events -/

inductive Event where
  | start (input : StartTurnInput) (environment : StartEnvironment)
  | resumeStart (key : TurnKey)
  | forgetStart (key : TurnKey)
  | acquire (key : TurnKey)
  | release (id : LeaseId)
  | markInstance (id : LeaseId) (running : Bool)
  | finish (key : TurnKey) (environment : FinishEnvironment)
  | resumeFinish (key : TurnKey)
  | forgetFinish (key : TurnKey)
  | fork (input : World.ForkInput)
  | close (environment : CloseEnvironment)
  | resumeClose
  | boot (destroy : InstanceId → Except Thrown Unit)
  | restart
  | initializeService
  | recover (destroy : InstanceId → Except Thrown Unit)
  | closeSandboxService

namespace World

/-- One event and what its caller gets at once. -/
def respond (deployment : Deployment) (world : World) :
    Event → Option (World × Reply)
  | .start input environment => some (world.start input environment)
  | .resumeStart key => (world.resumeStart deployment key).map (·, .none)
  | .forgetStart key => (world.forgetStart key).map (·, .none)
  | .acquire key => some (world.acquire key)
  | .release id => (world.release id).map (·, .none)
  | .markInstance id running => (world.markInstance id running).map (·, .none)
  | .finish key environment => some (world.finish key environment)
  | .resumeFinish key => (world.resumeFinish deployment key).map (·, .none)
  | .forgetFinish key => (world.forgetFinish key).map (·, .none)
  | .fork input => some (world.fork input)
  | .close environment => some (world.closeService environment, .none)
  | .resumeClose => world.resumeClose.map (·, .none)
  | .boot destroy => (world.boot deployment destroy).map (·, .none)
  | .restart => some (world.restart, .none)
  | .initializeService => (world.initializeService deployment).map (·, .none)
  | .recover destroy => (world.recoverDatabase destroy).map (·, .none)
  | .closeSandboxService =>
      some ({ world with db := Electrosphere.closeSandboxService world.db },
        .none)

def step (deployment : Deployment) (world : World) (event : Event) :
    Option World :=
  (world.respond deployment event).map Prod.fst

end World

/-- What an event has run, one constructor for each event. -/
inductive World.Stepped (deployment : Deployment) (world : World) :
    Event → World → Prop where
  | start (input : StartTurnInput) (environment : StartEnvironment) :
      Stepped deployment world (.start input environment)
        (world.start input environment).1
  | resumeStart {key : TurnKey} {after : World} :
      world.resumeStart deployment key = some after →
      Stepped deployment world (.resumeStart key) after
  | forgetStart {key : TurnKey} {after : World} :
      world.forgetStart key = some after →
      Stepped deployment world (.forgetStart key) after
  | acquire (key : TurnKey) :
      Stepped deployment world (.acquire key) (world.acquire key).1
  | release {id : LeaseId} {after : World} :
      world.release id = some after →
      Stepped deployment world (.release id) after
  | markInstance {id : LeaseId} {running : Bool} {after : World} :
      world.markInstance id running = some after →
      Stepped deployment world (.markInstance id running) after
  | finish (key : TurnKey) (environment : FinishEnvironment) :
      Stepped deployment world (.finish key environment)
        (world.finish key environment).1
  | resumeFinish {key : TurnKey} {after : World} :
      world.resumeFinish deployment key = some after →
      Stepped deployment world (.resumeFinish key) after
  | forgetFinish {key : TurnKey} {after : World} :
      world.forgetFinish key = some after →
      Stepped deployment world (.forgetFinish key) after
  | fork (input : World.ForkInput) :
      Stepped deployment world (.fork input) (world.fork input).1
  | close (environment : CloseEnvironment) :
      Stepped deployment world (.close environment)
        (world.closeService environment)
  | resumeClose {after : World} :
      world.resumeClose = some after →
      Stepped deployment world .resumeClose after
  | boot {destroy : InstanceId → Except Thrown Unit} {after : World} :
      world.boot deployment destroy = some after →
      Stepped deployment world (.boot destroy) after
  | restart : Stepped deployment world .restart world.restart
  | initializeService {after : World} :
      world.initializeService deployment = some after →
      Stepped deployment world .initializeService after
  | recover {destroy : InstanceId → Except Thrown Unit} {after : World} :
      world.recoverDatabase destroy = some after →
      Stepped deployment world (.recover destroy) after
  | closeSandboxService :
      Stepped deployment world .closeSandboxService
        { world with db := Electrosphere.closeSandboxService world.db }

theorem World.stepped {deployment : Deployment} {world after : World}
    {event : Event} (taken : world.step deployment event = some after) :
    World.Stepped deployment world event after := by
  obtain ⟨⟨next, reply⟩, responded, rfl⟩ := Option.map_eq_some_iff.mp taken
  have whole : ∀ {outcome : World × World.Reply},
      some outcome = some (next, reply) → next = outcome.1 := by
    rintro outcome same
    rw [Option.some.inj same]
  have silent : ∀ {outcome : Option World},
      outcome.map (·, World.Reply.none) = some (next, reply) →
        outcome = some next := by
    rintro outcome same
    obtain ⟨found, isFound, pair⟩ := Option.map_eq_some_iff.mp same
    rw [isFound, (Prod.mk.inj pair).1]
  cases event with
  | start input environment => exact whole responded ▸ .start input environment
  | resumeStart => exact .resumeStart (silent responded)
  | forgetStart => exact .forgetStart (silent responded)
  | acquire key => exact whole responded ▸ .acquire key
  | release => exact .release (silent responded)
  | markInstance => exact .markInstance (silent responded)
  | finish key environment =>
      exact whole responded ▸ .finish key environment
  | resumeFinish => exact .resumeFinish (silent responded)
  | forgetFinish => exact .forgetFinish (silent responded)
  | fork input => exact whole responded ▸ .fork input
  | close environment => exact whole responded ▸ .close environment
  | resumeClose => exact .resumeClose (silent responded)
  | boot => exact .boot (silent responded)
  | restart => exact whole responded ▸ .restart
  | initializeService => exact .initializeService (silent responded)
  | recover => exact .recover (silent responded)
  | closeSandboxService => exact whole responded ▸ .closeSandboxService

/-- A release changes leases and wakes the finish that waits for them. -/
structure World.LeasesOnly (world after : World) : Prop where
  db : after.db = world.db
  objects : after.objects = world.objects
  emptyCommit : after.emptyCommit = world.emptyCommit
  closing : after.closing = world.closing
  starts : after.starts = world.starts
  finishes : after.finishes = world.finishes ∨
    ∃ key, after.finishes = World.wake world.finishes key
  close : after.close = world.close
  nextUuid : after.nextUuid = world.nextUuid
  history : after.history = world.history

theorem World.release_leasesOnly {world after : World} {id : LeaseId}
    (released : world.release id = some after) :
    world.LeasesOnly after := by
  unfold release at released
  split at released
  case h_1 => cases released
  split at released
  case isTrue =>
    cases released
    exact ⟨rfl, rfl, rfl, rfl, rfl, .inl rfl, rfl, rfl, rfl⟩
  dsimp only at released
  split at released
  case isFalse =>
    cases released
    exact ⟨rfl, rfl, rfl, rfl, rfl, .inl rfl, rfl, rfl, rfl⟩
  cases released
  unfold dropLease
  dsimp only
  split
  · exact ⟨rfl, rfl, rfl, rfl, rfl, .inl rfl, rfl, rfl, rfl⟩
  split
  · exact ⟨rfl, rfl, rfl, rfl, rfl, .inr ⟨_, rfl⟩, rfl, rfl, rfl⟩
  · exact ⟨rfl, rfl, rfl, rfl, rfl, .inl rfl, rfl, rfl, rfl⟩

theorem World.release_activeLeases {world after : World} {id : LeaseId}
    (released : world.release id = some after) {lease : LeaseId}
    {turn : BoundTurn}
    (active : after.activeLeases.lookup lease = some turn) :
    world.activeLeases.lookup lease = some turn := by
  unfold release at released
  split at released
  case h_1 => cases released
  split at released
  case isTrue =>
    cases released
    exact active
  dsimp only at released
  split at released
  case isFalse =>
    cases released
    exact active
  have kept : after.activeLeases = world.activeLeases.erase id := by
    cases released
    unfold dropLease
    dsimp only
    split
    · rfl
    split <;> rfl
  rw [kept, AList.lookup_erase_if] at active
  split at active
  · cases active
  · exact active

theorem World.markInstance_eq {world after : World} {id : LeaseId}
    {running : Bool} (marked : world.markInstance id running = some after) :
    ∃ turn, world.activeLeases.lookup id = some turn ∧
      after = { world with
        db := world.db.updateInstance turn.instanceId
          { state := some (if running then .running else .ready) } } := by
  unfold markInstance at marked
  split at marked <;> cases marked
  case h_2 turn found => exact ⟨turn, found, rfl⟩

/-- A boot seeds the store, recovers it and starts a new process. -/
theorem World.boot_eq {deployment : Deployment} {world after : World}
    {destroy : InstanceId → Except Thrown Unit}
    (booted : world.boot deployment destroy = some after) :
    ∃ seeded recovered,
      initializeDatabase deployment world.db = .ok seeded ∧
      recover destroy seeded = .ok recovered ∧
      after = { world.restart with
        db := recovered
        objects := deployment.emptyTree.path :: world.objects
        emptyCommit := some deployment.emptyCommit } := by
  obtain ⟨ready, isReady, isRecovered⟩ := Option.bind_eq_some_iff.mp booted
  unfold initializeService at isReady
  split at isReady
  case h_1 => cases isReady
  case h_2 seeded done =>
  cases isReady
  unfold recoverDatabase at isRecovered
  split at isRecovered
  case h_1 => cases isRecovered
  case h_2 recovered isNext =>
  cases isRecovered
  exact ⟨seeded, recovered, done, isNext, rfl⟩

/-- The events of a daemon that serves: calls, their continuations, and a
crash followed by a boot. -/
def Event.serving : Event → Bool
  | .restart | .initializeService | .recover _ | .closeSandboxService => false
  | _ => true

/-- The events of one process that serves. -/
def Event.calling : Event → Bool
  | .boot _ => false
  | event => event.serving

/-- A daemon that has booted on an empty store. -/
def FirstBoot (deployment : Deployment) (world : World) : Prop :=
  ∃ destroy, World.empty.boot deployment destroy = some world

/-- The worlds of a serving daemon, over any number of crashes. -/
def Served (deployment : Deployment) : World → Prop :=
  Reachable (World.step deployment) (FirstBoot deployment)
    fun event => event.serving = true

/-- The worlds that any events reach from nothing. -/
def Reached (deployment : Deployment) : World → Prop :=
  Reachable (World.step deployment) (fun world => world = World.empty)
    fun _ => True

end Electrosphere
