import Mathlib.Data.List.Sort
import Electrosphere.Foundation.Utf8
import Electrosphere.Storage.Artifacts
import Electrosphere.Storage.Schema

/-!
# The session manager

The session objects and the map that lists them, and the calls `exec`, `poll`,
`write`, `kill`, `closeInstance` and `reapExpired`, each cut at its awaits.  A
session that the map no longer lists stays an object as long as a call holds
it.  `serial` keeps the calls that wait for a session in the order in which
they came.

`executions` records what the backend has answered about each execution.  No
step reads it.
-/

namespace Electrosphere

open Foundation

abbrev ExecutionId := Uuid
abbrev SessionId := Uuid
abbrev CallId := Nat

inductive ExecutionState where
  | running
  | completed
  | failed
  | timedOut
  | canceled
  | lost
  deriving DecidableEq

structure ExecutionResult where
  state : ExecutionState
  exitCode : Option Int := none
  output : Bytes
  startedAt : Nat
  finishedAt : Option Nat := none
  originalBytes : Option Nat := none
  outputOmittedBytes : Option Nat := none

inductive ShellStatus where
  | running
  | completed
  | failed
  | timedOut
  | canceled
  | killed
  deriving DecidableEq

structure ShellResult where
  status : ShellStatus
  sessionId : Option SessionId
  exitCode : Option Int
  output : List Char
  wallTimeMs : Int
  originalTokenCount : Nat
  outputOmittedBytes : Nat
  truncated : Bool

/-- Who waits in `serial`. -/
inductive Waiter where
  | call (id : CallId)
  | closing (instanceId : InstanceId)
  deriving DecidableEq

structure Session where
  id : SessionId
  instanceId : InstanceId
  execution : ExecutionId
  tty : Bool
  cursor : Nat
  lastUsedAt : Nat
  expiresAt : Nat
  active : Bool
  /-- The calls chained behind one another, the one that runs first. -/
  tail : List Waiter

structure SessionManager where
  objects : Table SessionId Session
  /-- The keys of the map `sessions`, in the order of insertion. -/
  sessions : List SessionId
  closingInstances : List InstanceId
  maxOutputBytes : Nat

/-- What a call reads of the layers below when it runs. -/
structure Moment where
  now : Nat
  /-- Whether `getTurnHandle` returns. -/
  getTurnHandle : InstanceId → Except Thrown Unit

namespace SessionManager

def ttlMs : Nat := 30 * 60000

/-- `sessions.get`. -/
def get (manager : SessionManager) (id : SessionId) : Option Session :=
  if id ∈ manager.sessions then manager.objects.lookup id else none

def change (manager : SessionManager) (id : SessionId)
    (update : Session → Session) : SessionManager :=
  { manager with objects := AList.modify id update manager.objects }

/-- `sessions.delete`. -/
def delete (manager : SessionManager) (id : SessionId) : SessionManager :=
  { manager with sessions := manager.sessions.erase id }

/-! ## Eviction -/

/-- The first loop of `reap` deletes these. -/
def finishedAndExpired (manager : SessionManager) (now : Nat)
    (id : SessionId) : Bool :=
  match manager.objects.lookup id with
  | some session => !session.active && session.expiresAt ≤ now
  | none => false

def isActive (manager : SessionManager) (id : SessionId) : Bool :=
  (manager.objects.lookup id).any Session.active

def lastUsedAt (manager : SessionManager) (id : SessionId) : Nat :=
  ((manager.objects.lookup id).map Session.lastUsedAt).getD 0

/-- The second loop of `reap`. -/
def evict : List SessionId → List SessionId → List SessionId
  | sessions, [] => sessions
  | sessions, id :: removable =>
      if 64 ≤ sessions.length then evict (sessions.erase id) removable
      else sessions

def reap (manager : SessionManager) (now : Nat) : SessionManager :=
  let kept := manager.sessions.filter
    fun id => !manager.finishedAndExpired now id
  let removable := (kept.filter fun id => !manager.isActive id).insertionSort
    fun left right => manager.lastUsedAt left ≤ manager.lastUsedAt right
  { manager with sessions := evict kept removable }

def requireSession (manager : SessionManager) (id : SessionId)
    (instanceId : InstanceId) (now : Nat) : Except Thrown Session :=
  match manager.get id with
  | some session =>
      if session.instanceId ≠ instanceId ∨ session.expiresAt ≤ now then
        .error (.coded .notFound "Session is unavailable")
      else .ok session
  | none => .error (.coded .notFound "Session is unavailable")

/-! ## Serial sections -/

/-- `serial` up to its await. -/
def enqueue (manager : SessionManager) (id : SessionId) (waiter : Waiter) :
    SessionManager :=
  manager.change id fun session =>
    { session with tail := session.tail ++ [waiter] }

/-- The prior call has released the session. -/
def atHead (manager : SessionManager) (id : SessionId) (waiter : Waiter) :
    Bool :=
  (manager.objects.lookup id).any fun session =>
    session.tail.head? = some waiter

/-- `serial` after its await. -/
def enter (manager : SessionManager) (id : SessionId) (now : Nat) :
    SessionManager :=
  manager.change id fun session =>
    { session with lastUsedAt := now, expiresAt := now + ttlMs }

def release (manager : SessionManager) (id : SessionId) (waiter : Waiter) :
    SessionManager :=
  manager.change id fun session =>
    { session with tail := session.tail.erase waiter }

def deactivate (manager : SessionManager) (id : SessionId) : SessionManager :=
  manager.change id fun session => { session with active := false }

end SessionManager

/-! ## Responses -/

structure ShapedOutput where
  output : List Char
  originalTokenCount : Nat
  omitted : Nat
  truncated : Bool

/-- `limit` of `shapeOutput`. -/
def outputLimit (maxOutputBytes : Nat) (maxOutputTokens : Option Nat) : Nat :=
  max 256 (match maxOutputTokens with
    | none => maxOutputBytes
    | some tokens => min maxOutputBytes (tokens * 4))

def shapeOutput (maxOutputBytes : Nat) (bytes : Bytes)
    (maxOutputTokens : Option Nat) (originalBytes : Nat) : ShapedOutput :=
  let limit := outputLimit maxOutputBytes maxOutputTokens
  let originalTokenCount := (originalBytes + 3) / 4
  if originalBytes ≤ limit ∧ bytes.length ≤ limit then
    { output := Utf8.decodeLossy bytes, originalTokenCount,
      omitted := 0, truncated := false }
  else
    let side := limit / 2
    let omitted := originalBytes - side * 2
    { output := Utf8.decodeLossy (bytes.take side) ++
        ("\n... " ++ toString omitted ++ " bytes omitted ...\n").toList ++
        Utf8.decodeLossy (bytes.drop (max side (bytes.length - side)))
      originalTokenCount
      omitted
      truncated := true }

def ExecutionState.status : ExecutionState → ShellStatus
  | .running => .running
  | .completed => .completed
  | .timedOut => .timedOut
  | .canceled => .canceled
  | .failed | .lost => .failed

/-- `response`: the session it leaves and what the caller gets. -/
def response (maxOutputBytes now : Nat) (session : Session)
    (result : ExecutionResult) (maxOutputTokens : Option Nat)
    (killed : Bool) : Session × ShellResult :=
  let originalBytes := result.originalBytes.getD result.output.length
  let backendTruncated := 0 < result.outputOmittedBytes.getD 0
  let delta :=
    if backendTruncated then result.output
    else result.output.drop session.cursor
  let deltaOriginalBytes :=
    if backendTruncated then originalBytes
    else originalBytes - session.cursor
  let shaped :=
    shapeOutput maxOutputBytes delta maxOutputTokens deltaOriginalBytes
  let running := result.state = .running
  ({ session with
      cursor := originalBytes
      active := if running then session.active else false },
    { status := if killed then .killed else result.state.status
      sessionId := if running then some session.id else none
      exitCode := result.exitCode
      output := shaped.output
      wallTimeMs := (result.finishedAt.getD now : Int) - result.startedAt
      originalTokenCount := shaped.originalTokenCount
      outputOmittedBytes := shaped.omitted
      truncated := shaped.truncated })

/-! ## Calls -/

/-- What a caller asks of one session or of a new one. -/
inductive SessionRequest where
  | exec (command : String) (workdir : Option String) (tty : Bool)
      (yieldTimeMs timeoutMs : Nat) (maxOutputTokens : Option Nat)
  | poll (sessionId : SessionId) (yieldTimeMs : Nat)
      (maxOutputTokens : Option Nat)
  | write (sessionId : SessionId) (chars : String) (yieldTimeMs : Nat)
      (maxOutputTokens : Option Nat)
  | kill (sessionId : SessionId)

def SessionRequest.maxOutputTokens : SessionRequest → Option Nat
  | .exec _ _ _ _ _ tokens | .poll _ _ tokens | .write _ _ _ tokens => tokens
  | .kill _ => none

/-- Where a call stands: the promise of the backend it awaits, or that of the
prior call. -/
inductive SessionStage where
  /-- Awaiting the backend's `exec`. -/
  | starting (execution : ExecutionId)
  /-- In `serial`, behind other calls. -/
  | queued (session : SessionId)
  /-- `write` has asked the backend to kill a session without a terminal. -/
  | interrupting (session : SessionId)
  | writing (session : SessionId)
  | polling (session : SessionId)
  /-- `kill` awaits the backend's `kill`. -/
  | killing (session : SessionId)
  /-- `kill` awaits the poll that follows. -/
  | killed (session : SessionId)
  | abandoning (session : SessionId) (error : Thrown)
  | settled (result : Except Thrown ShellResult)

structure SessionCall where
  instanceId : InstanceId
  request : SessionRequest
  stage : SessionStage

def SessionStage.isSettled : SessionStage → Bool
  | .settled _ => true
  | _ => false

/-- Where a `closeInstance` call stands in its loop. -/
inductive ClosingStage where
  | queued (session : SessionId) (rest : List SessionId)
  | killing (session : SessionId) (rest : List SessionId) (again : Bool)
  | polling (session : SessionId) (rest : List SessionId) (again : Bool)
  | settled (result : Except Thrown Unit)

structure ClosingCall where
  stage : ClosingStage
  failures : List Thrown := []

/-- Where a `reapExpired` call stands in its loop. -/
inductive ReaperStage where
  | killing (session : SessionId)
  | settled

structure Reaper where
  /-- `Date.now()` when it began. -/
  now : Nat
  /-- The entries of the map that its loop has passed. -/
  passed : List SessionId
  stage : ReaperStage

/-- What the backend has answered about an execution. -/
structure Execution where
  instanceId : InstanceId
  /-- A poll has reported a state other than `RUNNING`. -/
  reported : Bool := false
  /-- A kill has been confirmed. -/
  killed : Bool := false
  deriving DecidableEq

structure SessionWorld where
  manager : SessionManager
  calls : Table CallId SessionCall
  closings : Table InstanceId ClosingCall
  reapers : Table Nat Reaper
  nextUuid : Uuid
  executions : Table ExecutionId Execution

/-- The outcome of a stretch of a call: the manager it leaves, its next stage
and the state that `setInstanceState` has written, if any. -/
structure SessionSegment where
  manager : SessionManager
  stage : SessionStage
  mark : Option Bool := none

namespace SessionManager

/-- The checks of `exec`. -/
def checkExec (manager : SessionManager) (moment : Moment)
    (instanceId : InstanceId) (command : String) (workdir : Option String) :
    Except Thrown Unit :=
  let cwd := workdir.getD "/workspace"
  if instanceId ∈ manager.closingInstances then
    .error (.coded .turnClosed "Turn runtime is closing")
  else if 64 ≤ manager.sessions.length then
    .error (.coded .sessionCapacity "No session capacity is available")
  else if command.isEmpty ∨ 128 * 1024 < command.utf8ByteSize then
    .error (.coded .invalidArgument "Command is empty or too large")
  else if cwd ≠ "/workspace" ∧ "/workspace/".toList.isPrefixOf cwd.toList = false
      then
    .error (.coded .invalidArgument "workdir must be inside /workspace")
  else moment.getTurnHandle instanceId

/-- The session that `exec` creates. -/
def newSession (moment : Moment) (id : SessionId) (instanceId : InstanceId)
    (execution : ExecutionId) (tty : Bool) : Session :=
  { id, instanceId, execution, tty, cursor := 0
    lastUsedAt := moment.now
    expiresAt := moment.now + ttlMs
    active := true
    tail := [] }

/-- `pollBackend` up to its await, inside a try block. -/
def pollOrAbandon (manager : SessionManager) (moment : Moment)
    (instanceId : InstanceId) (session : SessionId) : SessionSegment :=
  match moment.getTurnHandle instanceId with
  | .ok () => { manager, stage := .polling session }
  | .error error => { manager, stage := .abandoning session error }

/-- `exec` once the backend has started the execution. -/
def opened (manager : SessionManager) (moment : Moment) (id : SessionId)
    (instanceId : InstanceId) (execution : ExecutionId) (tty : Bool) :
    SessionSegment :=
  let listed : SessionManager :=
    { manager with
      objects := manager.objects.insert id
        (newSession moment id instanceId execution tty)
      sessions := manager.sessions ++ [id] }
  { listed.pollOrAbandon moment instanceId id with mark := some true }

/-- `exec` and what `poll` and `write` do once the backend has answered the
poll. -/
def polled (manager : SessionManager) (moment : Moment) (session : Session)
    (maxOutputTokens : Option Nat) (result : ExecutionResult) :
    SessionSegment :=
  let (later, shaped) := response manager.maxOutputBytes moment.now session
    result maxOutputTokens false
  { manager := manager.change session.id fun _ => later
    stage := .settled (.ok shaped)
    mark := if later.active then none else some false }

/-- `kill` once the backend has answered the poll. -/
def killedAndPolled (manager : SessionManager) (moment : Moment)
    (session : Session) (result : ExecutionResult) : SessionSegment :=
  let (later, shaped) := response manager.maxOutputBytes moment.now
    { session with active := false } result none true
  { manager := manager.change session.id fun _ => later
    stage := .settled (.ok shaped)
    mark := some false }

/-- `abandon` once the backend has answered the kill, whatever it has
answered. -/
def abandoned (manager : SessionManager) (session : SessionId)
    (error : Thrown) : SessionSegment :=
  { manager := manager.deactivate session
    stage := .settled (.error error)
    mark := some false }

/-- A call up to its first await. -/
def begin (manager : SessionManager) (moment : Moment) (fresh : ExecutionId)
    (id : CallId) (instanceId : InstanceId) :
    SessionRequest → SessionManager × SessionStage
  | .exec command workdir _ _ _ _ =>
      let reaped := manager.reap moment.now
      match reaped.checkExec moment instanceId command workdir with
      | .ok () => (reaped, .starting fresh)
      | .error error => (reaped, .settled (.error error))
  | .poll sessionId _ _ | .kill sessionId =>
      match manager.requireSession sessionId instanceId moment.now with
      | .ok _ => (manager.enqueue sessionId (.call id), .queued sessionId)
      | .error error => (manager, .settled (.error error))
  | .write sessionId _ _ _ =>
      match manager.requireSession sessionId instanceId moment.now with
      | .error error => (manager, .settled (.error error))
      | .ok session =>
          if session.instanceId ∈ manager.closingInstances then
            (manager,
              .settled (.error (.coded .turnClosed "Turn runtime is closing")))
          else (manager.enqueue sessionId (.call id), .queued sessionId)

/-- The body of a serial section up to its first await. -/
def enterSection (manager : SessionManager) (moment : Moment)
    (session : Session) : SessionRequest → SessionSegment
  | .exec .. => { manager, stage := .queued session.id }
  | .poll .. =>
      (manager.enter session.id moment.now).pollOrAbandon moment
        session.instanceId session.id
  | .write _ chars _ _ =>
      let entered := manager.enter session.id moment.now
      if session.tty then { manager := entered, stage := .writing session.id }
      else if chars = "\x03" then
        { manager := entered, stage := .interrupting session.id }
      else
        { manager := entered
          stage := .settled (.error (.coded .sessionStdinClosed
            "Non-TTY session stdin is closed")) }
  | .kill _ =>
      { manager := manager.enter session.id moment.now
        stage := .killing session.id }

end SessionManager

/-! ## Events -/

inductive SessionEvent where
  | begin (id : CallId) (instanceId : InstanceId) (request : SessionRequest)
  /-- The prior call of a session has released it. -/
  | enter (id : CallId)
  | execAnswered (id : CallId) (answer : Except Thrown Unit)
  | pollAnswered (id : CallId) (answer : Except Thrown ExecutionResult)
  | writeAnswered (id : CallId) (answer : Except Thrown Unit)
  | killAnswered (id : CallId) (answer : Except Thrown Unit)
  | closeInstance (instanceId : InstanceId)
  | closingEnters (instanceId : InstanceId)
  | closingKillAnswered (instanceId : InstanceId)
      (answer : Except Thrown Unit)
  | closingPollAnswered (instanceId : InstanceId)
      (answer : Except Thrown ExecutionResult)
  | reapExpired (id : Nat)
  | reaperKillAnswered (id : Nat) (answer : Except Thrown Unit)

/-- What `setInstanceState` has written: `RUNNING` or `READY`. -/
structure InstanceMark where
  instanceId : InstanceId
  running : Bool

namespace SessionWorld

def empty (maxOutputBytes : Nat) : SessionWorld :=
  { manager :=
      { objects := ∅, sessions := [], closingInstances := [], maxOutputBytes }
    calls := ∅
    closings := ∅
    reapers := ∅
    nextUuid := 0
    executions := ∅ }

/-- A call that leaves its serial section lets the next one in. -/
def leaveSection (manager : SessionManager) (session : SessionId)
    (waiter : Waiter) : SessionStage → SessionManager
  | .settled _ => manager.release session waiter
  | _ => manager

/-- A call has run to its next await. -/
def resume (world : SessionWorld) (id : CallId) (call : SessionCall)
    (session : SessionId) (segment : SessionSegment) :
    SessionWorld × Option InstanceMark :=
  ({ world with
      manager := leaveSection segment.manager session (.call id) segment.stage
      calls := world.calls.insert id { call with stage := segment.stage } },
    segment.mark.map fun running =>
      { instanceId := call.instanceId, running })

/-! ## Calls of a session -/

def begin (world : SessionWorld) (moment : Moment) (id : CallId)
    (instanceId : InstanceId) (request : SessionRequest) :
    Option SessionWorld :=
  match world.calls.lookup id with
  | some _ => none
  | none =>
      let (manager, stage) :=
        world.manager.begin moment world.nextUuid id instanceId request
      some { world with
        manager
        calls := world.calls.insert id { instanceId, request, stage }
        nextUuid := world.nextUuid + 1 }

def enter (world : SessionWorld) (moment : Moment) (id : CallId) :
    Option (SessionWorld × Option InstanceMark) := do
  let call ← world.calls.lookup id
  match call.stage with
  | .queued sessionId =>
      let session ← world.manager.objects.lookup sessionId
      if world.manager.atHead sessionId (.call id) then
        some (world.resume id call sessionId
          (world.manager.enterSection moment session call.request))
      else none
  | _ => none

def execAnswered (world : SessionWorld) (moment : Moment) (id : CallId)
    (answer : Except Thrown Unit) :
    Option (SessionWorld × Option InstanceMark) := do
  let call ← world.calls.lookup id
  match call.stage, call.request, answer with
  | .starting _, _, .error error =>
      some ({ world with
        calls := world.calls.insert id
          { call with stage := .settled (.error error) } }, none)
  | .starting execution, .exec _ _ tty _ _ _, .ok () =>
      let (after, mark) := world.resume id call world.nextUuid
        (world.manager.opened moment world.nextUuid call.instanceId execution
          tty)
      some ({ after with
        nextUuid := world.nextUuid + 1
        executions := world.executions.insert execution
          { instanceId := call.instanceId } }, mark)
  | _, _, _ => none

/-- Remember that a poll has reported a state. -/
def noteReport (world : SessionWorld) (execution : ExecutionId)
    (state : ExecutionState) : SessionWorld :=
  if state = .running then world
  else
    { world with
      executions := AList.modify execution
        (fun record => { record with reported := true }) world.executions }

/-- Remember that a kill has been confirmed. -/
def noteKill (world : SessionWorld) (execution : ExecutionId) :
    Except Thrown Unit → SessionWorld
  | .error _ => world
  | .ok () =>
      { world with
        executions := AList.modify execution
          (fun record => { record with killed := true }) world.executions }

def pollAnswered (world : SessionWorld) (moment : Moment) (id : CallId)
    (answer : Except Thrown ExecutionResult) :
    Option (SessionWorld × Option InstanceMark) := do
  let call ← world.calls.lookup id
  match call.stage, answer with
  | .polling sessionId, .ok result =>
      let session ← world.manager.objects.lookup sessionId
      some ((world.noteReport session.execution result.state).resume id call
        sessionId (world.manager.polled moment session
          call.request.maxOutputTokens result))
  | .polling sessionId, .error error =>
      some (world.resume id call sessionId
        { manager := world.manager, stage := .abandoning sessionId error })
  | .killed sessionId, .ok result =>
      let session ← world.manager.objects.lookup sessionId
      some ((world.noteReport session.execution result.state).resume id call
        sessionId (world.manager.killedAndPolled moment session result))
  | .killed sessionId, .error error =>
      some (world.resume id call sessionId
        { manager := world.manager, stage := .settled (.error error) })
  | _, _ => none

def writeAnswered (world : SessionWorld) (moment : Moment) (id : CallId)
    (answer : Except Thrown Unit) :
    Option (SessionWorld × Option InstanceMark) := do
  let call ← world.calls.lookup id
  match call.stage, answer with
  | .writing sessionId, .ok () =>
      some (world.resume id call sessionId
        (world.manager.pollOrAbandon moment call.instanceId sessionId))
  | .writing sessionId, .error error =>
      some (world.resume id call sessionId
        { manager := world.manager, stage := .abandoning sessionId error })
  | _, _ => none

/-- What a call does once the backend has answered its kill. -/
def afterKill (manager : SessionManager) (moment : Moment)
    (instanceId : InstanceId) :
    SessionStage → Except Thrown Unit → Option (SessionId × SessionSegment)
  | .interrupting session, .ok () =>
      some (session, manager.pollOrAbandon moment instanceId session)
  | .interrupting session, .error error =>
      some (session, { manager, stage := .abandoning session error })
  | .killing session, .ok () =>
      some (session, { manager, stage :=
        match moment.getTurnHandle instanceId with
        | .ok () => .killed session
        | .error error => .settled (.error error) })
  | .killing session, .error error =>
      some (session, { manager, stage := .settled (.error error) })
  | .abandoning session error, _ =>
      some (session, manager.abandoned session error)
  | _, _ => none

def killAnswered (world : SessionWorld) (moment : Moment) (id : CallId)
    (answer : Except Thrown Unit) :
    Option (SessionWorld × Option InstanceMark) := do
  let call ← world.calls.lookup id
  let (sessionId, segment) ←
    afterKill world.manager moment call.instanceId call.stage answer
  let session ← world.manager.objects.lookup sessionId
  some ((world.noteKill session.execution answer).resume id call sessionId
    segment)

/-! ## Closing an instance -/

/-- The loop of `closeInstance` at its next session. -/
def closeNext (world : SessionWorld) (instanceId : InstanceId)
    (failures : List Thrown) : List SessionId → SessionWorld
  | [] =>
      { world with
        closings := world.closings.insert instanceId
          { stage := .settled
              (if failures.isEmpty then .ok ()
               else .error (.plain
                ("Failed to close sessions for instance " ++
                  toString instanceId)))
            failures } }
  | session :: rest =>
      { world with
        manager := world.manager.enqueue session (.closing instanceId)
        closings := world.closings.insert instanceId
          { stage := .queued session rest, failures } }

/-- The active sessions of an instance that the map lists. -/
def activeSessions (manager : SessionManager) (instanceId : InstanceId) :
    List SessionId :=
  manager.sessions.filter fun id =>
    (manager.objects.lookup id).any fun session =>
      session.instanceId = instanceId && session.active

/-- `closeInstance` up to its first await.  A turn ends once, so an instance
is closed once. -/
def closeInstance (world : SessionWorld) (instanceId : InstanceId) :
    Option SessionWorld :=
  match world.closings.lookup instanceId with
  | some _ => none
  | none =>
      let manager :=
        { world.manager with
          closingInstances := instanceId :: world.manager.closingInstances }
      some (closeNext { world with manager } instanceId []
        (activeSessions manager instanceId))

def closingEnters (world : SessionWorld) (moment : Moment)
    (instanceId : InstanceId) : Option SessionWorld := do
  let call ← world.closings.lookup instanceId
  match call.stage with
  | .queued session rest =>
      if world.manager.atHead session (.closing instanceId) then
        some { world with
          manager := world.manager.enter session moment.now
          closings := world.closings.insert instanceId
            { call with stage := .killing session rest false } }
      else none
  | _ => none

/-- A serial section of `closeInstance` has thrown. -/
def closingFails (world : SessionWorld) (instanceId : InstanceId)
    (failures : List Thrown) (session : SessionId) (rest : List SessionId)
    (error : Thrown) : SessionWorld :=
  closeNext
    { world with
      manager := world.manager.release session (.closing instanceId) }
    instanceId (failures ++ [error]) rest

def closingKillAnswered (world : SessionWorld) (moment : Moment)
    (instanceId : InstanceId) (answer : Except Thrown Unit) :
    Option SessionWorld := do
  let call ← world.closings.lookup instanceId
  match call.stage with
  | .killing sessionId rest again =>
      let session ← world.manager.objects.lookup sessionId
      let noted := world.noteKill session.execution answer
      match answer with
      | .error error =>
          some (noted.closingFails instanceId call.failures sessionId rest
            error)
      | .ok () =>
          match moment.getTurnHandle instanceId with
          | .error error =>
              some (noted.closingFails instanceId call.failures sessionId rest
                error)
          | .ok () =>
              some { noted with
                closings := noted.closings.insert instanceId
                  { call with stage := .polling sessionId rest again } }
  | _ => none

def closingPollAnswered (world : SessionWorld) (instanceId : InstanceId)
    (answer : Except Thrown ExecutionResult) : Option SessionWorld := do
  let call ← world.closings.lookup instanceId
  match call.stage, answer with
  | .polling sessionId rest _, .error error =>
      some (world.closingFails instanceId call.failures sessionId rest error)
  | .polling sessionId rest again, .ok result =>
      let session ← world.manager.objects.lookup sessionId
      let noted := world.noteReport session.execution result.state
      if result.state = .running then
        if again then
          some (noted.closingFails instanceId call.failures sessionId rest
            (.coded .backendError "Session did not reach a terminal state"))
        else
          some { noted with
            closings := noted.closings.insert instanceId
              { call with stage := .killing sessionId rest true } }
      else
        some (closeNext
          { noted with
            manager := (noted.manager.deactivate sessionId).release sessionId
              (.closing instanceId) }
          instanceId call.failures rest)
  | _, _ => none

/-! ## The expiry reaper -/

/-- The loop of `reapExpired` over the entries it has not passed. -/
def reapNext (manager : SessionManager) (now : Nat)
    (passed : List SessionId) :
    List SessionId → SessionManager × List SessionId × ReaperStage
  | [] => (manager, passed, .settled)
  | id :: rest =>
      match manager.objects.lookup id with
      | none => reapNext manager now (passed ++ [id]) rest
      | some session =>
          if now < session.expiresAt then
            reapNext manager now (passed ++ [id]) rest
          else if session.active then (manager, passed, .killing id)
          else reapNext (manager.delete id) now (passed ++ [id]) rest

def reapOn (world : SessionWorld) (id : Nat) (now : Nat)
    (passed : List SessionId) : SessionWorld :=
  let (manager, later, stage) := reapNext world.manager now passed
    (world.manager.sessions.filter fun session => session ∉ passed)
  { world with
    manager
    reapers := world.reapers.insert id { now, passed := later, stage } }

/-- `reapExpired` up to its first await. -/
def reapExpired (world : SessionWorld) (moment : Moment) (id : Nat) :
    Option SessionWorld :=
  match world.reapers.lookup id with
  | some _ => none
  | none => some (world.reapOn id moment.now [])

def reaperKillAnswered (world : SessionWorld) (id : Nat)
    (answer : Except Thrown Unit) : Option SessionWorld := do
  let reaper ← world.reapers.lookup id
  match reaper.stage with
  | .killing sessionId =>
      let session ← world.manager.objects.lookup sessionId
      let noted := world.noteKill session.execution answer
      let manager := (noted.manager.deactivate sessionId).delete sessionId
      some ({ noted with manager }.reapOn id reaper.now
        (reaper.passed ++ [sessionId]))
  | .settled => none

/-- One event and what it writes to the instance. -/
def step (moment : Moment) (world : SessionWorld) :
    SessionEvent → Option (SessionWorld × Option InstanceMark)
  | .begin id instanceId request =>
      (world.begin moment id instanceId request).map (·, none)
  | .enter id => world.enter moment id
  | .execAnswered id answer => world.execAnswered moment id answer
  | .pollAnswered id answer => world.pollAnswered moment id answer
  | .writeAnswered id answer => world.writeAnswered moment id answer
  | .killAnswered id answer => world.killAnswered moment id answer
  | .closeInstance instanceId =>
      (world.closeInstance instanceId).map (·, none)
  | .closingEnters instanceId =>
      (world.closingEnters moment instanceId).map (·, none)
  | .closingKillAnswered instanceId answer =>
      (world.closingKillAnswered moment instanceId answer).map (·, none)
  | .closingPollAnswered instanceId answer =>
      (world.closingPollAnswered instanceId answer).map (·, none)
  | .reapExpired id => (world.reapExpired moment id).map (·, none)
  | .reaperKillAnswered id answer =>
      (world.reaperKillAnswered id answer).map (·, none)

end SessionWorld

end Electrosphere
