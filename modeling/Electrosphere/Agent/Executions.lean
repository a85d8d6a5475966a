import Electrosphere.Domain.SessionManager

/-!
# The executions of the guest agent

The processes of the guest, the map `executions` of the agent and its answers
to `Exec`, `Write`, `Poll` and `Kill`.  The agent answers one request after
the other.  Where a request waits, for a signalled child or in `join_drains`,
the agent is not idle, and nothing else is answered meanwhile.

Times are nanoseconds.  Process ids are not reused.  The file requests leave
all of this alone and are left out.
-/

namespace Electrosphere.Agent

abbrev Pid := Nat

def maxOutputBytes : Nat := 1024 * 1024

/-- `usize::MAX`. -/
def usizeMax : Nat := 2 ^ 64 - 1

def fromMillis (millis : Nat) : Nat := millis * 1000000

/-! ## Output -/

structure OutputBuffer where
  bytes : Bytes := []
  total : Nat := 0

namespace OutputBuffer

def append (buffer : OutputBuffer) (chunk : Bytes) : OutputBuffer :=
  let total := min (buffer.total + chunk.length) usizeMax
  if total ≤ maxOutputBytes then
    { bytes := buffer.bytes ++ chunk, total }
  else
    let side := maxOutputBytes / 2
    let combined := buffer.bytes ++ chunk
    let suffixStart :=
      max (combined.length - side) (min side combined.length)
    { bytes := combined.take (min side combined.length) ++
        combined.drop suffixStart
      total }

def snapshot (buffer : OutputBuffer) : Bytes × Nat × Nat :=
  (buffer.bytes, buffer.total, buffer.total - buffer.bytes.length)

end OutputBuffer

/-! ## Processes -/

inductive Stream where
  | stdout
  | stderr
  deriving DecidableEq

/-- How a process has ended. -/
structure Exit where
  /-- `ExitStatus::code`, absent after a signal. -/
  code : Option Int
  time : Nat
  /-- A signal of the agent has ended it. -/
  killed : Bool
  deriving DecidableEq

structure Process where
  pid : Pid
  group : Pid
  /-- The write ends of output pipes that it holds open. -/
  holds : List (ExecutionId × Stream)
  /-- It goes on after `SIGTERM`. -/
  survivesTerm : Bool := false
  exit : Option Exit := none

def Process.alive (process : Process) : Bool := process.exit.isNone

def Process.holder (process : Process) (id : ExecutionId) : Bool :=
  process.alive &&
    process.holds.any fun pipe => decide (pipe.1 = id)

inductive Signal where
  | term
  | kill

/-! ## Requests and responses -/

inductive Request where
  | exec (executionId : ExecutionId) (command cwd : String)
      (env : List (String × String)) (tty : Bool) (timeoutMs : Nat)
  | write (executionId : ExecutionId) (chars : String)
  | poll (executionId : ExecutionId)
  | kill (executionId : ExecutionId) (graceMs : Option Nat)

structure Response where
  ok : Bool
  executionId : Option ExecutionId := none
  state : Option ExecutionState := none
  exitCode : Option Int := none
  output : Option (List Char) := none
  originalBytes : Option Nat := none
  outputOmittedBytes : Option Nat := none
  error : Option String := none
  errorCode : Option String := none

structure Execution where
  child : Pid
  /-- Written to the pipe of standard output and not yet read. -/
  stdout : Bytes := []
  stderr : Bytes := []
  output : OutputBuffer := {}
  /-- All that the drains have read, which no step looks at. -/
  read : Bytes := []
  started : Nat
  timeout : Option Nat
  tty : Bool

namespace Execution

def unread (execution : Execution) : Stream → Bytes
  | .stdout => execution.stdout
  | .stderr => execution.stderr

def setUnread (execution : Execution) (stream : Stream) (bytes : Bytes) :
    Execution :=
  match stream with
  | .stdout => { execution with stdout := bytes }
  | .stderr => { execution with stderr := bytes }

/-- A drain reads from its pipe. -/
def readFrom (execution : Execution) (stream : Stream) (count : Nat) :
    Execution :=
  let chunk := (execution.unread stream).take count
  { execution.setUnread stream ((execution.unread stream).drop count) with
    output := execution.output.append chunk
    read := execution.read ++ chunk }

/-- A deadline that has passed. -/
def timedOut (execution : Execution) (now : Nat) : Bool :=
  execution.timeout.any fun timeout => execution.started + timeout ≤ now

end Execution

def responseOk (executionId : ExecutionId) (state : ExecutionState)
    (exitCode : Option Int) : Response :=
  { ok := true, executionId := some executionId, state := some state, exitCode }

def responseError (error : String) : Response :=
  { ok := false, error := some error }

def responseErrorCode (code error : String) : Response :=
  { responseError error with errorCode := some code }

def responseWithOutput (response : Response) (output : OutputBuffer) :
    Response :=
  let (bytes, total, omitted) := output.snapshot
  { response with
    output := some (Foundation.Utf8.decodeLossy bytes)
    originalBytes := some total
    outputOmittedBytes := some omitted }

/-! ## The agent -/

/-- Where a request waits. -/
inductive Work where
  | idle
  /-- `kill_execution` before its `SIGKILL`. -/
  | terminating (executionId : ExecutionId) (deadline : Nat)
  /-- For the child and then in `join_drains`. -/
  | joining (executionId : ExecutionId) (state : ExecutionState)
  deriving DecidableEq

structure Guest where
  processes : List Process := []
  executions : Foundation.Table ExecutionId Execution := ∅
  work : Work := .idle
  now : Nat := 0

/-- What the system calls of a request return. -/
structure Environment where
  /-- The process id, if the spawn succeeds. -/
  spawn : Except String Pid := .error "spawn command"
  write : Except String Unit := .ok ()

namespace Guest

def process? (guest : Guest) (pid : Pid) : Option Process :=
  guest.processes.find? fun process => process.pid = pid

/-- `try_wait`. -/
def tryWait (guest : Guest) (execution : Execution) : Option Exit :=
  (guest.process? execution.child).bind Process.exit

/-- Whether a signal ends a process. -/
def ends (group : Pid) (signal : Signal) (process : Process) : Bool :=
  process.alive && decide (process.group = group) &&
    match signal with
    | .term => !process.survivesTerm
    | .kill => true

/-- `kill` on a process group. -/
def signal (guest : Guest) (group : Pid) (signal : Signal) : Guest :=
  { guest with
    processes := guest.processes.map fun process =>
      if ends group signal process then
        { process with
          exit := some { code := none, time := guest.now, killed := true } }
      else process }

/-- Some living process can still write to a pipe of the execution. -/
def isHeld (guest : Guest) (id : ExecutionId) : Bool :=
  guest.processes.any fun process => process.holder id

/-- Both drains have come to the end of their pipes. -/
def drained (guest : Guest) (id : ExecutionId) (execution : Execution) :
    Bool :=
  execution.stdout.isEmpty && execution.stderr.isEmpty && !guest.isHeld id

/-! ### Spawning -/

def validCwd (cwd : String) : Bool :=
  cwd = "/workspace" || "/workspace/".toList.isPrefixOf cwd.toList

def spawnExecution (guest : Guest) (id : ExecutionId) (cwd : String)
    (env : List (String × String)) (tty : Bool) (timeoutMs : Nat)
    (spawn : Except String Pid) : Except String Guest :=
  if validCwd cwd = false then .error "cwd must be inside /workspace"
  else if 128 < env.length ∨ 64 * 1024 <
      (env.map fun entry => entry.1.utf8ByteSize + entry.2.utf8ByteSize).sum
      then
    .error "environment is too large"
  else
    match spawn with
    | .error error => .error error
    | .ok pid =>
        .ok { guest with
          processes := guest.processes ++
            [{ pid, group := pid, holds := [(id, .stdout), (id, .stderr)] }]
          executions := guest.executions.insert id
            { child := pid, started := guest.now, tty
              timeout :=
                if 0 < timeoutMs then some (fromMillis timeoutMs) else none } }

/-! ### Requests -/

def serveExec (guest : Guest) (id : ExecutionId) (cwd : String)
    (env : List (String × String)) (tty : Bool) (timeoutMs : Nat)
    (spawn : Except String Pid) : Guest × Response :=
  if (guest.executions.lookup id).isSome then
    (guest, responseError "execution already exists")
  else if 64 ≤ guest.executions.entries.length then
    (guest, responseError "session capacity reached")
  else
    match guest.spawnExecution id cwd env tty timeoutMs spawn with
    | .ok spawned => (spawned, responseOk id .running none)
    | .error error => (guest, responseError error)

def serveWrite (guest : Guest) (id : ExecutionId)
    (written : Except String Unit) : Response :=
  match guest.executions.lookup id with
  | none => responseError "execution unavailable"
  | some execution =>
      if execution.tty then
        match written with
        | .ok () => responseOk id .running none
        | .error error => responseError error
      else responseError "non-TTY stdin is closed"

/-- `poll_execution` up to the point where it waits. -/
def servePoll (guest : Guest) (id : ExecutionId) : Guest × Option Response :=
  match guest.executions.lookup id with
  | none => (guest, some (responseError "execution unavailable"))
  | some execution =>
      if execution.timedOut guest.now then
        ({ guest.signal execution.child .kill with
          work := .joining id .timedOut }, none)
      else
        match guest.tryWait execution with
        | some _ => ({ guest with work := .joining id .completed }, none)
        | none =>
            (guest, some (responseWithOutput (responseOk id .running none)
              execution.output))

/-- `kill_execution` up to the point where it waits. -/
def serveKill (guest : Guest) (id : ExecutionId) (graceMs : Nat) :
    Guest × Option Response :=
  match guest.executions.lookup id with
  | none => (guest, some (responseError "execution unavailable"))
  | some execution =>
      ({ guest.signal execution.child .term with
        work := .terminating id (guest.now + fromMillis graceMs) }, none)

def serve (guest : Guest) (environment : Environment) :
    Request → Guest × Option Response
  | .exec id _ cwd env tty timeoutMs =>
      let (served, response) :=
        guest.serveExec id cwd env tty timeoutMs environment.spawn
      (served, some response)
  | .write id _ => (guest, some (guest.serveWrite id environment.write))
  | .poll id => guest.servePoll id
  | .kill id graceMs => guest.serveKill id (graceMs.getD 1000)

/-- What a request answers once the drains are joined. -/
def joinedResponse (id : ExecutionId) (state : ExecutionState)
    (execution : Execution) (exit : Exit) (exhausted : Bool) : Response :=
  match state with
  | .timedOut =>
      responseWithOutput (responseOk id .timedOut none) execution.output
  | .completed =>
      if exit.code ≠ some 0 ∧ exhausted then
        responseErrorCode "STORAGE_EXHAUSTED" "workspace disk is full"
      else
        responseWithOutput (responseOk id .completed exit.code)
          execution.output
  | state =>
      responseWithOutput (responseOk id state exit.code) execution.output

/-- The agent goes on with the request it is at, if it need not wait. -/
def advance (guest : Guest) (exhausted : Bool) :
    Option (Guest × Option (ExecutionId × Response)) := do
  match guest.work with
  | .idle => none
  | .terminating id deadline =>
      let execution ← guest.executions.lookup id
      match guest.tryWait execution with
      | some _ => some ({ guest with work := .joining id .canceled }, none)
      | none =>
          if deadline ≤ guest.now then
            some ({ guest.signal execution.child .kill with
              work := .joining id .canceled }, none)
          else none
  | .joining id state =>
      let execution ← guest.executions.lookup id
      let exit ← guest.tryWait execution
      if guest.drained id execution then
        some ({ guest with work := .idle },
          some (id, joinedResponse id state execution exit exhausted))
      else none

end Guest

/-! ## Everything else in the guest -/

/-- What happens between two steps of the main loop. -/
inductive Happening where
  | tick (time : Nat)
  | forks (parent pid : Pid)
  /-- `setpgid` or `setsid`. -/
  | joinsGroup (pid group : Pid)
  /-- It changes what `SIGTERM` does to it. -/
  | traps (pid : Pid) (survivesTerm : Bool)
  | closes (pid : Pid) (pipe : ExecutionId × Stream)
  | writes (pid : Pid) (pipe : ExecutionId × Stream) (bytes : Bytes)
  | exits (pid : Pid) (code : Option Int)
  /-- A drain reads. -/
  | reads (pipe : ExecutionId × Stream) (count : Nat)

/-- Done by a guest process, and not by the agent or the clock. -/
def Happening.ofProcess : Happening → Bool
  | .tick _ | .reads _ _ => false
  | _ => true

namespace Guest

def changeProcess (guest : Guest) (pid : Pid) (change : Process → Process) :
    Guest :=
  { guest with
    processes := guest.processes.map fun process =>
      if process.pid = pid then change process else process }

/-- Change a process that has not ended. -/
def changeAlive (guest : Guest) (pid : Pid) (change : Process → Process) :
    Option Guest :=
  if (guest.process? pid).any Process.alive then
    some (guest.changeProcess pid change)
  else none

/-- A drain reads up to 8192 bytes. -/
def readPipe (guest : Guest) (pipe : ExecutionId × Stream) (count : Nat) :
    Option Guest := do
  let execution ← guest.executions.lookup pipe.1
  if 0 < count ∧ count ≤ 8192 ∧ count ≤ (execution.unread pipe.2).length then
    some { guest with
      executions := guest.executions.insert pipe.1
        (execution.readFrom pipe.2 count) }
  else none

def happen (guest : Guest) : Happening → Option Guest
  | .tick time =>
      if guest.now ≤ time then some { guest with now := time } else none
  | .forks parent pid => do
      let process ← guest.process? parent
      if process.alive ∧ guest.process? pid = none then
        some { guest with
          processes := guest.processes ++ [{ process with pid }] }
      else none
  | .joinsGroup pid group =>
      guest.changeAlive pid fun process => { process with group }
  | .traps pid survivesTerm =>
      guest.changeAlive pid fun process => { process with survivesTerm }
  | .closes pid pipe =>
      guest.changeAlive pid fun process =>
        { process with holds := process.holds.filter fun held => held ≠ pipe }
  | .writes pid pipe bytes => do
      let process ← guest.process? pid
      let execution ← guest.executions.lookup pipe.1
      if process.alive ∧ pipe ∈ process.holds then
        some { guest with
          executions := guest.executions.insert pipe.1
            (execution.setUnread pipe.2
              (execution.unread pipe.2 ++ bytes)) }
      else none
  | .exits pid code =>
      guest.changeAlive pid fun process =>
        { process with
          exit := some { code, time := guest.now, killed := false } }
  | .reads pipe count => guest.readPipe pipe count

end Guest

end Electrosphere.Agent
