import Electrosphere.Agent.Executions
import Electrosphere.Foundation.Transition

/-!
# Runs of the guest agent

The main loop takes up a request when it has answered the one before, and goes
on with the one it is at; between its steps anything happens in the guest.
`Evolves` is what every step keeps: time, what an execution was started with,
and how a process has ended.
-/

namespace Electrosphere.Agent

open Foundation

/-! ## Guests over time -/

/-- What the executions are started with stays. -/
def Execution.SameStart (before after : Execution) : Prop :=
  after.child = before.child ∧ after.started = before.started ∧
    after.timeout = before.timeout

namespace Guest

variable {guest after : Guest} {id : ExecutionId} {execution : Execution}

structure Evolves (before after : Guest) : Prop where
  time : before.now ≤ after.now
  executions : ∀ id execution, before.executions.lookup id = some execution →
    ∃ later, after.executions.lookup id = some later ∧
      execution.SameStart later
  exits : ∀ pid exit, (before.process? pid).bind Process.exit = some exit →
    (after.process? pid).bind Process.exit = some exit

theorem Evolves.refl (guest : Guest) : guest.Evolves guest where
  time := Nat.le_refl _
  executions := fun _ execution found => ⟨execution, found, rfl, rfl, rfl⟩
  exits := fun _ _ ended => ended

theorem Evolves.tryWait (evolves : guest.Evolves after)
    {later : Execution} (same : execution.SameStart later) {exit : Exit}
    (exited : guest.tryWait execution = some exit) :
    after.tryWait later = some exit := by
  unfold Guest.tryWait
  rw [same.1]
  exact evolves.exits _ _ exited

/-! ### One change -/

/-- A change of the processes that leaves those that have ended alone. -/
theorem process?_map {processes : List Process} {pid : Pid}
    {change : Process → Process}
    (keeps : ∀ process, (change process).pid = process.pid) :
    (processes.map change).find? (fun process => process.pid = pid) =
      (processes.find? fun process => process.pid = pid).map change := by
  rw [List.find?_map]
  congr 2
  funext process
  simp [keeps]

theorem exits_map {change : Process → Process}
    (keeps : ∀ process, (change process).pid = process.pid)
    (ended : ∀ process exit, guest.process? process.pid = some process →
      process.exit = some exit → (change process).exit = some exit)
    {pid : Pid} {exit : Exit}
    (exited : (guest.process? pid).bind Process.exit = some exit) :
    ((guest.processes.map change).find?
      (fun process => process.pid = pid)).bind Process.exit = some exit := by
  rw [process?_map keeps]
  obtain ⟨process, found, isExit⟩ := Option.bind_eq_some_iff.mp exited
  have isPid : process.pid = pid := by
    simpa using List.find?_some found
  unfold process? at found
  rw [found]
  apply ended process exit _ isExit
  rw [isPid]
  exact found

theorem signal_evolves (guest : Guest) (group : Pid) (signal : Signal) :
    guest.Evolves (guest.signal group signal) where
  time := Nat.le_refl _
  executions := fun _ execution found => ⟨execution, found, rfl, rfl, rfl⟩
  exits := by
    intro pid exit exited
    apply exits_map _ _ exited
    · intro process
      split <;> rfl
    · intro process exit _ isExit
      rw [if_neg]
      · exact isExit
      · simp [ends, Process.alive, isExit]

theorem changeAlive_evolves {pid : Pid} {change : Process → Process}
    (keeps : ∀ process, (change process).pid = process.pid)
    (changed : guest.changeAlive pid change = some after) :
    guest.Evolves after := by
  unfold changeAlive at changed
  split at changed
  case isFalse => cases changed
  case isTrue isAlive =>
    cases changed
    refine ⟨Nat.le_refl _, fun _ execution found =>
      ⟨execution, found, rfl, rfl, rfl⟩, ?_⟩
    intro other exit exited
    apply exits_map _ _ exited
    · intro process
      split
      · exact keeps process
      · rfl
    · intro process exit found isExit
      split
      case isTrue same =>
        rw [← same, found] at isAlive
        simp [Process.alive, isExit] at isAlive
      case isFalse => exact isExit

theorem append_evolves (guest : Guest) (process : Process)
    (executions : Table ExecutionId Execution)
    (kept : ∀ id execution, guest.executions.lookup id = some execution →
      executions.lookup id = some execution) :
    guest.Evolves { guest with
      processes := guest.processes ++ [process], executions } where
  time := Nat.le_refl _
  executions := fun id execution found =>
    ⟨execution, kept id execution found, rfl, rfl, rfl⟩
  exits := by
    intro pid exit exited
    obtain ⟨known, found, isExit⟩ := Option.bind_eq_some_iff.mp exited
    unfold process? at found ⊢
    rw [List.find?_append, found]
    exact isExit

theorem insert_evolves {next : Execution}
    (found : guest.executions.lookup id = some execution)
    (same : execution.SameStart next) :
    guest.Evolves { guest with
      executions := guest.executions.insert id next } where
  time := Nat.le_refl _
  executions := by
    intro other known isKnown
    by_cases isId : other = id
    · subst other
      rw [found] at isKnown
      cases isKnown
      exact ⟨next, AList.lookup_insert _, same⟩
    · exact ⟨known, (AList.lookup_insert_ne isId).trans isKnown,
        rfl, rfl, rfl⟩
  exits := fun _ _ exited => exited

theorem setUnread_sameStart (execution : Execution) (stream : Stream)
    (bytes : Bytes) :
    execution.SameStart (execution.setUnread stream bytes) := by
  cases stream <;> exact ⟨rfl, rfl, rfl⟩

theorem readFrom_sameStart (execution : Execution) (stream : Stream)
    (count : Nat) :
    execution.SameStart (execution.readFrom stream count) := by
  cases stream <;> exact ⟨rfl, rfl, rfl⟩

theorem readPipe_eq {pipe : ExecutionId × Stream} {count : Nat}
    (taken : guest.readPipe pipe count = some after) :
    ∃ execution, guest.executions.lookup pipe.1 = some execution ∧
      0 < count ∧ count ≤ 8192 ∧ count ≤ (execution.unread pipe.2).length ∧
      after = { guest with
        executions := guest.executions.insert pipe.1
          (execution.readFrom pipe.2 count) } := by
  obtain ⟨execution, found, rest⟩ := Option.bind_eq_some_iff.mp taken
  split at rest
  case isFalse => cases rest
  case isTrue fits =>
    cases rest
    exact ⟨execution, found, fits.1, fits.2.1, fits.2.2, rfl⟩

theorem happen_evolves {happening : Happening}
    (taken : guest.happen happening = some after) : guest.Evolves after := by
  cases happening with
  | tick time =>
      dsimp only [happen] at taken
      split at taken
      case isFalse => cases taken
      case isTrue forward =>
        cases taken
        exact ⟨forward, fun _ execution found =>
          ⟨execution, found, rfl, rfl, rfl⟩, fun _ _ exited => exited⟩
  | forks parent pid =>
      obtain ⟨process, _, rest⟩ := Option.bind_eq_some_iff.mp taken
      split at rest
      case isFalse => cases rest
      case isTrue =>
        cases rest
        exact append_evolves guest _ guest.executions fun _ _ found => found
  | joinsGroup | traps | closes | exits =>
      refine changeAlive_evolves ?_ taken
      intro process
      rfl
  | writes pid pipe bytes =>
      obtain ⟨process, _, rest⟩ := Option.bind_eq_some_iff.mp taken
      obtain ⟨execution, found, rest⟩ := Option.bind_eq_some_iff.mp rest
      split at rest
      case isFalse => cases rest
      case isTrue =>
        cases rest
        exact insert_evolves found (setUnread_sameStart _ _ _)
  | reads pipe count =>
      obtain ⟨execution, found, _, _, _, rfl⟩ := readPipe_eq taken
      apply insert_evolves found
      exact readFrom_sameStart execution pipe.2 count

theorem serveExec_evolves (guest : Guest) (id : ExecutionId) (cwd : String)
    (env : List (String × String)) (tty : Bool) (timeoutMs : Nat)
    (spawn : Except String Pid) :
    guest.Evolves
      (guest.serveExec id cwd env tty timeoutMs spawn).1 := by
  unfold serveExec
  split
  · exact .refl guest
  · rename_i absent
    split
    · exact .refl guest
    · split
      case h_2 => exact .refl guest
      case h_1 spawned isSpawned =>
        unfold spawnExecution at isSpawned
        split at isSpawned
        · cases isSpawned
        · split at isSpawned
          · cases isSpawned
          · split at isSpawned
            · cases isSpawned
            · cases isSpawned
              apply append_evolves
              intro other execution found
              rw [AList.lookup_insert_ne]
              · exact found
              · rintro rfl
                simp [found] at absent

theorem serve_evolves (guest : Guest) (environment : Environment)
    (request : Request) :
    guest.Evolves (guest.serve environment request).1 := by
  have idle : ∀ (before : Guest) (work : Work), guest.Evolves before →
      guest.Evolves { before with work } := by
    intro before work evolves
    exact ⟨evolves.time, evolves.executions, evolves.exits⟩
  cases request with
  | exec id command cwd env tty timeoutMs =>
      exact serveExec_evolves guest id cwd env tty timeoutMs environment.spawn
  | write => exact .refl guest
  | poll id =>
      change guest.Evolves (guest.servePoll id).1
      unfold servePoll
      split
      · exact .refl guest
      · split
        · exact idle _ _ (signal_evolves guest _ _)
        · split
          · exact idle _ _ (.refl guest)
          · exact .refl guest
  | kill id graceMs =>
      change guest.Evolves (guest.serveKill id (graceMs.getD 1000)).1
      unfold serveKill
      split
      · exact .refl guest
      · exact idle _ _ (signal_evolves guest _ _)

/-- What the agent does when it need not wait. -/
inductive Advanced (guest : Guest) (exhausted : Bool) :
    Guest → Option (ExecutionId × Response) → Prop where
  | exited {id : ExecutionId} {deadline : Nat} {execution : Execution}
      {exit : Exit} :
      guest.work = .terminating id deadline →
      guest.executions.lookup id = some execution →
      guest.tryWait execution = some exit →
      Advanced guest exhausted { guest with work := .joining id .canceled }
        none
  | forced {id : ExecutionId} {deadline : Nat} {execution : Execution} :
      guest.work = .terminating id deadline →
      guest.executions.lookup id = some execution →
      guest.tryWait execution = none →
      deadline ≤ guest.now →
      Advanced guest exhausted
        { guest.signal execution.child .kill with
          work := .joining id .canceled } none
  | joined {id : ExecutionId} {state : ExecutionState}
      {execution : Execution} {exit : Exit} :
      guest.work = .joining id state →
      guest.executions.lookup id = some execution →
      guest.tryWait execution = some exit →
      guest.drained id execution = true →
      Advanced guest exhausted { guest with work := .idle }
        (some (id, joinedResponse id state execution exit exhausted))

theorem advanced {exhausted : Bool} {answer : Option (ExecutionId × Response)}
    (taken : guest.advance exhausted = some (after, answer)) :
    Advanced guest exhausted after answer := by
  unfold advance at taken
  split at taken
  case h_1 => cases taken
  case h_2 id deadline isWork =>
    obtain ⟨execution, found, rest⟩ := Option.bind_eq_some_iff.mp taken
    split at rest
    case h_1 exit exited =>
      cases rest
      exact .exited isWork found exited
    case h_2 running =>
      split at rest
      case isFalse => cases rest
      case isTrue late =>
        cases rest
        exact .forced isWork found running late
  case h_3 id state isWork =>
    obtain ⟨execution, found, rest⟩ := Option.bind_eq_some_iff.mp taken
    obtain ⟨exit, exited, rest⟩ := Option.bind_eq_some_iff.mp rest
    split at rest
    case isFalse => cases rest
    case isTrue isDrained =>
      cases rest
      exact .joined isWork found exited isDrained

theorem Advanced.evolves {exhausted : Bool}
    {answer : Option (ExecutionId × Response)}
    (advanced : Advanced guest exhausted after answer) :
    guest.Evolves after := by
  have same := Evolves.refl guest
  cases advanced with
  | exited => exact ⟨same.time, same.executions, same.exits⟩
  | @forced id deadline execution =>
      have signalled := signal_evolves guest execution.child .kill
      exact ⟨signalled.time, signalled.executions, signalled.exits⟩
  | joined => exact ⟨same.time, same.executions, same.exits⟩

end Guest

/-! ## The main loop -/

/-- An answer to `Poll` or `Kill`. -/
structure Answer where
  executionId : ExecutionId
  response : Response

structure MainLoop where
  guest : Guest := {}
  /-- The answers given to `Poll` and `Kill`, which no step looks at. -/
  answers : List Answer := []

inductive Event where
  | serve (request : Request) (environment : Environment)
  | advance (exhausted : Bool)
  | happens (happening : Happening)

/-- The execution that a `Poll` or `Kill` is about. -/
def Request.asks : Request → Option ExecutionId
  | .poll id | .kill id _ => some id
  | .exec .. | .write .. => none

/-- The environment spawns a process with an id of its own. -/
def Environment.fresh (environment : Environment) (guest : Guest) : Bool :=
  match environment.spawn with
  | .ok pid => (guest.process? pid).isNone
  | .error _ => true

namespace MainLoop

def step (loop : MainLoop) : Event → Option MainLoop
  | .serve request environment =>
      if loop.guest.work = .idle ∧ environment.fresh loop.guest then
        let (guest, response) := loop.guest.serve environment request
        some { guest
               answers := loop.answers ++
                 match request.asks, response with
                 | some executionId, some response =>
                     [{ executionId, response }]
                 | _, _ => [] }
      else none
  | .advance exhausted => do
      let (guest, answer) ← loop.guest.advance exhausted
      some { guest
             answers := loop.answers ++
               match answer with
               | some (executionId, response) => [{ executionId, response }]
               | none => [] }
  | .happens happening => do
      let guest ← loop.guest.happen happening
      some { loop with guest }

variable {loop next : MainLoop} {event : Event}

end MainLoop

end Electrosphere.Agent
