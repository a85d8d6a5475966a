import Electrosphere.Agent.MainLoop

/-!
# Terminal states of executions

The state of an execution is computed anew for each `Poll` and `Kill`.  It
stays what it was first reported to be as long as no poll of a completed
execution comes after its deadline, no kill comes after another terminal
state, and no poll after a kill.
-/

namespace Electrosphere.Agent

def Response.isTerminal (response : Response) : Bool :=
  response.state.any fun state => decide (state ≠ .running)

/-- The child has exited by itself and before the deadline. -/
def Execution.ExitedInTime (execution : Execution) (exit : Exit) : Prop :=
  exit.killed = false ∧ ∀ timeout, execution.timeout = some timeout →
    exit.time < execution.started + timeout

/-- The terminal state that has been reported of an execution first. -/
def firstReported (answers : List Answer) (id : ExecutionId) :
    Option ExecutionState :=
  (answers.find? fun answer =>
    decide (answer.executionId = id) && answer.response.isTerminal).bind
      fun answer => answer.response.state

namespace MainLoop

def reported (loop : MainLoop) (id : ExecutionId) : Option ExecutionState :=
  firstReported loop.answers id

/-- A step that leaves what has been reported true. -/
def Agrees (loop : MainLoop) : Event → Prop
  | .serve (.poll id) _ =>
      ∀ execution, loop.guest.executions.lookup id = some execution →
        match loop.reported id with
        | none => ∀ exit, loop.guest.tryWait execution = some exit →
            execution.ExitedInTime exit →
            execution.timedOut loop.guest.now = false
        | some .completed => execution.timedOut loop.guest.now = false
        | some .timedOut => True
        | some _ => False
  | .serve (.kill id _) _ =>
      loop.reported id = none ∨ loop.reported id = some .canceled
  | .advance exhausted =>
      ∀ id execution exit, loop.guest.work = .joining id .completed →
        loop.reported id = some .completed →
        loop.guest.executions.lookup id = some execution →
        loop.guest.tryWait execution = some exit →
        exit.code = some 0 ∨ exhausted = false
  | _ => True

/-- Runs whose steps all agree with what has been reported. -/
inductive Runs : MainLoop → Prop where
  | start : Runs {}
  | step {loop next : MainLoop} {event : Event} :
      Runs loop → loop.Agrees event → loop.step event = some next → Runs next

/-- What has been reported of an execution is reported of it ever after. -/
def Final (loop : MainLoop) : Prop :=
  loop.answers.Pairwise fun first later =>
    first.executionId = later.executionId →
    first.response.isTerminal = true →
    later.response.state = first.response.state ∧
      later.response.exitCode = first.response.exitCode

/-- An execution that has exited by itself in time is not reported to have
timed out. -/
def Punctual (loop : MainLoop) : Prop :=
  ∀ answer ∈ loop.answers, answer.response.state = some .timedOut →
    ∀ execution exit,
      loop.guest.executions.lookup answer.executionId = some execution →
      loop.guest.tryWait execution = some exit →
      ¬ execution.ExitedInTime exit

/-! ## The invariant -/

/-- What a terminal report told about the execution it is about. -/
def Settles (guest : Guest) (id : ExecutionId) (state : ExecutionState)
    (exitCode : Option Int) : Prop :=
  ∃ execution exit, guest.executions.lookup id = some execution ∧
    guest.tryWait execution = some exit ∧
    match state with
    | .completed | .canceled => exitCode = exit.code
    | .timedOut => exitCode = none ∧
        execution.timedOut guest.now = true ∧ ¬ execution.ExitedInTime exit
    | _ => False

/-- What the request that the agent is at will report agrees with what has
been reported. -/
def Pending (loop : MainLoop) : Prop :=
  match loop.guest.work with
  | .idle => True
  | .terminating id _ =>
      loop.reported id = none ∨ loop.reported id = some .canceled
  | .joining id state =>
      (loop.reported id = none ∨ loop.reported id = some state) ∧
      match state with
      | .completed | .canceled => True
      | .timedOut => ∃ execution,
          loop.guest.executions.lookup id = some execution ∧
          execution.timedOut loop.guest.now = true ∧
          ∀ exit, loop.guest.tryWait execution = some exit →
            ¬ execution.ExitedInTime exit
      | _ => False

structure Truthful (loop : MainLoop) : Prop where
  settled : ∀ answer ∈ loop.answers, answer.response.isTerminal = true →
    ∃ state, answer.response.state = some state ∧
      loop.reported answer.executionId = some state ∧
      Settles loop.guest answer.executionId state answer.response.exitCode
  pending : loop.Pending
  final : loop.Final

/-- An answer that agrees with what has been reported. -/
def Faithful (loop : MainLoop) (guest : Guest) (answer : Answer) : Prop :=
  (answer.response.isTerminal = false ∧
    loop.reported answer.executionId = none) ∨
  ∃ state, answer.response.state = some state ∧
    answer.response.isTerminal = true ∧
    (loop.reported answer.executionId = none ∨
      loop.reported answer.executionId = some state) ∧
    Settles guest answer.executionId state answer.response.exitCode

variable {loop next : MainLoop} {guest after : Guest} {id : ExecutionId}
  {execution : Execution} {exit : Exit} {state : ExecutionState}
  {exitCode : Option Int}

theorem timedOut_mono (execution : Execution) {now later : Nat}
    (forward : now ≤ later) (late : execution.timedOut now = true) :
    execution.timedOut later = true := by
  unfold Execution.timedOut at late ⊢
  cases isTimeout : execution.timeout with
  | none => simp [isTimeout] at late
  | some timeout =>
      simp only [isTimeout, Option.any_some, decide_eq_true_eq] at late ⊢
      omega

theorem timedOut_sameStart {later : Execution}
    (same : execution.SameStart later) (now : Nat) :
    later.timedOut now = execution.timedOut now := by
  unfold Execution.timedOut
  rw [same.2.1, same.2.2]

theorem exitedInTime_sameStart {later : Execution}
    (same : execution.SameStart later) :
    later.ExitedInTime exit ↔ execution.ExitedInTime exit := by
  unfold Execution.ExitedInTime
  rw [same.2.1, same.2.2]

theorem Settles.evolve (settles : Settles guest id state exitCode)
    (evolves : guest.Evolves after) : Settles after id state exitCode := by
  obtain ⟨execution, exit, found, exited, told⟩ := settles
  obtain ⟨later, isLater, same⟩ := evolves.executions id execution found
  refine ⟨later, exit, isLater, evolves.tryWait same exited, ?_⟩
  cases state with
  | timedOut =>
      obtain ⟨isNone, late, notInTime⟩ := told
      refine ⟨isNone, ?_, ?_⟩
      · rw [timedOut_sameStart same]
        exact timedOut_mono execution evolves.time late
      · rw [exitedInTime_sameStart same]
        exact notInTime
  | _ => exact told

/-- The report of a settled execution determines its exit code. -/
theorem Settles.unique {other : Option Int}
    (first : Settles guest id state exitCode)
    (second : Settles guest id state other) : other = exitCode := by
  obtain ⟨execution, exit, found, exited, told⟩ := first
  obtain ⟨execution', exit', found', exited', told'⟩ := second
  rw [found] at found'
  cases found'
  rw [exited] at exited'
  cases exited'
  cases state with
  | completed => exact told'.trans told.symm
  | canceled => exact told'.trans told.symm
  | timedOut => exact told'.1.trans told.1.symm
  | running => exact told.elim
  | failed => exact told.elim
  | lost => exact told.elim

theorem firstReported_append (answers : List Answer) (answer : Answer) :
    firstReported (answers ++ [answer]) id =
      if firstReported answers id = none ∧ answer.executionId = id ∧
          answer.response.isTerminal = true then
        answer.response.state
      else firstReported answers id := by
  have stated : ∀ earlier : Answer, earlier.response.isTerminal = true →
      earlier.response.state ≠ none := by
    intro earlier terminal absent
    simp [Response.isTerminal, absent] at terminal
  unfold firstReported
  rw [List.find?_append]
  cases found : answers.find? (fun answer =>
      decide (answer.executionId = id) && answer.response.isTerminal) with
  | some earlier =>
      have isTerminal := List.find?_some found
      simp only [Bool.and_eq_true, decide_eq_true_eq] at isTerminal
      simp [stated earlier isTerminal.2]
  | none =>
      by_cases matching : answer.executionId = id ∧
          answer.response.isTerminal = true
      · simp [matching]
      · rw [if_neg (by simpa using matching)]
        simp [matching]

/-- Every step either answers nothing or gives an answer that agrees. -/
structure Extends (loop next : MainLoop) : Prop where
  evolves : loop.guest.Evolves next.guest
  answers : next.answers = loop.answers ∨
    ∃ answer, next.answers = loop.answers ++ [answer] ∧
      loop.Faithful next.guest answer

theorem Extends.final (extended : loop.Extends next)
    (truthful : loop.Truthful) : next.Final := by
  rcases extended.answers with same | ⟨answer, isNext, faithful⟩
  · unfold Final
    rw [same]
    exact truthful.final
  · unfold Final
    rw [isNext, List.pairwise_append]
    refine ⟨truthful.final, List.pairwise_singleton _ _, ?_⟩
    intro earlier member later isLater sameId terminal
    cases List.mem_singleton.mp isLater
    obtain ⟨state, isState, isReported, settles⟩ :=
      truthful.settled earlier member terminal
    rw [sameId] at isReported
    rcases faithful with ⟨_, absent⟩ | ⟨other, isOther, _, agrees, settled⟩
    · rw [isReported] at absent
      cases absent
    · have same : other = state := by
        rw [isReported] at agrees
        rcases agrees with impossible | same
        · cases impossible
        · exact (Option.some.inj same).symm
      subst same
      refine ⟨isOther.trans isState.symm, ?_⟩
      rw [sameId] at settles
      exact (settles.evolve extended.evolves).unique settled

theorem Extends.settled (extended : loop.Extends next)
    (truthful : loop.Truthful) :
    ∀ answer ∈ next.answers, answer.response.isTerminal = true →
      ∃ state, answer.response.state = some state ∧
        next.reported answer.executionId = some state ∧
        Settles next.guest answer.executionId state
          answer.response.exitCode := by
  intro given member terminal
  rcases extended.answers with same | ⟨answer, isNext, faithful⟩
  · rw [same] at member
    obtain ⟨state, isState, isReported, settles⟩ :=
      truthful.settled given member terminal
    refine ⟨state, isState, ?_, settles.evolve extended.evolves⟩
    unfold reported
    rw [same]
    exact isReported
  · unfold reported
    rw [isNext] at member ⊢
    rw [firstReported_append]
    rcases List.mem_append.mp member with earlier | isAnswer
    · obtain ⟨state, isState, isReported, settles⟩ :=
        truthful.settled given earlier terminal
      refine ⟨state, isState, ?_, settles.evolve extended.evolves⟩
      unfold reported at isReported
      rw [isReported]
      simp
    · cases List.mem_singleton.mp isAnswer
      rcases faithful with ⟨notTerminal, _⟩ |
        ⟨state, isState, _, agrees, settles⟩
      · rw [terminal] at notTerminal
        cases notTerminal
      · refine ⟨state, isState, ?_, settles⟩
        unfold reported at agrees
        rcases agrees with absent | isReported
        · simp [absent, terminal, isState]
        · rw [isReported]
          simp

/-! ## Steps that agree -/

theorem Truthful.settles (truthful : loop.Truthful)
    (isReported : loop.reported id = some state) :
    ∃ exitCode, Settles loop.guest id state exitCode := by
  obtain ⟨answer, found, isState⟩ := Option.bind_eq_some_iff.mp isReported
  have isTerminal := List.find?_some found
  simp only [Bool.and_eq_true, decide_eq_true_eq] at isTerminal
  obtain ⟨same, isReported', settles⟩ :=
    truthful.settled answer (List.mem_of_find?_eq_some found) isTerminal.2
  obtain ⟨sameState, isSettled⟩ := settles
  rw [isTerminal.1, isReported] at sameState
  cases sameState
  rw [isTerminal.1] at isSettled
  exact ⟨_, isSettled⟩

theorem serveExec_work (guest : Guest) (id : ExecutionId) (cwd : String)
    (env : List (String × String)) (tty : Bool) (timeoutMs : Nat)
    (spawn : Except String Pid) :
    (guest.serveExec id cwd env tty timeoutMs spawn).1.work = guest.work := by
  unfold Guest.serveExec
  split
  · rfl
  · split
    · rfl
    · split
      case h_2 => rfl
      case h_1 spawned isSpawned =>
        unfold Guest.spawnExecution at isSpawned
        split at isSpawned
        · cases isSpawned
        · split at isSpawned
          · cases isSpawned
          · split at isSpawned
            · cases isSpawned
            · cases isSpawned
              rfl

/-- An execution whose terminal state has been reported has ended. -/
theorem Settles.ended (settles : Settles guest id state exitCode) :
    ∃ execution exit, guest.executions.lookup id = some execution ∧
      guest.tryWait execution = some exit := by
  obtain ⟨execution, exit, found, exited, _⟩ := settles
  exact ⟨execution, exit, found, exited⟩

/-- A poll or kill that is answered at once has nothing terminal to say. -/
theorem Truthful.unreported (truthful : loop.Truthful)
    (running : ∀ execution, loop.guest.executions.lookup id = some execution →
      loop.guest.tryWait execution = none) : loop.reported id = none := by
  cases isReported : loop.reported id with
  | none => rfl
  | some state =>
      obtain ⟨_, settles⟩ := truthful.settles isReported
      obtain ⟨execution, exit, found, exited⟩ := settles.ended
      rw [running execution found] at exited
      cases exited

theorem signal_exit (group : Pid) (signal : Signal)
    (exited : (guest.signal group signal).tryWait execution = some exit) :
    guest.tryWait execution = some exit ∨ exit.killed = true := by
  unfold Guest.tryWait Guest.process? Guest.signal at exited
  rw [Guest.process?_map] at exited
  · obtain ⟨process, found, isExit⟩ := Option.bind_eq_some_iff.mp exited
    obtain ⟨before, isBefore, same⟩ := Option.map_eq_some_iff.mp found
    subst same
    split at isExit
    · cases isExit
      exact .inr rfl
    · left
      unfold Guest.tryWait Guest.process?
      rw [isBefore]
      exact isExit
  · intro process
    split <;> rfl

/-- A request is answered at once and agrees, or the agent is at it. -/
def Served (loop : MainLoop) (id : ExecutionId)
    (served : Guest × Option Response) : Prop :=
  (∀ response, served.2 = some response →
    loop.Faithful served.1 { executionId := id, response } ∧
      served.1.work = loop.guest.work) ∧
  (served.2 = none → Pending { loop with guest := served.1 })

theorem servePoll_extends (truthful : loop.Truthful)
    {environment : Environment}
    (agrees : loop.Agrees (.serve (.poll id) environment)) :
    loop.Served id (loop.guest.servePoll id) := by
  unfold Guest.servePoll
  cases found : loop.guest.executions.lookup id with
  | none =>
      dsimp only
      refine ⟨?_, by simp⟩
      intro response' isResponse
      cases isResponse
      refine ⟨.inl ⟨rfl, ?_⟩, rfl⟩
      apply truthful.unreported
      intro execution isKnown
      rw [found] at isKnown
      cases isKnown
  | some execution =>
      have agrees := agrees execution found
      dsimp only
      split
      case isTrue late =>
        refine ⟨by simp, fun _ => ⟨?_, execution, found, late, ?_⟩⟩
        · cases isReported : loop.reported id with
          | none => exact .inl isReported
          | some state =>
              rw [isReported] at agrees
              cases state with
              | timedOut => exact .inr isReported
              | completed =>
                  dsimp only at agrees
                  rw [late] at agrees
                  cases agrees
              | _ => exact agrees.elim
        · intro exit exited inTime
          rcases signal_exit _ _ exited with before | killed
          · cases isReported : loop.reported id with
            | none =>
                rw [isReported] at agrees
                have early := agrees exit before inTime
                rw [late] at early
                cases early
            | some state =>
                obtain ⟨_, known, exit', isKnown, exited', told⟩ :=
                  truthful.settles isReported
                rw [found] at isKnown
                cases isKnown
                rw [before] at exited'
                cases exited'
                rw [isReported] at agrees
                cases state with
                | timedOut => exact told.2.2 inTime
                | completed =>
                    dsimp only at agrees
                    rw [late] at agrees
                    cases agrees
                | _ => exact agrees.elim
          · rw [inTime.1] at killed
            cases killed
      case isFalse early =>
        cases exited : loop.guest.tryWait execution with
        | none =>
            dsimp only
            refine ⟨?_, by simp⟩
            intro response' isResponse
            cases isResponse
            refine ⟨.inl ⟨rfl, ?_⟩, rfl⟩
            apply truthful.unreported
            intro known isKnown
            rw [found] at isKnown
            cases isKnown
            exact exited
        | some exit =>
            dsimp only
            refine ⟨by simp, fun _ => ⟨?_, trivial⟩⟩
            cases isReported : loop.reported id with
            | none => exact .inl isReported
            | some state =>
                obtain ⟨_, known, _, isKnown, _, told⟩ :=
                  truthful.settles isReported
                rw [found] at isKnown
                cases isKnown
                rw [isReported] at agrees
                cases state with
                | completed => exact .inr isReported
                | timedOut => exact (early told.2.1).elim
                | _ => exact agrees.elim

theorem serveKill_extends (truthful : loop.Truthful)
    {environment : Environment} {graceMs : Option Nat} (grace : Nat)
    (agrees : loop.Agrees (.serve (.kill id graceMs) environment)) :
    loop.Served id (loop.guest.serveKill id grace) := by
  unfold Guest.serveKill
  cases found : loop.guest.executions.lookup id with
  | none =>
      dsimp only
      refine ⟨?_, by simp⟩
      intro response' isResponse
      cases isResponse
      refine ⟨.inl ⟨rfl, ?_⟩, rfl⟩
      apply truthful.unreported
      intro execution isKnown
      rw [found] at isKnown
      cases isKnown
  | some execution =>
      dsimp only
      exact ⟨by simp, fun _ => agrees⟩

theorem advance_extends (truthful : loop.Truthful) {exhausted : Bool}
    {answer : Option (ExecutionId × Response)}
    (agrees : loop.Agrees (.advance exhausted))
    (advanced : loop.guest.Advanced exhausted after answer) :
    match answer with
    | some (executionId, response) =>
        loop.Faithful after { executionId, response } ∧ after.work = .idle
    | none => Pending { loop with guest := after } := by
  have pending := truthful.pending
  unfold Pending at pending
  cases advanced with
  | exited isWork =>
      rw [isWork] at pending
      exact ⟨pending, trivial⟩
  | forced isWork =>
      rw [isWork] at pending
      exact ⟨pending, trivial⟩
  | @joined id state execution exit isWork found exited =>
      rw [isWork] at pending
      refine ⟨?_, rfl⟩
      cases state with
      | running => exact pending.2.elim
      | failed => exact pending.2.elim
      | lost => exact pending.2.elim
      | canceled =>
          exact .inr ⟨.canceled, rfl, rfl, pending.1, execution, exit, found,
            exited, rfl⟩
      | timedOut =>
          obtain ⟨known, isKnown, late, notInTime⟩ := pending.2
          rw [found] at isKnown
          cases isKnown
          exact .inr ⟨.timedOut, rfl, rfl, pending.1, execution, exit, found,
            exited, rfl, late, notInTime exit exited⟩
      | completed =>
          unfold Guest.joinedResponse
          dsimp only
          split
          case isTrue isFull =>
            refine .inl ⟨rfl, ?_⟩
            rcases pending.1 with absent | isReported
            · exact absent
            · rcases agrees id execution exit isWork isReported found exited
                with succeeded | room
              · exact (isFull.1 succeeded).elim
              · rw [room] at isFull
                cases isFull.2
          case isFalse =>
            exact .inr ⟨.completed, rfl, rfl, pending.1, execution, exit,
              found, exited, rfl⟩

theorem changeAlive_exit {pid other : Pid} {change : Process → Process}
    (keeps : ∀ process, (change process).pid = process.pid)
    (exits : ∀ process exit, (change process).exit = some exit →
      process.exit = some exit ∨ guest.now ≤ exit.time)
    (changed : guest.changeAlive pid change = some after)
    (exited : (after.process? other).bind Process.exit = some exit) :
    (guest.process? other).bind Process.exit = some exit ∨
      guest.now ≤ exit.time := by
  unfold Guest.changeAlive at changed
  split at changed
  case isFalse => cases changed
  case isTrue =>
    cases changed
    unfold Guest.process? Guest.changeProcess at exited
    rw [Guest.process?_map] at exited
    · obtain ⟨process, found, isExit⟩ := Option.bind_eq_some_iff.mp exited
      obtain ⟨before, isBefore, same⟩ := Option.map_eq_some_iff.mp found
      subst same
      unfold Guest.process?
      rw [isBefore]
      split at isExit
      · exact exits before exit isExit
      · exact .inl isExit
    · intro process
      split
      · exact keeps process
      · rfl

/-- A process that ends ends now. -/
theorem happen_exit {happening : Happening}
    (taken : guest.happen happening = some after) {pid : Pid}
    (exited : (after.process? pid).bind Process.exit = some exit) :
    (guest.process? pid).bind Process.exit = some exit ∨
      guest.now ≤ exit.time := by
  cases happening with
  | tick time =>
      dsimp only [Guest.happen] at taken
      split at taken
      case isFalse => cases taken
      case isTrue =>
        cases taken
        exact .inl exited
  | forks parent child =>
      obtain ⟨process, _, rest⟩ := Option.bind_eq_some_iff.mp taken
      split at rest
      case isFalse => cases rest
      case isTrue isAlive =>
        cases rest
        have noExit : process.exit = none :=
          Option.isNone_iff_eq_none.mp isAlive.1
        unfold Guest.process? at exited ⊢
        rw [List.find?_append] at exited
        cases found : guest.processes.find?
            (fun process => decide (process.pid = pid)) with
        | some known =>
            rw [found] at exited
            exact .inl exited
        | none =>
            rw [found] at exited
            obtain ⟨created, isCreated, isExit⟩ :=
              Option.bind_eq_some_iff.mp exited
            have member := List.mem_of_find?_eq_some isCreated
            cases List.mem_singleton.mp member
            rw [noExit] at isExit
            cases isExit
  | joinsGroup =>
      refine changeAlive_exit ?_ ?_ taken exited
      · exact fun _ => rfl
      · exact fun _ _ isExit => .inl isExit
  | traps =>
      refine changeAlive_exit ?_ ?_ taken exited
      · exact fun _ => rfl
      · exact fun _ _ isExit => .inl isExit
  | closes =>
      refine changeAlive_exit ?_ ?_ taken exited
      · exact fun _ => rfl
      · exact fun _ _ isExit => .inl isExit
  | exits other code =>
      refine changeAlive_exit ?_ ?_ taken exited
      · exact fun _ => rfl
      · intro process exit isExit
        cases isExit
        exact .inr le_rfl
  | writes other pipe bytes =>
      obtain ⟨process, _, rest⟩ := Option.bind_eq_some_iff.mp taken
      obtain ⟨execution, _, rest⟩ := Option.bind_eq_some_iff.mp rest
      split at rest
      case isFalse => cases rest
      case isTrue =>
        cases rest
        exact .inl exited
  | reads pipe count =>
      obtain ⟨_, _, _, _, _, rfl⟩ := Guest.readPipe_eq taken
      exact .inl exited

theorem changeAlive_work {pid : Pid} {change : Process → Process}
    (changed : guest.changeAlive pid change = some after) :
    after.work = guest.work := by
  unfold Guest.changeAlive at changed
  split at changed
  case isFalse => cases changed
  case isTrue =>
    cases changed
    rfl

theorem happen_work {happening : Happening}
    (taken : guest.happen happening = some after) :
    after.work = guest.work := by
  cases happening with
  | tick time =>
      dsimp only [Guest.happen] at taken
      split at taken
      case isFalse => cases taken
      case isTrue =>
        cases taken
        rfl
  | forks parent child =>
      obtain ⟨process, _, rest⟩ := Option.bind_eq_some_iff.mp taken
      split at rest
      case isFalse => cases rest
      case isTrue =>
        cases rest
        rfl
  | joinsGroup | traps | closes | exits => exact changeAlive_work taken
  | writes other pipe bytes =>
      obtain ⟨process, _, rest⟩ := Option.bind_eq_some_iff.mp taken
      obtain ⟨execution, _, rest⟩ := Option.bind_eq_some_iff.mp rest
      split at rest
      case isFalse => cases rest
      case isTrue =>
        cases rest
        rfl
  | reads pipe count =>
      obtain ⟨_, _, _, _, _, rfl⟩ := Guest.readPipe_eq taken
      rfl

theorem happen_pending (pending : loop.Pending) {happening : Happening}
    (taken : loop.guest.happen happening = some after) :
    Pending { loop with guest := after } := by
  have evolves := Guest.happen_evolves taken
  unfold Pending at pending ⊢
  dsimp only
  rw [happen_work taken]
  cases isWork : loop.guest.work with
  | idle => trivial
  | terminating => 
      rw [isWork] at pending
      exact pending
  | joining id state =>
      rw [isWork] at pending
      refine ⟨pending.1, ?_⟩
      have goal := pending.2
      cases state with
      | timedOut =>
          obtain ⟨execution, found, late, notInTime⟩ := goal
          obtain ⟨later, isLater, same⟩ :=
            evolves.executions id execution found
          refine ⟨later, isLater, ?_, ?_⟩
          · rw [timedOut_sameStart same]
            exact timedOut_mono execution evolves.time late
          · intro exit exited
            rw [exitedInTime_sameStart same]
            unfold Guest.tryWait at exited
            rw [same.1] at exited
            rcases happen_exit taken exited with before | now
            · exact notInTime exit before
            · intro inTime
              unfold Execution.timedOut at late
              cases isTimeout : execution.timeout with
              | none => simp [isTimeout] at late
              | some timeout =>
                  have early := inTime.2 timeout isTimeout
                  simp only [isTimeout, Option.any_some,
                    decide_eq_true_eq] at late
                  omega
      | _ => exact goal

theorem served_extends {environment : Environment} {request : Request}
    (asks : request.asks = some id) (idle : loop.guest.work = .idle)
    (served : loop.Served id (loop.guest.serve environment request))
    (isNext : next = {
      guest := (loop.guest.serve environment request).1
      answers := loop.answers ++
        match request.asks, (loop.guest.serve environment request).2 with
        | some executionId, some response => [{ executionId, response }]
        | _, _ => [] }) :
    loop.Extends next ∧ next.Pending := by
  have evolves := Guest.serve_evolves loop.guest environment request
  rw [asks] at isNext
  cases answered : (loop.guest.serve environment request).2 with
  | none =>
      rw [answered, List.append_nil] at isNext
      subst isNext
      exact ⟨⟨evolves, .inl rfl⟩, served.2 answered⟩
  | some response =>
      rw [answered] at isNext
      obtain ⟨faithful, isWork⟩ := served.1 response answered
      subst isNext
      refine ⟨⟨evolves, .inr ⟨_, rfl, faithful⟩⟩, ?_⟩
      unfold Pending
      rw [isWork, idle]
      trivial

theorem step_extends {event : Event} (truthful : loop.Truthful)
    (agrees : loop.Agrees event) (taken : loop.step event = some next) :
    loop.Extends next ∧ next.Pending := by
  cases event with
  | serve request environment =>
      dsimp only [step] at taken
      split at taken
      case isFalse => cases taken
      case isTrue isIdle =>
        have isNext := (Option.some.inj taken).symm
        cases request with
        | exec executionId command cwd env tty timeoutMs =>
            have evolves := Guest.serve_evolves loop.guest environment
              (.exec executionId command cwd env tty timeoutMs)
            dsimp only [Request.asks] at isNext
            rw [List.append_nil] at isNext
            subst isNext
            refine ⟨⟨evolves, .inl rfl⟩, ?_⟩
            unfold Pending
            dsimp only [Guest.serve]
            rw [serveExec_work, isIdle.1]
            trivial
        | write executionId chars =>
            dsimp only [Request.asks] at isNext
            rw [List.append_nil] at isNext
            subst isNext
            exact ⟨⟨.refl loop.guest, .inl rfl⟩, truthful.pending⟩
        | poll executionId =>
            exact served_extends rfl isIdle.1
              (servePoll_extends truthful agrees) isNext
        | kill executionId graceMs =>
            exact served_extends rfl isIdle.1
              (serveKill_extends truthful _ agrees) isNext
  | advance exhausted =>
      obtain ⟨⟨guest, answer⟩, isAdvanced, rest⟩ :=
        Option.bind_eq_some_iff.mp taken
      have isNext := (Option.some.inj rest).symm
      have advanced := Guest.advanced isAdvanced
      have extended := advance_extends truthful agrees advanced
      cases answer with
      | none =>
          dsimp only at isNext
          rw [List.append_nil] at isNext
          subst isNext
          exact ⟨⟨advanced.evolves, .inl rfl⟩, extended⟩
      | some answer =>
          subst isNext
          refine ⟨⟨advanced.evolves, .inr ⟨_, rfl, extended.1⟩⟩, ?_⟩
          unfold Pending
          dsimp only
          rw [extended.2]
          trivial
  | happens happening =>
      obtain ⟨guest, isHappened, rest⟩ := Option.bind_eq_some_iff.mp taken
      cases rest
      exact ⟨⟨Guest.happen_evolves isHappened, .inl rfl⟩,
        happen_pending truthful.pending isHappened⟩

theorem Runs.truthful (runs : loop.Runs) : loop.Truthful := by
  induction runs with
  | start => exact ⟨by simp, trivial, .nil⟩
  | step _ agrees taken induction =>
      obtain ⟨extended, pending⟩ := step_extends induction agrees taken
      exact ⟨extended.settled induction, pending, extended.final induction⟩

theorem terminal_states_final (runs : loop.Runs) :
    loop.Final ∧ loop.Punctual := by
  have truthful := runs.truthful
  refine ⟨truthful.final, ?_⟩
  intro answer member isState execution exit found exited
  have terminal : answer.response.isTerminal = true := by
    simp [Response.isTerminal, isState]
  obtain ⟨state, isOther, _, known, exit', isKnown, exited', told⟩ :=
    truthful.settled answer member terminal
  rw [isState] at isOther
  cases isOther
  rw [found] at isKnown
  cases isKnown
  rw [exited] at exited'
  cases exited'
  exact told.2.2

/-- A command with a deadline of one second that exits after half of it. -/
private def promptRun : List Event :=
  [.serve (.exec 0 "true" "/workspace" [] false 1000) { spawn := .ok 1 },
    .happens (.tick 500000000), .happens (.exits 1 (some 0)),
    .serve (.poll 0) {}, .advance false]

theorem terminal_states_final_sample :
    ∃ loop, Foundation.run step {} promptRun = some loop ∧
      loop.answers ≠ [] ∧ loop.Final ∧ loop.Punctual := by
  have served := @Runs.step {} _ (.serve
    (.exec 0 "true" "/workspace" [] false 1000) { spawn := .ok 1 })
    .start trivial rfl
  have ticked := @Runs.step _ _ (.happens (.tick 500000000))
    served trivial rfl
  have exited := @Runs.step _ _ (.happens (.exits 1 (some 0)))
    ticked trivial rfl
  have polled := @Runs.step _ _ (.serve (.poll 0) {}) exited (by
    intro execution found
    cases found
    intro _ _ _
    rfl) rfl
  have answered := @Runs.step _ _ (.advance false) polled (by
    intro _ _ _ _ isReported
    cases isReported) rfl
  exact ⟨_, rfl, by simp, terminal_states_final answered⟩

/-- The same command is polled once more when its second has passed. -/
theorem completed_then_timed_out :
    ∃ loop, Foundation.run step {} (promptRun ++
        [.happens (.tick 1000000000), .serve (.poll 0) {},
          .advance false]) = some loop ∧
      ¬ loop.Final ∧ ¬ loop.Punctual := by
  refine ⟨_, rfl, ?_, ?_⟩
  · intro final
    have same := List.rel_of_pairwise_cons final List.mem_cons_self rfl rfl
    cases same.1
  · intro punctual
    apply punctual _ (List.mem_cons_of_mem _ List.mem_cons_self) rfl _ _
      rfl rfl
    refine ⟨rfl, ?_⟩
    intro timeout isTimeout
    cases isTimeout
    decide

end MainLoop

end Electrosphere.Agent
