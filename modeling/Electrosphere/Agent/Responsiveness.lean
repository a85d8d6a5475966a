import Electrosphere.Agent.MainLoop

/-!
# Requests that wait for no process

When the shell of an execution has exited, `Poll` and `Kill` go on to
`join_drains`, which waits until nobody can write to the pipes.  They are
answered alone exactly when the signal they send first, if any, ends every
process that holds a pipe of the execution open.
-/

namespace Electrosphere.Agent.Guest

variable {guest after : Guest} {id : ExecutionId} {execution : Execution}
  {exit : Exit}

/-- The request that the agent is at is answered although no process of the
guest takes a step. -/
inductive Answers : Guest → Prop where
  | answered {guest after : Guest} {exhausted : Bool}
      {answer : ExecutionId × Response} :
      guest.advance exhausted = some (after, some answer) → Answers guest
  | goesOn {guest after : Guest} {exhausted : Bool} :
      guest.advance exhausted = some (after, none) → Answers after →
      Answers guest
  | waits {guest after : Guest} {happening : Happening} :
      happening.ofProcess = false →
      guest.happen happening = some after → Answers after → Answers guest

def AnswersAlone (guest : Guest) (environment : Environment)
    (request : Request) : Prop :=
  (guest.serve environment request).2.isSome = true ∨
    (guest.serve environment request).1.Answers

/-- The signal that a request sends to the group of the child. -/
def sends (guest : Guest) (execution : Execution) : Request → Option Signal
  | .poll _ => if execution.timedOut guest.now then some .kill else none
  | .kill .. => some .term
  | .exec .. | .write .. => none

/-- The signal of the request ends every process that can still write to the
pipes of the execution. -/
def Unheld (guest : Guest) (id : ExecutionId) (execution : Execution)
    (request : Request) : Prop :=
  ∀ process ∈ guest.processes, process.holder id = true →
    ∃ signal, guest.sends execution request = some signal ∧
      ends execution.child signal process = true

/-! ## Holders -/

theorem isHeld_eq_false :
    guest.isHeld id = false ↔
      ∀ process ∈ guest.processes, process.holder id = false := by
  unfold isHeld
  simp only [List.any_eq_false, Bool.not_eq_true]

theorem signal_isHeld (guest : Guest) (group : Pid) (signal : Signal) :
    (guest.signal group signal).isHeld id = false ↔
      ∀ process ∈ guest.processes, process.holder id = true →
        ends group signal process = true := by
  rw [isHeld_eq_false]
  constructor
  · intro free process member held
    by_contra survives
    have same := free process (List.mem_map.mpr
      ⟨process, member, if_neg survives⟩)
    rw [held] at same
    cases same
  · intro ended process member
    obtain ⟨before, isBefore, isAfter⟩ := List.mem_map.mp member
    subst isAfter
    split
    case isTrue => rfl
    case isFalse survives =>
      cases held : before.holder id with
      | false => rfl
      | true => exact (survives (ended before isBefore held)).elim

theorem signal_tryWait (group : Pid) (signal : Signal)
    (exited : guest.tryWait execution = some exit) :
    (guest.signal group signal).tryWait execution = some exit :=
  (signal_evolves guest group signal).tryWait ⟨rfl, rfl, rfl⟩ exited

/-! ## Draining the pipes -/

/-- What a drain can read, it reads without help. -/
theorem readPipe_succeeds (stream : Stream)
    (found : guest.executions.lookup id = some execution)
    (isUnread : execution.unread stream ≠ []) :
    ∃ count later, guest.readPipe (id, stream) count =
        some { guest with executions := guest.executions.insert id later } ∧
      execution.SameStart later ∧
      later.stdout.length + later.stderr.length <
        execution.stdout.length + execution.stderr.length := by
  have some := List.length_pos_iff.mpr isUnread
  let count := min 8192 (execution.unread stream).length
  have counted : 0 < count ∧ count ≤ 8192 ∧
      count ≤ (execution.unread stream).length := by
    omega
  refine ⟨count, execution.readFrom stream count, ?_,
    readFrom_sameStart execution stream count, ?_⟩
  · unfold readPipe
    rw [found]
    exact if_pos counted
  · cases stream with
    | stdout =>
        change (execution.stdout.drop count).length +
          execution.stderr.length < _
        rw [List.length_drop]
        change 0 < count ∧ _ ∧ count ≤ execution.stdout.length at counted
        omega
    | stderr =>
        change execution.stdout.length +
          (execution.stderr.drop count).length < _
        rw [List.length_drop]
        change 0 < count ∧ _ ∧ count ≤ execution.stderr.length at counted
        omega

/-- When nobody holds the pipes, the drains finish and the request with
them. -/
theorem answers_of_joining {state : ExecutionState} (unread : Nat)
    (isWork : guest.work = .joining id state)
    (found : guest.executions.lookup id = some execution)
    (exited : guest.tryWait execution = some exit)
    (free : guest.isHeld id = false)
    (bounded : execution.stdout.length + execution.stderr.length ≤ unread) :
    guest.Answers := by
  induction unread generalizing guest execution with
  | zero =>
      have noOutput : execution.stdout = [] :=
        List.eq_nil_of_length_eq_zero (by omega)
      have noError : execution.stderr = [] :=
        List.eq_nil_of_length_eq_zero (by omega)
      have isDrained : guest.drained id execution = true := by
        simp [drained, noOutput, noError, free]
      apply Answers.answered
      · unfold advance
        rw [isWork]
        change (guest.executions.lookup id).bind _ = _
        rw [found, Option.bind_some]
        change (guest.tryWait execution).bind _ = _
        rw [exited, Option.bind_some, if_pos isDrained]
      · exact false
  | succ unread induction =>
      have next : ∀ stream, execution.unread stream ≠ [] →
          guest.Answers := by
        intro stream isUnread
        obtain ⟨count, later, taken, same, less⟩ :=
          readPipe_succeeds stream found isUnread
        have still : guest.tryWait later = some exit := by
          unfold tryWait
          rw [same.1]
          exact exited
        have isHappening : guest.happen (.reads (id, stream) count) = _ :=
          taken
        apply Answers.waits rfl isHappening
        exact @induction _ later isWork (AList.lookup_insert _) still free
          (by omega)
      by_cases noOutput : execution.stdout = []
      · by_cases noError : execution.stderr = []
        · apply induction isWork found exited free
          simp [noOutput, noError]
        · exact next .stderr noError
      · exact next .stdout noOutput

/-! ## Requests that wait -/

/-- The request at which the agent is goes on when the child has exited. -/
def WaitsFor (work : Work) (id : ExecutionId) : Prop :=
  (∃ state, work = .joining id state) ∨
    ∃ deadline, work = .terminating id deadline

/-- The agent waits for a process that holds a pipe. -/
structure Stuck (guest : Guest) (id : ExecutionId) : Prop where
  held : guest.isHeld id = true
  exited : ∃ execution exit, guest.executions.lookup id = some execution ∧
    guest.tryWait execution = some exit
  work : WaitsFor guest.work id

theorem Stuck.not_answers (stuck : guest.Stuck id) : ¬ guest.Answers := by
  intro answers
  induction answers with
  | @answered guest after exhausted answer taken =>
      obtain ⟨execution, exit, found, exited⟩ := stuck.exited
      have advanced := advanced taken
      cases advanced with
      | @joined other state known _ isWork isKnown _ isDrained =>
          rcases stuck.work with ⟨state, isJoining⟩ | ⟨deadline, isEnding⟩
          · rw [isJoining] at isWork
            cases isWork
            simp [drained, stuck.held] at isDrained
          · rw [isEnding] at isWork
            cases isWork
  | @goesOn guest after exhausted taken _ induction =>
      obtain ⟨execution, exit, found, exited⟩ := stuck.exited
      have sameId : ∀ {other deadline}, guest.work = .terminating other deadline →
          other = id := by
        intro other deadline isWork
        rcases stuck.work with ⟨state, isJoining⟩ | ⟨deadline, isEnding⟩
        · rw [isJoining] at isWork
          cases isWork
        · rw [isEnding] at isWork
          cases isWork
          rfl
      have advanced := advanced taken
      cases advanced with
      | exited isWork =>
          apply induction
          refine ⟨stuck.held, ⟨execution, exit, found, exited⟩, .inl ⟨.canceled, ?_⟩⟩
          rw [sameId isWork]
      | forced isWork isFound running =>
          rw [sameId isWork, found] at isFound
          cases isFound
          rw [exited] at running
          cases running
  | @waits guest after happening quiet taken _ induction =>
      apply induction
      obtain ⟨execution, exit, found, exited⟩ := stuck.exited
      have evolves := happen_evolves taken
      obtain ⟨later, isLater, same⟩ := evolves.executions id execution found
      have still := evolves.tryWait same exited
      have kept : after.processes = guest.processes ∧
          after.work = guest.work := by
        cases happening with
        | tick time =>
            dsimp only [happen] at taken
            split at taken
            case isFalse => cases taken
            case isTrue =>
              cases taken
              exact ⟨rfl, rfl⟩
        | reads pipe count =>
            obtain ⟨_, _, _, _, _, rfl⟩ := readPipe_eq taken
            exact ⟨rfl, rfl⟩
        | _ => cases quiet
      refine ⟨?_, ⟨later, exit, isLater, still⟩, ?_⟩
      · unfold isHeld
        rw [kept.1]
        exact stuck.held
      · rw [kept.2]
        exact stuck.work

/-- Once the signal has been sent, what is left to wait for decides. -/
theorem answers_iff_free (waits : WaitsFor guest.work id)
    (found : guest.executions.lookup id = some execution)
    (exited : guest.tryWait execution = some exit) :
    guest.Answers ↔ guest.isHeld id = false := by
  constructor
  · intro answers
    cases held : guest.isHeld id with
    | false => rfl
    | true =>
        have stuck : guest.Stuck id :=
          ⟨held, ⟨execution, exit, found, exited⟩, waits⟩
        exact (stuck.not_answers answers).elim
  · intro free
    rcases waits with ⟨state, isWork⟩ | ⟨deadline, isWork⟩
    · exact answers_of_joining _ isWork found exited free le_rfl
    · have taken : guest.advance false =
          some ({ guest with work := .joining id .canceled }, none) := by
        unfold advance
        rw [isWork]
        change (guest.executions.lookup id).bind _ = _
        rw [found, Option.bind_some, exited]
      apply Answers.goesOn taken
      exact answers_of_joining _ rfl found exited free le_rfl

/-- A signal, if one is sent, before the request joins the drains. -/
def sendTo (guest : Guest) (group : Pid) : Option Signal → Guest
  | none => guest
  | some signal => guest.signal group signal

theorem sendTo_isHeld (guest : Guest) (group : Pid) (sent : Option Signal) :
    (guest.sendTo group sent).isHeld id = false ↔
      ∀ process ∈ guest.processes, process.holder id = true →
        ∃ signal, sent = some signal ∧ ends group signal process = true := by
  cases sent with
  | none =>
      change guest.isHeld id = false ↔ _
      rw [isHeld_eq_false]
      constructor
      · intro free process member held
        rw [free process member] at held
        cases held
      · intro ended process member
        cases held : process.holder id with
        | false => rfl
        | true =>
            obtain ⟨signal, same, _⟩ := ended process member held
            cases same
  | some signal =>
      change (guest.signal group signal).isHeld id = false ↔ _
      rw [signal_isHeld]
      constructor
      · intro ended process member held
        exact ⟨signal, rfl, ended process member held⟩
      · intro ended process member held
        obtain ⟨other, same, isEnd⟩ := ended process member held
        cases same
        exact isEnd

theorem sendTo_tryWait (group : Pid) (sent : Option Signal)
    (exited : guest.tryWait execution = some exit) :
    (guest.sendTo group sent).tryWait execution = some exit := by
  cases sent with
  | none => exact exited
  | some signal => exact signal_tryWait group signal exited

theorem sendTo_executions (guest : Guest) (group : Pid)
    (sent : Option Signal) :
    (guest.sendTo group sent).executions = guest.executions := by
  cases sent <;> rfl

theorem waits_iff {work : Work} (sent : Option Signal)
    (waits : WaitsFor work id)
    (found : guest.executions.lookup id = some execution)
    (exited : guest.tryWait execution = some exit) :
    Answers { guest.sendTo execution.child sent with work } ↔
      ∀ process ∈ guest.processes, process.holder id = true →
        ∃ signal, sent = some signal ∧
          ends execution.child signal process = true := by
  rw [← sendTo_isHeld]
  let waiting : Guest := { guest.sendTo execution.child sent with work }
  have isKnown : waiting.executions.lookup id = some execution := by
    rw [← found, ← sendTo_executions guest execution.child sent]
  exact @answers_iff_free waiting id execution exit waits isKnown
    (sendTo_tryWait _ sent exited)

/-! ## Which requests are answered alone -/

/-- The shell of the execution has exited; whether the request is answered
depends on the processes that still hold its pipes. -/
theorem answers_alone_iff (environment : Environment) {request : Request}
    (asks : request.asks = some id)
    (found : guest.executions.lookup id = some execution)
    (exited : guest.tryWait execution = some exit) :
    guest.AnswersAlone environment request ↔
      guest.Unheld id execution request := by
  cases request with
  | exec => cases asks
  | write => cases asks
  | poll other =>
      cases asks
      have served : guest.serve environment (.poll id) = guest.servePoll id :=
        rfl
      unfold AnswersAlone Unheld
      rw [served]
      unfold servePoll
      rw [found]
      dsimp only [sends]
      by_cases late : execution.timedOut guest.now = true
      · rw [if_pos late, if_pos late, or_iff_right (by simp)]
        exact waits_iff (some .kill) (.inl ⟨_, rfl⟩) found exited
      · rw [if_neg late, if_neg late, exited, or_iff_right (by simp)]
        exact waits_iff none (.inl ⟨_, rfl⟩) found exited
  | kill other graceMs =>
      cases asks
      have served : guest.serve environment (.kill id graceMs) =
        guest.serveKill id (graceMs.getD 1000) := rfl
      unfold AnswersAlone Unheld
      rw [served]
      unfold serveKill
      rw [found, or_iff_right (by simp)]
      exact waits_iff (some .term) (.inr ⟨_, rfl⟩) found exited

/-- `sleep 100 &`: the shell exits, and what it has started keeps its
standard output. -/
private def backgroundRun : List Event :=
  [.serve (.exec 0 "sleep 100 &" "/workspace" [] false 0)
      { spawn := .ok 1 },
    .happens (.forks 1 2), .happens (.exits 1 (some 0))]

/-- `SIGTERM` ends what holds the pipe, so a `Kill` is answered. -/
theorem kill_ends_background_process :
    ∃ loop,
      Foundation.run MainLoop.step {} backgroundRun = some loop ∧
      loop.guest.isHeld 0 = true ∧ loop.guest.AnswersAlone {} (.kill 0 none) := by
  refine ⟨_, rfl, rfl, ?_⟩
  apply (answers_alone_iff {} rfl rfl rfl).mpr
  intro process member held
  refine ⟨.term, rfl, ?_⟩
  revert process
  decide

theorem poll_waits_for_background_process :
    ∃ loop execution exit,
      Foundation.run MainLoop.step {} backgroundRun = some loop ∧
      loop.guest.executions.lookup 0 = some execution ∧
      loop.guest.tryWait execution = some exit ∧
      ¬ loop.guest.AnswersAlone {} (.poll 0) := by
  refine ⟨_, _, _, rfl, rfl, rfl, ?_⟩
  rintro (isSome | answers)
  · cases isSome
  · refine (⟨rfl, ?_, .inl ⟨_, rfl⟩⟩ : Stuck _ 0).not_answers answers
    exact ⟨_, _, rfl, rfl⟩

end Electrosphere.Agent.Guest
