import Electrosphere.Domain.SessionAccounts

/-!
# What a step of the session manager shows

From outside a session has a name, an instance and a flag, and the map lists
it or not.  This module says what each event does to these, whatever the
backends answer.
-/

namespace Electrosphere

open Foundation

/-- What is known of a session from outside. -/
structure Standing where
  id : SessionId
  instanceId : InstanceId
  active : Bool
  deriving DecidableEq

def Session.standing (session : Session) : Standing where
  id := session.id
  instanceId := session.instanceId
  active := session.active

/-- The standing of a session that is no longer active. -/
def Standing.retired (standing : Standing) : Standing :=
  { standing with active := false }

def SessionStage.isStarting : SessionStage → Bool
  | .starting _ => true
  | _ => false

theorem SessionStage.not_starting {stage : SessionStage} {held : SessionId}
    (continues : stage.session = some held ∨ stage.isSettled = true) :
    stage.isStarting = false := by
  cases stage with
  | starting execution =>
      rcases continues with isHeld | settled
      · cases isHeld
      · cases settled
  | _ => rfl

/-! ## The manager -/

namespace SessionManager

variable {manager : SessionManager} {id other : SessionId}

def standing (manager : SessionManager) (id : SessionId) : Option Standing :=
  (manager.objects.lookup id).map Session.standing

theorem standing_change {update : Session → Session}
    (same : ∀ session, (update session).standing = session.standing) :
    (manager.change id update).standing other = manager.standing other := by
  rw [standing, change, AList.lookup_modify_if]
  split
  · rw [Option.map_map, standing]
    congr 1
    funext session
    exact same session
  · rfl

@[simp] theorem standing_enqueue (waiter : Waiter) :
    (manager.enqueue id waiter).standing other = manager.standing other :=
  standing_change fun _ => rfl

@[simp] theorem standing_enter (now : Nat) :
    (manager.enter id now).standing other = manager.standing other :=
  standing_change fun _ => rfl

@[simp] theorem standing_release (waiter : Waiter) :
    (manager.release id waiter).standing other = manager.standing other :=
  standing_change fun _ => rfl

theorem standing_deactivate :
    (manager.deactivate id).standing other =
      if other = id then (manager.standing other).map Standing.retired
      else manager.standing other := by
  rw [standing, deactivate, change, AList.lookup_modify_if]
  split
  · rw [Option.map_map, standing, Option.map_map]
    rfl
  · rfl

/-- An object is replaced by another. -/
theorem standing_replace {object later : Session}
    (found : manager.objects.lookup id = some object) :
    (manager.change id fun _ => later).standing other =
      if other = id then some later.standing else manager.standing other := by
  rw [standing, change, AList.lookup_modify_if]
  split
  · next same =>
      rw [same, found]
      rfl
  · rfl

theorem standing_of_lookup {object : Session}
    (found : manager.objects.lookup id = some object) :
    manager.standing id = some object.standing := by
  rw [standing, found]
  rfl

/-- The name that the object under a key goes by. -/
def name (manager : SessionManager) (id : SessionId) : Option SessionId :=
  (manager.standing id).map Standing.id

@[simp] theorem name_enqueue (waiter : Waiter) :
    (manager.enqueue id waiter).name other = manager.name other := by
  rw [name, standing_enqueue, name]

@[simp] theorem name_enter (now : Nat) :
    (manager.enter id now).name other = manager.name other := by
  rw [name, standing_enter, name]

@[simp] theorem name_release (waiter : Waiter) :
    (manager.release id waiter).name other = manager.name other := by
  rw [name, standing_release, name]

@[simp] theorem name_deactivate :
    (manager.deactivate id).name other = manager.name other := by
  rw [name, standing_deactivate, name]
  split
  · rw [Option.map_map]
    rfl
  · rfl

theorem isActive_eq :
    manager.isActive id = (manager.standing id).any Standing.active := by
  rw [isActive, standing]
  cases manager.objects.lookup id with
  | none => rfl
  | some session => rfl

end SessionManager

/-! ## Stretches of a call -/

/-- What one stretch of a call does: it holds its session or has settled, and
it ends the session or leaves it as it is. -/
structure Stretch (manager : SessionManager) (held : SessionId) (ended : Bool)
    (segment : SessionSegment) : Prop where
  sessions : segment.manager.sessions = manager.sessions
  standing : ∀ id, segment.manager.standing id =
    if ended = true ∧ id = held then
      (manager.standing id).map Standing.retired
    else manager.standing id
  mark : segment.mark = if ended then some false else none
  stage : segment.stage.session = some held ∨ segment.stage.isSettled = true

section Stretches

variable {manager : SessionManager} {moment : Moment} {held : SessionId}
  {object : Session}

/-- Nothing that shows has changed. -/
theorem Stretch.quiet {segment : SessionSegment}
    (sessions : segment.manager.sessions = manager.sessions)
    (standing : ∀ id, segment.manager.standing id = manager.standing id)
    (mark : segment.mark = none)
    (stage : segment.stage.session = some held ∨
      segment.stage.isSettled = true) :
    Stretch manager held false segment where
  sessions := sessions
  standing id := by
    rw [if_neg (by simp), standing]
  mark := mark
  stage := stage

theorem Stretch.stays {stage : SessionStage}
    (continues : stage.session = some held ∨ stage.isSettled = true) :
    Stretch manager held false { manager, stage } :=
  .quiet rfl (fun _ => rfl) rfl continues

theorem pollOrAbandon_stretch {entered : SessionManager}
    {instanceId : InstanceId}
    (sessions : entered.sessions = manager.sessions)
    (standing : ∀ id, entered.standing id = manager.standing id) :
    Stretch manager held false
      (entered.pollOrAbandon moment instanceId held) := by
  rw [SessionManager.pollOrAbandon]
  split
  · exact .quiet sessions standing rfl (.inl rfl)
  · exact .quiet sessions standing rfl (.inl rfl)

theorem enterSection_stretch (request : SessionRequest) :
    Stretch manager object.id false
      (manager.enterSection moment object request) := by
  have standing : ∀ id, (manager.enter object.id moment.now).standing id =
      manager.standing id := fun _ => SessionManager.standing_enter _
  cases request with
  | exec => exact .quiet rfl (fun _ => rfl) rfl (.inl rfl)
  | poll => exact pollOrAbandon_stretch rfl standing
  | write session chars =>
      rw [SessionManager.enterSection]
      split
      · exact .quiet rfl standing rfl (.inl rfl)
      · split
        · exact .quiet rfl standing rfl (.inl rfl)
        · exact .quiet rfl standing rfl (.inr rfl)
  | kill => exact .quiet rfl standing rfl (.inl rfl)

/-- The session is replaced by one that is no longer active. -/
theorem Stretch.retires {later : Session} {shaped : ShellResult}
    (found : manager.objects.lookup object.id = some object)
    (standing : later.standing = object.standing.retired) :
    Stretch manager object.id true
      { manager := manager.change object.id fun _ => later
        stage := .settled (.ok shaped)
        mark := some false } where
  sessions := rfl
  standing id := by
    dsimp only
    rw [SessionManager.standing_replace found]
    by_cases same : id = object.id
    · rw [if_pos same, if_pos ⟨rfl, same⟩, same,
        SessionManager.standing_of_lookup found, standing]
      rfl
    · rw [if_neg same, if_neg fun both => same both.2]
  mark := rfl
  stage := .inr rfl

theorem polled_stretch (maxOutputTokens : Option Nat)
    (result : ExecutionResult)
    (found : manager.objects.lookup object.id = some object) :
    Stretch manager object.id
      (!(decide (result.state = .running) && object.active))
      (manager.polled moment object maxOutputTokens result) := by
  rw [SessionManager.polled, response]
  dsimp only
  by_cases running : result.state = .running
  · rw [if_pos running, decide_eq_true running]
    cases active : object.active with
    | true =>
        apply Stretch.quiet
        · rfl
        · intro id
          dsimp only
          rw [SessionManager.standing_replace found]
          split
          · next same =>
              rw [same, SessionManager.standing_of_lookup found,
                Session.standing, Session.standing, active]
          · rfl
        · rfl
        · exact .inr rfl
    | false =>
        apply Stretch.retires found
        rw [Session.standing, Session.standing, Standing.retired]
  · rw [if_neg running, decide_eq_false running]
    exact Stretch.retires found rfl

theorem killedAndPolled_stretch (result : ExecutionResult)
    (found : manager.objects.lookup object.id = some object) :
    Stretch manager object.id true
      (manager.killedAndPolled moment object result) := by
  rw [SessionManager.killedAndPolled, response]
  apply Stretch.retires found
  rw [Session.standing, Session.standing, Standing.retired]
  simp

theorem abandoned_stretch (error : Thrown) :
    Stretch manager held true (manager.abandoned held error) where
  sessions := rfl
  standing id := by
    rw [SessionManager.abandoned, SessionManager.standing_deactivate]
    by_cases same : id = held
    · rw [if_pos same, if_pos ⟨rfl, same⟩]
    · rw [if_neg same, if_neg fun both => same both.2]
  mark := rfl
  stage := .inr rfl

end Stretches

/-! ## Events -/

/-- The events of `closeInstance`. -/
def SessionEvent.isClosing : SessionEvent → Bool
  | .closeInstance _ | .closingEnters _ | .closingKillAnswered _ _
  | .closingPollAnswered _ _ => true
  | _ => false

namespace SessionWorld

variable {world after : SessionWorld} {moment : Moment}
  {mark : Option InstanceMark}

/-- The session that a call writes `READY` for when the event arrives. -/
def ends (world : SessionWorld) : SessionEvent → Option SessionId
  | .pollAnswered id (.ok result) =>
      match (world.calls.lookup id).map SessionCall.stage with
      | some (.polling session) =>
          if result.state = .running ∧ world.manager.isActive session then none
          else some session
      | some (.killed session) => some session
      | _ => none
  | .killAnswered id _ =>
      match (world.calls.lookup id).map SessionCall.stage with
      | some (.abandoning session _) => some session
      | _ => none
  | _ => none

/-- What an event has done to the sessions, by the kind of call that has
run. -/
inductive Advance (world : SessionWorld) (moment : Moment) :
    SessionEvent → SessionWorld → Option InstanceMark → Prop where
  | begun {id : CallId} {instanceId : InstanceId} {request : SessionRequest}
      {manager : SessionManager} {stage : SessionStage} :
      world.calls.lookup id = none →
      world.manager.begin moment world.nextUuid id instanceId request =
        (manager, stage) →
      Advance world moment (.begin id instanceId request)
        { world with
          manager
          calls := world.calls.insert id { instanceId, request, stage }
          nextUuid := world.nextUuid + 1 }
        none
  | refused {id : CallId} {call : SessionCall} {execution : ExecutionId}
      {error : Thrown} :
      world.calls.lookup id = some call →
      call.stage = .starting execution →
      Advance world moment (.execAnswered id (.error error))
        { world with
          calls := world.calls.insert id
            { call with stage := .settled (.error error) } }
        none
  | opened {id : CallId} {call : SessionCall} {execution : ExecutionId}
      {tty : Bool} {stage : SessionStage} :
      world.calls.lookup id = some call →
      call.stage = .starting execution →
      stage.session = some world.nextUuid →
      Advance world moment (.execAnswered id (.ok ()))
        (world.openedWorld id call execution
          (SessionManager.newSession moment world.nextUuid call.instanceId
            execution tty) stage)
        (some { instanceId := call.instanceId, running := true })
  | resumed {event : SessionEvent} {id : CallId} {call : SessionCall}
      {held : SessionId} {ended : Bool} {noted : SessionWorld}
      {segment : SessionSegment} :
      world.calls.lookup id = some call →
      call.stage.session = some held →
      Stretch world.manager held ended segment →
      world.ends event = (if ended then some held else none) →
      noted.calls = world.calls → noted.nextUuid = world.nextUuid →
      Advance world moment event (noted.resume id call held segment).1
        (noted.resume id call held segment).2
  | closes {event : SessionEvent} {next : SessionWorld} :
      event.isClosing = true → next.calls = world.calls →
      next.manager.sessions = world.manager.sessions →
      (∀ id, next.manager.name id = world.manager.name id) →
      Advance world moment event next none
  | reaps {id : Nat} :
      Advance world moment (.reapExpired id)
        (world.reapOn id moment.now []) none
  | reaped {id : Nat} {answer : Except Thrown Unit} {reaper : Reaper}
      {session : SessionId} {object : Session} :
      world.reapers.lookup id = some reaper →
      reaper.stage = .killing session →
      world.manager.objects.lookup session = some object →
      Advance world moment (.reaperKillAnswered id answer)
        ({ world.noteKill object.execution answer with
            manager := (world.manager.deactivate session).delete session
          }.reapOn id reaper.now (reaper.passed ++ [session]))
        none

@[simp] theorem noteReport_nextUuid (execution : ExecutionId)
    (state : ExecutionState) :
    (world.noteReport execution state).nextUuid = world.nextUuid := by
  unfold noteReport
  split <;> rfl

@[simp] theorem noteKill_nextUuid (execution : ExecutionId)
    (answer : Except Thrown Unit) :
    (world.noteKill execution answer).nextUuid = world.nextUuid := by
  unfold noteKill
  split <;> rfl

theorem closeNext_sessions (instanceId : InstanceId) (failures : List Thrown)
    (sessions : List SessionId) :
    (closeNext world instanceId failures sessions).manager.sessions =
      world.manager.sessions := by
  cases sessions <;> rfl

theorem closeNext_name (instanceId : InstanceId) (failures : List Thrown)
    (sessions : List SessionId) (id : SessionId) :
    (closeNext world instanceId failures sessions).manager.name id =
      world.manager.name id := by
  cases sessions with
  | nil => rfl
  | cons session rest => exact SessionManager.name_enqueue _

/-- Every session goes by the name under which it is stored. -/
def Named (world : SessionWorld) : Prop :=
  ∀ id name, world.manager.name id = some name → name = id

theorem Named.id_eq (named : world.Named) {id : SessionId} {session : Session}
    (found : world.manager.objects.lookup id = some session) :
    session.id = id := by
  apply named id session.id
  rw [SessionManager.name, SessionManager.standing_of_lookup found]
  rfl

theorem enter_advance (named : world.Named) {id : CallId}
    (taken : world.enter moment id = some (after, mark)) :
    Advance world moment (.enter id) after mark := by
  unfold enter at taken
  obtain ⟨call, isCall, taken⟩ := Option.bind_eq_some_iff.mp taken
  split at taken
  case h_2 => cases taken
  case h_1 held isStage =>
  obtain ⟨session, isSession, taken⟩ := Option.bind_eq_some_iff.mp taken
  split at taken
  case isFalse => cases taken
  case isTrue =>
    obtain rfl := named.id_eq isSession
    obtain ⟨rfl, rfl⟩ := Prod.mk.inj (Option.some.inj taken).symm
    exact .resumed isCall (by rw [isStage]; rfl)
      (enterSection_stretch call.request) rfl rfl rfl

theorem execAnswered_advance {id : CallId} {answer : Except Thrown Unit}
    (taken : world.execAnswered moment id answer = some (after, mark)) :
    Advance world moment (.execAnswered id answer) after mark := by
  unfold execAnswered at taken
  obtain ⟨call, isCall, ran⟩ := Option.bind_eq_some_iff.mp taken
  clear taken
  split at ran
  case h_1 isStage =>
    obtain ⟨rfl, rfl⟩ := Prod.mk.inj (Option.some.inj ran).symm
    exact .refused isCall isStage
  case h_2 execution _ _ tty _ _ _ isStage _ =>
    obtain ⟨rfl, rfl⟩ := Prod.mk.inj (Option.some.inj ran).symm
    obtain ⟨stage, continues, same⟩ :=
      world.opened_eq moment id call execution tty
    have goesOn : stage.session = some world.nextUuid := by
      rcases continues with rfl | ⟨error, rfl⟩
      · rfl
      · rfl
    have opens : Advance world moment (.execAnswered id (.ok ()))
        (world.openedWorld id call execution
          (SessionManager.newSession moment world.nextUuid call.instanceId
            execution tty) stage) _ := .opened isCall isStage goesOn
    rw [← same] at opens
    exact opens
  case h_3 => cases ran

theorem ends_of_stage {id : CallId} {call : SessionCall}
    (isCall : world.calls.lookup id = some call) :
    (world.calls.lookup id).map SessionCall.stage = some call.stage := by
  rw [isCall]
  rfl

theorem pollAnswered_advance (named : world.Named) {id : CallId}
    {answer : Except Thrown ExecutionResult}
    (taken : world.pollAnswered moment id answer = some (after, mark)) :
    Advance world moment (.pollAnswered id answer) after mark := by
  unfold pollAnswered at taken
  obtain ⟨call, isCall, ran⟩ := Option.bind_eq_some_iff.mp taken
  clear taken
  split at ran
  case h_1 held result isStage =>
    obtain ⟨session, isSession, ran⟩ := Option.bind_eq_some_iff.mp ran
    obtain rfl := named.id_eq isSession
    obtain ⟨rfl, rfl⟩ := Prod.mk.inj (Option.some.inj ran).symm
    apply Advance.resumed isCall (by rw [isStage]; rfl)
      (polled_stretch call.request.maxOutputTokens result isSession)
    · rw [ends, ends_of_stage isCall, isStage]
      dsimp only
      rw [SessionManager.isActive, isSession]
      by_cases running : result.state = .running
      · cases active : session.active with
        | true => simp [running, active]
        | false => simp [running, active]
      · simp [running]
    · exact noteReport_calls _ _
    · exact noteReport_nextUuid _ _
  case h_2 held error isStage =>
    obtain ⟨rfl, rfl⟩ := Prod.mk.inj (Option.some.inj ran).symm
    exact .resumed isCall (by rw [isStage]; rfl)
      (Stretch.stays (.inl rfl)) rfl rfl rfl
  case h_3 held result isStage =>
    obtain ⟨session, isSession, ran⟩ := Option.bind_eq_some_iff.mp ran
    obtain rfl := named.id_eq isSession
    obtain ⟨rfl, rfl⟩ := Prod.mk.inj (Option.some.inj ran).symm
    apply Advance.resumed isCall (by rw [isStage]; rfl)
      (killedAndPolled_stretch result isSession)
    · rw [ends, ends_of_stage isCall, isStage]
      rfl
    · exact noteReport_calls _ _
    · exact noteReport_nextUuid _ _
  case h_4 held error isStage =>
    obtain ⟨rfl, rfl⟩ := Prod.mk.inj (Option.some.inj ran).symm
    exact .resumed isCall (by rw [isStage]; rfl)
      (Stretch.stays (.inr rfl)) rfl rfl rfl
  case h_5 => cases ran

theorem writeAnswered_advance {id : CallId} {answer : Except Thrown Unit}
    (taken : world.writeAnswered moment id answer = some (after, mark)) :
    Advance world moment (.writeAnswered id answer) after mark := by
  unfold writeAnswered at taken
  obtain ⟨call, isCall, ran⟩ := Option.bind_eq_some_iff.mp taken
  clear taken
  split at ran
  case h_1 held isStage =>
    obtain ⟨rfl, rfl⟩ := Prod.mk.inj (Option.some.inj ran).symm
    exact .resumed isCall (by rw [isStage]; rfl)
      (pollOrAbandon_stretch rfl fun _ => rfl) rfl rfl rfl
  case h_2 held error isStage =>
    obtain ⟨rfl, rfl⟩ := Prod.mk.inj (Option.some.inj ran).symm
    exact .resumed isCall (by rw [isStage]; rfl)
      (Stretch.stays (.inl rfl)) rfl rfl rfl
  case h_3 => cases ran

theorem afterKill_stretch {instanceId : InstanceId} {stage : SessionStage}
    {answer : Except Thrown Unit} {held : SessionId}
    {segment : SessionSegment}
    (found : afterKill world.manager moment instanceId stage answer =
      some (held, segment)) :
    (∃ error, stage = .abandoning held error ∧
        Stretch world.manager held true segment) ∨
      (∀ session error, stage ≠ .abandoning session error) ∧
        Stretch world.manager held false segment := by
  unfold afterKill at found
  split at found
  case h_1 =>
    cases found
    exact .inr ⟨by simp, pollOrAbandon_stretch rfl fun _ => rfl⟩
  case h_2 =>
    cases found
    exact .inr ⟨by simp, Stretch.stays (.inl rfl)⟩
  case h_3 =>
    cases found
    refine .inr ⟨by simp, Stretch.stays ?_⟩
    split
    · exact .inl rfl
    · exact .inr rfl
  case h_4 =>
    cases found
    exact .inr ⟨by simp, Stretch.stays (.inr rfl)⟩
  case h_5 error =>
    cases found
    exact .inl ⟨error, rfl, abandoned_stretch error⟩
  case h_6 => cases found

theorem killAnswered_advance {id : CallId} {answer : Except Thrown Unit}
    (taken : world.killAnswered moment id answer = some (after, mark)) :
    Advance world moment (.killAnswered id answer) after mark := by
  unfold killAnswered at taken
  obtain ⟨call, isCall, taken⟩ := Option.bind_eq_some_iff.mp taken
  obtain ⟨⟨held, segment⟩, isSegment, taken⟩ :=
    Option.bind_eq_some_iff.mp taken
  obtain ⟨session, isSession, taken⟩ := Option.bind_eq_some_iff.mp taken
  obtain ⟨rfl, rfl⟩ := Prod.mk.inj (Option.some.inj taken).symm
  have holds := afterKill_session isSegment
  rcases afterKill_stretch isSegment with
    ⟨error, isStage, stretch⟩ | ⟨other, stretch⟩
  · apply Advance.resumed isCall holds stretch
    · rw [ends, ends_of_stage isCall, isStage]
      rfl
    · exact noteKill_calls _ _
    · exact noteKill_nextUuid _ _
  · apply Advance.resumed isCall holds stretch
    · rw [ends, ends_of_stage isCall]
      split
      · next isStage => exact (other _ _ (Option.some.inj isStage)).elim
      · rfl
    · exact noteKill_calls _ _
    · exact noteKill_nextUuid _ _

/-! ### `closeInstance` and the reaper -/

theorem closingFails_quiet (instanceId : InstanceId)
    (failures : List Thrown) (session : SessionId) (rest : List SessionId)
    (error : Thrown) :
    (world.closingFails instanceId failures session rest error).calls =
        world.calls ∧
      (world.closingFails instanceId failures session rest
        error).manager.sessions = world.manager.sessions ∧
      ∀ id, (world.closingFails instanceId failures session rest
        error).manager.name id = world.manager.name id := by
  refine ⟨closeNext_calls _ _ _, closeNext_sessions _ _ _, ?_⟩
  intro id
  rw [closingFails, closeNext_name]
  exact SessionManager.name_release _

theorem closingEnters_advance {instanceId : InstanceId}
    (taken : world.closingEnters moment instanceId = some after) :
    Advance world moment (.closingEnters instanceId) after none := by
  unfold closingEnters at taken
  obtain ⟨call, isCall, taken⟩ := Option.bind_eq_some_iff.mp taken
  split at taken
  · split at taken
    · cases taken
      exact .closes rfl rfl rfl fun _ => SessionManager.name_enter _
    · cases taken
  · cases taken

theorem closingKillAnswered_advance {instanceId : InstanceId}
    {answer : Except Thrown Unit}
    (taken : world.closingKillAnswered moment instanceId answer =
      some after) :
    Advance world moment (.closingKillAnswered instanceId answer) after
      none := by
  unfold closingKillAnswered at taken
  obtain ⟨call, isCall, taken⟩ := Option.bind_eq_some_iff.mp taken
  split at taken
  case h_2 => cases taken
  case h_1 held rest again isStage =>
  obtain ⟨session, isSession, taken⟩ := Option.bind_eq_some_iff.mp taken
  have fails := fun error => (world.noteKill session.execution
    answer).closingFails_quiet instanceId call.failures held rest error
  simp only [noteKill_calls, noteKill_manager] at fails
  split at taken
  · cases taken
    exact .closes rfl (fails _).1 (fails _).2.1 (fails _).2.2
  · split at taken
    · cases taken
      exact .closes rfl (fails _).1 (fails _).2.1 (fails _).2.2
    · cases taken
      refine .closes rfl (noteKill_calls _ _) ?_ ?_
      · exact congrArg SessionManager.sessions (noteKill_manager _ _ _)
      · intro id
        exact congrArg (SessionManager.name · id) (noteKill_manager _ _ _)

theorem closingPollAnswered_advance {instanceId : InstanceId}
    {answer : Except Thrown ExecutionResult}
    (taken : world.closingPollAnswered instanceId answer = some after) :
    Advance world moment (.closingPollAnswered instanceId answer) after
      none := by
  unfold closingPollAnswered at taken
  obtain ⟨call, isCall, ran⟩ := Option.bind_eq_some_iff.mp taken
  clear taken
  split at ran
  case h_1 held rest again error isStage =>
    cases ran
    have fails := world.closingFails_quiet instanceId call.failures held rest
      error
    exact .closes rfl fails.1 fails.2.1 fails.2.2
  case h_2 held rest again result isStage =>
    obtain ⟨session, isSession, ran⟩ := Option.bind_eq_some_iff.mp ran
    dsimp only at ran
    split at ran
    · split at ran
      · cases ran
        have fails := (world.noteReport session.execution
          result.state).closingFails_quiet instanceId call.failures held rest
          (.coded .backendError "Session did not reach a terminal state")
        simp only [noteReport_calls, noteReport_manager] at fails
        exact .closes rfl fails.1 fails.2.1 fails.2.2
      · cases ran
        refine .closes rfl (noteReport_calls _ _) ?_ ?_
        · exact congrArg SessionManager.sessions (noteReport_manager _ _ _)
        · intro id
          exact congrArg (SessionManager.name · id) (noteReport_manager _ _ _)
    · cases ran
      rw [noteReport_manager]
      apply Advance.closes rfl
      · rw [closeNext_calls]
        exact noteReport_calls _ _
      · rw [closeNext_sessions]
        rfl
      · intro id
        rw [closeNext_name]
        exact (SessionManager.name_release _).trans
          SessionManager.name_deactivate
  case h_3 => cases ran

/-- Every step is one of these, whatever has been answered. -/
theorem advance (named : world.Named) {event : SessionEvent}
    (taken : world.step moment event = some (after, mark)) :
    Advance world moment event after mark := by
  have silent : ∀ {outcome : Option SessionWorld},
      outcome.map (·, (none : Option InstanceMark)) = some (after, mark) →
        outcome = some after ∧ mark = none := by
    intro outcome same
    obtain ⟨found, isFound, pair⟩ := Option.map_eq_some_iff.mp same
    obtain ⟨rfl, rfl⟩ := Prod.mk.inj pair
    exact ⟨isFound, rfl⟩
  cases event with
  | begin id instanceId request =>
      obtain ⟨ran, rfl⟩ := silent taken
      unfold begin at ran
      split at ran
      · cases ran
      · next absent =>
          cases ran
          exact .begun absent rfl
  | enter => exact enter_advance named taken
  | execAnswered => exact execAnswered_advance taken
  | pollAnswered => exact pollAnswered_advance named taken
  | writeAnswered => exact writeAnswered_advance taken
  | killAnswered => exact killAnswered_advance taken
  | closeInstance instanceId =>
      obtain ⟨ran, rfl⟩ := silent taken
      unfold closeInstance at ran
      split at ran
      · cases ran
      · cases ran
        exact .closes rfl (closeNext_calls _ _ _) (closeNext_sessions _ _ _)
          fun _ => closeNext_name _ _ _ _
  | closingEnters =>
      obtain ⟨ran, rfl⟩ := silent taken
      exact closingEnters_advance ran
  | closingKillAnswered =>
      obtain ⟨ran, rfl⟩ := silent taken
      exact closingKillAnswered_advance ran
  | closingPollAnswered =>
      obtain ⟨ran, rfl⟩ := silent taken
      exact closingPollAnswered_advance ran
  | reapExpired id =>
      obtain ⟨ran, rfl⟩ := silent taken
      unfold reapExpired at ran
      split at ran
      · cases ran
      · cases ran
        exact .reaps
  | reaperKillAnswered id answer =>
      obtain ⟨ran, rfl⟩ := silent taken
      unfold reaperKillAnswered at ran
      obtain ⟨reaper, isReaper, ran⟩ := Option.bind_eq_some_iff.mp ran
      split at ran
      · next held isStage =>
          obtain ⟨session, isSession, ran⟩ := Option.bind_eq_some_iff.mp ran
          cases ran
          rw [noteKill_manager]
          exact .reaped isReaper isStage isSession
      · cases ran

theorem reapNext_objects (manager : SessionManager) (now : Nat)
    (passed candidates : List SessionId) :
    (reapNext manager now passed candidates).1.objects = manager.objects := by
  induction candidates generalizing manager passed with
  | nil => rfl
  | cons id rest induction =>
      rw [reapNext]
      split
      · exact induction manager _
      · split
        · exact induction manager _
        · split
          · rfl
          · exact induction (manager.delete id) _

theorem reapNext_sublist (manager : SessionManager) (now : Nat)
    (passed candidates : List SessionId) :
    (reapNext manager now passed candidates).1.sessions.Sublist
      manager.sessions := by
  induction candidates generalizing manager passed with
  | nil => exact .refl _
  | cons id rest induction =>
      rw [reapNext]
      split
      · exact induction manager _
      · split
        · exact induction manager _
        · split
          · exact .refl _
          · exact (induction (manager.delete id) _).trans List.erase_sublist

/-- The loop passes over active sessions. -/
theorem reapNext_dropped {manager : SessionManager} {now : Nat}
    {passed candidates : List SessionId} {id : SessionId}
    (member : id ∈ manager.sessions)
    (absent : id ∉ (reapNext manager now passed candidates).1.sessions) :
    manager.isActive id = false := by
  induction candidates generalizing manager passed with
  | nil => exact (absent member).elim
  | cons other rest induction =>
      rw [reapNext] at absent
      split at absent
      · exact induction member absent
      · next session found =>
          split at absent
          · exact induction member absent
          · split at absent
            · exact (absent member).elim
            · next notActive =>
                by_cases same : id = other
                · rw [SessionManager.isActive, same, found]
                  simpa using notActive
                · have later : (manager.delete other).isActive id = false :=
                    induction ((List.mem_erase_of_ne same).mpr member) absent
                  exact later

theorem standing_of_objects {manager later : SessionManager}
    (same : later.objects = manager.objects) (id : SessionId) :
    later.standing id = manager.standing id := by
  rw [SessionManager.standing, same, SessionManager.standing]

@[simp] theorem standing_reapOn (reaper now : Nat) (passed : List SessionId)
    (id : SessionId) :
    (world.reapOn reaper now passed).manager.standing id =
      world.manager.standing id :=
  standing_of_objects (reapNext_objects _ _ _ _) id

theorem reapOn_sublist (reaper now : Nat) (passed : List SessionId) :
    (world.reapOn reaper now passed).manager.sessions.Sublist
      world.manager.sessions :=
  reapNext_sublist _ _ _ _

theorem reapOn_dropped {reaper now : Nat} {passed : List SessionId}
    {id : SessionId} (member : id ∈ world.manager.sessions)
    (absent : id ∉ (world.reapOn reaper now passed).manager.sessions) :
    world.manager.isActive id = false :=
  reapNext_dropped member absent

/-! ### Beginning a call -/

theorem reap_isActive {manager : SessionManager} {now : Nat} {id : SessionId}
    (member : id ∈ manager.sessions)
    (absent : id ∉ (manager.reap now).sessions) :
    manager.isActive id = false := by
  rw [SessionManager.isActive]
  cases found : manager.objects.lookup id with
  | none => rfl
  | some session => exact reap_dropped member absent found

/-- A call that begins changes no session, and lists fewer at most. -/
structure BeginsWith (manager later : SessionManager) : Prop where
  standing : ∀ id, later.standing id = manager.standing id
  sessions : later.sessions.Sublist manager.sessions
  dropped : ∀ id ∈ manager.sessions, id ∉ later.sessions →
    manager.isActive id = false

theorem evict_sublist (sessions removable : List SessionId) :
    (SessionManager.evict sessions removable).Sublist sessions := by
  induction removable generalizing sessions with
  | nil => exact .refl _
  | cons id removable induction =>
      rw [SessionManager.evict]
      split
      · exact (induction _).trans List.erase_sublist
      · exact .refl _

theorem reap_sublist (manager : SessionManager) (now : Nat) :
    (manager.reap now).sessions.Sublist manager.sessions :=
  (evict_sublist _ _).trans List.filter_sublist

theorem begin_beginsWith {manager later : SessionManager} {id : CallId}
    {fresh : ExecutionId} {instanceId : InstanceId}
    {request : SessionRequest} {stage : SessionStage}
    (begun : manager.begin moment fresh id instanceId request =
      (later, stage)) :
    BeginsWith manager later := by
  have same : BeginsWith manager manager :=
    ⟨fun _ => rfl, .refl _, fun id member absent => (absent member).elim⟩
  rcases begin_cases begun with ⟨rfl, -⟩ | ⟨rfl, -⟩ | ⟨session, object, rfl, -, -⟩
  · exact ⟨fun _ => rfl, reap_sublist _ _, fun id => reap_isActive⟩
  · exact same
  · constructor
    · exact fun _ => SessionManager.standing_enqueue _
    · exact same.sessions
    · exact same.dropped

/-! ### Leaving a section -/

theorem standing_resume {noted : SessionWorld} {id : CallId}
    {call : SessionCall} {held : SessionId} {segment : SessionSegment}
    (other : SessionId) :
    (noted.resume id call held segment).1.manager.standing other =
      segment.manager.standing other := by
  change (leaveSection _ _ _ _).standing other = _
  rw [leaveSection.eq_def]
  split
  · exact SessionManager.standing_release _
  · rfl

theorem sessions_resume {noted : SessionWorld} {id : CallId}
    {call : SessionCall} {held : SessionId} {segment : SessionSegment} :
    (noted.resume id call held segment).1.manager.sessions =
      segment.manager.sessions := by
  change (leaveSection _ _ _ _).sessions = _
  rw [leaveSection.eq_def]
  split
  · rfl
  · rfl

/-! ### Names -/

theorem Named.of_name (named : world.Named)
    (same : ∀ id, after.manager.name id = world.manager.name id) :
    after.Named := by
  intro id name isName
  rw [same] at isName
  exact named id name isName

theorem Named.of_standing (named : world.Named)
    (same : ∀ id, after.manager.standing id = world.manager.standing id) :
    after.Named := by
  apply named.of_name
  intro id
  rw [SessionManager.name, same, SessionManager.name]

theorem name_retired {manager : SessionManager} (id : SessionId) :
    ((manager.standing id).map Standing.retired).map Standing.id =
      manager.name id := by
  rw [Option.map_map]
  rfl

theorem Named.advance (named : world.Named) {event : SessionEvent}
    (advance : Advance world moment event after mark) : after.Named := by
  cases advance with
  | begun absent begun =>
      exact named.of_standing (begin_beginsWith begun).standing
  | refused => exact named.of_standing fun _ => rfl
  | opened isCall isStarting goesOn =>
      intro id name isName
      rw [SessionManager.name, SessionManager.standing] at isName
      change Option.map _ (Option.map _
        ((world.manager.objects.insert world.nextUuid _).lookup id)) = _
        at isName
      rw [AList.lookup_insert_if] at isName
      split at isName
      · next same =>
          cases isName
          exact same.symm
      · exact named id name isName
  | resumed isCall holds stretch =>
      apply named.of_name
      intro id
      rw [SessionManager.name, standing_resume, stretch.standing]
      split
      · exact name_retired id
      · rfl
  | closes _ _ _ same => exact named.of_name same
  | reaps => exact named.of_standing fun _ => standing_reapOn _ _ _ _
  | reaped =>
      apply named.of_name
      intro id
      rw [SessionManager.name, standing_reapOn]
      exact SessionManager.name_deactivate

theorem named_empty (maxOutputBytes : Nat) : (empty maxOutputBytes).Named := by
  intro id name isName
  cases isName

end SessionWorld

end Electrosphere
