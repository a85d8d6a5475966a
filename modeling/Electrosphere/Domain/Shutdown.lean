import Electrosphere.Domain.OneTurn

/-!
# Shutdown

A close that has settled has left no call in flight and has forced every turn
that was still active.  A runtime that could run belongs to a turn that is
open or has a call in flight, so none is left, and the closing flag keeps it
so until the process ends.
-/

namespace Electrosphere

open Foundation

/-! ## The closing flag -/

/-- The events that run `closeAll`. -/
def Event.closes : Event → Bool
  | .close _ | .resumeClose => true
  | _ => false

namespace World

variable {deployment : Deployment} {world after : World}

theorem start_closing (input : StartTurnInput)
    (environment : StartEnvironment) :
    (world.start input environment).1.closing = world.closing ∧
      (world.start input environment).1.close = world.close := by
  have started := world.start_started input environment
  generalize (world.start input environment).1 = outcome at started ⊢
  cases started <;> exact ⟨rfl, rfl⟩

theorem finish_closing (world : World) (key : TurnKey) (environment : FinishEnvironment) :
    (world.finish key environment).1.closing = world.closing ∧
      (world.finish key environment).1.close = world.close := by
  unfold finish
  repeat' split
  all_goals exact ⟨rfl, rfl⟩

theorem forceLoop_closing (call : CloseCall) (failures : List Thrown)
    (turns : List (TurnKey × TurnRow)) (world : World) :
    (world.forceLoop call failures turns).closing = world.closing ∧
      (world.forceLoop call failures turns).close ≠ none := by
  induction turns generalizing world with
  | nil => simp [forceLoop, setClose]
  | cons turn turns induction =>
      unfold forceLoop
      split
      · simp [setClose]
      split
      case h_1 db _ => exact induction { world with db }
      case h_2 => simp [setClose]

theorem closeOpen_closing (call : CloseCall) (failures : List Thrown)
    (keys : List TurnKey) :
    (world.closeOpen call failures keys).closing = world.closing ∧
      (world.closeOpen call failures keys).close ≠ none := by
  unfold closeOpen
  split
  case h_1 =>
    split
    · exact forceLoop_closing call failures _ world
    · simp [setClose]
  case h_2 key rest =>
    obtain ⟨closing, _⟩ := world.finish_closing key
      (call.environment.finish key)
    split <;> rename_i same <;> rw [same] at closing <;>
      simpa [setClose] using closing

theorem resumeClose_closing (resumed : world.resumeClose = some after) :
    after.closing = world.closing ∧ after.close ≠ none := by
  unfold resumeClose at resumed
  split at resumed
  case h_1 => cases resumed
  split at resumed
  case h_1 =>
    split at resumed <;> cases resumed
    exact closeOpen_closing _ _ _
  case h_2 =>
    split at resumed <;> cases resumed
    exact closeOpen_closing _ _ _
  case h_3 =>
    split at resumed <;> cases resumed
    exact forceLoop_closing _ _ _ world
  case h_4 =>
    dsimp only at resumed
    split at resumed <;> cases resumed
    · exact forceLoop_closing _ _ _ _
    · simp [setClose]
  case h_5 =>
    obtain ⟨_, _, rfl⟩ := Option.map_eq_some_iff.mp resumed
    simp [setClose]
  case h_6 => cases resumed

/-- Only a close touches its promise and the flag, and it sets both. -/
theorem step_closing (orderly : world.Orderly) {event : Event}
    (calling : event.calling = true)
    (taken : world.step deployment event = some after) :
    (after.closing = world.closing ∧ after.close = world.close) ∨
    (event.closes = true ∧ after.closing = true ∧
      after.close ≠ none) := by
  cases stepped taken with
  | start input environment => exact .inl (start_closing input environment)
  | resumeStart resumed =>
      unfold resumeStart at resumed
      split at resumed
      case h_1 => cases resumed
      obtain ⟨_, _, rfl⟩ := Option.map_eq_some_iff.mp resumed
      exact .inl ⟨rfl, rfl⟩
  | forgetStart forgotten =>
      unfold forgetStart at forgotten
      split at forgotten
      case h_1 => cases forgotten
      split at forgotten <;> cases forgotten
      exact .inl ⟨rfl, rfl⟩
  | acquire key =>
      unfold acquire
      repeat' split
      all_goals exact .inl ⟨rfl, rfl⟩
  | release released =>
      obtain ⟨_, _, _, closing, _, _, close, _, _⟩ :=
        release_leasesOnly released
      exact .inl ⟨closing, close⟩
  | markInstance marked =>
      obtain ⟨_, _, rfl⟩ := markInstance_eq marked
      exact .inl ⟨rfl, rfl⟩
  | finish key environment =>
      exact .inl (world.finish_closing key environment)
  | resumeFinish resumed =>
      unfold resumeFinish at resumed
      split at resumed
      case h_1 => cases resumed
      obtain ⟨_, _, rfl⟩ := Option.map_eq_some_iff.mp resumed
      exact .inl ⟨rfl, rfl⟩
  | forgetFinish forgotten =>
      unfold forgetFinish at forgotten
      split at forgotten
      case h_1 => cases forgotten
      split at forgotten <;> cases forgotten
      exact .inl ⟨rfl, rfl⟩
  | fork input =>
      unfold fork
      repeat' split
      all_goals exact .inl ⟨rfl, rfl⟩
  | close environment =>
      unfold closeService
      split
      case h_1 => exact .inl ⟨rfl, rfl⟩
      case h_2 =>
        refine .inr ⟨rfl, ?_⟩
        dsimp only
        split
        · exact closeOpen_closing _ _ _
        · simp [setClose]
  | resumeClose resumed =>
      obtain ⟨closing, close⟩ := resumeClose_closing resumed
      refine .inr ⟨rfl, ?_, close⟩
      unfold World.resumeClose at resumed
      split at resumed
      case h_1 => cases resumed
      case h_2 call isClose =>
        rw [closing]
        exact (orderly.closing call isClose).1
  | boot | restart | initializeService | recover | closeSandboxService =>
      cases calling

end World

/-- A property of a fresh boot that every event of a process preserves. -/
theorem Served.event_invariant {deployment : Deployment}
    {property : World → Prop}
    (booted : ∀ {before after : World} {destroy},
      before.boot deployment destroy = some after → property after)
    (preserved : ∀ {before after : World} {event : Event},
      Served deployment before → property before →
      event.calling = true →
      before.step deployment event = some after → property after)
    {world : World} (served : Served deployment world) : property world := by
  refine Reachable.invariant_under
    (fun state (reached : Served deployment state) => reached) ?_ ?_ served
  · rintro first ⟨destroy, isBoot⟩
    exact booted isBoot
  · intro before event after earlier _ holds serving taken
    by_cases calling : event.calling = true
    · exact preserved earlier holds calling taken
    · cases World.stepped taken with
      | boot isBoot => exact booted isBoot
      | restart | initializeService | recover | closeSandboxService =>
          cases serving
      | _ => exact (calling rfl).elim

theorem Served.closing_iff {deployment : Deployment} {world : World}
    (served : Served deployment world) :
    world.closing = true ↔ world.close ≠ none := by
  constructor
  · let holds (world : World) : Prop :=
      world.closing = true → world.close ≠ none
    have invariant : holds world := by
      refine served.event_invariant ?_ ?_
      · intro before after destroy booted isClosing
        obtain ⟨_, _, _, _, rfl⟩ := World.boot_eq booted
        cases isClosing
      · intro before after event earlier closes calling taken isClosing
        rcases World.step_closing earlier.orderly calling taken with
          ⟨closing, close⟩ | ⟨_, _, isClose⟩
        · rw [close]
          exact closes (closing ▸ isClosing)
        · exact isClose
    exact invariant
  · intro isClose
    obtain ⟨call, isCall⟩ := Option.ne_none_iff_exists'.mp isClose
    exact (served.orderly.closing call isCall).1

/-! ## Runtimes that could run -/

/-- A turn or a session can use an instance in this state. -/
def InstanceState.live : InstanceState → Bool
  | .ready | .running | .committing => true
  | _ => false

theorem InstanceState.not_live_of_dead {state : InstanceState}
    (dead : state.dead = true) : state.live = false := by
  cases state <;> first | rfl | cases dead

/-- The runtime is being deleted, or the finish has settled. -/
def FinishStage.leaving : FinishStage → Bool
  | .deleting .. | .settled _ => true
  | _ => false

/-- What is left of a runtime cannot run. -/
def Halted (runtime : Option InstanceRow) : Prop :=
  ∀ row, runtime = some row → row.state.live = false

/-- The turn is open, is about to be, or a finish has not let go of it. -/
def Sight.Uses (sight : Sight) : Prop :=
  (∃ row, sight.row = some row ∧ row.state = .opened) ∨
  (∃ call runtime, sight.start = some call ∧
    call.stage = .created runtime) ∨
  (∃ call, sight.finish = some call ∧ call.stage.leaving = false)

/-- A turn whose runtime could run has a use for it. -/
def Sight.Employed (sight : Sight) : Prop :=
  Halted sight.runtime ∨ sight.Uses

theorem Deletion.start_halted (db : Database) (id : InstanceId) :
    Halted ((Deletion.start db id).1.getInstance id) := by
  unfold Deletion.start
  cases found : db.getInstance id with
  | none =>
      intro row isRow
      cases found.symm.trans isRow
  | some row =>
      dsimp only
      split
      case isTrue terminated =>
        intro other isOther
        cases found.symm.trans isOther
        rw [terminated]
        rfl
      case isFalse =>
        intro other isOther
        have lookup := AList.lookup_modify_self id
          ({ state := some .terminating } : InstanceUpdate).apply db.instances
        rw [show db.instances.lookup id = some row from found] at lookup
        cases lookup.symm.trans isOther
        rfl

theorem Deletion.resume_halted {environment : DeletionEnvironment}
    {db next : Database} {id : InstanceId} {progress later : Deletion}
    (resumed : progress.resume environment db id = some (next, later))
    (halted : Halted (db.getInstance id)) : Halted (next.getInstance id) := by
  unfold Deletion.resume at resumed
  split at resumed
  · split at resumed <;> cases resumed <;> exact halted
  · split at resumed <;> cases resumed
    · intro row isRow
      have lookup := AList.lookup_modify_self id
        ({ state := some .terminated, backendHandle := some none } :
          InstanceUpdate).apply db.instances
      obtain ⟨before, _, rfl⟩ := Option.map_eq_some_iff.mp
        (lookup.symm.trans isRow)
      rfl
    · exact halted
  · cases resumed

theorem Halted.update {instances : Table InstanceId InstanceRow}
    {id : InstanceId} {change : InstanceRow → InstanceRow}
    (halts : ∀ row, (change row).state.live = false) :
    Halted ((AList.modify id change instances).lookup id) := by
  rw [AList.lookup_modify_self]
  intro row isRow
  obtain ⟨before, _, rfl⟩ := Option.map_eq_some_iff.mp isRow
  exact halts before

theorem recordFailure_instances (db : Database) (key : TurnKey)
    (error : Thrown) : (recordFailure db key error).1.instances =
      db.instances := by
  unfold recordFailure
  split
  case h_1 done => rw [Database.updateTurn_frame done]
  case h_2 => rfl

theorem afterDeletion_halted {db : Database} {key : TurnKey}
    {id : InstanceId} (purpose : DeletionPurpose)
    (result : Except Thrown Unit) (halted : Halted (db.getInstance id)) :
    Halted ((afterDeletion db key id purpose result).1.getInstance id) := by
  have lost : ∀ error, Halted ((recordLost db id error).getInstance id) :=
    fun error => Halted.update fun _ => rfl
  have failed : ∀ {before : Database} error,
      Halted (before.getInstance id) →
      Halted ((recordFailure before key error).1.getInstance id) := by
    intro before error halted
    unfold Database.getInstance
    rw [recordFailure_instances]
    exact halted
  unfold afterDeletion
  split
  case h_1 =>
    unfold completeInstant
    dsimp only
    split
    case h_1 done =>
      rw [Database.updateTurn_frame done]
      exact halted
    case h_2 => exact halted
  case h_2 error => exact failed error (lost error)
  case h_3 => exact halted
  case h_4 error =>
    dsimp only
    split
    case h_1 done =>
      unfold recordCleanupError at done
      rw [Database.updateTurn_frame done]
      exact lost error
    case h_2 => exact lost error
  case h_5 error => exact failed error halted
  case h_6 error cleanupError => exact failed error (lost cleanupError)

section Employment

variable {deployment : Deployment} {db next : Database}
  {objects : List String}

/-- A start leaves a runtime that could run only when it has created it. -/
theorem StartStep.employed {call : StartCall} {stage : StartStage}
    (step : StartStep deployment db call next stage) (fits : call.Fits)
    (isStarting : db.turns.lookup call.input.key =
      some call.input.startingRow)
    (before : (∀ runtime, call.stage ≠ .created runtime) →
      Halted (db.getInstance call.instanceId)) :
    Halted (next.getInstance call.instanceId) ∨
      (∃ row, next.turns.lookup call.input.key = some row ∧
        row.state = .opened) ∨
      ∃ runtime, stage = .created runtime := by
  have own : ∀ {runtime : RuntimeInput}, call.stage.runtime = some runtime →
      runtime.instanceId = call.instanceId :=
    fun isRuntime => (fits.runtime _ isRuntime).instanceId
  have idle : ∀ {current : StartStage}, call.stage = current →
      (∀ runtime, current ≠ .created runtime) →
      Halted (db.getInstance call.instanceId) := by
    rintro current rfl notCreated
    exact before notCreated
  cases step with
  | workspaceFailed isStage | workspaceFound isStage | probed isStage
  | probeFailed isStage | directoryMade isStage | directoryFailed isStage
  | materializeFailed isStage | recordFailed isStage | cleaned isStage =>
      exact .inl (idle isStage (by simp))
  | @recorded runtime _ isStage _ done =>
      left
      obtain ⟨_, _, rfl⟩ := Database.createInstance_eq_ok.mp done
      rw [← own (by rw [isStage]; rfl)]
      intro row isRow
      cases (AList.lookup_insert _).symm.trans isRow
      rfl
  | created => exact .inr (.inr ⟨_, rfl⟩)
  | vanished isStage _ absent =>
      left
      rw [← own (by rw [isStage]; rfl)]
      intro row isRow
      unfold Database.hasInstance at absent
      rw [show (recordHandle db _ _).instances.lookup _ = some row from isRow]
        at absent
      cases absent
  | createFailed isStage =>
      left
      rw [← own (by rw [isStage]; rfl)]
      exact Halted.update fun _ => rfl
  | @opened runtime _ _ isStage done =>
      right
      left
      have lookups := updateTurn_lookup done call.input.key
      rw [if_pos rfl, isStarting] at lookups
      exact ⟨_, lookups, by simp [TurnUpdate.apply, openUpdate_state]⟩
  | openFailed | turnVanished => exact .inl (Deletion.start_halted _ _)
  | @failed error _ _ isStage failed =>
      left
      have same : next.instances = db.instances := by
        unfold failStart at failed
        split at failed
        case h_1 done =>
          cases failed
          rw [Database.updateTurn_frame done]
        case h_2 =>
          cases failed
          rfl
      unfold Database.getInstance
      rw [same]
      rcases isStage with isStage | ⟨_, isStage⟩
      · exact idle isStage (by simp)
      · exact idle isStage (by simp)
  | deleting isStage resumed =>
      exact .inl (Deletion.resume_halted resumed (idle isStage (by simp)))

theorem failTurn_halted {call : FinishCall} {id : InstanceId}
    (isRuntime : call.record.instanceId = some id) (error : Thrown) :
    Halted ((failTurn db call error).1.getInstance id) := by
  unfold failTurn
  rw [isRuntime]
  exact Deletion.start_halted db id

theorem finishCapture_committed (deployment : Deployment) (db : Database)
    (objects : List String) (commit : CommitInput)
    (captured : Except Thrown CfsObject) : ∃ result,
      (finishCapture deployment db objects commit captured).stage =
        .committed result := by
  unfold finishCapture
  split
  · exact ⟨_, rfl⟩
  · split <;> exact ⟨_, rfl⟩

/-- A finish that lets go of its runtime has stopped it. -/
theorem FinishStep.employed {call : FinishCall} {segment : FinishSegment}
    (step : FinishStep deployment db objects call segment) {id : InstanceId}
    (isRuntime : call.record.instanceId = some id)
    (before : call.stage.leaving = true → Halted (db.getInstance id)) :
    Halted (segment.db.getInstance id) ∨ segment.stage.leaving = false := by
  have captured : ∀ commit result stored,
      (finishCapture deployment db stored commit result).stage.leaving =
        false := by
    intro commit result stored
    obtain ⟨_, isStage⟩ :=
      finishCapture_committed deployment db stored commit result
    rw [isStage]
    rfl
  cases step with
  | noRuntime | sessionsFailed | commitFailed =>
      exact .inl (failTurn_halted isRuntime _)
  | closing | sessionsEnded | sessionsStuck | snapshotTaken
  | guestCaptured => exact .inr rfl
  | proceed _ present =>
      cases present.symm.trans isRuntime
      unfold finishRuntime
      split
      case h_1 => exact .inl (Deletion.start_halted db id)
      case h_2 =>
        unfold startCommit
        split <;> exact .inr rfl
      case h_3 => exact .inl (failTurn_halted isRuntime _)
  | snapshotFailed | hostCaptured | snapshotRemoved | snapshotKept =>
      exact .inr (captured _ _ _)
  | cleaning _ present =>
      cases present.symm.trans isRuntime
      exact .inl (Deletion.start_halted db id)
  | deleted isStage present =>
      cases present.symm.trans isRuntime
      exact .inl (afterDeletion_halted _ _ (before (by rw [isStage]; rfl)))
  | deleting isStage present resumed =>
      cases present.symm.trans isRuntime
      exact .inl (Deletion.resume_halted resumed
        (before (by rw [isStage]; rfl)))

end Employment

theorem FinishStage.leaving_of_settled {stage : FinishStage}
    (settled : stage.isSettled = true) : stage.leaving = true := by
  cases stage <;> first | rfl | cases settled

theorem FinishStage.unsettled_of_staying {stage : FinishStage}
    (staying : stage.leaving = false) : stage.isSettled = false := by
  cases stage <;> first | rfl | cases staying

section Sighted

variable {deployment : Deployment} {world : World} {key : TurnKey}

/-- The turn is open or one of its calls is in flight. -/
theorem Sight.Uses.active (uses : (world.sight key).Uses) :
    world.Opened key ∨ world.Starting key ∨ world.Finishing key := by
  rcases uses with ⟨row, isRow, isOpened⟩ | ⟨call, runtime, isCall, isStage⟩ |
    ⟨call, isCall, staying⟩
  · exact .inl ⟨row, isRow, isOpened⟩
  · refine .inr (.inl ⟨call, isCall, ?_⟩)
    rw [isStage]
    rfl
  · exact .inr (.inr ⟨call, isCall,
      FinishStage.unsettled_of_staying staying⟩)

/-- While its start is in flight a turn has no other use for its runtime. -/
theorem Sight.Uses.of_starting (known : world.Known deployment)
    {call : StartCall} (found : world.starts.lookup key = some call)
    (unsettled : call.stage.isSettled = false)
    (uses : (world.sight key).Uses) :
    ∃ runtime, call.stage = .created runtime := by
  have phase := known.orderly.phased key
  have isStarting := phase.starting call found unsettled
  rcases uses with ⟨row, isRow, isOpened⟩ | ⟨other, runtime, isCall, isStage⟩ |
    ⟨finish, isFinish, _⟩
  · cases isStarting.symm.trans isRow
    cases isOpened
  · cases found.symm.trans isCall
    exact ⟨runtime, isStage⟩
  · cases (phase.unbound _ isStarting rfl).1.symm.trans isFinish

/-- So has a turn that is being finished. -/
theorem Sight.Uses.of_finishing (known : world.Known deployment)
    {call : FinishCall} (found : world.finishes.lookup key = some call)
    (uses : (world.sight key).Uses) : call.stage.leaving = false := by
  have phase := known.orderly.phased key
  rw [found] at phase
  rcases uses with ⟨row, isRow, isOpened⟩ | ⟨start, _, isStart, isStage⟩ |
    ⟨other, isOther, staying⟩
  · cases (phase.opened row isRow isOpened).1
  · have settled := phase.start_settled isStart
    rw [isStage] at settled
    cases settled
  · cases found.symm.trans isOther
    exact staying

theorem Sight.Employed.move {after : Sight}
    (known : world.Known deployment)
    (employed : (world.sight key).Employed)
    (move : World.SightMove deployment world key after) :
    after.Employed := by
  have phase := known.orderly.phased key
  cases move with
  | began => exact .inl fun _ none => by cases none
  | @start call next stage found isKey step =>
      subst isKey
      have isStarting := phase.starting call found step.unsettled
      have before : (∀ runtime, call.stage ≠ .created runtime) →
          Halted (world.db.getInstance call.instanceId) := by
        intro notCreated
        rcases employed with halted | uses
        · unfold World.sight at halted
          rw [World.runtimeId_of_start found] at halted
          exact halted
        · obtain ⟨runtime, isStage⟩ :=
            uses.of_starting known found step.unsettled
          exact (notCreated runtime isStage).elim
      rcases step.employed (phase.starts call found).2 isStarting before
        with halted | opened | ⟨runtime, isStage⟩
      · exact .inl halted
      · exact .inr (.inl opened)
      · exact .inr (.inr (.inl ⟨_, runtime, rfl, isStage⟩))
  | @forgetStart call found settled =>
      refine employed.imp_right ?_
      rintro (opened | ⟨other, runtime, isCall, isStage⟩ | finish)
      · exact .inl opened
      · cases found.symm.trans isCall
        rw [isStage] at settled
        cases settled
      · exact .inr (.inr finish)
  | beginFinish =>
      refine .inr (.inr (.inr ⟨_, rfl, ?_⟩))
      dsimp only
      split <;> rfl
  | @finish call segment id found isKey fits isOwn isRuntime step =>
      have before : call.stage.leaving = true →
          Halted (world.db.getInstance id) := by
        intro leaving
        rcases employed with halted | uses
        · unfold World.sight at halted
          rw [isRuntime] at halted
          exact halted
        · rw [uses.of_finishing known found] at leaving
          cases leaving
      rcases step.employed isOwn before with halted | staying
      · exact .inl halted
      · exact .inr (.inr (.inr ⟨_, rfl, staying⟩))
  | @forgetFinish call found settled =>
      refine employed.imp_right ?_
      rintro (opened | start | ⟨other, isCall, staying⟩)
      · exact .inl opened
      · exact .inr (.inl start)
      · cases found.symm.trans isCall
        rw [FinishStage.leaving_of_settled settled] at staying
        cases staying
  | woken => exact .inr (.inr (.inr ⟨_, rfl, rfl⟩))
  | @marked lease turn running found isKey =>
      right
      subst isKey
      rcases known.leased.held lease turn found with
        ⟨row, isRow, isOpened⟩ | ⟨call, isCall, isWaiting⟩
      · exact .inl ⟨row, isRow, isOpened⟩
      · refine .inr (.inr ⟨call, isCall, ?_⟩)
        rw [isWaiting]
        rfl
  | forced _ _ noOpened noStart noFinish =>
      refine employed.imp_right fun uses => ?_
      rcases uses.active with isOpened | isStarting | isFinishing
      · exact (noOpened isOpened).elim
      · exact (noStart isStarting).elim
      · exact (noFinish isFinishing).elim

end Sighted

theorem Served.employed {deployment : Deployment} {world : World}
    (served : Served deployment world) (key : TurnKey) :
    (world.sight key).Employed := by
  let holds (_ : TurnKey) (sight : Sight) : Prop := sight.Employed
  have invariant : holds key (world.sight key) := by
    refine served.turn_invariant ?_ ?_ ?_ key
    · exact fun _ => .inl fun _ none => by cases none
    · exact fun _ _ known _ employed move => employed.move known move
    · intro _ _ _ _ booted
      left
      intro row isRow
      exact InstanceState.not_live_of_dead (booted.runtime row isRow)
  exact invariant

/-! ## Once a close has settled -/

namespace World

variable {deployment : Deployment} {world after : World}

/-- No turn is active. -/
def Inactive (db : Database) : Prop :=
  ∀ key row, db.turns.lookup key = some row → row.state.active = false

/-- The close has settled. -/
def Closed (world : World) : Prop :=
  ∃ call result, world.close = some call ∧ call.stage = .settled result

/-- The last loop of a close fails every turn that it lists. -/
theorem forceLoop_failed (call : CloseCall) (failures : List Thrown)
    (turns : List (TurnKey × TurnRow)) {world : World}
    (sound : Sound deployment world.store)
    (unbound : ∀ key row, (key, row) ∈ turns → row.instanceId = none)
    (listed : ∀ key row, world.db.turns.lookup key = some row →
      row.state.active = true → ∃ before, (key, before) ∈ turns) :
    Inactive (world.forceLoop call failures turns).db := by
  induction turns generalizing world with
  | nil =>
      intro key row found
      by_contra active
      obtain ⟨_, member⟩ := listed key row found (by simpa using active)
      cases member
  | cons turn turns induction =>
      obtain ⟨key, row⟩ := turn
      have noRuntime := unbound key row List.mem_cons_self
      have others : ∀ other before, (other, before) ∈ turns →
          before.instanceId = none := fun other before member =>
        unbound other before (List.mem_cons_of_mem _ member)
      unfold forceLoop
      rw [noRuntime]
      dsimp only
      cases found : world.db.turns.lookup key with
      | none =>
          unfold forceFailed
          rw [Database.updateTurn_of_absent found]
          refine @induction world sound others ?_
          intro other before isOther active
          obtain ⟨member, isMember⟩ := listed other before isOther active
          rcases List.mem_cons.mp isMember with same | later
          · cases same
            cases found.symm.trans isOther
          · exact ⟨member, later⟩
      | some current =>
          have done := sound.markTurn_succeeds
            { state := some .failed, errorJson := some (some closedError) }
            found (by simp [TurnUpdate.apply, TurnState.active])
            ⟨rfl, rfl, rfl⟩
          have forced : forceFailed world.db key = .ok _ := done
          rw [forced]
          have later := sound.writes (forceFailed_writes forced)
          refine induction later others ?_
          intro other before isOther active
          dsimp only at isOther
          rw [AList.lookup_insert_if] at isOther
          split at isOther
          case isTrue =>
            cases isOther
            cases active
          case isFalse different =>
            obtain ⟨member, isMember⟩ := listed other before isOther active
            rcases List.mem_cons.mp isMember with same | later
            · exact (different (Prod.mk.inj same).1).elim
            · exact ⟨member, later⟩

theorem closeForced_inactive (provisioned : Provisioned deployment world)
    (orderly : world.Orderly) (noOpened : ∀ key, ¬ world.Opened key)
    (noFinishes : ∀ key, ¬ world.Finishing key) (call : CloseCall)
    (failures : List Thrown) :
    Inactive (world.closeForced call failures).db := by
  refine forceLoop_failed call failures _ provisioned.sound ?_ ?_
  · intro key row member
    exact (orderly.forced_unbound noFinishes member).2.2
  · intro key row found active
    refine ⟨row, Database.mem_listTurns.mpr ⟨found, ?_⟩⟩
    cases state : row.state with
    | starting | finishing => simp
    | opened => exact (noOpened key ⟨row, found, state⟩).elim
    | finished | failed =>
        rw [state] at active
        cases active

theorem closeOpen_inactive (provisioned : Provisioned deployment world)
    (orderly : world.Orderly) (call : CloseCall) (failures : List Thrown)
    {keys : List TurnKey} (opened : ∀ key, world.Opened key → key ∈ keys)
    (closed : (world.closeOpen call failures keys).Closed) :
    Inactive (world.closeOpen call failures keys).db := by
  obtain ⟨closing, result, isClose, isSettled⟩ := closed
  unfold closeOpen at isClose ⊢
  split at isClose
  case h_1 =>
    split at isClose
    case h_1 none =>
      refine closeForced_inactive provisioned orderly ?_ ?_ _ _
      · intro key isOpened
        exact List.not_mem_nil (opened key isOpened)
      · intro key isFinishing
        have member := orderly.mem_listedFinishes_of_finishing isFinishing
        rw [none] at member
        cases member
    case h_2 =>
      cases isClose
      cases isSettled
  case h_2 =>
    split at isClose <;> cases isClose <;> cases isSettled

/-- The event with which a close settles leaves no turn active. -/
theorem close_inactive (provisioned : Provisioned deployment world)
    (orderly : world.Orderly) {event : Event}
    (closes : event.closes = true)
    (taken : world.step deployment event = some after)
    (unsettled : ¬ world.Closed) (closed : after.Closed) :
    Inactive after.db := by
  cases stepped taken with
  | close environment =>
      unfold closeService at closed ⊢
      split at closed
      case h_1 => exact (unsettled closed).elim
      case h_2 unclosed =>
      have closing := orderly.markClosing unclosed
      have ready : Provisioned deployment { world with closing := true } :=
        provisioned.sameFinishes rfl rfl rfl
      dsimp only at closed ⊢
      split at closed
      case h_1 none =>
        refine closeOpen_inactive ready closing _ _ ?_ closed
        intro key isOpened
        exact Orderly.mem_openTurns.mpr isOpened
      case h_2 =>
        obtain ⟨_, _, isClose, isSettled⟩ := closed
        cases isClose
        cases isSettled
  | resumeClose resumed =>
      unfold resumeClose at resumed
      split at resumed
      case h_1 => cases resumed
      case h_2 call isClose =>
      obtain ⟨_, awaited⟩ := orderly.closing call isClose
      split at resumed
      case h_1 keys isStage =>
        rw [isStage] at awaited
        split at resumed <;> cases resumed
        refine closeOpen_inactive provisioned orderly _ _ ?_ closed
        intro key isOpened
        exact Orderly.mem_openTurns.mpr isOpened
      case h_2 isStage =>
        rw [isStage] at awaited
        split at resumed <;> cases resumed
        exact closeOpen_inactive provisioned orderly _ _ awaited.2 closed
      case h_3 keys isStage =>
        rw [isStage] at awaited
        split at resumed
        case isFalse => cases resumed
        case isTrue settled =>
          cases resumed
          exact closeForced_inactive provisioned orderly awaited.2.1
            (Orderly.none_finishing awaited.2.2 settled) _ _
      case h_4 isStage | h_5 isStage =>
        rw [isStage] at awaited
        exact awaited.elim
      case h_6 => cases resumed
  | _ => cases closes

/-- Once the close has settled no event touches a turn. -/
theorem Closed.step (orderly : world.Orderly)
    (provisioned : Provisioned deployment world) (closed : world.Closed)
    {event : Event} (calling : event.calling = true)
    (taken : world.step deployment event = some after) :
    after.db.turns = world.db.turns ∧ after.close = world.close := by
  obtain ⟨call, result, isClose, isSettled⟩ := closed
  obtain ⟨isClosing, awaited⟩ := orderly.closing call isClose
  rw [isSettled] at awaited
  obtain ⟨noStarts, noOpened, noFinishes⟩ := awaited
  cases stepped taken with
  | start input environment =>
      unfold World.start
      rw [isClosing]
      exact ⟨rfl, rfl⟩
  | @resumeStart key _ resumed =>
      unfold World.resumeStart at resumed
      split at resumed
      case h_1 => cases resumed
      case h_2 call found =>
      obtain ⟨⟨next, stage⟩, advanced, _⟩ :=
        Option.map_eq_some_iff.mp resumed
      exact (noStarts key ⟨call, found,
        (advanceStart_step advanced).unsettled⟩).elim
  | forgetStart forgotten =>
      unfold World.forgetStart at forgotten
      split at forgotten
      case h_1 => cases forgotten
      split at forgotten <;> cases forgotten
      exact ⟨rfl, rfl⟩
  | acquire key =>
      unfold World.acquire
      rw [isClosing]
      exact ⟨rfl, rfl⟩
  | release released =>
      obtain ⟨db, _, _, _, _, _, close, _, _⟩ := release_leasesOnly released
      rw [db]
      exact ⟨rfl, close⟩
  | markInstance marked =>
      obtain ⟨_, _, rfl⟩ := markInstance_eq marked
      exact ⟨rfl, rfl⟩
  | finish key environment =>
      have finished :=
        finish_finished provisioned orderly.phased key environment
      generalize world.finish key environment = outcome at finished ⊢
      cases finished with
      | answered => exact ⟨rfl, rfl⟩
      | began found isOpened => exact (noOpened key ⟨_, found, isOpened⟩).elim
  | @resumeFinish key _ resumed =>
      unfold World.resumeFinish at resumed
      split at resumed
      case h_1 => cases resumed
      case h_2 call found =>
      obtain ⟨segment, advanced, _⟩ := Option.map_eq_some_iff.mp resumed
      exact (noFinishes key ⟨call, found,
        (advanceFinish_step advanced).unsettled⟩).elim
  | forgetFinish forgotten =>
      unfold World.forgetFinish at forgotten
      split at forgotten
      case h_1 => cases forgotten
      split at forgotten <;> cases forgotten
      exact ⟨rfl, rfl⟩
  | fork input =>
      unfold World.fork World.checkFork
      rw [isClosing]
      exact ⟨rfl, rfl⟩
  | close environment =>
      unfold World.closeService
      rw [isClose]
      exact ⟨rfl, isClose⟩
  | resumeClose resumed =>
      unfold World.resumeClose at resumed
      rw [isClose] at resumed
      dsimp only at resumed
      rw [isSettled] at resumed
      cases resumed
  | boot | restart | initializeService | recover | closeSandboxService =>
      cases calling

end World

/-- When a close has settled no turn is active. -/
theorem Served.closed_inactive {deployment : Deployment} {world : World}
    (served : Served deployment world) (closed : world.Closed) :
    World.Inactive world.db := by
  let holds (world : World) : Prop := world.Closed → World.Inactive world.db
  have invariant : holds world := by
    refine served.event_invariant ?_ ?_
    · rintro before after destroy booted ⟨_, _, isClose, _⟩
      obtain ⟨_, _, _, _, rfl⟩ := World.boot_eq booted
      cases isClose
    · intro before after event earlier inactive calling taken closed
      by_cases already : before.Closed
      · obtain ⟨turns, _⟩ := already.step earlier.orderly
          earlier.provisioned calling taken
        intro key row found
        rw [turns] at found
        exact inactive already key row found
      · rcases World.step_closing earlier.orderly calling taken with
          ⟨_, close⟩ | ⟨closes, _, _⟩
        · refine (already ?_).elim
          obtain ⟨call, result, isClose, isSettled⟩ := closed
          exact ⟨call, result, close ▸ isClose, isSettled⟩
        · exact World.close_inactive earlier.provisioned earlier.orderly
            closes taken already closed
  exact invariant closed

/-- The refusal of a service that closes. -/
def closingRefusal : Thrown := .coded .turnClosed "Turn service is closing"

/-- Nothing is active and nothing can become so. -/
structure ShutDown (world : World) : Prop where
  turns : ∀ key row, world.db.turns.lookup key = some row →
    row.state = .finished ∨ row.state = .failed
  runtimes : ∀ key row id runtime, world.db.turns.lookup key = some row →
    row.instanceId = some id → world.db.getInstance id = some runtime →
    runtime.state ≠ .ready ∧ runtime.state ≠ .running ∧
      runtime.state ≠ .committing
  start : ∀ input environment, world.start input environment =
    (world, .view (.error closingRefusal))
  acquire : ∀ key, world.acquire key =
    (world, .lease (.error closingRefusal))
  fork : ∀ input, world.fork input = (world, .fork (.error closingRefusal))

theorem Served.shutDown {deployment : Deployment} {world : World}
    (served : Served deployment world) (closed : world.Closed) :
    ShutDown world := by
  have inactive := served.closed_inactive closed
  obtain ⟨call, result, isClose, isSettled⟩ := closed
  obtain ⟨isClosing, awaited⟩ := served.orderly.closing call isClose
  rw [isSettled] at awaited
  obtain ⟨noStarts, noOpened, noFinishes⟩ := awaited
  constructor
  · intro key row found
    have isInactive := inactive key row found
    cases state : row.state with
    | finished => exact .inl rfl
    | failed => exact .inr rfl
    | starting | opened | finishing =>
        rw [state] at isInactive
        cases isInactive
  · intro key row id runtime found isRuntime isRow
    rcases served.employed key with halted | uses
    · unfold World.sight at halted
      rw [served.owned.rows key row id found isRuntime] at halted
      have notLive := halted runtime isRow
      refine ⟨?_, ?_, ?_⟩ <;> intro state <;> rw [state] at notLive <;>
        cases notLive
    · rcases uses.active with isOpened | isStarting | isFinishing
      · exact (noOpened key isOpened).elim
      · exact (noStarts key isStarting).elim
      · exact (noFinishes key isFinishing).elim
  · intro input environment
    unfold World.start
    rw [isClosing]
    rfl
  · intro key
    unfold World.acquire
    rw [isClosing]
    rfl
  · intro input
    unfold World.fork World.checkFork
    rw [isClosing]
    rfl

/-- When the promise of a close has settled nothing is active, and no later
call of the process changes that. -/
theorem close_leaves_nothing_active {deployment : Deployment}
    {world : World} (served : Served deployment world)
    (closed : world.Closed) :
    ShutDown world ∧ ∀ events later,
      (∀ event ∈ events, Event.calling event = true) →
      run (World.step deployment) world events = some later →
      ShutDown later := by
  refine ⟨served.shutDown closed, ?_⟩
  intro events
  induction events generalizing world with
  | nil =>
      intro later _ replay
      cases replay
      exact served.shutDown closed
  | cons event events induction =>
      intro later calling replay
      obtain ⟨next, taken, rest⟩ := Option.bind_eq_some_iff.mp replay
      have isCalling := calling event List.mem_cons_self
      have serving : event.serving = true := by
        cases event <;> first | rfl | exact isCalling
      have kept := closed.step served.orderly served.provisioned isCalling
        taken
      obtain ⟨call, result, isClose, isSettled⟩ := closed
      exact induction (served.step serving taken)
        ⟨call, result, kept.2.trans isClose, isSettled⟩ later
        (fun other member => calling other (List.mem_cons_of_mem _ member))
        rest

private def closedKey : TurnKey := ⟨"thread", "turn"⟩

private def closedFinish : FinishEnvironment :=
  { capture := .error (.plain "unused") }

/-- A turn is closed while a lease is held on it. -/
private def closedRun : List Event :=
  .start { threadId := "thread", turnId := "turn", mode := .instant } {} ::
    List.replicate 5 (.resumeStart closedKey) ++
    [.acquire closedKey,
      .close { finish := fun _ => closedFinish, deletion := fun _ => {} },
      .resumeClose, .release 2] ++
    List.replicate 6 (.resumeFinish closedKey) ++
    [.resumeClose, .resumeClose]

private def hasClosed (world : World) : Bool :=
  match world.close with
  | some { stage := .settled _, .. } => true
  | _ => false

theorem close_leaves_nothing_active_sample :
    ∃ world, run (World.step Deployment.transparent) World.empty
        (.boot (fun _ => .ok ()) :: closedRun) = some world ∧
      ShutDown world := by
  have replay : (run (World.step Deployment.transparent) World.empty
      (.boot (fun _ => .ok ()) :: closedRun)).any hasClosed = true := by
    decide +kernel
  obtain ⟨world, isWorld, isClosed⟩ := (Option.any_eq_true _ _).mp replay
  have served : Served Deployment.transparent world :=
    Served.of_run (by decide) isWorld
  refine ⟨world, isWorld, (close_leaves_nothing_active served ?_).1⟩
  unfold hasClosed at isClosed
  split at isClosed
  case h_1 isClose => exact ⟨_, _, isClose, rfl⟩
  case h_2 => cases isClosed

end Electrosphere
