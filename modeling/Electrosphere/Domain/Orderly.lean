import Electrosphere.Domain.TurnPhases

/-!
# Every served world is orderly

`Phased` asks every turn to be in phase.  `Closing` says what a close in
progress has already waited for, which is why the rows it overwrites belong to
no call in flight.  Both hold of every world of a serving daemon.
-/

namespace Electrosphere

open Foundation

namespace World

variable {deployment : Deployment} {world after : World}

/-! ## Calls as inversions -/

/-- What a start has done when it returns. -/
inductive Started (world : World) (input : StartTurnInput)
    (environment : StartEnvironment) : World → Prop where
  | refused : Started world input environment world
  | began {created : Database} :
      world.closing = false → validateKey input.key = .ok () →
      world.db.createTurn input.key input.startingRow = .ok created →
      Started world input environment
        (world.beginStart created input environment)

theorem start_started (world : World) (input : StartTurnInput)
    (environment : StartEnvironment) :
    Started world input environment (world.start input environment).1 := by
  unfold start
  split
  case isTrue => exact .refused
  case isFalse serving =>
  split
  case h_1 => exact .refused
  case h_2 valid =>
  split
  case h_1 => exact .refused
  case h_2 =>
  split
  case h_1 => exact .refused
  case h_2 =>
  split
  case h_1 => exact .refused
  case h_2 done => exact .began (by simpa using serving) valid done

/-- What `startCreated` does before its first await. -/
theorem startCreated_turns {canonicalEmpty : Option Digest}
    {db next : Database} {input : StartTurnInput} {id : InstanceId}
    {fresh : WorkspaceId} {stage : StartStage}
    (started : startCreated canonicalEmpty db input id fresh =
      (next, stage)) :
    (∃ error, failStart db input.key id error = (next, stage)) ∨
    (next.turns = db.turns ∧ stage.isSettled = false ∧
      ∀ environment listed, StartCall.Fits
        { input, instanceId := id, environment, stage, listed }) := by
  unfold startCreated at started
  split at started
  case h_1 isInstant =>
    split at started
    case h_1 => exact .inl ⟨_, started⟩
    case h_2 emptyCommit =>
      cases started
      refine .inr ⟨rfl, ?_, fun environment listed => ?_⟩
      · unfold createTurnRuntime
        split <;> rfl
      · have fits : (instantRuntime input id emptyCommit).For
            ⟨input, id, environment, .rejected (.plain ""), listed⟩ := by
          refine ⟨isInstant.symm, rfl, fun isDurable => ?_⟩
          cases isDurable
        exact createTurnRuntime_fits fits
  case h_2 isDurable =>
    simp only [Prod.mk.injEq] at started
    obtain ⟨isNext, rfl⟩ := started
    refine .inr ⟨?_, rfl, fun environment listed => ⟨?_, ?_⟩⟩
    · rcases ensureThreadWorkspace_eq (Prod.ext isNext rfl) with
        ⟨rfl, _⟩ | ⟨_, _, done, _⟩
      · rfl
      · obtain ⟨_, _, _, _, rfl⟩ := Database.insertThreadWorkspace_eq_ok done
        rfl
    · intro _ _
      exact isDurable
    · intro runtime isRuntime
      cases isRuntime

/-- What a finish has done when it returns. -/
inductive Finished (world : World) (key : TurnKey)
    (environment : FinishEnvironment) : World × Reply → Prop where
  | answered {answer : Except Thrown TurnView} :
      (∀ row, world.db.turns.lookup key = some row → row.state ≠ .opened) →
      Finished world key environment (world, .view answer)
  | began {row : TurnRow} :
      world.db.turns.lookup key = some row → row.state = .opened →
      Finished world key environment
        (world.beginFinish { world.db with
          turns := world.db.turns.insert key { row with state := .finishing } }
          key row environment, .pending)

/-! ## Worlds in phase -/

/-- Every turn is in phase with its calls in flight. -/
def Phased (world : World) : Prop :=
  ∀ key, Phase key (world.db.turns.lookup key) (world.starts.lookup key)
    (world.finishes.lookup key)

theorem finish_finished (provisioned : Provisioned deployment world)
    (phased : world.Phased) (key : TurnKey)
    (environment : FinishEnvironment) :
    Finished world key environment (world.finish key environment) := by
  unfold finish Database.getTurn
  cases found : world.db.turns.lookup key with
  | none =>
      split <;> exact .answered (by simp [found])
  | some row =>
      have phase := phased key
      rw [found] at phase
      rw [phase.valid (by simp)]
      dsimp only
      cases state : row.state with
      | finished => exact .answered (by simp [found, state])
      | failed => exact .answered (by simp [found, state])
      | starting => exact .answered (by simp [found, state])
      | finishing => exact .answered (by simp [found, state])
      | opened =>
          have unlisted : world.finishListed key = false := by
            simp [finishListed, (phase.opened row rfl state).1]
          have done := provisioned.sound.markTurn_succeeds
            { state := some .finishing } found
            (by simp [TurnUpdate.apply, TurnState.active, state])
            ⟨rfl, rfl, rfl⟩
          simp only [unlisted, Bool.false_eq_true, if_false]
          rw [done]
          exact .began found state

/-- A step that touches one turn alone. -/
theorem Phased.touch (phased : world.Phased) (key : TurnKey)
    (others : ∀ other, other ≠ key →
      after.db.turns.lookup other = world.db.turns.lookup other ∧
        after.starts.lookup other = world.starts.lookup other ∧
        after.finishes.lookup other = world.finishes.lookup other)
    (phase : Phase key (after.db.turns.lookup key) (after.starts.lookup key)
      (after.finishes.lookup key)) : after.Phased := by
  intro other
  by_cases same : other = key
  · exact same ▸ phase
  · obtain ⟨turns, starts, finishes⟩ := others other same
    rw [turns, starts, finishes]
    exact phased other

/-- A step that leaves turns and calls in flight alone. -/
theorem Phased.same (phased : world.Phased)
    (turns : after.db.turns = world.db.turns)
    (starts : after.starts = world.starts)
    (finishes : after.finishes = world.finishes) : after.Phased := by
  intro key
  rw [turns, starts, finishes]
  exact phased key

/-! ## Marking turns failed -/

/-- The loop of a close over turns without a runtime never awaits. -/
theorem forceLoop_eq (call : CloseCall) (failures : List Thrown)
    (turns : List (TurnKey × TurnRow)) {world : World}
    (active : ∀ key row, (key, row) ∈ turns →
      world.db.turns.lookup key = some row ∧ row.state.active = true ∧
        row.instanceId = none)
    (nodup : (turns.map Prod.fst).Nodup) :
    ∃ db result, world.db.MarksFailed db ∧
      world.forceLoop call failures turns =
        { world with db }.setClose call (.settled result) failures := by
  induction turns generalizing world with
  | nil => exact ⟨world.db, _, .refl _, rfl⟩
  | cons turn turns induction =>
      obtain ⟨key, row⟩ := turn
      obtain ⟨found, isActive, unbound⟩ := active key row List.mem_cons_self
      obtain ⟨fresh, nodup⟩ := List.nodup_cons.mp nodup
      unfold forceLoop
      rw [unbound]
      dsimp only
      cases done : forceFailed world.db key with
      | error error => exact ⟨world.db, _, .refl _, rfl⟩
      | ok next =>
          obtain ⟨marks, lookups⟩ :=
            Database.markFailed_eq_ok found isActive done
          have still : ∀ other otherRow, (other, otherRow) ∈ turns →
              next.turns.lookup other = some otherRow ∧
                otherRow.state.active = true ∧
                otherRow.instanceId = none := by
            intro other otherRow member
            have different : other ≠ key := by
              rintro rfl
              exact fresh (List.mem_map.mpr ⟨_, member, rfl⟩)
            rw [lookups, if_neg different]
            exact active other otherRow (List.mem_cons_of_mem _ member)
          obtain ⟨db, result, later, same⟩ :=
            @induction { world with db := next } still nodup
          exact ⟨db, result, marks.trans later, same⟩

/-- Recovery marks every turn it lists failed. -/
theorem recoverTurns_eq {turns : List (TurnKey × TurnRow)}
    {db next : Database}
    (active : ∀ key row, (key, row) ∈ turns →
      db.turns.lookup key = some row ∧ row.state.active = true)
    (nodup : (turns.map Prod.fst).Nodup)
    (recovered : turns.foldlM recoverTurn db = .ok next) :
    db.MarksFailed next ∧ ∀ key row, (key, row) ∈ turns →
      ∃ later, next.turns.lookup key = some later ∧
        later.state = .failed := by
  induction turns generalizing db with
  | nil =>
      cases recovered
      exact ⟨.refl _, by simp⟩
  | cons turn turns induction =>
      obtain ⟨key, row⟩ := turn
      obtain ⟨found, isActive⟩ := active key row List.mem_cons_self
      obtain ⟨fresh, nodup⟩ := List.nodup_cons.mp nodup
      rw [List.foldlM_cons] at recovered
      cases updated : recoverTurn db (key, row) with
      | error error =>
          rw [updated] at recovered
          cases recovered
      | ok middle =>
          rw [updated] at recovered
          obtain ⟨marks, lookups⟩ :=
            Database.markFailed_eq_ok found isActive updated
          have still : ∀ other otherRow, (other, otherRow) ∈ turns →
              middle.turns.lookup other = some otherRow ∧
                otherRow.state.active = true := by
            intro other otherRow member
            have different : other ≠ key := by
              rintro rfl
              exact fresh (List.mem_map.mpr ⟨_, member, rfl⟩)
            rw [lookups, if_neg different]
            exact active other otherRow (List.mem_cons_of_mem _ member)
          obtain ⟨later, rest⟩ := induction still nodup recovered
          refine ⟨marks.trans later, fun other otherRow member => ?_⟩
          rcases List.mem_cons.mp member with same | member
          · cases same
            refine ⟨_, later.inactive
              ((lookups key).trans (if_pos rfl)) rfl, rfl⟩
          · exact rest other otherRow member

/-- After recovery no turn is active. -/
theorem recover_eq {destroy : InstanceId → Except Thrown Unit}
    {db next : Database} (recovered : recover destroy db = .ok next) :
    ∃ stopped, db.Quiet stopped ∧ stopped.MarksFailed next ∧
      ∀ key row, next.turns.lookup key = some row →
        row.state.active = false := by
  have quiet := stopInterrupted_quiet destroy db
  unfold recover at recovered
  generalize stopInterrupted destroy db = stopped at recovered quiet
  have listed : ∀ key row, (key, row) ∈ stopped.listTurns
      [.starting, .opened, .finishing] →
      stopped.turns.lookup key = some row ∧ row.state.active = true := by
    intro key row member
    obtain ⟨found, isState⟩ := Database.mem_listTurns.mp member
    refine ⟨found, ?_⟩
    cases state : row.state <;> simp_all [TurnState.active]
  obtain ⟨marks, failed⟩ := recoverTurns_eq listed
    (Database.listTurns_nodup _ _) recovered
  refine ⟨stopped, quiet, marks, fun key row found => ?_⟩
  by_contra isActive
  have isActive : row.state.active = true := by simpa using isActive
  have unchanged : stopped.turns.lookup key = some row := by
    rcases marks.turns key with same | ⟨_, _, _, _, written⟩
    · rw [← same, found]
    · rw [found] at written
      cases written
      cases isActive
  have member : (key, row) ∈ stopped.listTurns
      [.starting, .opened, .finishing] := by
    refine Database.mem_listTurns.mpr ⟨unchanged, ?_⟩
    cases state : row.state <;> simp_all [TurnState.active]
  obtain ⟨later, isLater, isFailed⟩ := failed key row member
  rw [found] at isLater
  cases isLater
  rw [isFailed] at isActive
  cases isActive

/-! ## Closing -/

/-- The start of the turn is in flight. -/
def Starting (world : World) (key : TurnKey) : Prop :=
  ∃ call, world.starts.lookup key = some call ∧ call.stage.isSettled = false

/-- The turn is open. -/
def Opened (world : World) (key : TurnKey) : Prop :=
  ∃ row, world.db.turns.lookup key = some row ∧ row.state = .opened

/-- The finish of the turn is in flight. -/
def Finishing (world : World) (key : TurnKey) : Prop :=
  ∃ call, world.finishes.lookup key = some call ∧
    call.stage.isSettled = false

/-- What a close has waited for when it reaches a stage.  No turn that it
forces has a runtime, so it never deletes one. -/
def Awaited (world : World) : CloseStage → Prop
  | .awaitingStarts keys => ∀ key, world.Starting key → key ∈ keys
  | .awaitingFinish _ _ rest =>
      (∀ key, ¬ world.Starting key) ∧ ∀ key, world.Opened key → key ∈ rest
  | .awaitingFinishes keys =>
      (∀ key, ¬ world.Starting key) ∧ (∀ key, ¬ world.Opened key) ∧
        ∀ key, world.Finishing key → key ∈ keys
  | .forcing .. => False
  | .settled _ =>
      (∀ key, ¬ world.Starting key) ∧ (∀ key, ¬ world.Opened key) ∧
        ∀ key, ¬ world.Finishing key

/-- Between two stages of a close, calls in flight only wind down. -/
structure Winds (world after : World) : Prop where
  starts : ∀ key, after.Starting key → world.Starting key
  opened : ∀ key, after.Opened key → world.Opened key ∨ world.Starting key
  finishes : ∀ key, after.Finishing key →
    world.Finishing key ∨ world.Opened key

theorem Awaited.winds {stage : CloseStage} (awaited : world.Awaited stage)
    (winds : Winds world after) : after.Awaited stage := by
  have noStarts : (∀ key, ¬ world.Starting key) →
      ∀ key, ¬ after.Starting key :=
    fun none key isStarting => none key (winds.starts key isStarting)
  have opened : (∀ key, ¬ world.Starting key) →
      ∀ key, after.Opened key → world.Opened key :=
    fun none key isOpened =>
      (winds.opened key isOpened).resolve_right (none key)
  have finishes : (∀ key, ¬ world.Opened key) →
      ∀ key, after.Finishing key → world.Finishing key :=
    fun none key isFinishing =>
      (winds.finishes key isFinishing).resolve_right (none key)
  cases stage with
  | awaitingStarts keys =>
      intro key isStarting
      exact awaited key (winds.starts key isStarting)
  | awaitingFinish key answer rest =>
      refine ⟨noStarts awaited.1, fun key isOpened => ?_⟩
      exact awaited.2 key (opened awaited.1 key isOpened)
  | awaitingFinishes keys =>
      refine ⟨noStarts awaited.1, fun key isOpened => ?_,
        fun key isFinishing => ?_⟩
      · exact awaited.2.1 key (opened awaited.1 key isOpened)
      · exact awaited.2.2 key (finishes awaited.2.1 key isFinishing)
  | forcing => exact awaited
  | settled =>
      refine ⟨noStarts awaited.1, fun key isOpened => ?_,
        fun key isFinishing => ?_⟩
      · exact awaited.2.1 key (opened awaited.1 key isOpened)
      · exact awaited.2.2 key (finishes awaited.2.1 key isFinishing)

/-- The turns are in phase, calls in flight are listed, and a close has
waited for what its stage says. -/
structure Orderly (world : World) : Prop where
  phased : world.Phased
  starts : ∀ key call, world.starts.lookup key = some call →
    call.stage.isSettled = false → call.listed = true
  finishes : ∀ key call, world.finishes.lookup key = some call →
    call.stage.isSettled = false → call.listed = true
  closing : ∀ call, world.close = some call →
    world.closing = true ∧ world.Awaited call.stage

namespace Orderly

/-- A step that touches one turn alone. -/
theorem touch (orderly : world.Orderly) (key : TurnKey)
    (others : ∀ other, other ≠ key →
      after.db.turns.lookup other = world.db.turns.lookup other ∧
        after.starts.lookup other = world.starts.lookup other ∧
        after.finishes.lookup other = world.finishes.lookup other)
    (sameClose : after.close = world.close)
    (sameClosing : after.closing = world.closing)
    (phase : Phase key (after.db.turns.lookup key) (after.starts.lookup key)
      (after.finishes.lookup key))
    (starts : ∀ call, after.starts.lookup key = some call →
      call.stage.isSettled = false → call.listed = true)
    (finishes : ∀ call, after.finishes.lookup key = some call →
      call.stage.isSettled = false → call.listed = true)
    (winds : world.closing = true →
      (after.Starting key → world.Starting key) ∧
      (after.Opened key → world.Opened key ∨ world.Starting key) ∧
      (after.Finishing key → world.Finishing key ∨ world.Opened key)) :
    after.Orderly := by
  have startsElsewhere : ∀ other, other ≠ key →
      (after.Starting other ↔ world.Starting other) := by
    intro other different
    unfold Starting
    rw [(others other different).2.1]
  have openedElsewhere : ∀ other, other ≠ key →
      (after.Opened other ↔ world.Opened other) := by
    intro other different
    unfold Opened
    rw [(others other different).1]
  have finishesElsewhere : ∀ other, other ≠ key →
      (after.Finishing other ↔ world.Finishing other) := by
    intro other different
    unfold Finishing
    rw [(others other different).2.2]
  refine ⟨orderly.phased.touch key others phase, ?_, ?_, ?_⟩
  · intro other call found unsettled
    by_cases same : other = key
    · exact starts call (same ▸ found) unsettled
    · rw [(others other same).2.1] at found
      exact orderly.starts other call found unsettled
  · intro other call found unsettled
    by_cases same : other = key
    · exact finishes call (same ▸ found) unsettled
    · rw [(others other same).2.2] at found
      exact orderly.finishes other call found unsettled
  · intro call isClose
    rw [sameClose] at isClose
    obtain ⟨isClosing, awaited⟩ := orderly.closing call isClose
    refine ⟨sameClosing.trans isClosing, awaited.winds ⟨?_, ?_, ?_⟩⟩
    · intro other isStarting
      by_cases same : other = key
      · subst same
        exact (winds isClosing).1 isStarting
      · exact (startsElsewhere other same).mp isStarting
    · intro other isOpened
      by_cases same : other = key
      · subst same
        exact (winds isClosing).2.1 isOpened
      · exact .inl ((openedElsewhere other same).mp isOpened)
    · intro other isFinishing
      by_cases same : other = key
      · subst same
        exact (winds isClosing).2.2 isFinishing
      · exact .inl ((finishesElsewhere other same).mp isFinishing)

/-- A step that leaves turns, calls in flight and the close alone. -/
theorem same (orderly : world.Orderly)
    (turns : after.db.turns = world.db.turns)
    (starts : after.starts = world.starts)
    (finishes : after.finishes = world.finishes)
    (close : after.close = world.close)
    (closing : after.closing = world.closing) : after.Orderly := by
  refine ⟨orderly.phased.same turns starts finishes, ?_, ?_, ?_⟩
  · rw [starts]
    exact orderly.starts
  · rw [finishes]
    exact orderly.finishes
  · intro call isClose
    rw [close] at isClose
    obtain ⟨isClosing, awaited⟩ := orderly.closing call isClose
    refine ⟨closing.trans isClosing, awaited.winds ⟨?_, ?_, ?_⟩⟩
    · intro key isStarting
      unfold Starting at isStarting
      rwa [starts] at isStarting
    · intro key isOpened
      unfold Opened at isOpened
      rw [turns] at isOpened
      exact .inl isOpened
    · intro key isFinishing
      unfold Finishing at isFinishing
      rw [finishes] at isFinishing
      exact .inl isFinishing

/-! ### Each event -/

theorem start (orderly : world.Orderly) (input : StartTurnInput)
    (environment : StartEnvironment) :
    (world.start input environment).1.Orderly := by
  have started := world.start_started input environment
  generalize (world.start input environment).1 = outcome at started ⊢
  cases started with
  | refused => exact orderly
  | @began created serving valid done =>
      obtain ⟨absent, _, _, rfl⟩ := Database.createTurn_eq_ok done
      have phase := orderly.phased input.key
      obtain ⟨_, noFinish⟩ := phase.absent absent
      unfold beginStart
      dsimp only
      generalize created : ({ world.db with
        turns := world.db.turns.insert input.key input.startingRow } :
          Database) = db
      have isStarting : db.turns.lookup input.key =
          some input.startingRow := by
        rw [← created]
        exact AList.lookup_insert _
      have elsewhere : ∀ other, other ≠ input.key →
          db.turns.lookup other = world.db.turns.lookup other := by
        intro other different
        rw [← created]
        dsimp only
        rw [AList.lookup_insert_if, if_neg different]
      generalize began : startCreated world.emptyCommit db input
        world.nextUuid (world.nextUuid + 1) = outcome
      obtain ⟨next, stage⟩ := outcome
      -- the turn while its start is in flight
      have flying : ∀ call : StartCall, call.input = input → call.Fits →
          Phase input.key (some input.startingRow) (some call) none := by
        intro call isInput fits
        refine ⟨fun _ => valid, by simp, ?_, ?_, ?_, ?_, by simp, by simp,
          by simp, ?_⟩
        · rintro _ ⟨⟩
          exact ⟨by rw [isInput], fits⟩
        · rintro _ ⟨⟩ _
          rw [isInput]
        · rintro _ ⟨⟩ _
          exact ⟨rfl, rfl⟩
        · rintro _ ⟨⟩ isOpened
          cases isOpened
        · rintro _ ⟨⟩ isFinishing
          cases isFinishing
      refine orderly.touch input.key (fun other different => ⟨?_, ?_, rfl⟩)
        rfl rfl ?_ ?_ ?_ ?_
      · rcases startCreated_turns began with ⟨_, failed⟩ | ⟨same, _, _⟩
        · exact ((failStart_lookup failed).2.1 other different).trans
            (elsewhere other different)
        · exact (congrArg _ same).trans (elsewhere other different)
      · dsimp only
        rw [AList.lookup_insert_if, if_neg different]
      · dsimp only
        rw [AList.lookup_insert, noFinish]
        rcases startCreated_turns began with ⟨_, failed⟩ | ⟨same, _, fits⟩
        · obtain ⟨⟨result, rfl⟩, _, found⟩ := failStart_lookup failed
          have before := flying
            ⟨input, world.nextUuid, environment, .rejected (.plain ""), true⟩
            rfl ⟨by simp, by simp [StartStage.runtime]⟩
          rw [isStarting] at found
          rcases found with found | found <;> rw [found] <;>
            refine before.settleStart rfl ?_ ?_ ?_ <;>
            simp [StartTurnInput.startingRow]
        · rw [same, isStarting]
          exact flying _ rfl (fits environment true)
      · intro call found _
        dsimp only at found
        rw [AList.lookup_insert] at found
        cases found
        rfl
      · intro call found _
        rw [show _ = _ from noFinish] at found
        cases found
      · intro isClosing
        rw [serving] at isClosing
        cases isClosing

theorem resumeStart (orderly : world.Orderly) {key : TurnKey}
    (resumed : world.resumeStart deployment key = some after) :
    after.Orderly := by
  unfold World.resumeStart at resumed
  split at resumed
  case h_1 => cases resumed
  case h_2 call found =>
  obtain ⟨⟨next, stage⟩, advanced, same⟩ := Option.map_eq_some_iff.mp resumed
  cases same
  have step := advanceStart_step advanced
  have unsettled := step.unsettled
  have phase := orderly.phased key
  rw [found] at phase
  obtain ⟨rfl, fits⟩ := phase.starts call rfl
  have isStarting := phase.starting call rfl unsettled
  have noFinish := (phase.unbound _ isStarting rfl).1
  have wasStarting : world.Starting call.input.key :=
    ⟨call, found, unsettled⟩
  refine orderly.touch call.input.key (fun other different => ⟨?_, ?_, rfl⟩)
    rfl rfl ?_ ?_ ?_ ?_
  · exact step.other_turns isStarting fits different
  · dsimp only
    rw [AList.lookup_insert_if, if_neg different]
  · dsimp only
    rw [AList.lookup_insert]
    exact phase.startStep step
  · intro other isOther _
    dsimp only at isOther
    rw [AList.lookup_insert] at isOther
    cases isOther
    exact orderly.starts _ call found unsettled
  · intro other isOther _
    rw [show _ = _ from noFinish] at isOther
    cases isOther
  · intro _
    exact ⟨fun _ => wasStarting, fun _ => .inr wasStarting, .inl⟩

theorem forgetStart (orderly : world.Orderly) {key : TurnKey}
    (forgotten : world.forgetStart key = some after) : after.Orderly := by
  unfold World.forgetStart at forgotten
  split at forgotten
  case h_1 => cases forgotten
  case h_2 call found =>
  split at forgotten
  case isFalse => cases forgotten
  case isTrue settled =>
  cases forgotten
  have settled : call.stage.isSettled = true :=
    (Bool.and_eq_true_iff.mp settled).1
  have phase := orderly.phased key
  rw [found] at phase
  refine orderly.touch key (fun other different => ⟨rfl, ?_, rfl⟩)
    rfl rfl ?_ ?_ (orderly.finishes key) ?_
  · dsimp only
    rw [AList.lookup_insert_if, if_neg different]
  · dsimp only
    rw [AList.lookup_insert]
    refine { phase with absent := ?_, starts := ?_, starting := ?_ }
    · intro isAbsent
      cases (phase.absent isAbsent).1
    · rintro _ ⟨⟩
      obtain ⟨isKey, fits⟩ := phase.starts call rfl
      refine ⟨isKey, fits.ensured, fun runtime isRuntime => ?_⟩
      have known := fits.runtime runtime isRuntime
      exact ⟨known.kind, known.instanceId, known.durable⟩
    · rintro _ ⟨⟩ unsettled
      rw [settled] at unsettled
      cases unsettled
  · intro other isOther unsettled
    dsimp only at isOther
    rw [AList.lookup_insert] at isOther
    cases isOther
    rw [settled] at unsettled
    cases unsettled
  · intro _
    refine ⟨?_, .inl, .inl⟩
    rintro ⟨other, isOther, unsettled⟩
    dsimp only at isOther
    rw [AList.lookup_insert] at isOther
    cases isOther
    rw [settled] at unsettled
    cases unsettled

theorem beginFinish (orderly : world.Orderly) {key : TurnKey}
    {row : TurnRow} (found : world.db.turns.lookup key = some row)
    (isOpened : row.state = .opened) (environment : FinishEnvironment) :
    (world.beginFinish { world.db with
      turns := world.db.turns.insert key { row with state := .finishing } }
      key row environment).Orderly := by
  have phase := orderly.phased key
  rw [found] at phase
  obtain ⟨noFinish, complete⟩ := phase.opened row rfl isOpened
  have startSettled : ∀ call, world.starts.lookup key = some call →
      call.stage.isSettled = true := by
    intro call isCall
    by_contra unsettled
    cases phase.starting call isCall (by simpa using unsettled)
    cases isOpened
  unfold World.beginFinish
  refine orderly.touch key (fun other different => ⟨?_, rfl, ?_⟩)
    rfl rfl ?_ (orderly.starts key) ?_ ?_
  · dsimp only
    rw [AList.lookup_insert_if, if_neg different]
  · dsimp only
    rw [AList.lookup_insert_if, if_neg different]
  · dsimp only
    rw [AList.lookup_insert, AList.lookup_insert]
    refine ⟨fun _ => phase.valid (by simp), by simp, phase.starts, ?_, ?_,
      ?_, ?_, ?_, ?_, ?_⟩
    · intro call isCall unsettled
      rw [startSettled call isCall] at unsettled
      cases unsettled
    · rintro _ ⟨⟩ isStarting
      cases isStarting
    · rintro _ ⟨⟩ impossible
      cases impossible
    · rintro _ ⟨⟩
      refine ⟨rfl, rfl, ⟨complete.runtime, complete.durable⟩, ?_⟩
      intro commit isCommit
      dsimp only at isCommit
      split at isCommit <;> cases isCommit
    · rintro _ ⟨⟩ _
      rfl
    · rintro _ ⟨⟩ published
      dsimp only at published
      split at published <;> cases published
    · rintro _ ⟨⟩ _
      refine ⟨_, rfl, ?_⟩
      dsimp only
      split <;> rfl
  · intro call isCall _
    dsimp only at isCall
    rw [AList.lookup_insert] at isCall
    cases isCall
    rfl
  · intro _
    refine ⟨id, ?_, fun _ => .inr ⟨row, found, isOpened⟩⟩
    rintro ⟨other, isOther, otherOpened⟩
    dsimp only at isOther
    rw [AList.lookup_insert] at isOther
    cases isOther
    cases otherOpened

theorem finish (orderly : world.Orderly)
    (provisioned : Provisioned deployment world) (key : TurnKey)
    (environment : FinishEnvironment) :
    (world.finish key environment).1.Orderly := by
  have finished := World.finish_finished provisioned orderly.phased key
    environment
  generalize world.finish key environment = outcome at finished ⊢
  cases finished with
  | answered => exact orderly
  | began found isOpened => exact orderly.beginFinish found isOpened _

/-- The outcome of the stretch that a finish in flight runs. -/
theorem finishOutcome (orderly : world.Orderly)
    (provisioned : Provisioned deployment world) {key : TurnKey}
    {call : FinishCall} (found : world.finishes.lookup key = some call)
    {segment : FinishSegment}
    (advanced : advanceFinish deployment world.db world.objects call =
      some segment) :
    call.key = key ∧ call.Fits ∧ call.stage.isSettled = false ∧
      FinishOutcome deployment world.db call segment := by
  have step := advanceFinish_step advanced
  have phase := orderly.phased key
  rw [found] at phase
  obtain ⟨rfl, fits⟩ := phase.finishes call rfl
  have grounded := provisioned.grounded _ call found
  obtain ⟨row, isRow, sameMode⟩ := grounded.record
  refine ⟨rfl, fits, step.unsettled,
    step.outcome provisioned.sound fits isRow ?_⟩
  intro progress isStage
  exact sameMode.trans (grounded.instant progress isStage)

theorem resumeFinish (orderly : world.Orderly)
    (provisioned : Provisioned deployment world) {key : TurnKey}
    (resumed : world.resumeFinish deployment key = some after) :
    after.Orderly := by
  unfold World.resumeFinish at resumed
  split at resumed
  case h_1 => cases resumed
  case h_2 call found =>
  obtain ⟨segment, advanced, same⟩ := Option.map_eq_some_iff.mp resumed
  cases same
  obtain ⟨rfl, fits, unsettled, outcome⟩ :=
    orderly.finishOutcome provisioned found advanced
  have phase := orderly.phased call.key
  rw [found] at phase
  have later := phase.finishStep unsettled outcome
  refine orderly.touch call.key (fun other different => ⟨?_, rfl, ?_⟩)
    rfl rfl ?_ (orderly.starts call.key) ?_ ?_
  · exact outcome.other_turns fits different
  · dsimp only
    rw [AList.lookup_insert_if, if_neg different]
  · dsimp only
    rw [AList.lookup_insert]
    exact later
  · intro other isOther _
    dsimp only at isOther
    rw [AList.lookup_insert] at isOther
    cases isOther
    exact orderly.finishes _ call found unsettled
  · intro _
    refine ⟨id, ?_, fun _ => .inl ⟨call, found, unsettled⟩⟩
    rintro ⟨row, isRow, isOpened⟩
    cases (later.opened row isRow isOpened).1

theorem forgetFinish (orderly : world.Orderly) {key : TurnKey}
    (forgotten : world.forgetFinish key = some after) : after.Orderly := by
  unfold World.forgetFinish at forgotten
  split at forgotten
  case h_1 => cases forgotten
  case h_2 call found =>
  split at forgotten
  case isFalse => cases forgotten
  case isTrue settled =>
  cases forgotten
  have settled : call.stage.isSettled = true :=
    (Bool.and_eq_true_iff.mp settled).1
  have phase := orderly.phased key
  rw [found] at phase
  refine orderly.touch key (fun other different => ⟨rfl, rfl, ?_⟩)
    rfl rfl ?_ (orderly.starts key) ?_ ?_
  · dsimp only
    rw [AList.lookup_insert_if, if_neg different]
  · dsimp only
    rw [AList.lookup_insert]
    refine { phase with
      absent := ?_, unbound := ?_, opened := ?_, finishes := ?_,
      pending := ?_, published := ?_, finishing := ?_ }
    · intro isAbsent
      cases (phase.absent isAbsent).2
    · intro turn isTurn isStarting
      cases (phase.unbound turn isTurn isStarting).1
    · intro turn isTurn isOpened
      cases (phase.opened turn isTurn isOpened).1
    · rintro _ ⟨⟩
      obtain ⟨isKey, fits⟩ := phase.finishes call rfl
      refine ⟨isKey, fits.finishing, fits.complete, fun commit isCommit => ?_⟩
      have known := fits.commit commit isCommit
      exact ⟨known.key, known.mode, known.runtime, known.workspace,
        known.head, known.operation⟩
    · rintro _ ⟨⟩ unpublished
      exact phase.pending call rfl unpublished
    · rintro _ ⟨⟩ published
      exact phase.published call rfl published
    · intro turn isTurn isFinishing
      obtain ⟨_, ⟨⟩, unpublished⟩ := phase.finishing turn isTurn isFinishing
      exact ⟨_, rfl, unpublished⟩
  · intro other isOther unsettled
    dsimp only at isOther
    rw [AList.lookup_insert] at isOther
    cases isOther
    rw [settled] at unsettled
    cases unsettled
  · intro _
    refine ⟨id, .inl, ?_⟩
    rintro ⟨other, isOther, unsettled⟩
    dsimp only at isOther
    rw [AList.lookup_insert] at isOther
    cases isOther
    rw [settled] at unsettled
    cases unsettled

/-- A waiter that is fulfilled passes on, and no other stage moves. -/
theorem wake_lookup {finishes : Table TurnKey FinishCall} {key : TurnKey}
    {call : FinishCall} (found : finishes.lookup key = some call) :
    ∃ later, (World.wake finishes key).lookup key = some later ∧
      (later = call ∨
        call.stage = .waiting ∧ later = { call with stage := .drained }) := by
  unfold World.wake
  rw [AList.lookup_modify_self, found, Option.map_some]
  split
  case h_1 isStage => exact ⟨_, rfl, .inr ⟨isStage, rfl⟩⟩
  case h_2 => exact ⟨_, rfl, .inl rfl⟩

/-- Fulfilling a waiter moves its finish on. -/
theorem wake (orderly : world.Orderly) (key : TurnKey)
    (turns : after.db.turns = world.db.turns)
    (starts : after.starts = world.starts)
    (finishes : after.finishes = World.wake world.finishes key)
    (close : after.close = world.close)
    (closing : after.closing = world.closing) : after.Orderly := by
  have phase := orderly.phased key
  cases found : world.finishes.lookup key with
  | none =>
      refine orderly.same turns starts ?_ close closing
      rw [finishes]
      unfold World.wake AList.modify
      rw [found]
  | some call =>
      rw [found] at phase
      obtain ⟨later, isLater, moved⟩ := wake_lookup found
      have unsettled : later.stage.isSettled = call.stage.isSettled ∧
          later.listed = call.listed := by
        rcases moved with rfl | ⟨isStage, rfl⟩
        · exact ⟨rfl, rfl⟩
        · rw [isStage]
          exact ⟨rfl, rfl⟩
      refine orderly.touch key (fun other different => ⟨?_, ?_, ?_⟩)
        close closing ?_ ?_ ?_ ?_
      · rw [turns]
      · rw [starts]
      · rw [finishes]
        exact AList.lookup_modify_ne different _ _
      · rw [turns, starts, finishes, isLater]
        rcases moved with rfl | ⟨isStage, rfl⟩
        · exact phase
        · have fits := (phase.finishes call rfl).2
          exact phase.advanceFinish rfl (by rw [isStage]; rfl)
            (by rw [isStage]; rfl) (fits.plain rfl)
      · rw [starts]
        exact orderly.starts key
      · intro other isOther isUnsettled
        rw [finishes, isLater] at isOther
        cases isOther
        rw [unsettled.2]
        exact orderly.finishes key call found (unsettled.1 ▸ isUnsettled)
      · intro _
        refine ⟨?_, ?_, ?_⟩
        · rintro ⟨other, isOther, isUnsettled⟩
          exact ⟨other, starts ▸ isOther, isUnsettled⟩
        · rintro ⟨row, isRow, isOpened⟩
          exact .inl ⟨row, turns ▸ isRow, isOpened⟩
        · rintro ⟨other, isOther, isUnsettled⟩
          rw [finishes, isLater] at isOther
          cases isOther
          exact .inl ⟨call, found, unsettled.1 ▸ isUnsettled⟩

theorem release (orderly : world.Orderly) {id : LeaseId}
    (released : world.release id = some after) : after.Orderly := by
  obtain ⟨db, _, _, closing, starts, finishes, close, _, _⟩ :=
    World.release_leasesOnly released
  rcases finishes with same | ⟨key, woken⟩
  · exact orderly.same (by rw [db]) starts same close closing
  · exact orderly.wake key (by rw [db]) starts woken close closing

/-! ### Closing and booting -/

theorem setClose (orderly : world.Orderly) (isClosing : world.closing = true)
    (stage : CloseStage) (awaited : world.Awaited stage) (call : CloseCall)
    (failures : List Thrown) :
    (world.setClose call stage failures).Orderly := by
  refine ⟨orderly.phased, orderly.starts, orderly.finishes, ?_⟩
  rintro _ ⟨⟩
  refine ⟨isClosing, ?_⟩
  cases stage <;> exact awaited

/-- A turn that a close forces is still starting and has no runtime. -/
theorem forced_unbound (orderly : world.Orderly)
    (noFinishes : ∀ key, ¬ world.Finishing key) {key : TurnKey}
    {row : TurnRow}
    (member : (key, row) ∈ world.db.listTurns [.starting, .finishing]) :
    world.db.turns.lookup key = some row ∧ row.state = .starting ∧
      row.instanceId = none := by
  obtain ⟨found, isState⟩ := Database.mem_listTurns.mp member
  have phase := orderly.phased key
  rw [found] at phase
  have isStarting : row.state = .starting := by
    rcases List.mem_cons.mp isState with isStarting | isFinishing
    · exact isStarting
    · have isFinishing := List.mem_singleton.mp isFinishing
      obtain ⟨finishing, isCall, unpublished⟩ :=
        phase.finishing row rfl isFinishing
      exact (noFinishes key ⟨finishing, isCall,
        FinishStage.unsettled_of_unpublished unpublished⟩).elim
  exact ⟨found, isStarting, (phase.unbound row rfl isStarting).2⟩

/-- Once no call is in flight, a close forces turns that no call needs. -/
theorem closeForced_eq (orderly : world.Orderly)
    (noFinishes : ∀ key, ¬ world.Finishing key) (call : CloseCall)
    (failures : List Thrown) :
    ∃ db result, world.db.MarksFailed db ∧
      world.closeForced call failures =
        { world with db }.setClose call (.settled result) failures := by
  refine forceLoop_eq call failures _ ?_ (Database.listTurns_nodup _ _)
  intro key row member
  obtain ⟨found, isStarting, unbound⟩ :=
    orderly.forced_unbound noFinishes member
  refine ⟨found, ?_, unbound⟩
  rw [isStarting]
  rfl

theorem marksFailed (orderly : world.Orderly)
    (noStarts : ∀ key, ¬ world.Starting key)
    (noFinishes : ∀ key, ¬ world.Finishing key) {db : Database}
    (marks : world.db.MarksFailed db) : { world with db }.Phased := by
  intro key
  have phase := orderly.phased key
  rcases marks.turns key with same | ⟨row, error, found, active, written⟩
  · dsimp only
    rw [same]
    exact phase
  · dsimp only
    rw [written]
    refine phase.fail ?_ ?_ (by simp [found]) rfl
    · intro call isCall
      by_contra unsettled
      exact noStarts key ⟨call, isCall, by simpa using unsettled⟩
    · intro call isCall
      by_contra unsettled
      exact noFinishes key ⟨call, isCall, by simpa using unsettled⟩

theorem closeForced (orderly : world.Orderly)
    (isClosing : world.closing = true)
    (noStarts : ∀ key, ¬ world.Starting key)
    (noOpened : ∀ key, ¬ world.Opened key)
    (noFinishes : ∀ key, ¬ world.Finishing key) (call : CloseCall)
    (failures : List Thrown) : (world.closeForced call failures).Orderly := by
  obtain ⟨db, result, marks, same⟩ :=
    orderly.closeForced_eq noFinishes call failures
  rw [same]
  refine ⟨orderly.marksFailed noStarts noFinishes marks, orderly.starts,
    orderly.finishes, ?_⟩
  rintro _ ⟨⟩
  refine ⟨isClosing, noStarts, ?_, noFinishes⟩
  rintro key ⟨row, isRow, isOpened⟩
  rcases marks.turns key with same | ⟨_, _, _, _, written⟩
  · exact noOpened key ⟨row, same ▸ isRow, isOpened⟩
  · cases isRow.symm.trans written
    cases isOpened

theorem mem_listedStarts {key : TurnKey} :
    key ∈ world.listedStarts ↔ ∃ call,
      world.starts.lookup key = some call ∧ call.listed = true := by
  simp [World.listedStarts]

theorem mem_listedFinishes {key : TurnKey} :
    key ∈ world.listedFinishes ↔ ∃ call,
      world.finishes.lookup key = some call ∧ call.listed = true := by
  simp [World.listedFinishes]

theorem mem_listedStarts_of_starting (orderly : world.Orderly)
    {key : TurnKey} (isStarting : world.Starting key) :
    key ∈ world.listedStarts := by
  obtain ⟨call, found, unsettled⟩ := isStarting
  exact mem_listedStarts.mpr ⟨call, found,
    orderly.starts key call found unsettled⟩

theorem mem_listedFinishes_of_finishing (orderly : world.Orderly)
    {key : TurnKey} (isFinishing : world.Finishing key) :
    key ∈ world.listedFinishes := by
  obtain ⟨call, found, unsettled⟩ := isFinishing
  exact mem_listedFinishes.mpr ⟨call, found,
    orderly.finishes key call found unsettled⟩

/-- When every awaited start has settled, none is in flight. -/
theorem none_starting {keys : List TurnKey}
    (awaited : ∀ key, world.Starting key → key ∈ keys)
    (settled : (keys.all fun key => (world.startResult key).isSome) = true)
    (key : TurnKey) : ¬ world.Starting key := by
  intro isStarting
  have answered := List.all_eq_true.mp settled key (awaited key isStarting)
  obtain ⟨call, found, unsettled⟩ := isStarting
  unfold World.startResult at answered
  rw [found] at answered
  split at answered
  case h_1 same =>
    cases same
    cases unsettled
  case h_2 => cases answered

/-- When every awaited finish has settled, none is in flight. -/
theorem none_finishing {keys : List TurnKey}
    (awaited : ∀ key, world.Finishing key → key ∈ keys)
    (settled : (keys.all fun key => (world.finishResult key).isSome) = true)
    (key : TurnKey) : ¬ world.Finishing key := by
  intro isFinishing
  have answered := List.all_eq_true.mp settled key (awaited key isFinishing)
  obtain ⟨call, found, unsettled⟩ := isFinishing
  unfold World.finishResult at answered
  rw [found] at answered
  split at answered
  case h_1 same =>
    cases same
    cases unsettled
  case h_2 => cases answered

theorem mem_openTurns {key : TurnKey} :
    key ∈ world.openTurns ↔ world.Opened key := by
  simp [World.openTurns, World.Opened, Database.mem_listTurns]

theorem closeOpen (orderly : world.Orderly)
    (provisioned : Provisioned deployment world)
    (isClosing : world.closing = true)
    (noStarts : ∀ key, ¬ world.Starting key) (call : CloseCall)
    (failures : List Thrown) {keys : List TurnKey}
    (opened : ∀ key, world.Opened key → key ∈ keys) :
    (world.closeOpen call failures keys).Orderly := by
  cases keys with
  | nil =>
      have noOpened : ∀ key, ¬ world.Opened key := fun key isOpened =>
        List.not_mem_nil (opened key isOpened)
      have listed : ∀ key, world.Finishing key →
          key ∈ world.listedFinishes := fun _ =>
        orderly.mem_listedFinishes_of_finishing
      unfold World.closeOpen
      dsimp only
      split
      case h_1 none =>
        refine orderly.closeForced isClosing noStarts noOpened ?_ _ _
        intro key isFinishing
        have member := listed key isFinishing
        rw [none] at member
        cases member
      case h_2 =>
        exact orderly.setClose isClosing (.awaitingFinishes _)
          ⟨noStarts, noOpened, listed⟩ _ _
  | cons key rest =>
      have finished := World.finish_finished provisioned orderly.phased key
        (call.environment.finish key)
      unfold World.closeOpen
      dsimp only
      generalize world.finish key (call.environment.finish key) = outcome
        at finished ⊢
      cases finished with
      | @answered answer notOpened =>
          refine orderly.setClose isClosing
            (.awaitingFinish key (some answer) rest) ⟨noStarts, ?_⟩ _ _
          intro other isOpened
          refine (List.mem_cons.mp (opened other isOpened)).resolve_left ?_
          rintro rfl
          obtain ⟨row, found, isState⟩ := isOpened
          exact notOpened row found isState
      | began found isOpened =>
          refine (orderly.beginFinish found isOpened _).setClose isClosing
            (.awaitingFinish key none rest) ⟨noStarts, ?_⟩ _ _
          rintro other ⟨row, isRow, isState⟩
          simp only [World.beginFinish, AList.lookup_insert_if] at isRow
          split at isRow
          · cases isRow
            cases isState
          · rename_i different
            exact (List.mem_cons.mp (opened other ⟨row, isRow, isState⟩)
              ).resolve_left different

theorem markClosing (orderly : world.Orderly)
    (unclosed : world.close = none) : { world with closing := true }.Orderly := by
  refine ⟨orderly.phased, orderly.starts, orderly.finishes, ?_⟩
  intro call isClose
  cases unclosed.symm.trans isClose

theorem closeService (orderly : world.Orderly)
    (provisioned : Provisioned deployment world)
    (environment : CloseEnvironment) :
    (world.closeService environment).Orderly := by
  unfold World.closeService
  split
  case h_1 => exact orderly
  case h_2 unclosed =>
  have closing := orderly.markClosing unclosed
  have ready : Provisioned deployment { world with closing := true } :=
    provisioned.sameFinishes rfl rfl rfl
  have listed : ∀ key, world.Starting key → key ∈ world.listedStarts :=
    fun _ => orderly.mem_listedStarts_of_starting
  dsimp only
  split
  case h_1 none =>
    refine closing.closeOpen ready rfl ?_ _ _ ?_
    · intro key isStarting
      have member := listed key isStarting
      rw [none] at member
      cases member
    · intro key isOpened
      exact mem_openTurns.mpr isOpened
  case h_2 => exact closing.setClose rfl (.awaitingStarts _) listed _ _

theorem resumeClose (orderly : world.Orderly)
    (provisioned : Provisioned deployment world)
    (resumed : world.resumeClose = some after) : after.Orderly := by
  unfold World.resumeClose at resumed
  split at resumed
  case h_1 => cases resumed
  case h_2 call isClose =>
  obtain ⟨isClosing, awaited⟩ := orderly.closing call isClose
  split at resumed
  case h_1 keys isStage =>
    rw [isStage] at awaited
    split at resumed
    case isFalse => cases resumed
    case isTrue settled =>
      cases resumed
      exact orderly.closeOpen provisioned isClosing
        (none_starting awaited settled) _ _
        (fun key isOpened => mem_openTurns.mpr isOpened)
  case h_2 isStage =>
    rw [isStage] at awaited
    split at resumed
    case h_1 => cases resumed
    case h_2 =>
      cases resumed
      exact orderly.closeOpen provisioned isClosing awaited.1 _ _ awaited.2
  case h_3 keys isStage =>
    rw [isStage] at awaited
    split at resumed
    case isFalse => cases resumed
    case isTrue settled =>
      cases resumed
      exact orderly.closeForced isClosing awaited.1 awaited.2.1
        (none_finishing awaited.2.2 settled) _ _
  case h_4 isStage =>
    rw [isStage] at awaited
    exact awaited.elim
  case h_5 isStage =>
    rw [isStage] at awaited
    exact awaited.elim
  case h_6 => cases resumed

/-- A boot leaves no turn active and no call in flight. -/
theorem boot (known : ∀ key row, world.db.turns.lookup key = some row →
      validateKey key = .ok ())
    {destroy : InstanceId → Except Thrown Unit}
    (booted : world.boot deployment destroy = some after) :
    after.Orderly := by
  obtain ⟨seeded, next, done, isNext, rfl⟩ := World.boot_eq booted
  obtain ⟨_, _, _, _, sameTurns, _⟩ := Database.putCapture_frame done
  obtain ⟨stopped, quiet, marks, inactive⟩ := recover_eq isNext
  refine ⟨?_, by simp [World.restart], by simp [World.restart],
    by simp [World.restart]⟩
  intro key
  dsimp only [World.restart]
  cases found : next.turns.lookup key with
  | none => exact Phase.none key
  | some row =>
      refine Phase.inactive ?_ (inactive key row found)
      have before : ∃ earlier, world.db.turns.lookup key = some earlier := by
        rw [show world.db.turns = seeded.turns from sameTurns.symm,
          ← quiet.turns]
        rcases marks.turns key with same | ⟨earlier, _, isEarlier, _⟩
        · exact ⟨row, same ▸ found⟩
        · exact ⟨earlier, isEarlier⟩
      obtain ⟨earlier, isEarlier⟩ := before
      exact known key earlier isEarlier

theorem step (orderly : world.Orderly)
    (provisioned : Provisioned deployment world) {event : Event}
    (serving : event.serving = true)
    (taken : world.step deployment event = some after) : after.Orderly := by
  cases World.stepped taken with
  | start input environment => exact orderly.start input environment
  | resumeStart resumed => exact orderly.resumeStart resumed
  | forgetStart forgotten => exact orderly.forgetStart forgotten
  | acquire key =>
      unfold World.acquire
      split
      · exact orderly
      split
      · exact orderly
      split
      · exact orderly
      · exact orderly.same rfl rfl rfl rfl rfl
  | release released => exact orderly.release released
  | markInstance marked =>
      unfold World.markInstance at marked
      split at marked <;> cases marked
      exact orderly.same rfl rfl rfl rfl rfl
  | finish key environment => exact orderly.finish provisioned key environment
  | resumeFinish resumed => exact orderly.resumeFinish provisioned resumed
  | forgetFinish forgotten => exact orderly.forgetFinish forgotten
  | fork input =>
      unfold World.fork
      split
      · exact orderly
      split
      · exact orderly
      case h_2 done =>
        have written := (Database.createThreadFork_eq_ok done).2
        obtain ⟨_, _, _, _, rfl⟩ :=
          Database.insertThreadWorkspace_eq_ok written
        exact orderly.same rfl rfl rfl rfl rfl
  | close environment => exact orderly.closeService provisioned environment
  | resumeClose resumed => exact orderly.resumeClose provisioned resumed
  | boot booted =>
      refine Orderly.boot (fun key row found => ?_) booted
      exact (orderly.phased key).valid (by simp [found])
  | restart | initializeService | recover | closeSandboxService =>
      cases serving

end Orderly

end World

theorem Served.provisioned {deployment : Deployment} {world : World}
    (served : Served deployment world) : Provisioned deployment world :=
  served.reached.provisioned

/-- Whatever the interleaving, a serving daemon stays orderly. -/
theorem Served.orderly {deployment : Deployment} {world : World}
    (served : Served deployment world) : world.Orderly := by
  refine Reachable.invariant_under (fun _ => Served.provisioned) ?_ ?_ served
  · rintro first ⟨destroy, booted⟩
    exact World.Orderly.boot (by simp [World.empty, Database.empty]) booted
  · intro before event after provisioned _ orderly serving taken
    exact orderly.step provisioned serving taken

end Electrosphere
