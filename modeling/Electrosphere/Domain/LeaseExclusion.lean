import Electrosphere.Domain.Moves

/-!
# Leases exclude the end of a turn

Tool calls run under leases, and a finish waits for them.  `Leased` ties the
lease maps of the service to the turns they are about.  A turn whose finish
has passed its waiters is `Sealed`: it has no lease and never gets one again.
-/

namespace Electrosphere

open Foundation

namespace World

/-- The entries of `activeLeases` for a turn. -/
def outstanding (world : World) (key : TurnKey) : Nat :=
  world.activeLeases.count fun _ turn => decide (turn.key = key)

/-- The finish of the turn is in `waitForLeases`. -/
def Waiting (world : World) (key : TurnKey) : Prop :=
  ∃ call, world.finishes.lookup key = some call ∧ call.stage = .waiting

structure Leased (world : World) : Prop where
  counted : ∀ key, world.leaseCount key = world.outstanding key
  fresh : ∀ id, world.nextUuid ≤ id →
    world.activeLeases.lookup id = none ∧ world.leases.lookup id = none
  closures : ∀ id turn, world.activeLeases.lookup id = some turn →
    world.leases.lookup id = some { key := turn.key }
  unreleased : ∀ id lease, world.leases.lookup id = some lease →
    lease.released = false →
      ∃ turn, world.activeLeases.lookup id = some turn ∧
        turn.key = lease.key
  held : ∀ id turn, world.activeLeases.lookup id = some turn →
    world.Opened turn.key ∨ world.Waiting turn.key
  waiting : ∀ key, world.Waiting key →
    (world.leaseWaiters.lookup key).isSome = true ∧
      0 < world.outstanding key

namespace Leased

variable {deployment : Deployment} {world after : World}

theorem outstanding_pos_iff {key : TurnKey} :
    0 < world.outstanding key ↔
      ∃ id turn, world.activeLeases.lookup id = some turn ∧
        turn.key = key := by
  unfold outstanding
  rw [AList.count_pos_iff]
  simp only [decide_eq_true_eq]

/-- A turn that is neither open nor waited for has no lease. -/
theorem outstanding_eq_zero (leased : world.Leased) {key : TurnKey}
    (notOpened : ¬ world.Opened key) (notWaiting : ¬ world.Waiting key) :
    world.outstanding key = 0 := by
  by_contra positive
  obtain ⟨id, turn, found, rfl⟩ :=
    outstanding_pos_iff.mp (Nat.pos_of_ne_zero positive)
  rcases leased.held id turn found with isOpened | isWaiting
  · exact notOpened isOpened
  · exact notWaiting isWaiting

theorem empty : World.empty.Leased := by
  refine ⟨fun key => ?_, ?_, ?_, ?_, ?_, ?_⟩
  · simp [World.empty, leaseCount, outstanding, AList.count, AList.select]
  · simp [World.empty]
  · simp [World.empty]
  · simp [World.empty]
  · simp [World.empty]
  · simp [World.empty, Waiting]

/-- A step that leaves the leases alone, closes no turn, and moves no
finish into or out of its wait. -/
theorem frame (leased : world.Leased)
    (activeLeases : after.activeLeases = world.activeLeases)
    (leases : after.leases = world.leases)
    (counts : after.leaseCounts = world.leaseCounts)
    (waiters : after.leaseWaiters = world.leaseWaiters)
    (uuids : world.nextUuid ≤ after.nextUuid)
    (opened : ∀ key, world.Opened key → after.Opened key)
    (waiting : ∀ key, after.Waiting key ↔ world.Waiting key) :
    after.Leased := by
  have sameOutstanding : ∀ key,
      after.outstanding key = world.outstanding key := by
    intro key
    unfold outstanding
    rw [activeLeases]
  refine ⟨fun key => ?_, fun id later => ?_, ?_, ?_, ?_, ?_⟩
  · rw [sameOutstanding, ← leased.counted]
    unfold leaseCount
    rw [counts]
  · rw [activeLeases, leases]
    exact leased.fresh id (uuids.trans later)
  · rw [activeLeases, leases]
    exact leased.closures
  · rw [activeLeases, leases]
    exact leased.unreleased
  · intro id turn found
    rw [activeLeases] at found
    rw [waiting]
    exact (leased.held id turn found).imp_left (opened _)
  · intro key isWaiting
    rw [sameOutstanding, waiters]
    exact leased.waiting key ((waiting key).mp isWaiting)

theorem grant (leased : world.Leased) {key : TurnKey} {turn : BoundTurn}
    (isBound : resolve world.db key = .ok turn) :
    (world.grant key turn).Leased := by
  obtain ⟨isKey, isOpened⟩ : turn.key = key ∧ world.Opened key := by
    unfold resolve at isBound
    split at isBound
    case h_1 => cases isBound
    case h_2 row found =>
      unfold bound at isBound
      split at isBound
      case h_1 isState _ =>
        split at isBound <;> cases isBound
        exact ⟨rfl, row, found, isState⟩
      case h_2 => cases isBound
  subst isKey
  have unused := leased.fresh world.nextUuid le_rfl
  have outstanding : ∀ key, (world.grant turn.key turn).outstanding key =
      world.outstanding key + if turn.key = key then 1 else 0 := by
    intro key
    unfold World.outstanding World.grant
    dsimp only
    rw [AList.count_insert_of_absent unused.1]
    simp only [decide_eq_true_eq]
  have keeps : ∀ id other, world.activeLeases.lookup id = some other →
      id ≠ world.nextUuid := by
    rintro id other found rfl
    rw [unused.1] at found
    cases found
  refine ⟨fun key => ?_, fun id later => ?_, ?_, ?_, ?_, ?_⟩
  · rw [outstanding, ← leased.counted key]
    unfold leaseCount World.grant
    dsimp only
    rw [AList.lookup_insert_if]
    by_cases same : key = turn.key
    · rw [if_pos same, if_pos same.symm, same]
      rfl
    · rw [if_neg same, if_neg (Ne.symm same)]
      rfl
  · have older : world.nextUuid ≤ id := Nat.le_of_succ_le later
    have different : id ≠ world.nextUuid := Nat.ne_of_gt later
    dsimp only [World.grant]
    rw [AList.lookup_insert_if, if_neg different, AList.lookup_insert_if,
      if_neg different]
    exact leased.fresh id older
  · intro id other found
    dsimp only [World.grant] at found ⊢
    rw [AList.lookup_insert_if] at found ⊢
    split at found
    case isTrue same =>
      cases found
      rw [if_pos same]
    case isFalse different =>
      rw [if_neg different]
      exact leased.closures id other found
  · intro id lease found isUnreleased
    dsimp only [World.grant] at found ⊢
    rw [AList.lookup_insert_if] at found ⊢
    split at found
    case isTrue same =>
      cases found
      rw [if_pos same]
      exact ⟨turn, rfl, rfl⟩
    case isFalse different =>
      rw [if_neg different]
      exact leased.unreleased id lease found isUnreleased
  · intro id other found
    dsimp only [World.grant] at found
    rw [AList.lookup_insert_if] at found
    split at found
    case isTrue =>
      cases found
      exact .inl isOpened
    case isFalse => exact leased.held id other found
  · intro key isWaiting
    obtain ⟨registered, positive⟩ := leased.waiting key isWaiting
    refine ⟨registered, ?_⟩
    rw [outstanding]
    exact Nat.lt_of_lt_of_le positive (Nat.le_add_right _ _)

/-- The first call of a release closure. -/
theorem release_eq (leased : world.Leased) {id : LeaseId} {lease : Lease}
    (found : world.leases.lookup id = some lease)
    (isUnreleased : lease.released = false) :
    ∃ after, world.release id = some after ∧
      after.db = world.db ∧
      after.activeLeases = world.activeLeases.erase id ∧
      after.leases =
        world.leases.insert id { lease with released := true } ∧
      after.nextUuid = world.nextUuid ∧
      (∀ key, after.leaseCount key =
        world.outstanding key - if lease.key = key then 1 else 0) ∧
      ((world.outstanding lease.key ≠ 1 ∧
          after.finishes = world.finishes ∧
          after.leaseWaiters = world.leaseWaiters) ∨
        (world.outstanding lease.key = 1 ∧
          ¬ world.Waiting lease.key ∧
          after.finishes = world.finishes ∧
          after.leaseWaiters = world.leaseWaiters) ∨
        (world.outstanding lease.key = 1 ∧
          after.finishes = World.wake world.finishes lease.key ∧
          after.leaseWaiters = world.leaseWaiters.erase lease.key)) := by
  obtain ⟨turn, active, isKey⟩ :=
    leased.unreleased id lease found isUnreleased
  have positive : 0 < world.outstanding lease.key :=
    outstanding_pos_iff.mpr ⟨id, turn, active, isKey⟩
  have stored : world.leaseCounts.lookup lease.key =
      some (world.outstanding lease.key) := by
    have counted := leased.counted lease.key
    unfold leaseCount at counted
    cases lookup : world.leaseCounts.lookup lease.key with
    | none =>
        rw [lookup] at counted
        rw [← counted] at positive
        cases positive
    | some count =>
        rw [lookup] at counted
        exact congrArg some counted
  have others : ∀ key, lease.key ≠ key →
      (world.leaseCounts.lookup key).getD 0 =
        world.outstanding key - if lease.key = key then 1 else 0 := by
    intro key different
    rw [if_neg different]
    exact leased.counted key
  unfold World.release
  rw [found]
  dsimp only
  rw [isUnreleased, active]
  unfold World.dropLease
  dsimp only
  simp only [Bool.false_eq_true, if_false, Option.isSome_some, if_true]
  rw [stored, Option.getD_some]
  refine ⟨_, rfl, ?_⟩
  by_cases last : world.outstanding lease.key = 1
  · rw [last, if_neg (by decide)]
    have counts : ∀ key,
        ((world.leaseCounts.erase lease.key).lookup key).getD 0 =
          world.outstanding key - if lease.key = key then 1 else 0 := by
      intro key
      rw [AList.lookup_erase_if]
      by_cases same : key = lease.key
      · rw [if_pos same, if_pos same.symm, same, last]
        rfl
      · rw [if_neg same]
        exact others key (Ne.symm same)
    by_cases registered :
        (world.leaseWaiters.lookup lease.key).isSome = true
    · rw [if_pos registered]
      exact ⟨rfl, rfl, rfl, rfl, counts, .inr (.inr ⟨rfl, rfl, rfl⟩)⟩
    · rw [if_neg registered]
      refine ⟨rfl, rfl, rfl, rfl, counts, .inr (.inl ⟨rfl, ?_, rfl, rfl⟩)⟩
      intro isWaiting
      exact registered (leased.waiting _ isWaiting).1
  · have more : world.outstanding lease.key - 1 > 0 := by omega
    rw [if_pos more]
    refine ⟨rfl, rfl, rfl, rfl, fun key => ?_, .inl ⟨last, rfl, rfl⟩⟩
    unfold leaseCount
    dsimp only
    rw [AList.lookup_insert_if]
    by_cases same : key = lease.key
    · rw [if_pos same, if_pos same.symm, same]
      rfl
    · rw [if_neg same]
      exact others key (Ne.symm same)

/-- Calling a release closure again does nothing. -/
theorem release_again {id : LeaseId} {lease : Lease}
    (found : world.leases.lookup id = some lease)
    (isReleased : lease.released = true) :
    world.release id = some world := by
  unfold World.release
  rw [found]
  dsimp only
  rw [if_pos isReleased]

theorem waiting_of_wake {finishes : Table TurnKey FinishCall}
    {key other : TurnKey} {call : FinishCall}
    (found : (World.wake finishes key).lookup other = some call)
    (isWaiting : call.stage = .waiting) :
    other ≠ key ∧ finishes.lookup other = some call := by
  unfold World.wake at found
  rw [AList.lookup_modify_if] at found
  split at found
  case isFalse different => exact ⟨different, found⟩
  case isTrue =>
    obtain ⟨before, _, rfl⟩ := Option.map_eq_some_iff.mp found
    split at isWaiting
    case h_1 => cases isWaiting
    case h_2 notWaiting => exact (notWaiting isWaiting).elim

theorem release (leased : world.Leased) {id : LeaseId}
    (released : world.release id = some after) : after.Leased := by
  cases found : world.leases.lookup id with
  | none =>
      unfold World.release at released
      rw [found] at released
      cases released
  | some lease =>
  cases isReleased : lease.released with
  | true =>
      rw [release_again found isReleased] at released
      cases released
      exact leased
  | false =>
  obtain ⟨turn, active, isKey⟩ :=
    leased.unreleased id lease found isReleased
  obtain ⟨outcome, isOutcome, sameDb, activeLeases, leases, sameUuid, counts,
    outcomes⟩ := leased.release_eq found isReleased
  rw [isOutcome] at released
  cases released
  have outstanding : ∀ key, after.outstanding key =
      world.outstanding key - if lease.key = key then 1 else 0 := by
    intro key
    have erased := AList.count_erase
      (fun _ turn => decide (turn.key = key)) active
    simp only [decide_eq_true_eq, isKey] at erased
    unfold World.outstanding
    rw [activeLeases]
    omega
  have opened : ∀ key, world.Opened key → after.Opened key := by
    intro key isOpened
    unfold Opened
    rwa [sameDb]
  have stillWaiting : ∀ key, after.Waiting key → world.Waiting key := by
    rintro key ⟨call, isCall, isWaiting⟩
    rcases outcomes with ⟨_, finishes, _⟩ | ⟨_, _, finishes, _⟩ |
      ⟨_, finishes, _⟩ <;> rw [finishes] at isCall
    · exact ⟨call, isCall, isWaiting⟩
    · exact ⟨call, isCall, isWaiting⟩
    · exact ⟨call, (waiting_of_wake isCall isWaiting).2, isWaiting⟩
  refine ⟨fun key => (counts key).trans (outstanding key).symm, ?_, ?_, ?_,
    ?_, ?_⟩
  · intro other later
    rw [sameUuid] at later
    obtain ⟨notActive, notLeased⟩ := leased.fresh other later
    have different : other ≠ id := by
      rintro rfl
      rw [notLeased] at found
      cases found
    rw [activeLeases, leases, AList.lookup_erase_if, if_neg different,
      AList.lookup_insert_if, if_neg different]
    exact ⟨notActive, notLeased⟩
  · intro other otherTurn isOther
    rw [activeLeases, AList.lookup_erase_if] at isOther
    split at isOther
    case isTrue => cases isOther
    case isFalse different =>
      rw [leases, AList.lookup_insert_if, if_neg different]
      exact leased.closures other otherTurn isOther
  · intro other otherLease isOther otherUnreleased
    rw [leases, AList.lookup_insert_if] at isOther
    split at isOther
    case isTrue =>
      cases isOther
      cases otherUnreleased
    case isFalse different =>
      rw [activeLeases, AList.lookup_erase_if, if_neg different]
      exact leased.unreleased other otherLease isOther otherUnreleased
  · intro other otherTurn isOther
    have positive : 0 < after.outstanding otherTurn.key :=
      outstanding_pos_iff.mpr ⟨other, otherTurn, isOther, rfl⟩
    rw [activeLeases, AList.lookup_erase_if] at isOther
    split at isOther
    case isTrue => cases isOther
    case isFalse =>
    refine (leased.held other otherTurn isOther).imp (opened _) ?_
    rintro ⟨call, isCall, isWaiting⟩
    refine ⟨call, ?_, isWaiting⟩
    rcases outcomes with ⟨_, finishes, _⟩ | ⟨_, _, finishes, _⟩ |
      ⟨last, finishes, _⟩ <;> rw [finishes]
    · exact isCall
    · exact isCall
    · have different : otherTurn.key ≠ lease.key := by
        intro same
        rw [outstanding, if_pos same.symm, same, last] at positive
        cases positive
      unfold World.wake
      rw [AList.lookup_modify_ne different]
      exact isCall
  · intro key isWaiting
    obtain ⟨registered, positive⟩ := leased.waiting key (stillWaiting key
      isWaiting)
    rw [outstanding]
    rcases outcomes with ⟨more, _, waiters⟩ | ⟨_, notWaiting, _, waiters⟩ |
      ⟨_, finishes, waiters⟩ <;> rw [waiters]
    · refine ⟨registered, ?_⟩
      split
      case isTrue same =>
        subst same
        omega
      case isFalse => omega
    · refine ⟨registered, ?_⟩
      split
      case isTrue same =>
        subst same
        exact (notWaiting (stillWaiting _ isWaiting)).elim
      case isFalse => omega
    · obtain ⟨call, isCall, isStage⟩ := isWaiting
      rw [finishes] at isCall
      have different := (waiting_of_wake isCall isStage).1
      rw [AList.lookup_erase_if, if_neg different,
        if_neg (Ne.symm different)]
      exact ⟨registered, positive⟩

theorem beginFinish (leased : world.Leased) {key : TurnKey}
    {row : TurnRow} {call : FinishCall}
    (db : after.db.turns =
      world.db.turns.insert key { row with state := .finishing })
    (finishes : after.finishes = world.finishes.insert key call)
    (stage : call.stage =
      if world.leaseCount key = 0 then .drained else .waiting)
    (activeLeases : after.activeLeases = world.activeLeases)
    (leases : after.leases = world.leases)
    (counts : after.leaseCounts = world.leaseCounts)
    (waiters : after.leaseWaiters =
      if world.leaseCount key = 0 then world.leaseWaiters
      else world.leaseWaiters.insert key ())
    (uuids : after.nextUuid = world.nextUuid) : after.Leased := by
  have outstanding : ∀ other,
      after.outstanding other = world.outstanding other := by
    intro other
    unfold World.outstanding
    rw [activeLeases]
  refine ⟨fun other => ?_, fun id later => ?_, ?_, ?_, ?_, ?_⟩
  · rw [outstanding, ← leased.counted]
    unfold leaseCount
    rw [counts]
  · rw [activeLeases, leases]
    exact leased.fresh id (uuids ▸ later)
  · rw [activeLeases, leases]
    exact leased.closures
  · rw [activeLeases, leases]
    exact leased.unreleased
  · intro id turn isTurn
    rw [activeLeases] at isTurn
    by_cases same : turn.key = key
    · have positive : 0 < world.outstanding turn.key :=
        outstanding_pos_iff.mpr ⟨id, turn, isTurn, rfl⟩
      rw [same, ← leased.counted] at positive
      refine .inr ⟨call, ?_, ?_⟩
      · rw [finishes, same, AList.lookup_insert]
      · rw [stage, if_neg (Nat.ne_of_gt positive)]
    · refine (leased.held id turn isTurn).imp ?_ ?_
      · rintro ⟨other, isOther, isState⟩
        refine ⟨other, ?_, isState⟩
        rwa [db, AList.lookup_insert_if, if_neg same]
      · rintro ⟨other, isOther, isStage⟩
        refine ⟨other, ?_, isStage⟩
        rwa [finishes, AList.lookup_insert_if, if_neg same]
  · rintro other ⟨found, isFound, isStage⟩
    rw [outstanding, waiters]
    rw [finishes, AList.lookup_insert_if] at isFound
    split at isFound
    case isTrue same =>
      cases isFound
      by_cases none : world.leaseCount key = 0
      · rw [stage, if_pos none] at isStage
        cases isStage
      · rw [if_neg none, same, AList.lookup_insert]
        refine ⟨rfl, ?_⟩
        rw [leased.counted] at none
        exact Nat.pos_of_ne_zero none
    case isFalse different =>
      obtain ⟨registered, positive⟩ :=
        leased.waiting other ⟨found, isFound, isStage⟩
      refine ⟨?_, positive⟩
      split
      · exact registered
      · rwa [AList.lookup_insert_if, if_neg different]

/-- No stretch of a finish leads back to its wait. -/
theorem not_waiting {db : Database} {objects : List String}
    {call : FinishCall} {segment : FinishSegment}
    (step : FinishStep deployment db objects call segment) :
    call.stage ≠ .waiting ∧ segment.stage ≠ .waiting := by
  have settles : ∀ {stage : FinishStage}, stage.isSettled = true →
      stage ≠ .waiting := by
    rintro stage settled rfl
    cases settled
  have fails : ∀ error, (failTurn db call error).2 ≠ .waiting := by
    intro error
    unfold failTurn
    split
    · simp [deleteFor]
    · exact settles (recordFailure_settled call.key error)
  have captures : ∀ objects commit captured, (finishCapture deployment db
      objects commit captured).stage ≠ .waiting := by
    intro objects commit captured
    unfold finishCapture
    split
    · simp
    · split <;> simp
  cases step with
  | noRuntime isStage | sessionsFailed isStage | commitFailed isStage =>
      exact ⟨by simp [isStage], fails _⟩
  | proceed isStage =>
      refine ⟨by simp [isStage], ?_⟩
      simp only [FinishSegment.plain]
      unfold finishRuntime
      split
      · simp [deleteFor]
      · unfold startCommit
        split <;> simp
      · exact fails _
  | snapshotFailed isStage | hostCaptured isStage | snapshotRemoved isStage
  | snapshotKept isStage =>
      exact ⟨by simp [isStage], captures _ _ _⟩
  | deleted isStage =>
      exact ⟨by simp [isStage], settles (afterDeletion_isSettled _ _ _ _)⟩
  | closing isStage | sessionsEnded isStage | sessionsStuck isStage
  | snapshotTaken isStage | guestCaptured isStage | cleaning isStage
  | deleting isStage =>
      exact ⟨by simp [isStage], by simp [FinishSegment.plain, deleteFor]⟩

theorem move (leased : world.Leased) (orderly : world.Orderly)
    (move : Move deployment world after) : after.Leased := by
  have replaced : ∀ {call : FinishCall} (later : FinishCall),
      world.finishes.lookup call.key = some call →
      call.stage ≠ .waiting → later.stage ≠ .waiting → ∀ key,
      (∃ found, (world.finishes.insert call.key later).lookup key =
        some found ∧ found.stage = .waiting) ↔ world.Waiting key := by
    intro call later found before after key
    unfold World.Waiting
    rw [AList.lookup_insert_if]
    by_cases same : key = call.key
    · rw [if_pos same, same, found]
      simp [before, after]
    · rw [if_neg same]
  cases move with
  | boot booted =>
      obtain ⟨_, _, _, _, rfl⟩ := World.boot_eq booted
      refine ⟨fun key => ?_, ?_, ?_, ?_, ?_, ?_⟩
      · simp [World.restart, leaseCount, outstanding, AList.count,
          AList.select]
      · simp [World.restart]
      · simp [World.restart]
      · simp [World.restart]
      · simp [World.restart]
      · simp [World.restart, Waiting]
  | call move =>
  cases move with
  | @beginStart input created environment _ _ done =>
      obtain ⟨absent, _, _, rfl⟩ := Database.createTurn_eq_ok done
      refine leased.frame rfl rfl rfl rfl ?_ ?_ (fun _ => Iff.rfl)
      · exact Nat.le_add_right _ _
      · rintro key ⟨row, isRow, isOpened⟩
        have different : key ≠ input.key := by
          rintro rfl
          rw [absent] at isRow
          cases isRow
        refine ⟨row, ?_, isOpened⟩
        unfold World.beginStart
        dsimp only
        generalize began : startCreated world.emptyCommit _ input
          world.nextUuid (world.nextUuid + 1) = outcome
        obtain ⟨next, stage⟩ := outcome
        have kept : next.turns.lookup key = (world.db.turns.insert input.key
            input.startingRow).lookup key := by
          rcases startCreated_turns began with ⟨_, failed⟩ | ⟨same, _, _⟩
          · exact (failStart_lookup failed).2.1 key different
          · exact congrArg _ same
        rw [kept, AList.lookup_insert_if, if_neg different]
        exact isRow
  | @advanceStart call next stage found step =>
      refine leased.frame rfl rfl rfl rfl le_rfl ?_ (fun _ => Iff.rfl)
      have phase := orderly.phased call.input.key
      rw [found] at phase
      have isStarting := phase.starting call rfl step.unsettled
      rintro key ⟨row, isRow, isOpened⟩
      refine ⟨row, ?_, isOpened⟩
      rw [← isRow]
      refine step.other_turns isStarting (phase.starts call rfl).2 ?_
      rintro rfl
      rw [isStarting] at isRow
      cases isRow
      cases isOpened
  | forgetStart =>
      exact leased.frame rfl rfl rfl rfl le_rfl (fun _ => id)
        (fun _ => Iff.rfl)
  | grant isBound => exact leased.grant isBound
  | release released => exact leased.release released
  | beginFinish =>
      exact leased.beginFinish rfl rfl rfl rfl rfl rfl rfl rfl
  | advanceFinish found fits step outcome =>
      obtain ⟨before, later⟩ := not_waiting step
      refine leased.frame rfl rfl rfl rfl le_rfl ?_
        (replaced _ found before later)
      rintro key ⟨row, isRow, isOpened⟩
      refine ⟨row, ?_, isOpened⟩
      rw [← isRow]
      refine outcome.other_turns fits ?_
      rintro rfl
      have noFinish := ((orderly.phased _).opened row isRow isOpened).1
      rw [found] at noFinish
      cases noFinish
  | @forgetFinish call found settled =>
      have notWaiting : ∀ {stage : FinishStage}, stage.isSettled = true →
          stage ≠ .waiting := by
        rintro stage settled rfl
        cases settled
      exact leased.frame rfl rfl rfl rfl le_rfl (fun _ => id)
        (replaced { call with listed := false } found (notWaiting settled)
          (notWaiting settled))
  | fork done =>
      obtain ⟨_, _, _, _, rfl⟩ := Database.insertThreadWorkspace_eq_ok done
      exact leased.frame rfl rfl rfl rfl (Nat.le_succ _) (fun _ => id)
        (fun _ => Iff.rfl)
  | mark marked =>
      obtain ⟨_, _, rfl⟩ := World.markInstance_eq marked
      exact leased.frame rfl rfl rfl rfl le_rfl (fun _ => id)
        (fun _ => Iff.rfl)
  | force close noOpened =>
      exact leased.frame rfl rfl rfl rfl le_rfl
        (fun key isOpened => (noOpened key isOpened).elim) (fun _ => Iff.rfl)
  | closing =>
      exact leased.frame rfl rfl rfl rfl le_rfl (fun _ => id)
        (fun _ => Iff.rfl)

end Leased

end World

/-! ## Turns past their leases -/

namespace World

variable {deployment : Deployment} {world after : World}

/-- The turn is neither starting nor open, so no lease is granted for it. -/
def Shut (world : World) (key : TurnKey) : Prop :=
  ∃ row, world.db.turns.lookup key = some row ∧
    row.state ≠ .starting ∧ row.state ≠ .opened

/-- The finish of the turn has passed its wait. -/
def Sealed (world : World) (key : TurnKey) : Prop :=
  world.Shut key ∧ ¬ world.Waiting key

theorem Shut.notOpened {key : TurnKey} (shut : world.Shut key) :
    ¬ world.Opened key := by
  rintro ⟨row, found, isOpened⟩
  obtain ⟨other, isOther, _, notOpened⟩ := shut
  cases found.symm.trans isOther
  exact notOpened isOpened

theorem Shut.acquire {key : TurnKey} (shut : world.Shut key) :
    ∃ error, world.acquire key = (world, .lease (.error error)) := by
  obtain ⟨row, found, _, notOpened⟩ := shut
  unfold World.acquire
  split
  · exact ⟨_, rfl⟩
  split
  · exact ⟨_, rfl⟩
  unfold resolve Database.getTurn
  rw [found]
  dsimp only
  unfold bound
  split
  case h_1 => exact ⟨_, rfl⟩
  case h_2 refused =>
    split at refused
    case h_1 isOpened _ => exact (notOpened isOpened).elim
    case h_2 => cases refused

theorem Shut.move (orderly : world.Orderly) {key : TurnKey}
    (shut : world.Shut key) (move : Move deployment world after) :
    after.Shut key := by
  obtain ⟨row, found, notStarting, notOpened⟩ := shut
  have same : after.db.turns.lookup key = some row → after.Shut key :=
    fun kept => ⟨row, kept, notStarting, notOpened⟩
  cases move with
  | boot booted =>
      obtain ⟨seeded, next, done, isNext, rfl⟩ := World.boot_eq booted
      obtain ⟨_, _, _, _, sameTurns, _⟩ := Database.putCapture_frame done
      obtain ⟨stopped, quiet, marks, inactive⟩ := recover_eq isNext
      have before : stopped.turns.lookup key = some row := by
        rw [quiet.turns]
        rw [sameTurns]
        exact found
      rcases marks.turns key with kept | ⟨_, _, _, _, written⟩
      · exact same (kept.trans before)
      · exact ⟨_, written, by simp, by simp⟩
  | call move =>
  cases move with
  | @beginStart input created environment _ _ done =>
      obtain ⟨absent, _, _, rfl⟩ := Database.createTurn_eq_ok done
      have different : key ≠ input.key := by
        rintro rfl
        rw [absent] at found
        cases found
      apply same
      unfold World.beginStart
      dsimp only
      generalize began : startCreated world.emptyCommit _ input
        world.nextUuid (world.nextUuid + 1) = outcome
      obtain ⟨next, stage⟩ := outcome
      have kept : next.turns.lookup key = (world.db.turns.insert input.key
          input.startingRow).lookup key := by
        rcases startCreated_turns began with ⟨_, failed⟩ | ⟨same, _, _⟩
        · exact (failStart_lookup failed).2.1 key different
        · exact congrArg _ same
      rw [kept, AList.lookup_insert_if, if_neg different]
      exact found
  | @advanceStart call next stage isCall step =>
      have phase := orderly.phased call.input.key
      rw [isCall] at phase
      have isStarting := phase.starting call rfl step.unsettled
      apply same
      rw [← found]
      refine step.other_turns isStarting (phase.starts call rfl).2 ?_
      rintro rfl
      rw [isStarting] at found
      cases found
      exact notStarting rfl
  | forgetStart | grant | forgetFinish | closing => exact same found
  | release released =>
      apply same
      rw [(World.release_leasesOnly released).db, found]
  | @beginFinish other row environment isRow isOpened =>
      apply same
      unfold World.beginFinish
      dsimp only
      rw [AList.lookup_insert_if, if_neg, found]
      rintro rfl
      rw [isRow] at found
      cases found
      exact notOpened isOpened
  | @advanceFinish call segment isCall fits step outcome =>
      by_cases isKey : key = call.key
      · subst isKey
        have phase := orderly.phased call.key
        rw [isCall] at phase
        have later := phase.finishStep step.unsettled outcome
        cases isRow : segment.db.turns.lookup call.key with
        | none => cases (later.absent isRow).2
        | some row =>
            refine ⟨row, isRow, fun isStarting => ?_, fun isOpened => ?_⟩
            · cases (later.unbound row isRow isStarting).1
            · cases (later.opened row isRow isOpened).1
      · exact same ((outcome.other_turns fits isKey).trans found)
  | fork done =>
      obtain ⟨_, _, _, _, rfl⟩ := Database.insertThreadWorkspace_eq_ok done
      exact same found
  | mark marked =>
      obtain ⟨_, _, rfl⟩ := World.markInstance_eq marked
      exact same found
  | force _ _ _ _ marks =>
      rcases marks.turns key with kept | ⟨_, _, _, _, written⟩
      · exact same (kept.trans found)
      · exact ⟨_, written, by simp, by simp⟩

theorem Sealed.move (orderly : world.Orderly) {key : TurnKey}
    (isSealed : world.Sealed key) (move : Move deployment world after) :
    after.Sealed key := by
  obtain ⟨shut, notWaiting⟩ := isSealed
  refine ⟨shut.move orderly move, ?_⟩
  have elsewhere : ∀ {call : FinishCall} {other},
      (call.stage = .waiting → other ≠ key) →
      (∃ found, (world.finishes.insert other call).lookup key =
        some found ∧ found.stage = .waiting) → False := by
    rintro call other different ⟨found, isFound, isWaiting⟩
    rw [AList.lookup_insert_if] at isFound
    split at isFound
    case isTrue same =>
      cases isFound
      exact different isWaiting same.symm
    case isFalse => exact notWaiting ⟨found, isFound, isWaiting⟩
  cases move with
  | boot booted =>
      obtain ⟨_, _, _, _, rfl⟩ := World.boot_eq booted
      simp [World.restart, Waiting]
  | call move =>
  cases move with
  | beginStart | advanceStart | forgetStart | grant | fork | force
  | closing =>
      exact notWaiting
  | mark marked =>
      obtain ⟨_, _, rfl⟩ := World.markInstance_eq marked
      exact notWaiting
  | release released =>
      rintro ⟨call, isCall, isWaiting⟩
      rcases (World.release_leasesOnly released).finishes with
        same | ⟨_, woken⟩
      · exact notWaiting ⟨call, same ▸ isCall, isWaiting⟩
      · rw [woken] at isCall
        exact notWaiting
          ⟨call, (Leased.waiting_of_wake isCall isWaiting).2, isWaiting⟩
  | @beginFinish other row environment found isOpened =>
      refine elsewhere fun _ => ?_
      rintro rfl
      exact shut.notOpened ⟨row, found, isOpened⟩
  | advanceFinish _ _ step =>
      exact elsewhere fun isWaiting =>
        ((Leased.not_waiting step).2 isWaiting).elim
  | forgetFinish _ settled =>
      refine elsewhere fun isWaiting => ?_
      rw [show _ = _ from isWaiting] at settled
      cases settled

end World

theorem Served.leased {deployment : Deployment} {world : World}
    (served : Served deployment world) : world.Leased :=
  served.invariant World.Leased.empty
    fun _ _ _ orderly leased move => leased.move orderly move

/-! ## Lease exclusion -/

/-- No later run grants the turn a lease. -/
def World.RefusesLeases (deployment : Deployment) (world : World)
    (key : TurnKey) : Prop :=
  ∀ events later, (∀ event ∈ events, event.serving = true) →
    run (World.step deployment) world events = some later →
    ∃ error, later.acquire key = (later, .lease (.error error))

structure LeaseExclusion (deployment : Deployment) (world : World) : Prop where
  counted : ∀ key, world.leaseCount key = world.outstanding key
  /-- A turn that is finishing gets no lease, now or later. -/
  finishing : ∀ key row, world.db.getTurn key = some row →
    row.state = .finishing → world.RefusesLeases deployment key
  /-- A finish that has passed its wait runs without leases to its end. -/
  passed : ∀ key call, world.finishes.lookup key = some call →
    call.stage ≠ .waiting →
    world.RefusesLeases deployment key ∧
      ∀ events later, (∀ event ∈ events, event.serving = true) →
        run (World.step deployment) world events = some later →
        later.outstanding key = 0
  /-- A leased turn is open, or its finish still waits. -/
  held : ∀ id turn, world.activeLeases.lookup id = some turn →
    world.Opened turn.key ∨ world.Waiting turn.key
  /-- A finish that waits has a waiter, and a lease that will release it. -/
  waiting : ∀ key, world.Waiting key →
    0 < world.leaseCount key ∧
      (world.leaseWaiters.lookup key).isSome = true ∧
      ∃ id, (world.activeLeases.lookup id).isSome = true ∧
        world.leases.lookup id = some { key }
  /-- A closure that has been called does nothing. -/
  again : ∀ id lease, world.leases.lookup id = some lease →
    lease.released = true → world.release id = some world
  /-- Any other closure takes one lease away, and the last one wakes the
  finish. -/
  released : ∀ id lease, world.leases.lookup id = some lease →
    lease.released = false → ∃ after, world.release id = some after ∧
      after.leaseCount lease.key + 1 = world.leaseCount lease.key ∧
      (after.leaseCount lease.key = 0 → ∀ call,
        world.finishes.lookup lease.key = some call →
        call.stage = .waiting →
        after.finishes.lookup lease.key =
          some { call with stage := .drained })

theorem World.Shut.refusesLeases {deployment : Deployment} {world : World}
    (served : Served deployment world) {key : TurnKey}
    (shut : world.Shut key) : world.RefusesLeases deployment key := by
  intro events later serving replay
  have preserved : ∀ before after, Provisioned deployment before →
      before.Orderly → before.Shut key →
      World.Move deployment before after → after.Shut key :=
    fun _ _ _ orderly shut move => shut.move orderly move
  exact (served.later preserved shut serving replay).2.acquire

/-- Whatever the interleaving, leases and the end of a turn exclude each
other, and no finish waits for a lease that is gone. -/
theorem leases_exclude_finish {deployment : Deployment} {world : World}
    (served : Served deployment world) : LeaseExclusion deployment world := by
  have leased := served.leased
  have orderly := served.orderly
  refine ⟨leased.counted, ?_, ?_, leased.held, ?_, ?_, ?_⟩
  · intro key row found isFinishing
    refine World.Shut.refusesLeases served ⟨row, found, ?_, ?_⟩ <;>
      simp [isFinishing]
  · intro key call found passed
    have phase := orderly.phased key
    rw [found] at phase
    have shut : world.Shut key := by
      cases isRow : world.db.turns.lookup key with
      | none => cases (phase.absent isRow).2
      | some row =>
          refine ⟨row, isRow, fun isStarting => ?_, fun isOpened => ?_⟩
          · cases (phase.unbound row isRow isStarting).1
          · cases (phase.opened row isRow isOpened).1
    refine ⟨shut.refusesLeases served, fun events later serving replay => ?_⟩
    have isSealed : world.Sealed key := by
      refine ⟨shut, ?_⟩
      rintro ⟨other, isOther, isWaiting⟩
      cases found.symm.trans isOther
      exact passed isWaiting
    have preserved : ∀ before after, Provisioned deployment before →
        before.Orderly → before.Sealed key →
        World.Move deployment before after → after.Sealed key :=
      fun _ _ _ orderly isSealed move => isSealed.move orderly move
    obtain ⟨servedLater, stillShut, notWaiting⟩ :=
      served.later preserved isSealed serving replay
    exact servedLater.leased.outstanding_eq_zero stillShut.notOpened
      notWaiting
  · intro key isWaiting
    obtain ⟨registered, positive⟩ := leased.waiting key isWaiting
    obtain ⟨id, turn, isTurn, rfl⟩ :=
      World.Leased.outstanding_pos_iff.mp positive
    refine ⟨?_, registered, id, ?_, leased.closures id turn isTurn⟩
    · rw [leased.counted]
      exact positive
    · rw [isTurn]
      rfl
  · intro id lease found isReleased
    exact World.Leased.release_again found isReleased
  · intro id lease found isUnreleased
    obtain ⟨turn, isTurn, isKey⟩ :=
      leased.unreleased id lease found isUnreleased
    have positive : 0 < world.outstanding lease.key :=
      World.Leased.outstanding_pos_iff.mpr ⟨id, turn, isTurn, isKey⟩
    obtain ⟨after, done, _, _, _, _, counts, outcomes⟩ :=
      leased.release_eq found isUnreleased
    have count : after.leaseCount lease.key =
        world.outstanding lease.key - 1 := by
      rw [counts, if_pos rfl]
    refine ⟨after, done, ?_, ?_⟩
    · rw [count, leased.counted]
      exact Nat.sub_add_cancel positive
    · intro none call isCall isWaiting
      have last : world.outstanding lease.key = 1 := by omega
      rcases outcomes with ⟨more, _⟩ | ⟨_, notWaiting, _⟩ | ⟨_, finishes, _⟩
      · exact (more last).elim
      · exact (notWaiting ⟨call, isCall, isWaiting⟩).elim
      · rw [finishes]
        unfold World.wake
        rw [AList.lookup_modify_self, isCall, Option.map_some, isWaiting]

private def leasedKey : TurnKey := ⟨"thread", "turn"⟩

/-- An instant turn is opened, leased twice and finished, one of the leases
being released twice in the meantime. -/
private def leasedSession : List Event :=
  [.start { threadId := "thread", turnId := "turn", mode := .instant } {},
    .resumeStart leasedKey, .resumeStart leasedKey, .resumeStart leasedKey,
    .resumeStart leasedKey, .resumeStart leasedKey,
    .acquire leasedKey, .acquire leasedKey,
    .finish leasedKey { capture := .error (.plain "unused") },
    .release 2, .release 2]

private def leasedWaits (world : World) : Bool :=
  match world.finishes.lookup leasedKey with
  | some { stage := .waiting, .. } => true
  | _ => false

theorem leases_exclude_finish_sample :
    ∃ world, run (World.step Deployment.transparent) World.empty
        (.boot (fun _ => .ok ()) :: leasedSession) = some world ∧
      world.Waiting leasedKey ∧
      LeaseExclusion Deployment.transparent world := by
  have replay : (run (World.step Deployment.transparent) World.empty
      (.boot (fun _ => .ok ()) :: leasedSession)).any leasedWaits = true := by
    decide +kernel
  obtain ⟨world, isWorld, isStage⟩ := (Option.any_eq_true _ _).mp replay
  have served : Served Deployment.transparent world :=
    Served.of_run (by decide) isWorld
  refine ⟨world, isWorld, ?_, leases_exclude_finish served⟩
  unfold leasedWaits at isStage
  split at isStage
  · exact ⟨_, ‹_›, rfl⟩
  · cases isStage

end Electrosphere
