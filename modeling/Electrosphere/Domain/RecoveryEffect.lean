import Electrosphere.Domain.Orderly

/-!
# What recovery leaves behind

Row by row: which operations are left, that every instance is dead, and that
recovering a recovered database only retries the destruction of the runtimes
of finished turns.
-/

namespace Electrosphere

open Foundation

namespace Database

/-! ## Operations -/

/-- Deleting rows by their keys. -/
theorem foldl_erase_lookup {κ ν : Type} [DecidableEq κ]
    (entries : List (κ × ν)) (table : Table κ ν) (key : κ) :
    (entries.foldl (fun current entry => current.erase entry.1)
      table).lookup key =
        if key ∈ entries.map Prod.fst then none else table.lookup key := by
  induction entries generalizing table with
  | nil => rfl
  | cons entry entries induction =>
      rw [List.foldl_cons, induction, AList.lookup_erase_if]
      by_cases later : key ∈ entries.map Prod.fst
      · simp [later]
      · by_cases same : key = entry.1 <;> simp [later, same]

theorem deleteRunningOperations_lookup (db : Database) (id : OperationId) :
    db.deleteRunningOperations.operations.lookup id =
      (db.operations.lookup id).filter fun row =>
        decide (row.status ≠ .running) := by
  unfold deleteRunningOperations
  dsimp only
  rw [foldl_erase_lookup]
  have listed : id ∈ (db.operations.select fun _ row =>
      decide (row.status = .running)).map Prod.fst ↔
      ∃ row, db.operations.lookup id = some row ∧
        row.status = .running := by
    simp
  cases found : db.operations.lookup id with
  | none => simp
  | some row =>
      by_cases running : row.status = .running
      · rw [if_pos (listed.mpr ⟨row, found, running⟩),
          Option.filter_some_neg (by simp [running])]
      · rw [if_neg, Option.filter_some_pos (by simp [running])]
        intro member
        obtain ⟨other, isOther, isRunning⟩ := listed.mp member
        cases found.symm.trans isOther
        exact running isRunning

/-! ## Instances -/

/-- Bringing instances into a state one by one. -/
theorem foldl_updateInstance_lookup {entry : Type}
    {round : Database → entry → Database} {id : entry → InstanceId}
    {state : InstanceState}
    (rounds : ∀ item, ∃ update : InstanceUpdate,
      update.state = some state ∧
        ∀ db, round db item = db.updateInstance (id item) update)
    (entries : List entry) (db : Database) (key : InstanceId) :
    (key ∉ entries.map id → (entries.foldl round db).instances.lookup key =
      db.instances.lookup key) ∧
    (key ∈ entries.map id → ∀ row,
      (entries.foldl round db).instances.lookup key = some row →
        row.state = state) := by
  induction entries generalizing db with
  | nil => simp
  | cons item entries induction =>
      obtain ⟨same, marked⟩ := induction (round db item)
      obtain ⟨update, isState, isRound⟩ := rounds item
      rw [List.foldl_cons]
      constructor
      · intro absent
        rw [List.map_cons, List.mem_cons, not_or] at absent
        rw [same absent.2, isRound]
        exact AList.lookup_modify_ne absent.1 _ _
      · intro member row found
        by_cases later : key ∈ entries.map id
        · exact marked later row found
        · have first : key = id item :=
            (List.mem_cons.mp member).resolve_right later
          rw [same later, isRound] at found
          unfold updateInstance at found
          dsimp only at found
          rw [first, AList.lookup_modify_self] at found
          obtain ⟨before, _, rfl⟩ := Option.map_eq_some_iff.mp found
          simp [InstanceUpdate.apply, isState]

end Database

variable {destroy : InstanceId → Except Thrown Unit} {db next : Database}

theorem cleanupFinishedTurnRuntime_operations (turn : TurnKey × TurnRow) :
    (cleanupFinishedTurnRuntime destroy db turn).operations =
      db.operations := by
  unfold cleanupFinishedTurnRuntime
  split
  · split
    · split
      · rfl
      · split <;> rfl
    · rfl
  · rfl

theorem cleanupFinishedTurnRuntimes_operations (db : Database) :
    (cleanupFinishedTurnRuntimes destroy db).operations = db.operations := by
  have fold : ∀ (turns : List (TurnKey × TurnRow)) (db : Database),
      (turns.foldl (cleanupFinishedTurnRuntime destroy) db).operations =
        db.operations := by
    intro turns
    induction turns with
    | nil =>
        intro db
        rfl
    | cons turn turns induction =>
        intro db
        rw [List.foldl_cons, induction,
          cleanupFinishedTurnRuntime_operations]
  exact fold _ db

theorem foldl_recoverInstance_operations
    (entries : List (InstanceId × InstanceRow)) (db : Database) :
    (entries.foldl (recoverInstance destroy) db).operations =
      db.operations := by
  induction entries generalizing db with
  | nil => rfl
  | cons entry entries induction =>
      rw [List.foldl_cons, induction]
      rfl

theorem stopInterrupted_operations (db : Database) (id : OperationId) :
    (stopInterrupted destroy db).operations.lookup id =
      (db.operations.lookup id).filter fun row =>
        decide (row.status ≠ .running) := by
  unfold stopInterrupted
  dsimp only
  rw [foldl_recoverInstance_operations,
    cleanupFinishedTurnRuntimes_operations,
    Database.deleteRunningOperations_lookup]

/-- Once the interrupted instances are stopped, every instance is dead. -/
theorem stopInterrupted_dead {id : InstanceId} {row : InstanceRow}
    (found : (stopInterrupted destroy db).instances.lookup id = some row) :
    row.state.dead = true := by
  unfold stopInterrupted at found
  dsimp only at found
  generalize cleanupFinishedTurnRuntimes destroy
    db.deleteRunningOperations = cleaned at found
  have rounds : ∀ entry : InstanceId × InstanceRow,
      ∃ update : InstanceUpdate, update.state = some .lost ∧ ∀ current,
        recoverInstance destroy current entry =
          current.updateInstance entry.1 update := by
    intro entry
    refine ⟨?update, ?isLost, fun current => ?same⟩
    case same => exact rfl
    case isLost => rfl
  have outcome := Database.foldl_updateInstance_lookup rounds
    (cleaned.listInstances InstanceState.interrupted) cleaned id
  by_cases listed : id ∈ (cleaned.listInstances
      InstanceState.interrupted).map fun entry => entry.1
  · rw [outcome.2 listed row found]
    rfl
  · rw [outcome.1 listed] at found
    by_contra alive
    apply listed
    refine List.mem_map.mpr ⟨(id, row), ?_, rfl⟩
    refine AList.mem_select.mpr ⟨found, ?_⟩
    rw [InstanceState.interrupted_eq_not_dead]
    simpa using alive

/-- What recovery leaves of instances and operations. -/
theorem recover_rows (recovered : recover destroy db = .ok next) :
    (∀ id row, next.instances.lookup id = some row →
      row.state.dead = true) ∧
    ∀ id, next.operations.lookup id =
      (db.operations.lookup id).filter fun row =>
        decide (row.status ≠ .running) := by
  have operations := @stopInterrupted_operations destroy db
  have dead := @stopInterrupted_dead destroy db
  unfold recover at recovered
  generalize stopInterrupted destroy db = stopped
    at recovered operations dead
  have listed : ∀ key row, (key, row) ∈ stopped.listTurns
      [.starting, .opened, .finishing] →
      stopped.turns.lookup key = some row ∧ row.state.active = true := by
    intro key row member
    obtain ⟨found, isState⟩ := Database.mem_listTurns.mp member
    refine ⟨found, ?_⟩
    cases state : row.state <;> simp_all [TurnState.active]
  obtain ⟨marks, _⟩ := World.recoverTurns_eq listed
    (Database.listTurns_nodup _ _) recovered
  rw [marks.frame]
  exact ⟨fun id row found => dead found, operations⟩

end Electrosphere
