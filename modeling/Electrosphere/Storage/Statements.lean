import Electrosphere.Storage.Integrity

/-!
# What the statements do

One inversion lemma for each statement that can fail: when it succeeds, which
rows it found and what it wrote.  Later modules never unfold a statement.
-/

namespace Electrosphere

open Foundation

namespace Database

variable {db next : Database}

theorem putCommit_eq_ok {id : Digest} {row : CommitRow}
    (done : db.putCommit id row = .ok next) :
    (db.hasCommit id = true ∧ next = db) ∨
      (db.commits.lookup id = none ∧
        (∀ up, row.parentId = some up → db.hasCommit up = true) ∧
        next = { db with commits := db.commits.insert id row }) := by
  unfold putCommit at done
  split at done
  case isTrue present =>
    cases done
    exact .inl ⟨present, rfl⟩
  case isFalse absent =>
    split at done
    case isTrue parents =>
      cases done
      refine .inr ⟨?_, (Option.all_eq_true _ _).mp parents, rfl⟩
      simpa [hasCommit] using absent
    case isFalse => cases done

theorem insertThreadWorkspace_eq_ok {threadId : ThreadId}
    {workspaceId : WorkspaceId} {headCommit : Digest}
    (done : db.insertThreadWorkspace threadId workspaceId headCommit =
      .ok next) :
    db.hasWorkspace workspaceId = false ∧
      db.hasCommit headCommit = true ∧
      db.threadWorkspaces.lookup threadId = none ∧
      (∀ thread, db.threadWorkspaces.lookup thread ≠ some workspaceId) ∧
      next = { db with
        workspaces := db.workspaces.insert workspaceId ()
        refs := db.refs.insert (workspaceId, mainRef) headCommit
        threadWorkspaces :=
          db.threadWorkspaces.insert threadId workspaceId } := by
  unfold insertThreadWorkspace at done
  split at done
  case isTrue => cases done
  case isFalse noWorkspace =>
  split at done
  case isTrue => cases done
  case isFalse =>
  split at done
  case isTrue => cases done
  case isFalse commit =>
  split at done
  case isTrue => cases done
  case isFalse noThread =>
  split at done
  case isTrue => cases done
  case isFalse noOther =>
    cases done
    refine ⟨by simpa using noWorkspace, by simpa using commit,
      by simpa using noThread, fun thread found => ?_, rfl⟩
    have member : (thread, workspaceId) ∈ db.threadWorkspaces.select
        fun _ other => decide (other = workspaceId) :=
      AList.mem_select.mpr ⟨found, by simp⟩
    have none : db.threadWorkspaces.select
        (fun _ other => decide (other = workspaceId)) = [] := by
      simpa using noOther
    simp [none] at member

/-- A workspace with a fresh identifier for a thread that has none. -/
theorem insertThreadWorkspace_succeeds {threadId : ThreadId}
    {workspaceId : WorkspaceId} {headCommit : Digest}
    (consistent : db.Consistent)
    (unborn : db.hasWorkspace workspaceId = false)
    (head : db.hasCommit headCommit = true)
    (absent : db.threadWorkspaces.lookup threadId = none) :
    ∃ next, db.insertThreadWorkspace threadId workspaceId headCommit =
      .ok next := by
  have noRef : (db.refs.lookup (workspaceId, mainRef)).isSome = false := by
    cases found : db.refs.lookup (workspaceId, mainRef) with
    | none => rfl
    | some head =>
        have present := (consistent.heads _ _ found).2
        rw [unborn] at present
        cases present
  have noThread : db.threadWorkspaces.select
      (fun _ other => decide (other = workspaceId)) = [] := by
    rw [List.eq_nil_iff_forall_not_mem]
    rintro ⟨thread, other⟩ member
    obtain ⟨found, same⟩ := AList.mem_select.mp member
    have present := consistent.threads thread other found
    rw [of_decide_eq_true same, unborn] at present
    cases present
  unfold insertThreadWorkspace
  rw [unborn, noRef, head, absent, noThread]
  exact ⟨_, rfl⟩

theorem createThreadFork_eq_ok {source destination : WorkspaceId}
    {threadId : ThreadId} {headCommit : Digest}
    (done : db.createThreadFork source threadId destination headCommit =
      .ok next) :
    db.hasWorkspace source = true ∧
      db.insertThreadWorkspace threadId destination headCommit =
        .ok next := by
  unfold createThreadFork at done
  split at done
  · cases done
  · exact ⟨by simp_all, done⟩

theorem createTurn_eq_ok {key : TurnKey} {row : TurnRow}
    (done : db.createTurn key row = .ok next) :
    db.turns.lookup key = none ∧ db.openThreadUnique key row = true ∧
      db.turnReferencesExist row = true ∧
      next = { db with turns := db.turns.insert key row } := by
  unfold createTurn at done
  split at done
  case isTrue => cases done
  case isFalse absent =>
  split at done
  case isTrue => cases done
  case isFalse unique =>
  split at done
  case isTrue => cases done
  case isFalse references =>
    cases done
    exact ⟨by simpa using absent, by simpa using unique,
      by simpa using references, rfl⟩

/-- An update of a turn that exists. -/
theorem updateTurn_eq_ok {key : TurnKey} {update : TurnUpdate} {row : TurnRow}
    (found : db.turns.lookup key = some row) :
    db.updateTurn key update = .ok next ↔
      db.openThreadUnique key (update.apply row) = true ∧
        db.turnReferencesExist (update.apply row) = true ∧
        next = { db with
          turns := db.turns.insert key (update.apply row) } := by
  unfold updateTurn
  simp only [found]
  generalize ({ db with
    turns := db.turns.insert key (update.apply row) } : Database) = updated
  have swap : updated = next ↔ next = updated := eq_comm
  cases db.openThreadUnique key (update.apply row) <;>
    cases db.turnReferencesExist (update.apply row) <;> simp [swap]

theorem updateTurn_of_absent {key : TurnKey} {update : TurnUpdate}
    (absent : db.turns.lookup key = none) :
    db.updateTurn key update = .ok db := by
  simp [updateTurn, absent]

/-- An update of a turn writes turns alone. -/
theorem updateTurn_frame {key : TurnKey} {update : TurnUpdate}
    (done : db.updateTurn key update = .ok next) :
    next = { db with turns := next.turns } := by
  cases found : db.turns.lookup key with
  | none =>
      rw [updateTurn_of_absent found] at done
      cases done
      rfl
  | some row =>
      obtain ⟨_, _, rfl⟩ := (updateTurn_eq_ok found).mp done
      rfl

theorem createInstance_eq_ok {id : InstanceId} {row : InstanceRow} :
    db.createInstance id row = .ok next ↔
      db.instances.lookup id = none ∧
        db.instanceReferencesExist row = true ∧
        next = { db with instances := db.instances.insert id row } := by
  unfold createInstance hasInstance
  generalize ({ db with
    instances := db.instances.insert id row } : Database) = created
  have swap : created = next ↔ next = created := eq_comm
  cases db.instances.lookup id <;>
    cases db.instanceReferencesExist row <;> simp [swap]

theorem insertCapture_eq_ok {input : PublishInput}
    (done : db.insertCapture input = .ok next) :
    (db.putTreeObject input.tree).putCommit input.commitId
      { treeDigest := input.tree.treeDigest
        contractDigest := input.contractDigest
        parentId := some input.expectedHead } = .ok next :=
  done

/-- A publish that commits has found the ref at the expected head and the
turn finishing. -/
theorem publishTurnCommit_eq_ok {input : PublishInput}
    (done : db.publishTurnCommit input = .ok (next, true)) :
    ∃ captured row, db.insertCapture input = .ok captured ∧
      captured.refs.lookup (input.workspaceId, input.ref) =
        some input.expectedHead ∧
      captured.turns.lookup input.key = some row ∧
      publishable input row = true ∧
      next = captured.recordPublication input row := by
  unfold publishTurnCommit at done
  split at done
  case h_1 => cases done
  case h_2 captured inserted =>
  split at done
  case isFalse => cases done
  case isTrue isHead =>
  split at done
  case h_1 => cases done
  case h_2 row found =>
  split at done
  case isFalse => cases done
  case isTrue isPublishable =>
    simp only [Except.ok.injEq, Prod.mk.injEq, and_true] at done
    exact ⟨captured, row, inserted, isHead, found, isPublishable,
      done.symm⟩

theorem publishable_iff {input : PublishInput} {row : TurnRow} :
    publishable input row = true ↔
      row.state = .finishing ∧ row.instanceId = some input.instanceId ∧
        row.workspaceId = some input.workspaceId ∧
        row.expectedHead = some input.expectedHead := by
  simp [publishable, and_assoc]

/-- A publish from the current head for a turn that is finishing. -/
theorem publishTurnCommit_succeeds {input : PublishInput} {row : TurnRow}
    (base : db.hasCommit input.expectedHead = true)
    (isHead : db.refs.lookup (input.workspaceId, input.ref) =
      some input.expectedHead)
    (found : db.turns.lookup input.key = some row)
    (isPublishable : publishable input row = true) :
    ∃ next, db.publishTurnCommit input = .ok (next, true) := by
  have opened : (db.putTreeObject input.tree).refs = db.refs ∧
      (db.putTreeObject input.tree).turns = db.turns ∧
      (db.putTreeObject input.tree).hasCommit input.expectedHead = true := by
    unfold putTreeObject
    split <;> exact ⟨rfl, rfl, base⟩
  obtain ⟨refs, turns, present⟩ := opened
  obtain ⟨captured, inserted, sameRefs, sameTurns⟩ : ∃ captured,
      db.insertCapture input = .ok captured ∧ captured.refs = db.refs ∧
        captured.turns = db.turns := by
    unfold insertCapture putCommit
    split
    · exact ⟨_, rfl, refs, turns⟩
    · rw [Option.all_some, present]
      exact ⟨_, rfl, refs, turns⟩
  unfold publishTurnCommit
  rw [inserted]
  dsimp only
  rw [sameRefs, isHead, if_pos rfl, sameTurns, found]
  dsimp only
  rw [isPublishable]
  exact ⟨_, rfl⟩

/-- Inserting a tree and a commit changes commits and trees alone. -/
theorem putCapture_frame {tree : CfsObject} {id : Digest} {row : CommitRow}
    (done : (db.putTreeObject tree).putCommit id row = .ok next) :
    next.workspaces = db.workspaces ∧
      next.threadWorkspaces = db.threadWorkspaces ∧
      next.refs = db.refs ∧ next.instances = db.instances ∧
      next.turns = db.turns ∧ next.operations = db.operations := by
  have opened : (db.putTreeObject tree).workspaces = db.workspaces ∧
      (db.putTreeObject tree).threadWorkspaces = db.threadWorkspaces ∧
      (db.putTreeObject tree).refs = db.refs ∧
      (db.putTreeObject tree).instances = db.instances ∧
      (db.putTreeObject tree).turns = db.turns ∧
      (db.putTreeObject tree).operations = db.operations := by
    unfold putTreeObject
    split <;> simp
  rcases putCommit_eq_ok done with ⟨_, rfl⟩ | ⟨_, _, rfl⟩
  · exact opened
  · exact opened

/-- The only commit that it adds is the one it names. -/
theorem putCapture_commits {tree : CfsObject} {id : Digest} {row : CommitRow}
    (done : (db.putTreeObject tree).putCommit id row = .ok next)
    {other : Digest} (present : next.hasCommit other = true) :
    db.hasCommit other = true ∨ other = id := by
  have same : (db.putTreeObject tree).commits = db.commits := by
    unfold putTreeObject
    split <;> rfl
  unfold hasCommit at present ⊢
  rcases putCommit_eq_ok done with ⟨_, rfl⟩ | ⟨_, _, rfl⟩
  · rw [same] at present
    exact .inl present
  · dsimp only at present
    rw [AList.lookup_insert_if] at present
    split at present
    case isTrue isId => exact .inr isId
    case isFalse =>
      rw [same] at present
      exact .inl present

theorem insertCapture_frame {input : PublishInput}
    (done : db.insertCapture input = .ok next) :
    next.workspaces = db.workspaces ∧
      next.threadWorkspaces = db.threadWorkspaces ∧
      next.refs = db.refs ∧ next.instances = db.instances ∧
      next.turns = db.turns ∧ next.operations = db.operations :=
  putCapture_frame (insertCapture_eq_ok done)

theorem mem_listTurns {states : List TurnState} {key : TurnKey}
    {row : TurnRow} :
    (key, row) ∈ db.listTurns states ↔
      db.turns.lookup key = some row ∧ row.state ∈ states := by
  simp [listTurns]

theorem listTurns_nodup (db : Database) (states : List TurnState) :
    ((db.listTurns states).map Prod.fst).Nodup := by
  have sorted := (List.perm_insertionSort turnOrder (db.turns.select
    fun _ row => decide (row.state ∈ states))).map Prod.fst
  exact sorted.nodup_iff.mpr (AList.keys_select_nodup _ _)

/-! ## Marking turns failed -/

/-- Active turns have been marked failed, and nothing else has changed. -/
structure MarksFailed (db next : Database) : Prop where
  frame : next = { db with turns := next.turns }
  turns : ∀ key, next.turns.lookup key = db.turns.lookup key ∨
    ∃ row error, db.turns.lookup key = some row ∧
      row.state.active = true ∧
      next.turns.lookup key =
        some { row with state := .failed, errorJson := some error }

theorem MarksFailed.refl (db : Database) : db.MarksFailed db :=
  ⟨rfl, fun _ => .inl rfl⟩

theorem MarksFailed.trans {first second third : Database}
    (left : first.MarksFailed second) (right : second.MarksFailed third) :
    first.MarksFailed third := by
  refine ⟨?_, fun key => ?_⟩
  · have frame := right.frame
    rw [left.frame] at frame
    exact frame
  · rcases right.turns key with same | ⟨row, error, found, active, written⟩
    · rw [same]
      exact left.turns key
    · rcases left.turns key with same | ⟨_, _, _, _, failed⟩
      · exact .inr ⟨row, error, same ▸ found, active, written⟩
      · rw [found] at failed
        cases failed
        cases active

/-- A turn that is no longer active is left alone. -/
theorem MarksFailed.inactive {key : TurnKey} {row : TurnRow}
    (marks : db.MarksFailed next) (found : db.turns.lookup key = some row)
    (isInactive : row.state.active = false) :
    next.turns.lookup key = some row := by
  rcases marks.turns key with same | ⟨other, _, isOther, active, _⟩
  · rw [same, found]
  · rw [found] at isOther
    cases isOther
    rw [isInactive] at active
    cases active

theorem markFailed_eq_ok {key : TurnKey} {row : TurnRow}
    {error : ServiceError} (found : db.turns.lookup key = some row)
    (active : row.state.active = true)
    (done : db.updateTurn key
      { state := some .failed, errorJson := some (some error) } = .ok next) :
    db.MarksFailed next ∧ ∀ other, next.turns.lookup other =
      if other = key then
        some { row with state := .failed, errorJson := some error }
      else db.turns.lookup other := by
  obtain ⟨_, _, rfl⟩ := (updateTurn_eq_ok found).mp done
  have written : ∀ other, (db.turns.insert key
      { row with state := .failed, errorJson := some error }).lookup other =
      if other = key then
        some { row with state := .failed, errorJson := some error }
      else db.turns.lookup other := by
    intro other
    rw [AList.lookup_insert_if]
  refine ⟨⟨rfl, fun other => ?_⟩, written⟩
  by_cases same : other = key
  · subst same
    refine .inr ⟨row, error, found, active, ?_⟩
    exact (written other).trans (if_pos rfl)
  · exact .inl ((written other).trans (if_neg same))

end Database

end Electrosphere
