import Electrosphere.Agent.WorkspaceExport

/-!
# What a snapshot says

An entry is written in pieces of a header and the bytes after it.  Which
pieces these are depends on the tree, and for files with several names on the
paths before; the writer only adds the limit on the size of the whole.
-/

namespace Electrosphere.Agent.Snapshot

open Foundation FileSystem Cfs

/-- The text under which a path is written. -/
def written (path : List Name) : List Char :=
  (Utf8.decodeLossy (pathBytes path)).map fun letter =>
    if letter = '\\' then '/' else letter

theorem validateRelative_eq_ok_iff {path : List Name} {relative : List Char} :
    validateRelative path = .ok relative ↔
      (up ∉ path ∧ here ∉ path) ∧
        (relative ≠ [] ∧ '\x00' ∉ relative) ∧ relative = written path := by
  rw [validateRelative]
  constructor
  · intro valid
    split at valid
    · cases valid
    case isFalse noDots =>
      dsimp only at valid
      split at valid
      · cases valid
      case isFalse noNul =>
        cases valid
        exact ⟨not_or.mp noDots, not_or.mp noNul, rfl⟩
  · rintro ⟨noDots, noNul, rfl⟩
    rw [if_neg (not_or.mpr noDots)]
    exact if_neg (not_or.mpr noNul)

/-! ## The entries one by one -/

def subject (fs : FileSystem) (root : Location)
    (observe : List Name → Observation) (path : List Name) : Option Subject :=
  (fs.lstat (root ++ path)).map fun stats => {
    written := written path, stats
    mtimeNs := (mtimeNs stats.mtime).toNat
    length := (observe path).length
    content := (observe path).reads.flatten }

/-- The entries that a snapshot takes, whatever it holds already. -/
structure Accepts (observe : List Name → Observation) (path : List Name)
    (stats : Stats) : Prop where
  noDots : up ∉ path ∧ here ∉ path
  relative : written path ≠ [] ∧ '\x00' ∉ written path
  mode : stats.mode &&& 0o7777 &&& 0o6000 = 0
  target : ∀ target time, stats.node = .symlink target time →
    targetEscapes target = false
  length : ∀ inode, stats.node = .file inode →
    (observe path).length ≤ maxFileBytes
  kind : ∀ mode time, stats.node ≠ .other mode time

variable {fs : FileSystem} {root : Location}
  {observe : List Name → Observation} {earlier : List Subject}
  {path : List Name} {stats : Stats} {found : Subject}
  {state next : Exporting}

theorem writeChunks_eq (out : SnapshotWriter) (chunks : List Bytes)
    (fits : out.length ≤ maxTreeBytes) :
    writeChunks out chunks = out.write chunks.flatten := by
  induction chunks generalizing out with
  | nil =>
      symm
      apply appendWithin_eq_ok_iff.mpr
      exact ⟨(List.append_nil _).symm, fits⟩
  | cons chunk chunks induction =>
      rw [writeChunks, List.flatten_cons, SnapshotWriter.write,
        SnapshotWriter.write, ← appendWithin_append]
      cases isWritten : appendWithin "snapshot exceeds total limit" out
          chunk with
      | error message => rfl
      | ok next =>
          exact induction next (appendWithin_eq_ok_iff.mp isWritten).2

theorem writeChunks_after {α : Type} (out : SnapshotWriter) (bytes : Bytes)
    (chunks : List Bytes) (later : SnapshotWriter → SnapshotResult α) :
    (do
      let out ← out.write bytes
      let out ← writeChunks out chunks
      later out) =
      (do
        let out ← out.write bytes
        let out ← out.write chunks.flatten
        later out) := by
  cases isWritten : out.write bytes with
  | error message => rfl
  | ok next =>
      have small := (appendWithin_eq_ok_iff.mp isWritten).2
      change (writeChunks next chunks >>= later) = _
      rw [writeChunks_eq next chunks small]
      rfl

theorem exportFile_eq {inode : Nat} (isFound : found.stats.node = .file inode)
    (isWritten : found.written = written path)
    (isTime : found.mtimeNs = (mtimeNs found.stats.mtime).toNat)
    (isLength : found.length = (observe path).length)
    (isContent : found.content = (observe path).reads.flatten)
    (short : (observe path).length ≤ maxFileBytes)
    (tracks : Tracks fs.nlink earlier state.hardLinks) :
    ∃ hardLinks, Tracks fs.nlink (earlier ++ [found]) hardLinks ∧
      exportFile (observe path) (written path) inode (fs.nlink inode)
        (found.stats.mode &&& 0o7777) (mtimeNs found.stats.mtime).toNat state =
      afterWrite "snapshot exceeds total limit" state
        (found.piece fs.nlink earlier).bytes hardLinks := by
  have isName : found.inode = some inode := by
    rw [Subject.inode, isFound]
  rw [exportFile, if_neg (Nat.not_lt.mpr short), tracks.lookup, Subject.piece,
    isFound]
  dsimp only
  cases isOriginal : Subject.original fs.nlink earlier inode with
  | some first =>
      refine ⟨state.hardLinks, tracks.of_original isName isOriginal, ?_⟩
      rw [Option.map_some]
      dsimp only
      rw [writeHeader_eq, ← isWritten, ← isTime]
      exact writePiece_eq _ state _ _ _
  | none =>
      refine ⟨_, tracks.of_new isName isOriginal, ?_⟩
      rw [Option.map_none]
      dsimp only
      rw [writeHeader_eq, ← isWritten, ← isTime, ← isLength, isContent]
      refine Eq.trans ?_ (writePiece_eq _ state _ _ _)
      exact writeChunks_after state.out _ _ _

/-- A step of the guest, once the entry has been looked at. -/
theorem exportEntry_eq (isFound : subject fs root observe path = some found)
    (accepts : Accepts observe path found.stats)
    (tracks : Tracks fs.nlink earlier state.hardLinks) :
    ∃ hardLinks, Tracks fs.nlink (earlier ++ [found]) hardLinks ∧
      exportEntry fs root observe state path =
        afterWrite "snapshot exceeds total limit" state
          (found.piece fs.nlink earlier).bytes hardLinks := by
  have valid : validateRelative path = .ok (written path) :=
    validateRelative_eq_ok_iff.mpr ⟨accepts.noDots, accepts.relative, rfl⟩
  obtain ⟨stats, isStats, rfl⟩ := Option.map_eq_some_iff.mp isFound
  rw [exportEntry, valid]
  simp only [bind, Except.bind, isStats]
  rw [exportNode, if_neg (not_not_intro accepts.mode)]
  cases isNode : stats.node with
  | directory mode time =>
      refine ⟨state.hardLinks, tracks.of_noFile (by
        rw [Subject.inode, isNode]), ?_⟩
      dsimp only
      rw [writeHeader_eq, Subject.piece, isNode, afterWrite, Piece.bytes,
        List.append_nil]
      rfl
  | symlink target time =>
      refine ⟨state.hardLinks, tracks.of_noFile (by
        rw [Subject.inode, isNode]), ?_⟩
      have inside := accepts.target target time isNode
      dsimp only
      rw [inside, writeHeader_eq, Subject.piece, isNode]
      exact writePiece_eq _ state _ _ _
  | file inode =>
      exact exportFile_eq isNode rfl rfl rfl rfl (accepts.length inode isNode)
        tracks
  | other mode time => exact absurd isNode (accepts.kind mode time)

/-- What is written has been accepted. -/
theorem accepts_of_exportEntry
    (exported : exportEntry fs root observe state path = .ok next) :
    ∃ stats, fs.lstat (root ++ path) = some stats ∧
      Accepts observe path stats := by
  rw [exportEntry] at exported
  cases isValid : validateRelative path with
  | error message =>
      rw [isValid] at exported
      cases exported
  | ok relative =>
      rw [isValid] at exported
      obtain ⟨noDots, relative, rfl⟩ := validateRelative_eq_ok_iff.mp isValid
      simp only [bind, Except.bind] at exported
      cases isStats : fs.lstat (root ++ path) with
      | none => simp [isStats] at exported
      | some stats =>
          rw [isStats] at exported
          dsimp only at exported
          rw [exportNode] at exported
          split at exported
          · cases exported
          case isFalse mode =>
            refine ⟨stats, rfl, noDots, relative, not_not.mp mode, ?_, ?_, ?_⟩
            · intro target time isNode
              rw [isNode] at exported
              dsimp only at exported
              split at exported
              · cases exported
              case isFalse stays => exact Bool.eq_false_iff.mpr stays
            · intro inode isNode
              rw [isNode] at exported
              dsimp only at exported
              rw [exportFile] at exported
              split at exported
              · cases exported
              case isFalse short => exact Nat.not_lt.mp short
            · intro mode time isNode
              rw [isNode] at exported
              cases exported

/-- The guest is an exporter. -/
def guest (fs : FileSystem) (root : Location)
    (observe : List Name → Observation) : Exporter String (List Name) where
  step := exportEntry fs root observe
  full := "snapshot exceeds total limit"
  nlink := fs.nlink
  subject := subject fs root observe
  Accepts path := ∃ stats, fs.lstat (root ++ path) = some stats ∧
    Accepts observe path stats
  accepted _ path _ exported := by
    obtain ⟨stats, isStats, accepts⟩ := accepts_of_exportEntry exported
    refine ⟨?_, stats, isStats, accepts⟩
    rw [subject, isStats]
    rfl
  writes _ _ path found isFound accepts tracks := by
    obtain ⟨stats, isStats, accepts⟩ := accepts
    have same := isFound
    rw [subject, isStats] at same
    cases same
    exact exportEntry_eq isFound accepts tracks

/-! ## The paths of a snapshot -/

theorem collect_perm (root : Location) {depth : Nat} {directory : List Name}
    (deep : fs.height < directory.length + depth) :
    ∃ below, Lists fs root directory below ∧ ∀ entries,
      (collect fs root depth directory entries).Perm (entries ++ below) := by
  induction depth generalizing directory with
  | zero =>
      refine ⟨[], lists_nil_of_height deep, fun entries => ?_⟩
      rw [collect, List.append_nil]
  | succ depth induction =>
      have blocks (name : Name) : ∃ block,
          (name ∈ fs.children (root ++ directory) →
            Covers fs root (directory ++ [name]) block) ∧
          ∀ entries : List (List Name),
            (if fs.isDirectory (root ++ (directory ++ [name])) then
              collect fs root depth (directory ++ [name])
                (entries ++ [directory ++ [name]])
            else entries ++ [directory ++ [name]]).Perm (entries ++ block) := by
        obtain ⟨below, lists, permuted⟩ := induction
          (show fs.height < (directory ++ [name]).length + depth by
            rw [List.length_append, List.length_singleton]; omega)
        have here (member : name ∈ fs.children (root ++ directory)) :
            fs.present root (directory ++ [name]) = true := by
          rw [FileSystem.present, ← List.append_assoc]
          exact mem_children.mp member
        cases isDirectory : fs.isDirectory (root ++ (directory ++ [name])) with
        | true =>
            refine ⟨_, fun member => lists.covers (here member), ?_⟩
            intro entries
            rw [if_pos rfl]
            refine (permuted _).trans (List.Perm.of_eq ?_)
            rw [List.append_assoc, List.singleton_append]
        | false =>
            exact ⟨_, fun member => (lists_nil isDirectory).covers
              (here member), fun entries => List.Perm.refl _⟩
      choose block covers steps using blocks
      have children := List.perm_insertionSort ByteOrder
        (fs.children (root ++ directory))
      refine ⟨_, lists_flatMap children fun name member =>
        covers name (children.mem_iff.mp member), fun entries => ?_⟩
      rw [collect]
      exact (List.perm_insertionSort _ _).trans
        (foldl_perm (fun entries name => steps name entries) _ entries)

/-- The guest writes the paths in their order. -/
theorem collect_eq (fs : FileSystem) (root : Location) :
    collect fs root (fs.height + 1) [] [] = fs.paths root := by
  obtain ⟨below, lists, permuted⟩ := collect_perm root
    (show fs.height < ([] : List Name).length + (fs.height + 1) by simp)
  have sorted : (collect fs root (fs.height + 1) [] []).Pairwise ByPath := by
    rw [collect]
    exact List.pairwise_insertionSort _ _
  have all := (permuted []).trans lists.perm_paths
  apply eq_of_sorted _ all sorted pairwise_paths
  intro held member
  exact validNames_of_present (mem_paths.mp (all.mem_iff.mp member)).2

theorem exportWorkspaceFile_eq_ok_iff {bytes : Bytes} :
    exportWorkspaceFile fs root observe = .ok bytes ↔
      fs.isDirectory root = true ∧ ∃ pieces,
        (guest fs root observe).Pieces [] (fs.paths root) pieces ∧
        bytes = magic ++ pieces.flatMap Piece.bytes ∧
        bytes.length ≤ maxTreeBytes := by
  rw [exportWorkspaceFile, collect_eq]
  split
  case isFalse notDirectory => simp [notDirectory]
  case isTrue isDirectory =>
    rw [and_iff_right isDirectory]
    exact (guest fs root observe).export_eq_ok_iff _

end Electrosphere.Agent.Snapshot
