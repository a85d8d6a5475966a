import Electrosphere.Agent.SnapshotRecords
import Mathlib.Data.Nat.Bitwise

/-!
# What a snapshot keeps of a tree

The length of a file is written before its bytes, so a file that changes in
between shifts everything behind it.  The time of a file is computed modulo
`2^64`, so only some times survive.
-/

namespace Electrosphere.Agent.Snapshot

open Foundation FileSystem Cfs

variable {fs : FileSystem} {root : Location}
  {observe : List Name → Observation} {earlier : List Subject}
  {path : List Name} {found : Subject}

/-! ## Files that change -/

/-- The regular files whose bytes are written: those that are not another name
of one before. -/
def copies (fs : FileSystem) (root : Location) (before : List (List Name))
    (path : List Name) : Bool :=
  match fs.node (root ++ path) with
  | some (.file inode) =>
      ¬ (1 < fs.nlink inode ∧
        ∃ held ∈ before, fs.node (root ++ held) = some (.file inode))
  | _ => false

/-- Every file whose bytes are written gives as many as it announced. -/
def Steady (fs : FileSystem) (root : Location)
    (observe : List Name → Observation) (before paths : List (List Name)) :
    Prop :=
  ∀ middle path after, paths = middle ++ path :: after →
    copies fs root (before ++ middle) path = true →
    (observe path).reads.flatten.length = (observe path).length

theorem steady_cons {before rest : List (List Name)} :
    Steady fs root observe before (path :: rest) ↔
      (copies fs root before path = true →
        (observe path).reads.flatten.length = (observe path).length) ∧
      Steady fs root observe (before ++ [path]) rest := by
  constructor
  · intro steady
    constructor
    · intro isCopied
      apply steady [] path rest rfl
      rwa [List.append_nil]
    · intro middle held after isRest isCopied
      apply steady (path :: middle) held after (by rw [isRest]; rfl)
      rwa [List.append_cons]
  · intro ⟨first, later⟩ middle held after isRest isCopied
    cases middle with
    | nil =>
        cases isRest
        rw [List.append_nil] at isCopied
        exact first isCopied
    | cons head middle =>
        cases isRest
        apply later middle held after rfl
        rwa [← List.append_cons]

theorem inode_subject (isFound : subject fs root observe path = some found)
    (inode : Nat) :
    found.inode = some inode ↔
      fs.node (root ++ path) = some (.file inode) := by
  obtain ⟨stats, isStats, rfl⟩ := Option.map_eq_some_iff.mp isFound
  rw [node_of_lstat isStats, Subject.inode]
  cases stats.node <;> simp

theorem original_eq_none_iff {before : List (List Name)}
    (same : before.filterMap (subject fs root observe) = earlier)
    (inode : Nat) :
    Subject.original fs.nlink earlier inode = none ↔
      ¬ (1 < fs.nlink inode ∧
        ∃ held ∈ before, fs.node (root ++ held) = some (.file inode)) := by
  have none : Subject.firstName earlier inode = none ↔
      ¬ ∃ held ∈ before, fs.node (root ++ held) = some (.file inode) := by
    simp only [Subject.firstName, List.find?_eq_none, decide_eq_true_eq,
      ← same, List.mem_filterMap, not_exists, not_and]
    constructor
    · intro noName held member isName
      have isSome : (subject fs root observe held).isSome := by
        rw [subject, Option.isSome_map, Option.isSome_iff_ne_none]
        intro absent
        rw [lstat_eq_none_iff.mp absent] at isName
        cases isName
      obtain ⟨first, isFirst⟩ := Option.isSome_iff_exists.mp isSome
      exact noName first ⟨held, member, isFirst⟩
        ((inode_subject isFirst inode).mpr isName)
    · rintro noName first ⟨held, member, isFirst⟩ isName
      exact noName held member ((inode_subject isFirst inode).mp isName)
  rw [Subject.original]
  split
  case isTrue several => rw [none, and_iff_right several]
  case isFalse single => simp [single]

theorem honest_subject_iff {before : List (List Name)}
    (isFound : subject fs root observe path = some found)
    (same : before.filterMap (subject fs root observe) = earlier) :
    (found.piece fs.nlink earlier).Honest ↔
      (copies fs root before path = true →
        (observe path).reads.flatten.length = (observe path).length) := by
  have observed : found.content = (observe path).reads.flatten ∧
      found.length = (observe path).length := by
    obtain ⟨stats, -, rfl⟩ := Option.map_eq_some_iff.mp isFound
    exact ⟨rfl, rfl⟩
  rw [Subject.honest_piece_iff, observed.1, observed.2, copies]
  constructor
  · intro honest isCopied
    split at isCopied
    · rename_i inode isFile
      exact honest inode ((inode_subject isFound inode).mpr isFile)
        ((original_eq_none_iff same inode).mpr (of_decide_eq_true isCopied))
    · cases isCopied
  · intro steady inode isName isNew
    apply steady
    rw [(inode_subject isFound inode).mp isName]
    exact decide_eq_true ((original_eq_none_iff same inode).mp isNew)

theorem honest_iff_steady {before paths : List (List Name)}
    {pieces : List Piece}
    (isPieces : (guest fs root observe).Pieces earlier paths pieces)
    (same : before.filterMap (subject fs root observe) = earlier) :
    (∀ piece ∈ pieces, piece.Honest) ↔
      Steady fs root observe before paths := by
  induction isPieces generalizing before with
  | nil =>
      constructor
      · intro _ middle path after isEmpty
        cases middle <;> cases isEmpty
      · simp
  | cons isFound accepts _ induction =>
      rw [List.forall_mem_cons, steady_cons]
      refine and_congr (honest_subject_iff isFound same) (induction ?_)
      change subject fs root observe _ = _ at isFound
      rw [List.filterMap_append, same, List.filterMap_cons, isFound]
      rfl

theorem subject_sized (isFound : subject fs root observe path = some found)
    (accepts : (guest fs root observe).Accepts path) :
    found.mtimeNs < 256 ^ 8 ∧
      ∀ inode, found.inode = some inode → found.length < 256 ^ 8 := by
  obtain ⟨stats, isStats, accepts⟩ := accepts
  rw [subject, isStats] at isFound
  cases isFound
  refine ⟨(mtimeNs stats.mtime).toNat_lt, fun inode isName => ?_⟩
  have isNode : stats.node = .file inode := by
    rw [Subject.inode] at isName
    split at isName
    · rename_i isNode
      cases isName
      exact isNode
    · cases isName
  exact lt_of_le_of_lt (accepts.length inode isNode) (by decide)

/-- A snapshot says what was read if and only if no file whose bytes it holds
changed its length in between. -/
theorem snapshot_parses_iff {bytes : Bytes}
    (exported : exportWorkspaceFile fs root observe = .ok bytes) :
    parse bytes =
        some ((guest fs root observe).entries [] (fs.paths root)) ↔
      Steady fs root observe [] (fs.paths root) := by
  obtain ⟨-, pieces, isPieces, rfl, small⟩ :=
    exportWorkspaceFile_eq_ok_iff.mp exported
  rw [List.length_append] at small
  have sized := isPieces.sized (fun _ _ => subject_sized) (by omega)
  rw [isPieces.parse_eq_iff sized]
  exact honest_iff_steady isPieces List.filterMap_nil

private def epoch : Timestamp := .whole 0

/-- A workspace with one file, `a`. -/
private def oneFile (mtime : Timestamp) (content : Bytes) : FileSystem :=
  (FileSystem.bare 0o755 epoch).place [] [97] (.file 0)
    [{ mode := 0o644, mtime, content }] (by decide) Nat.one_pos

private def oneRead (length : Nat) (content : Bytes) : List Name → Observation :=
  fun _ => { length, reads := [content] }

theorem snapshot_parses_still :
    parse (magic ++ [0, 0, 0, 1, 97, 2, 0, 0, 1, 0o244, 0, 0, 0, 0, 0, 0, 0, 0,
      0, 0, 0, 0, 0, 0, 0, 1, 7]) =
        some ((guest (oneFile epoch [7]) [] (oneRead 1 [7])).entries []
          ((oneFile epoch [7]).paths [])) ↔
      Steady (oneFile epoch [7]) [] (oneRead 1 [7]) []
        ((oneFile epoch [7]).paths []) :=
  snapshot_parses_iff (by decide +kernel)

/-- A file that grows between the two looks at it leaves a byte that belongs
to no entry. -/
theorem growing_file_not_parsed :
    ∃ bytes, exportWorkspaceFile (oneFile epoch []) [] (oneRead 0 [1]) =
      .ok bytes ∧ parse bytes ≠ some ((guest (oneFile epoch []) []
        (oneRead 0 [1])).entries [] ((oneFile epoch []).paths [])) := by
  refine ⟨magic ++ [0, 0, 0, 1, 97, 2, 0, 0, 1, 0o244, 0, 0, 0, 0, 0, 0, 0, 0,
    0, 0, 0, 0, 0, 0, 0, 0, 1], ?_, ?_⟩
  · decide +kernel
  · decide +kernel

/-! ## Times -/

/-- A time in nanoseconds, rounded to milliseconds. -/
def toMilliseconds (total : Int) : Int := (total + 500000) / 1000000 * 1000000

theorem seconds_eq (time : Timestamp) : ∃ wraps : Int,
    (time.seconds.toUInt64.toNat : Int) =
      time.seconds.toInt + wraps * 2 ^ 64 := by
  have signed : time.seconds.toInt = time.seconds.toBitVec.toInt := rfl
  have unsigned : time.seconds.toUInt64.toNat = time.seconds.toBitVec.toNat :=
    rfl
  rw [signed, unsigned, BitVec.toInt_eq_toNat_cond]
  split
  · exact ⟨0, by omega⟩
  · exact ⟨1, by omega⟩

theorem mtimeNs_eq (time : Timestamp) :
    ((mtimeNs time).toNat : Int) =
      (time.total + 500000) % 2 ^ 64 / 1000000 * 1000000 := by
  obtain ⟨wraps, seconds⟩ := seconds_eq time
  have below := time.below
  simp only [mtimeNs, Timestamp.total, UInt64.toNat_mul, UInt64.toNat_add,
    UInt64.toNat_div]
  simp only [UInt64.reduceToNat, Nat.reducePow, UInt64.toNat_ofNat',
    Nat.add_mod_mod, Nat.mod_add_mod, Int.natCast_emod, Nat.cast_mul,
    Int.natCast_ediv, Nat.cast_add, Nat.cast_ofNat, Int.reducePow]
  omega

end Electrosphere.Agent.Snapshot
