import Electrosphere.Storage.CfsExport

/-!
# The daemon as an exporter

The daemon's export keeps to the scheme that the guest's keeps to, and what
stands in the files does not change under it, so every archive that it writes
can be read.
-/

namespace Electrosphere.Cfs

open Foundation FileSystem Workspace

/-! ## Blocks -/

theorem flatten_readBlocks {content : List UInt8} {fuel offset : Nat}
    (enough : content.length ≤ offset + fuel) :
    (readBlocks content content.length fuel offset).flatten =
      content.drop offset := by
  induction fuel generalizing offset with
  | zero =>
      rw [readBlocks, List.drop_eq_nil_of_le (by omega)]
      rfl
  | succ fuel induction =>
      rw [readBlocks]
      split
      case isFalse past =>
        rw [List.drop_eq_nil_of_le (by omega)]
        rfl
      case isTrue before =>
        have size : ((content.drop offset).take
            (min blockBytes (content.length - offset))).length =
              min blockBytes (content.length - offset) := by
          rw [List.length_take, List.length_drop]
          omega
        have some : 0 < min blockBytes (content.length - offset) :=
          Nat.lt_min.mpr ⟨by decide, by omega⟩
        dsimp only
        rw [if_neg (List.ne_nil_of_length_pos (by omega)), List.flatten_cons,
          induction (by omega), size, ← List.drop_drop]
        exact List.take_append_drop _ _

theorem foldlM_append (out : Bytes) (blocks : List Bytes)
    (fits : out.length ≤ maxTreeBytes) :
    blocks.foldlM append out = append out blocks.flatten := by
  induction blocks generalizing out with
  | nil =>
      symm
      apply appendWithin_eq_ok_iff.mpr
      exact ⟨(List.append_nil _).symm, fits⟩
  | cons block blocks induction =>
      rw [List.foldlM_cons, List.flatten_cons, append, append,
        ← appendWithin_append]
      cases isWritten : appendWithin treeLimit out block with
      | error thrown => rfl
      | ok next =>
          exact induction next (appendWithin_eq_ok_iff.mp isWritten).2

/-! ## The entries one by one -/

/-- What the daemon can put into a header. -/
structure Encodable (entry : TreeEntry) : Prop where
  path : (Utf8.encode (joinPath entry.path)).length < 2 ^ 32
  early : 0 ≤ roundedMtimeNs entry.stats.mtime
  late : roundedMtimeNs entry.stats.mtime < 2 ^ 64

structure HostAccepts (fs : FileSystem) (root : List Text)
    (entry : TreeEntry) : Prop where
  encodable : Encodable entry
  mode : entry.stats.mode &&& 0o7777 &&& 0o6000 = 0
  target : ∀ target time, entry.stats.node = .symlink target time →
    targetLeaves root entry.path (Utf8.decodeLossy target) = false
  size : ∀ inode, entry.stats.node = .file inode →
    (fs.content inode).length ≤ maxFileBytes
  kind : ∀ mode time, entry.stats.node ≠ .other mode time

def hostSubject (fs : FileSystem) (entry : TreeEntry) : Subject where
  written := joinPath entry.path
  stats := entry.stats
  mtimeNs := (roundedMtimeNs entry.stats.mtime).toNat
  length :=
    match entry.stats.node with
    | .file inode => (fs.content inode).length
    | _ => 0
  content :=
    match entry.stats.node with
    | .file inode => fs.content inode
    | _ => []

variable {fs : FileSystem} {root : List Text} {earlier : List Subject}
  {entry : TreeEntry} {state next : Exporting}

theorem encodeHeader_eq_ok (fs : FileSystem) (encodable : Encodable entry)
    (type payloadLength : Nat) :
    encodeHeader (joinPath entry.path) type (entry.stats.mode &&& 0o7777)
        (roundedMtimeNs entry.stats.mtime) payloadLength =
      .ok ((hostSubject fs entry).header type payloadLength).encode := by
  have mode : entry.stats.mode &&& 0o7777 < 2 ^ 32 :=
    lt_of_le_of_lt Nat.and_le_right (by decide)
  simp only [encodeHeader, u32, u64, if_pos encodable.path, if_pos mode,
    if_pos (And.intro encodable.early encodable.late), bind, Except.bind]
  rfl

theorem encodable_of_encodeHeader {type payloadLength : Nat} {header : Bytes}
    (isHeader : encodeHeader (joinPath entry.path) type
      (entry.stats.mode &&& 0o7777) (roundedMtimeNs entry.stats.mtime)
        payloadLength = .ok header) : Encodable entry := by
  have mode : entry.stats.mode &&& 0o7777 < 2 ^ 32 :=
    lt_of_le_of_lt Nat.and_le_right (by decide)
  simp only [encodeHeader, u32, u64, if_pos mode, bind, Except.bind]
    at isHeader
  split at isHeader
  · cases isHeader
  · rename_i isPath
    split at isPath
    case isFalse => cases isPath
    case isTrue path =>
      split at isHeader
      · cases isHeader
      · rename_i isTime
        split at isTime
        case isFalse => cases isTime
        case isTrue time => exact ⟨path, time.1, time.2⟩

theorem appendBlocks_after {α : Type} (out bytes content : Bytes)
    (later : Bytes → Except Thrown α) :
    (do
      let out ← append out bytes
      let out ← (readBlocks content content.length content.length 0).foldlM
        append out
      later out) =
      (do
        let out ← append out bytes
        let out ← append out content
        later out) := by
  cases isWritten : append out bytes with
  | error thrown => rfl
  | ok next =>
      have small := (appendWithin_eq_ok_iff.mp isWritten).2
      change (List.foldlM append next _ >>= later) = _
      rw [foldlM_append next _ small, flatten_readBlocks (by omega),
        List.drop_zero]
      rfl

theorem exportRegular_eq {inode : Nat}
    (isNode : entry.stats.node = .file inode)
    (accepts : HostAccepts fs root entry)
    (tracks : Tracks fs.nlink earlier state.hardLinks) :
    ∃ hardLinks, Tracks fs.nlink (earlier ++ [hostSubject fs entry]) hardLinks ∧
      exportRegular fs inode (entry.stats.mode &&& 0o7777)
        (roundedMtimeNs entry.stats.mtime) state entry =
      afterWrite treeLimit state
        ((hostSubject fs entry).piece fs.nlink earlier).bytes hardLinks := by
  have isName : (hostSubject fs entry).inode = some inode := by
    rw [Subject.inode, hostSubject, isNode]
  have isStats : (hostSubject fs entry).stats.node = .file inode := isNode
  rw [exportRegular, if_neg (Nat.not_lt.mpr (accepts.size inode isNode)),
    tracks.lookup, Subject.piece, isStats]
  dsimp only
  cases isOriginal : Subject.original fs.nlink earlier inode with
  | some first =>
      refine ⟨state.hardLinks, tracks.of_original isName isOriginal, ?_⟩
      rw [Option.map_some]
      dsimp only
      rw [encodeHeader_eq_ok fs accepts.encodable]
      exact writePiece_eq _ state _ _ _
  | none =>
      refine ⟨_, tracks.of_new isName isOriginal, ?_⟩
      have length : (hostSubject fs entry).length =
          (fs.content inode).length := by
        rw [hostSubject, isNode]
      have content : (hostSubject fs entry).content = fs.content inode := by
        rw [hostSubject, isNode]
      rw [Option.map_none]
      dsimp only
      rw [encodeHeader_eq_ok fs accepts.encodable, length, content]
      refine Eq.trans ?_ (writePiece_eq _ state _ _ _)
      rw [flatten_readBlocks (by omega), List.drop_zero]
      refine (appendBlocks_after state.out _ _ _).trans ?_
      simp only [ne_eq, not_true_eq_false, if_false]
      rfl

theorem exportCollected_eq (accepts : HostAccepts fs root entry)
    (tracks : Tracks fs.nlink earlier state.hardLinks) :
    ∃ hardLinks, Tracks fs.nlink (earlier ++ [hostSubject fs entry]) hardLinks ∧
      exportCollected fs root state entry =
        afterWrite treeLimit state
          ((hostSubject fs entry).piece fs.nlink earlier).bytes hardLinks := by
  have same : (hostSubject fs entry).stats = entry.stats := rfl
  rw [exportCollected, if_neg (not_not_intro accepts.mode)]
  cases isNode : entry.stats.node with
  | directory mode time =>
      refine ⟨state.hardLinks, tracks.of_noFile (by
        rw [Subject.inode, same, isNode]), ?_⟩
      dsimp only
      rw [encodeHeader_eq_ok fs accepts.encodable, Subject.piece, same,
        isNode, afterWrite, Piece.bytes, List.append_nil]
      rfl
  | symlink target time =>
      refine ⟨state.hardLinks, tracks.of_noFile (by
        rw [Subject.inode, same, isNode]), ?_⟩
      have stays := accepts.target target time isNode
      dsimp only
      rw [stays, encodeHeader_eq_ok fs accepts.encodable,
        Subject.piece, same, isNode]
      exact writePiece_eq _ state _ _ _
  | file inode => exact exportRegular_eq isNode accepts tracks
  | other mode time => exact absurd isNode (accepts.kind mode time)

/-- What is written has been accepted. -/
theorem accepts_of_exportCollected
    (exported : exportCollected fs root state entry = .ok next) :
    HostAccepts fs root entry := by
  rw [exportCollected] at exported
  split at exported
  · cases exported
  case isFalse mode =>
    have encodes {type payloadLength : Nat}
        {later : Bytes → Except Thrown Exporting}
        (isOk : (encodeHeader (joinPath entry.path) type
          (entry.stats.mode &&& 0o7777) (roundedMtimeNs entry.stats.mtime)
            payloadLength >>= later) = .ok next) : Encodable entry := by
      cases isHeader : encodeHeader (joinPath entry.path) type
          (entry.stats.mode &&& 0o7777) (roundedMtimeNs entry.stats.mtime)
            payloadLength with
      | error thrown =>
          rw [isHeader] at isOk
          cases isOk
      | ok header => exact encodable_of_encodeHeader isHeader
    cases isNode : entry.stats.node with
    | directory held time =>
        rw [isNode] at exported
        refine ⟨encodes exported, not_not.mp mode, ?_, ?_, ?_⟩ <;>
          simp [isNode]
    | symlink target time =>
        rw [isNode] at exported
        dsimp only at exported
        split at exported
        · cases exported
        case isFalse stays =>
          refine ⟨encodes exported, not_not.mp mode, ?_, ?_, ?_⟩
          · intro other held same
            cases isNode.symm.trans same
            exact Bool.eq_false_iff.mpr stays
          · simp [isNode]
          · simp [isNode]
    | file inode =>
        rw [isNode] at exported
        dsimp only at exported
        rw [exportRegular] at exported
        split at exported
        · cases exported
        case isFalse small =>
          have encodable : Encodable entry := by
            split at exported
            · exact encodes exported
            · exact encodes exported
          refine ⟨encodable, not_not.mp mode, by simp [isNode], ?_,
            by simp [isNode]⟩
          intro other same
          cases isNode.symm.trans same
          exact Nat.not_lt.mp small
    | other held time =>
        rw [isNode] at exported
        cases exported

/-- The daemon is an exporter. -/
def host (fs : FileSystem) (root : List Text) :
    Exporter Thrown TreeEntry where
  step := exportCollected fs root
  full := treeLimit
  nlink := fs.nlink
  subject entry := some (hostSubject fs entry)
  Accepts := HostAccepts fs root
  accepted _ _ _ exported := ⟨rfl, accepts_of_exportCollected exported⟩
  writes _ _ _ _ isFound accepts tracks := by
    cases isFound
    exact exportCollected_eq accepts tracks

/-! ## Whole archives -/

theorem permits_validateRelativePath : Permits validateRelativePath := by
  intro path some valid
  have noSlash : ∀ name ∈ path, '/' ∉ name := fun name member =>
    (valid name member).noSlash
  have isSafe := unsafePath_eq_false_iff.mpr (by
    rwa [splitOn_joinPath some noSlash])
  rw [validateRelativePath, isSafe.1]
  exact if_neg (by simpa using isSafe.2)

theorem honest_host {entries : List TreeEntry} {pieces : List Piece}
    (isPieces : (host fs root).Pieces earlier entries pieces) :
    ∀ piece ∈ pieces, piece.Honest := by
  induction isPieces with
  | nil => simp
  | cons isFound _ _ induction =>
      cases isFound
      rw [List.forall_mem_cons]
      refine ⟨Subject.honest_piece_iff.mpr fun inode isName _ => ?_, induction⟩
      rw [hostSubject]
      split <;> rfl

theorem sized_host {entries : List TreeEntry} {pieces : List Piece}
    (isPieces : (host fs root).Pieces earlier entries pieces)
    (small : (pieces.flatMap Piece.bytes).length ≤ maxTreeBytes) :
    ∀ piece ∈ pieces, piece.header.Sized ∧
      piece.payload.length < 256 ^ 8 := by
  apply isPieces.sized _ small
  intro entry found isFound accepts
  cases isFound
  constructor
  · have early := accepts.encodable.early
    have late := accepts.encodable.late
    change (roundedMtimeNs entry.stats.mtime).toNat < 256 ^ 8
    omega
  · intro inode isName
    rw [Subject.inode] at isName
    split at isName
    · rename_i node isNode
      change entry.stats.node = _ at isNode
      rw [hostSubject, isNode]
      exact lt_of_le_of_lt (accepts.size _ isNode) (by decide)
    · cases isName

/-- An archive of the daemon holds the entries it collected, and nothing
else. -/
theorem exportCfs_eq_ok_iff {bytes : Bytes} :
    exportCfs fs root = .ok bytes ↔
      fs.isDirectory (encodePath root) = true ∧ ∃ entries,
        collectEntries fs root = .ok entries ∧
        (∀ entry ∈ entries, HostAccepts fs root entry) ∧
        bytes = archive ((host fs root).entries [] entries) ∧
        bytes.length ≤ maxTreeBytes := by
  rw [exportCfs]
  split
  case isFalse notDirectory => simp [notDirectory]
  case isTrue isDirectory =>
    rw [and_iff_right isDirectory]
    cases isCollected : collectEntries fs root with
    | error thrown =>
        have start : append [] magic = .ok magic :=
          appendWithin_eq_ok_iff.mpr ⟨rfl, by decide⟩
        simp [start, bind, Except.bind]
    | ok entries =>
        refine Iff.trans ((host fs root).export_eq_ok_iff entries) ?_
        constructor
        · rintro ⟨pieces, isPieces, rfl, small⟩
          exact ⟨entries, rfl, isPieces.accepts,
            isPieces.flatMap_bytes (honest_host isPieces), small⟩
        · rintro ⟨_, ⟨⟩, accepts, rfl, small⟩
          obtain ⟨pieces, isPieces⟩ : ∃ pieces,
              (host fs root).Pieces [] entries pieces :=
            Exporter.Pieces.of_accepts (fun _ _ => rfl) accepts
          exact ⟨pieces, isPieces,
            (isPieces.flatMap_bytes (honest_host isPieces)).symm, small⟩

end Electrosphere.Cfs
