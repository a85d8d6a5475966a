import Electrosphere.Storage.CfsRecords
import Electrosphere.Storage.TarFormat
import Electrosphere.Storage.TarStream

/-!
# Which trees are restored as they are

Only the blocks of one file share a buffer, so every schedule writes the
archive if and only if each block of a file begins as the block before it:
files that repeat themselves after the size of the buffer.
-/

namespace Electrosphere.Tar

open Foundation FileSystem Workspace

/-- The content moved forward by a block agrees with itself. -/
def Repeats (content : Bytes) : Prop := content.drop blockBytes <+: content

/-! ## The blocks of a file -/

/-- Two blocks agree as far as both reach. -/
def Agreeing (block next : Bytes) : Prop :=
  next.take block.length = block.take next.length

theorem agreeing_iff {block rest : Bytes}
    (full : rest ≠ [] → block.length = blockBytes) :
    (rest ≠ [] → Agreeing block (rest.take blockBytes)) ∧
        rest.drop blockBytes <+: rest ↔
      rest <+: block ++ rest := by
  by_cases isEmpty : rest = []
  · simp [isEmpty]
  have full := full isEmpty
  have parts := List.take_append_drop blockBytes rest
  have front : (rest.take blockBytes).length ≤ block.length := by
    rw [full, List.length_take]
    exact Nat.min_le_left _ _
  rw [Agreeing, List.take_of_length_le front, ← List.prefix_iff_eq_take]
  simp only [isEmpty, ne_eq, not_false_eq_true, forall_const]
  by_cases isLast : rest.drop blockBytes = []
  · rw [isLast, List.append_nil] at parts
    rw [isLast, parts, and_iff_left List.nil_prefix]
    rw [parts] at front
    constructor
    · intro below
      exact below.trans (List.prefix_append _ _)
    · intro below
      exact List.prefix_of_prefix_length_le below (List.prefix_append _ _) front
  · have long : blockBytes < rest.length := by
      by_contra short
      exact isLast (List.drop_eq_nil_of_le (Nat.not_lt.mp short))
    have whole : (rest.take blockBytes).length = block.length := by
      rw [full, List.length_take]
      omega
    constructor
    · intro ⟨below, later⟩
      have same := below.eq_of_length whole
      calc rest = block ++ rest.drop blockBytes := by rw [← same, parts]
        _ <+: block ++ rest := (List.prefix_append_right_inj block).mpr later
    · intro below
      have isFront : rest.take blockBytes <+: block :=
        List.prefix_of_prefix_length_le
          ((List.take_prefix _ _).trans below) (List.prefix_append _ _) front
      have same := isFront.eq_of_length whole
      refine ⟨isFront, ?_⟩
      apply (List.prefix_append_right_inj block).mp
      rwa [← same, parts, same]

/-- The blocks from an offset on. -/
theorem readBlocks_eq (content : Bytes) (fuel offset : Nat) :
    readBlocks content content.length (fuel + 1) offset =
      if content.drop offset = [] then []
      else (content.drop offset).take blockBytes ::
        readBlocks content content.length fuel
          (offset + ((content.drop offset).take blockBytes).length) := by
  have size : (content.drop offset).take
      (min blockBytes (content.length - offset)) =
        (content.drop offset).take blockBytes := by
    rw [← List.length_drop, ← List.take_take, List.take_length]
  rw [readBlocks]
  split
  case isFalse past =>
    rw [if_pos (List.drop_eq_nil_of_le (by omega))]
  case isTrue before =>
    have some : content.drop offset ≠ [] := by
      intro isEmpty
      have short := List.drop_eq_nil_iff.mp isEmpty
      omega
    have front : (content.drop offset).take blockBytes ≠ [] := by
      simp [some, blockBytes]
    rw [size]
    dsimp only
    rw [if_neg front, if_neg some]

theorem head_readBlocks {content : Bytes} {fuel offset : Nat}
    (enough : content.length ≤ offset + fuel) :
    (readBlocks content content.length fuel offset).head? =
      if content.drop offset = [] then none
      else some ((content.drop offset).take blockBytes) := by
  cases fuel with
  | zero =>
      rw [if_pos (List.drop_eq_nil_of_le (by omega))]
      rfl
  | succ fuel =>
      rw [readBlocks_eq]
      split <;> rfl

theorem drop_length_take (count : Nat) (rest : Bytes) :
    rest.drop (rest.take count).length = rest.drop count := by
  rw [List.length_take]
  cases Nat.le_total count rest.length with
  | inl long => rw [Nat.min_eq_left long]
  | inr short =>
      rw [Nat.min_eq_right short, List.drop_length, List.drop_eq_nil_of_le short]

theorem isChain_readBlocks {content : Bytes} {fuel offset : Nat}
    (enough : content.length ≤ offset + fuel) :
    (readBlocks content content.length fuel offset).IsChain Agreeing ↔
      (content.drop offset).drop blockBytes <+: content.drop offset := by
  induction fuel generalizing offset with
  | zero =>
      have past : content.drop offset = [] :=
        List.drop_eq_nil_of_le (by omega)
      simp [readBlocks, past]
  | succ fuel induction =>
      rw [readBlocks_eq]
      split
      case isTrue isEmpty => simp [isEmpty]
      case isFalse isSome =>
        have parts := List.take_append_drop blockBytes (content.drop offset)
        have behind : content.drop
            (offset + ((content.drop offset).take blockBytes).length) =
              (content.drop offset).drop blockBytes := by
          rw [← List.drop_drop, drop_length_take]
        have counted : 0 < ((content.drop offset).take blockBytes).length := by
          apply List.length_pos_iff.mpr
          simp [isSome, blockBytes]
        have enough : content.length ≤
            offset + ((content.drop offset).take blockBytes).length + fuel := by
          omega
        rw [List.isChain_cons, head_readBlocks enough, induction enough, behind]
        have full (more : (content.drop offset).drop blockBytes ≠ []) :
            ((content.drop offset).take blockBytes).length = blockBytes := by
          apply List.length_take_of_le
          by_contra short
          exact more (List.drop_eq_nil_of_le (Nat.le_of_not_le short))
        have whole := agreeing_iff full
        rw [parts] at whole
        rw [← whole]
        refine and_congr_left fun _ => ?_
        split
        case isTrue isEmpty => simp [isEmpty]
        case isFalse more =>
          simp only [Option.mem_def, Option.some.injEq, forall_eq', ne_eq,
            more, not_false_eq_true, forall_const]

/-! ## The chunks of a tree -/

/-- Chunks of an entry come after those of the entries before it with bytes of
their own. -/
theorem isChain_append {before after : List Chunk}
    (own : ∀ chunk ∈ after.head?, ∃ bytes, chunk = .own bytes) :
    (before ++ after).IsChain Compatible ↔
      before.IsChain Compatible ∧ after.IsChain Compatible := by
  rw [List.isChain_append]
  refine and_congr_right fun _ => and_iff_left ?_
  intro chunk _ next isNext
  obtain ⟨bytes, rfl⟩ := own next isNext
  cases chunk <;> trivial

theorem isChain_blocks (file : List Text) (blocks : List Bytes) :
    (blocks.map (Chunk.view file)).IsChain Compatible ↔
      blocks.IsChain Agreeing := by
  rw [List.isChain_map]
  apply List.IsChain.iff
  intro block next
  exact forall_prop_of_true rfl

variable {fs : FileSystem} {hardLinks next : Table Nat Text}
  {entry : TreeEntry} {own : List Chunk}

theorem isChain_fileChunks {inode mode : Nat} {mtime : Int}
    (isOwn : fileChunks fs inode mode mtime entry = .ok own) :
    own.IsChain Compatible ↔ Repeats (fs.content inode) := by
  simp only [fileChunks, bind_eq_ok_iff, guard_eq_ok_iff, pure_eq_ok_iff]
    at isOwn
  obtain ⟨header, -, -, rfl⟩ := isOwn
  have blocks := isChain_readBlocks
    (show (fs.content inode).length ≤ 0 + (fs.content inode).length by omega)
  rw [List.drop_zero] at blocks
  rw [List.isChain_cons, isChain_append, isChain_blocks, blocks, Repeats]
  · constructor
    · intro ⟨_, repeats, _⟩
      exact repeats
    · intro repeats
      refine ⟨fun chunk _ => ?_, repeats, ?_⟩
      · cases chunk <;> trivial
      · split
        · exact List.isChain_singleton _
        · exact List.isChain_nil
  · intro chunk isHead
    split at isHead
    · cases isHead
      exact ⟨_, rfl⟩
    · cases isHead

/-- Every entry starts with a header of its own. -/
theorem head_entryChunks
    (isOwn : entryChunks fs hardLinks entry = .ok (own, next)) :
    ∃ header later, own = .own header :: later := by
  rw [entryChunks] at isOwn
  cases isKind : entry.stats.node with
  | directory mode time =>
      simp only [isKind, bind_eq_ok_iff, pure_eq_ok_iff, Prod.mk.injEq]
        at isOwn
      obtain ⟨header, -, rfl, -⟩ := isOwn
      exact ⟨header, [], rfl⟩
  | symlink target time =>
      simp only [isKind, bind_eq_ok_iff, pure_eq_ok_iff, Prod.mk.injEq]
        at isOwn
      obtain ⟨header, -, rfl, -⟩ := isOwn
      exact ⟨header, [], rfl⟩
  | file inode =>
      rw [isKind] at isOwn
      dsimp only at isOwn
      split at isOwn
      · simp only [bind_eq_ok_iff, pure_eq_ok_iff, Prod.mk.injEq] at isOwn
        obtain ⟨header, -, rfl, -⟩ := isOwn
        exact ⟨header, [], rfl⟩
      · simp only [fileChunks, bind_eq_ok_iff, guard_eq_ok_iff,
          pure_eq_ok_iff, Prod.mk.injEq] at isOwn
        obtain ⟨_, ⟨header, -, -, rfl⟩, rfl, -⟩ := isOwn
        exact ⟨header, _, rfl⟩
  | other mode time =>
      rw [isKind] at isOwn
      cases isOwn

/-- The files that have been written so far repeat themselves. -/
def Repeating (fs : FileSystem) (hardLinks : Table Nat Text) : Prop :=
  ∀ inode name, hardLinks.lookup inode = some name → Repeats (fs.content inode)

theorem isChain_entryChunks (repeating : Repeating fs hardLinks)
    (isOwn : entryChunks fs hardLinks entry = .ok (own, next)) :
    (own.IsChain Compatible ↔ ∀ inode, entry.stats.node = .file inode →
        Repeats (fs.content inode)) ∧
      (own.IsChain Compatible → Repeating fs next) := by
  rw [entryChunks] at isOwn
  cases isKind : entry.stats.node with
  | directory mode time =>
      simp only [isKind, bind_eq_ok_iff, pure_eq_ok_iff, Prod.mk.injEq]
        at isOwn
      obtain ⟨header, -, rfl, rfl⟩ := isOwn
      simp [repeating]
  | symlink target time =>
      simp only [isKind, bind_eq_ok_iff, pure_eq_ok_iff, Prod.mk.injEq]
        at isOwn
      obtain ⟨header, -, rfl, rfl⟩ := isOwn
      simp [repeating]
  | file inode =>
      rw [isKind] at isOwn
      dsimp only at isOwn
      split at isOwn
      · rename_i linkName isPrior
        simp only [bind_eq_ok_iff, pure_eq_ok_iff, Prod.mk.injEq] at isOwn
        obtain ⟨header, -, rfl, rfl⟩ := isOwn
        obtain ⟨-, isPrior⟩ := (Option.ite_none_right_eq_some ..).mp isPrior
        have repeats := repeating inode linkName isPrior
        simp [repeating, repeats]
      · simp only [bind_eq_ok_iff, pure_eq_ok_iff, Prod.mk.injEq] at isOwn
        obtain ⟨_, isOwn, rfl, rfl⟩ := isOwn
        have chain := isChain_fileChunks isOwn
        refine ⟨by simp [chain], fun isChain => ?_⟩
        have repeats := chain.mp isChain
        split
        · intro other name isName
          rw [AList.lookup_insert_if] at isName
          split at isName
          case isTrue same => exact same ▸ repeats
          case isFalse => exact repeating other name isName
        · exact repeating
  | other mode time =>
      rw [isKind] at isOwn
      cases isOwn

theorem head_chunksFrom {entries : List TreeEntry} {stream : List Chunk}
    (isStream : chunksFrom fs hardLinks entries = .ok stream) :
    ∃ bytes later, stream = .own bytes :: later := by
  cases entries with
  | nil =>
      cases isStream
      exact ⟨_, _, rfl⟩
  | cons entry entries =>
      rw [chunksFrom, bind_eq_ok_iff] at isStream
      obtain ⟨⟨own, next⟩, isOwn, isLater⟩ := isStream
      obtain ⟨rest, -, same⟩ := bind_eq_ok_iff.mp isLater
      cases same
      obtain ⟨header, later, rfl⟩ := head_entryChunks isOwn
      exact ⟨header, later ++ rest, rfl⟩

theorem isChain_chunksFrom {entries : List TreeEntry} {stream : List Chunk}
    (repeating : Repeating fs hardLinks)
    (isStream : chunksFrom fs hardLinks entries = .ok stream) :
    stream.IsChain Compatible ↔
      ∀ entry ∈ entries, ∀ inode, entry.stats.node = .file inode →
        Repeats (fs.content inode) := by
  induction entries generalizing hardLinks stream with
  | nil =>
      cases isStream
      exact iff_of_true (List.isChain_singleton _) (by simp)
  | cons entry entries induction =>
      rw [chunksFrom, bind_eq_ok_iff] at isStream
      obtain ⟨⟨own, next⟩, isOwn, isLater⟩ := isStream
      obtain ⟨rest, isRest, same⟩ := bind_eq_ok_iff.mp isLater
      cases same
      obtain ⟨chain, later⟩ := isChain_entryChunks repeating isOwn
      rw [isChain_append, List.forall_mem_cons, ← chain]
      · refine and_congr_right fun isChain => ?_
        exact induction (later isChain) isRest
      · intro chunk isHead
        obtain ⟨bytes, later, rfl⟩ := head_chunksFrom isRest
        cases isHead
        exact ⟨bytes, rfl⟩

theorem isChain_chunks {tree : List Text} {entries : List TreeEntry}
    {stream : List Chunk} (collected : collect fs tree = .ok entries)
    (completes : chunks fs tree = .ok stream) :
    stream.IsChain Compatible ↔
      ∀ entry ∈ entries, ∀ inode, entry.stats.node = .file inode →
        Repeats (fs.content inode) := by
  obtain ⟨others, isOthers, isStream⟩ := bind_eq_ok_iff.mp completes
  cases collected.symm.trans isOthers
  apply isChain_chunksFrom _ isStream
  intro inode name isName
  rw [AList.lookup_empty] at isName
  cases isName

/-- Every schedule restores the archive of a tree if and only if all its files
repeat themselves. -/
theorem restores_iff {tree : List Text} {entries : List TreeEntry}
    {stream : List Chunk} (buffers : Buffers)
    (collected : collect fs tree = .ok entries)
    (completes : chunks fs tree = .ok stream) :
    Faithful stream buffers ↔
      ∀ entry ∈ entries, ∀ inode, entry.stats.node = .file inode →
        Repeats (fs.content inode) :=
  (faithful_iff stream buffers).trans (isChain_chunks collected completes)

/-! ## One file -/

theorem octal_isOk {value width : Nat} (some : 0 < width)
    (small : value < 8 ^ width) :
    ∃ bytes, octal value (width + 1) = .ok bytes := by
  have digits : toStringOctal value = Nat.toDigits 8 value := rfl
  have fits := (Nat.length_toDigits_le_iff (b := 8) (by decide) some).mpr small
  refine ⟨_, guard_eq_ok_iff.mpr ⟨?_, rfl⟩⟩
  rw [digits, Nat.add_sub_cancel, List.length_leftpad]
  omega

/-- A file `f` and nothing else. -/
def singleFile (content : Bytes) : FileSystem :=
  (FileSystem.bare 0o755 (.whole 0)).place [] [102] (.file 0)
    [{ mode := 0o644, mtime := .whole 0, content }] (by decide) Nat.one_pos

def singleEntry : TreeEntry where
  path := [['f']]
  stats := { node := .file 0, mode := 0o644, mtime := .whole 0 }

theorem collect_singleFile (content : Bytes) :
    collect (singleFile content) [] = .ok [singleEntry] := by
  rfl

theorem tarHeader_singleFile {size : Nat} (small : size < 8 ^ 11) :
    ∃ header, tarHeader {
      name := ['f'], mode := 0o644, size, mtime := 0, type := '0' } =
        .ok header := by
  obtain ⟨bytes, isBytes⟩ := octal_isOk (by decide) small
  have counted := (octal_eq_ok isBytes).1
  have isField (header : Bytes) : writeField header 124 12 bytes =
      .ok (copy bytes header 124) :=
    writeField_eq_ok_iff.mpr ⟨counted.le, rfl⟩
  simp only [tarHeader, isBytes, isField, bind, Except.bind]
  exact ⟨_, rfl⟩

theorem completes_singleFile {content : Bytes}
    (small : content.length < 8 ^ 11) :
    ∃ stream, chunks (singleFile content) [] = .ok stream := by
  obtain ⟨header, isHeader⟩ := tarHeader_singleFile small
  have isContent : (singleFile content).content 0 = content := rfl
  have single : ¬ 1 < (singleFile content).nlink 0 := by
    have count : (singleFile content).nlink 0 = 1 := rfl
    omega
  have blocks := Cfs.flatten_readBlocks
    (show content.length ≤ 0 + content.length by omega)
  have isFile : ∃ own, fileChunks (singleFile content) 0 0o644 0 singleEntry =
      .ok own := by
    simp only [fileChunks, isContent, bind_eq_ok_iff, guard_eq_ok_iff,
      pure_eq_ok_iff]
    exact ⟨_, header, isHeader, by simp [blocks], rfl⟩
  obtain ⟨own, isOwn⟩ := isFile
  have isEntry : entryChunks (singleFile content) ∅ singleEntry =
      .ok (own, ∅) := by
    have prior : (if 1 < (singleFile content).nlink 0 then
        (∅ : Table Nat Text).lookup 0 else none) = none := if_neg single
    simp only [entryChunks, singleEntry, prior, if_neg single]
    simp only [bind_eq_ok_iff]
    exact ⟨own, isOwn, rfl⟩
  refine ⟨own ++ [.own (List.replicate 1024 0)], ?_⟩
  rw [chunks, collect_singleFile]
  simp only [bind, Except.bind, chunksFrom, isEntry]
  rfl

theorem repeats_zeros (count : Nat) : Repeats (List.replicate count 0) := by
  rw [Repeats, List.drop_replicate]
  exact (List.prefix_replicate_iff).mpr ⟨by simp, by simp⟩

theorem restores_zeros :
    ∃ stream, chunks (singleFile (List.replicate (blockBytes + 1) 0)) [] =
        .ok stream ∧
      ∀ buffers, Faithful stream buffers := by
  have small : (List.replicate (blockBytes + 1) (0 : UInt8)).length < 8 ^ 11 := by
    rw [List.length_replicate]
    decide
  obtain ⟨stream, completes⟩ := completes_singleFile small
  refine ⟨stream, completes, fun buffers => ?_⟩
  apply (restores_iff buffers (collect_singleFile _) completes).mpr
  intro entry member inode isFile
  obtain rfl := List.mem_singleton.mp member
  cases isFile
  exact repeats_zeros (blockBytes + 1)

theorem not_repeats : ¬ Repeats (List.replicate blockBytes 0 ++ [1]) := by
  intro repeats
  rw [Repeats, List.drop_left' List.length_replicate] at repeats
  obtain ⟨count, isCount⟩ : ∃ count, blockBytes = count + 1 := ⟨65535, rfl⟩
  rw [isCount, List.replicate_succ, List.cons_append, List.cons_prefix_cons]
    at repeats
  exact absurd repeats.1 (by decide)

/-- A file of one byte more than the buffer, which differs from its first. -/
theorem restore_corrupts :
    ∃ content : Bytes, content.length = blockBytes + 1 ∧ ∃ stream,
      chunks (singleFile content) [] = .ok stream ∧
        ∀ buffers, ¬ Faithful stream buffers := by
  have counted : (List.replicate blockBytes (0 : UInt8) ++ [1]).length =
      blockBytes + 1 := by
    rw [List.length_append, List.length_replicate]
    rfl
  obtain ⟨stream, completes⟩ := completes_singleFile
    (lt_of_eq_of_lt counted (by decide))
  refine ⟨_, counted, stream, completes, fun buffers faithful => ?_⟩
  have compatible := (faithful_iff stream buffers).mp faithful
  apply not_repeats
  exact (isChain_chunks (collect_singleFile _) completes).mp compatible
    singleEntry (List.mem_singleton_self _) 0 rfl

end Electrosphere.Tar
