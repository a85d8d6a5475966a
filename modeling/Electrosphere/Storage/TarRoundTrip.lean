import Electrosphere.Storage.CfsRecords
import Electrosphere.Storage.TarFormat

/-!
# What a reader of the archive finds

A complete archive of a tree gives a reader every entry of the tree, in the
order of the paths, with its attributes and its bytes, and each further name
of a file as a link to an entry before it.
-/

namespace Electrosphere.Tar

open Foundation FileSystem Workspace

/-- The paths that were read before, with what they were read as. -/
abbrev Earlier := List (List Name × Ustar.Member)

/-- The first name of a file comes with the bytes, later ones link to it. -/
def TellsKind (fs : FileSystem) (root : Location) (earlier : Earlier) :
    Node → Ustar.Member → Prop
  | .directory _ _, member => member.kind = .directory ∧ member.size = 0
  | .symlink target _, member =>
      member.kind = .symlink target ∧ member.size = 0
  | .file inode, member =>
      (∀ first ∈ earlier, fs.node (root ++ first.1) ≠ some (.file inode)) ∧
          member.kind = .file (fs.content inode) ∧
          member.size = (fs.content inode).length ∨
        ∃ first ∈ earlier, fs.node (root ++ first.1) = some (.file inode) ∧
          first.2.kind = .file (fs.content inode) ∧
          member.kind = .hardLink first.2.path ∧ member.size = 0
  | .other _ _, _ => False

/-- A member tells what stands at a path.  Directories are named with a slash
at the end. -/
structure Tells (fs : FileSystem) (root : Location) (earlier : Earlier)
    (path : List Name) (stats : Stats) (member : Ustar.Member) : Prop where
  found : fs.lstat (root ++ path) = some stats
  path : member.path = pathBytes path ++
    if stats.node.isDirectory then [slash] else []
  mode : member.mode = stats.mode &&& 0o7777
  mtime : (member.mtime : Int) = stats.mtime.seconds.toInt
  kind : TellsKind fs root earlier stats.node member

/-- The members tell what stands at the paths, one after the other. -/
inductive Recovers (fs : FileSystem) (root : Location) :
    Earlier → List (List Name) → List Ustar.Member → Prop where
  | nil {earlier : Earlier} : Recovers fs root earlier [] []
  | cons {earlier : Earlier} {path : List Name} {paths : List (List Name)}
      {stats : Stats} {member : Ustar.Member} {members : List Ustar.Member} :
      Tells fs root earlier path stats member →
      Recovers fs root (earlier ++ [(path, member)]) paths members →
      Recovers fs root earlier (path :: paths) (member :: members)

/-- The trees that are archived: names and targets are valid UTF-8, and times
lie after 1970. -/
structure Plain (fs : FileSystem) (root : Location) : Prop where
  named : Utf8Names fs root
  targets : ∀ path target time,
    fs.node (root ++ path) = some (.symlink target time) →
    ∃ text : Text, target = Utf8.encode text
  timed : ∀ path stats, path ≠ [] → fs.lstat (root ++ path) = some stats →
    0 ≤ stats.mtime.total

/-! ## Names of files -/

/-- The names that the archive knows of files with several. -/
structure Known (fs : FileSystem) (root : Location) (earlier : Earlier)
    (hardLinks : Table Nat Text) : Prop where
  found : ∀ inode name, 1 < fs.nlink inode →
    hardLinks.lookup inode = some name →
    0 ∉ Utf8.encode name ∧ ∃ first ∈ earlier,
      fs.node (root ++ first.1) = some (.file inode) ∧
      first.2.kind = .file (fs.content inode) ∧
      first.2.path = Utf8.encode name
  absent : ∀ inode, 1 < fs.nlink inode → hardLinks.lookup inode = none →
    ∀ first ∈ earlier, fs.node (root ++ first.1) ≠ some (.file inode)

variable {fs : FileSystem} {root : Location} {earlier : Earlier}
  {hardLinks : Table Nat Text} {path : List Name} {member : Ustar.Member}

theorem Known.empty : Known fs root [] ∅ where
  found inode name _ isName := by
    rw [AList.lookup_empty] at isName
    cases isName
  absent inode _ _ := by simp

/-- An entry after which the names stay as they were. -/
theorem Known.skip (known : Known fs root earlier hardLinks)
    (listed : ∀ inode, 1 < fs.nlink inode → hardLinks.lookup inode = none →
      fs.node (root ++ path) ≠ some (.file inode)) :
    Known fs root (earlier ++ [(path, member)]) hardLinks where
  found inode name several isName := by
    obtain ⟨noNul, first, isFirst, facts⟩ := known.found inode name several isName
    exact ⟨noNul, first, List.mem_append_left _ isFirst, facts⟩
  absent inode several isNone first isFirst := by
    cases List.mem_append.mp isFirst with
    | inl before => exact known.absent inode several isNone first before
    | inr last =>
        rw [List.mem_singleton.mp last]
        exact listed inode several isNone

theorem Known.insert (known : Known fs root earlier hardLinks) {inode : Nat}
    {name : Text} (isFile : fs.node (root ++ path) = some (.file inode))
    (isKind : member.kind = .file (fs.content inode))
    (isPath : member.path = Utf8.encode name)
    (noNul : 0 ∉ Utf8.encode name) :
    Known fs root (earlier ++ [(path, member)])
      (hardLinks.insert inode name) where
  found other held several isHeld := by
    rw [AList.lookup_insert_if] at isHeld
    split at isHeld
    case isTrue same =>
      subst same
      cases isHeld
      refine ⟨noNul, (path, member), by simp, isFile, isKind, isPath⟩
    case isFalse =>
      obtain ⟨heldNoNul, first, isFirst, facts⟩ :=
        known.found other held several isHeld
      exact ⟨heldNoNul, first, List.mem_append_left _ isFirst, facts⟩
  absent other several isNone first isFirst := by
    rw [AList.lookup_insert_if] at isNone
    split at isNone
    case isTrue => cases isNone
    case isFalse different =>
      cases List.mem_append.mp isFirst with
      | inl before => exact known.absent other several isNone first before
      | inr last =>
          rw [List.mem_singleton.mp last]
          intro isOther
          cases isFile.symm.trans isOther
          exact different rfl

/-! ## One entry -/

section Entries

variable {tree : List Text} {entry : TreeEntry}

/-- The text of a path is free of zeros. -/
theorem noNul_joinPath
    (found : fs.lstat (encodePath (tree ++ entry.path)) = some entry.stats) :
    0 ∉ pathBytes (encodePath entry.path) := by
  have valid := validText_of_lstat found
  rw [← encode_joinPath]
  intro isNul
  have isNul := (Utf8.mem_encode_single 0 (by decide)).mp isNul
  obtain ⟨name, isName, inName⟩ := (mem_joinPath (by decide)).mp isNul
  exact (valid name isName).noNul inName

/-- The seconds of a time after 1970. -/
theorem seconds_eq {time : Timestamp} (after : 0 ≤ time.total) :
    time.total.tdiv 1000000000 = (time.seconds.toInt.toNat : Int) ∧
      0 ≤ time.seconds.toInt := by
  have below := time.below
  rw [Int.tdiv_eq_ediv_of_nonneg after]
  rw [Timestamp.total] at after ⊢
  omega

theorem Reads.length {input : HeaderInput} {seconds : Nat} {header : Bytes}
    {block : Ustar.Block} (reads : Reads input seconds header block) :
    header.length = 512 := by
  rw [reads.encoded, reads.fine.sized.length_encode]
  rfl

/-- A header of its own is read as a member without bytes. -/
theorem members_header {input : HeaderInput} {seconds : Nat} {header : Bytes}
    {block : Ustar.Block} {kind : Ustar.Kind} {bytes after : Bytes}
    (reads : Reads input seconds header block)
    (noNul : 0 ∉ Utf8.encode input.name)
    (isKind : Ustar.takeKind block input.size bytes = some (kind, after))
    (fuel : Nat) :
    Ustar.members (fuel + 1) (header ++ bytes) =
      (Ustar.members fuel after).map ({
        path := Utf8.encode input.name, mode := input.mode &&& 0o7777
        size := input.size, mtime := seconds, kind } :: ·) := by
  rw [reads.encoded, Ustar.members_cons reads.fine isKind, reads.path noNul]

/-- The chunks of an entry are read as one member, which tells what stands at
its path. -/
structure Readable (fs : FileSystem) (root : Location) (earlier : Earlier)
    (entry : TreeEntry) (own : List Chunk) (next : Table Nat Text)
    (member : Ustar.Member) : Prop where
  some : 0 < (own.flatMap Chunk.bytes).length
  read : ∀ fuel after, Ustar.members (fuel + 1)
    (own.flatMap Chunk.bytes ++ after) =
      (Ustar.members fuel after).map (member :: ·)
  tells : Tells fs root earlier (encodePath entry.path) entry.stats member
  known : Known fs root (earlier ++ [(encodePath entry.path, member)]) next

/-- The bytes of a file come from its blocks, and its last block is filled. -/
theorem flatMap_blocks (content : Bytes) (file : List Text) :
    (((readBlocks content content.length content.length 0).map
      (Chunk.view file)) ++
        if 0 < (512 - content.length % 512) % 512 then
          [Chunk.own (List.replicate ((512 - content.length % 512) % 512) 0)]
        else []).flatMap Chunk.bytes =
      content ++ Ustar.zeros (Ustar.filler content.length) := by
  have blocks : ((readBlocks content content.length content.length 0).map
      (Chunk.view file)).flatMap Chunk.bytes = content := by
    rw [List.flatMap_map]
    change List.flatMap id _ = content
    rw [List.flatMap_id, Cfs.flatten_readBlocks (by omega), List.drop_zero]
  rw [List.flatMap_append, blocks]
  congr 1
  split
  case isTrue => exact List.flatMap_singleton _ _
  case isFalse exact =>
    have none : Ustar.filler content.length = 0 := Nat.eq_zero_of_not_pos exact
    rw [none]
    rfl

theorem readable_file {inode : Nat} {next : Table Nat Text}
    {mode seconds : Nat} {mtime : Int} {own : List Chunk}
    (found : fs.lstat (encodePath (tree ++ entry.path)) = some entry.stats)
    (isFile : entry.stats.node = .file inode)
    (isMode : mode = entry.stats.mode &&& 0o7777)
    (isTime : mtime = seconds)
    (isSeconds : (seconds : Int) = entry.stats.mtime.seconds.toInt)
    (isFirst : ∀ first ∈ earlier,
      fs.node (encodePath tree ++ first.1) ≠ some (.file inode))
    (known : ∀ member : Ustar.Member,
      member.kind = .file (fs.content inode) →
      member.path = Utf8.encode (joinPath entry.path) →
      Known fs (encodePath tree)
        (earlier ++ [(encodePath entry.path, member)]) next)
    (isOwn : fileChunks fs inode mode mtime entry = .ok own) :
    ∃ member, Readable fs (encodePath tree) earlier entry own next member := by
  have noNul := noNul_joinPath found
  rw [← encode_joinPath] at noNul
  simp only [fileChunks, bind_eq_ok_iff, guard_eq_ok_iff, pure_eq_ok_iff]
    at isOwn
  obtain ⟨header, isHeader, -, rfl⟩ := isOwn
  obtain ⟨block, reads⟩ := reads_of_tarHeader isTime isHeader
  have isBytes := flatMap_blocks (fs.content inode) entry.path
  have masked : mode &&& 0o7777 = entry.stats.mode &&& 0o7777 := by
    rw [isMode, Nat.and_assoc, Nat.and_self]
  refine ⟨{
    path := Utf8.encode (joinPath entry.path)
    mode := mode &&& 0o7777
    size := (fs.content inode).length
    mtime := seconds
    kind := .file (fs.content inode) }, ?_, fun fuel after => ?_, ?_,
    known _ rfl rfl⟩
  · rw [List.flatMap_cons, List.length_append, Chunk.bytes, reads.length]
    omega
  · rw [List.flatMap_cons, isBytes, List.append_assoc, List.append_assoc]
    apply members_header reads noNul
    exact Ustar.takeKind_file reads.typeflag _ _
  · have isDirectory : entry.stats.node.isDirectory = false := by
      rw [isFile]
      rfl
    rw [encodePath_append] at found
    refine ⟨found, ?_, masked, isSeconds, ?_⟩
    · rw [isDirectory, encode_joinPath]
      exact (List.append_nil _).symm
    · rw [isFile]
      exact .inl ⟨isFirst, rfl, rfl⟩

/-- An entry of one header. -/
theorem readable_header {input : HeaderInput} {seconds : Nat} {header : Bytes}
    {block : Ustar.Block} {kind : Ustar.Kind} {next : Table Nat Text}
    {ending : List UInt8}
    (found : fs.lstat (encodePath (tree ++ entry.path)) = some entry.stats)
    (reads : Reads input seconds header block)
    (isName : Utf8.encode input.name =
      pathBytes (encodePath entry.path) ++ ending)
    (isEnding : ending = if entry.stats.node.isDirectory then [slash] else [])
    (isMode : input.mode = entry.stats.mode &&& 0o7777)
    (isSize : input.size = 0)
    (isSeconds : (seconds : Int) = entry.stats.mtime.seconds.toInt)
    (isKind : ∀ after, Ustar.takeKind block 0 after = some (kind, after))
    (tells : ∀ member : Ustar.Member, member.kind = kind → member.size = 0 →
      TellsKind fs (encodePath tree) earlier entry.stats.node member)
    (known : ∀ member : Ustar.Member,
      Known fs (encodePath tree)
        (earlier ++ [(encodePath entry.path, member)]) next) :
    ∃ member, Readable fs (encodePath tree) earlier entry [.own header] next
      member := by
  have noNul : 0 ∉ Utf8.encode input.name := by
    rw [isName, List.mem_append, not_or]
    refine ⟨noNul_joinPath found, ?_⟩
    rw [isEnding]
    split
    · decide
    · exact List.not_mem_nil
  refine ⟨{
    path := Utf8.encode input.name
    mode := input.mode &&& 0o7777
    size := input.size
    mtime := seconds
    kind }, ?_, fun fuel after => ?_, ?_, known _⟩
  · rw [List.flatMap_singleton, Chunk.bytes, reads.length]
    decide
  · rw [List.flatMap_singleton]
    apply members_header reads noNul
    rw [isSize]
    exact isKind after
  · rw [encodePath_append] at found
    refine ⟨found, ?_, ?_, isSeconds, tells _ rfl isSize⟩
    · rw [isName, isEnding]
    · rw [isMode, Nat.and_assoc, Nat.and_self]

theorem readable_entry {own : List Chunk} {next : Table Nat Text}
    (plain : Plain fs (encodePath tree)) (notRoot : entry.path ≠ [])
    (found : fs.lstat (encodePath (tree ++ entry.path)) = some entry.stats)
    (distinct : ∀ first ∈ earlier, first.1 ≠ encodePath entry.path)
    (known : Known fs (encodePath tree) earlier hardLinks)
    (isOwn : entryChunks fs hardLinks entry = .ok (own, next)) :
    ∃ member,
      Readable fs (encodePath tree) earlier entry own next member := by
  have below := found
  rw [encodePath_append] at below
  have isNode := node_of_lstat below
  obtain ⟨isTime, positive⟩ := seconds_eq (plain.timed _ _
    (mt List.map_eq_nil_iff.mp notRoot) below)
  have isSeconds := Int.toNat_of_nonneg positive
  have name : Utf8.encode (joinPath entry.path) =
      pathBytes (encodePath entry.path) := encode_joinPath entry.path
  have skip (noFile : ∀ inode, entry.stats.node ≠ .file inode)
      (member : Ustar.Member) : Known fs (encodePath tree)
        (earlier ++ [(encodePath entry.path, member)]) hardLinks := by
    apply known.skip
    intro inode _ _ isFile
    exact noFile inode (Option.some.inj (isNode.symm.trans isFile))
  rw [entryChunks] at isOwn
  cases isKind : entry.stats.node with
  | directory mode time =>
      simp only [isKind, bind_eq_ok_iff, pure_eq_ok_iff, Prod.mk.injEq]
        at isOwn
      obtain ⟨header, isHeader, rfl, rfl⟩ := isOwn
      obtain ⟨block, reads⟩ := reads_of_tarHeader isTime isHeader
      apply readable_header found reads _ rfl rfl rfl isSeconds
        (Ustar.takeKind_directory reads.typeflag · 0)
      · intro member isDirectory isEmpty
        rw [isKind]
        exact ⟨isDirectory, isEmpty⟩
      · exact skip (by simp [isKind])
      · rw [Utf8.encode_append, name, isKind]
        rfl
  | symlink target time =>
      simp only [isKind, bind_eq_ok_iff, pure_eq_ok_iff, Prod.mk.injEq]
        at isOwn
      obtain ⟨header, isHeader, rfl, rfl⟩ := isOwn
      obtain ⟨block, reads⟩ := reads_of_tarHeader isTime isHeader
      rw [isKind] at isNode
      obtain ⟨text, rfl⟩ := plain.targets _ _ _ isNode
      have noNul : 0 ∉ Utf8.encode text := (fs.fits _ _ isNode).2
      have isTarget : Ustar.text block.linkName = Utf8.encode text := by
        have link := reads.linkName
        rw [Utf8.decodeLossy_encode] at link
        exact link noNul
      apply readable_header found reads _ rfl rfl rfl isSeconds
        (Ustar.takeKind_symlink reads.typeflag · 0)
      · intro member isLink isEmpty
        rw [isKind, TellsKind, isLink, isTarget]
        exact ⟨rfl, isEmpty⟩
      · exact skip (by simp [isKind])
      · rw [name, isKind]
        exact (List.append_nil _).symm
  | file inode =>
      rw [isKind] at isOwn isNode
      dsimp only at isOwn
      cases isPrior : if 1 < fs.nlink inode then hardLinks.lookup inode
          else none with
      | some linkName =>
          simp only [isPrior, bind_eq_ok_iff, pure_eq_ok_iff, Prod.mk.injEq]
            at isOwn
          obtain ⟨header, isHeader, rfl, rfl⟩ := isOwn
          obtain ⟨block, reads⟩ := reads_of_tarHeader isTime isHeader
          obtain ⟨several, isPrior⟩ :=
            (Option.ite_none_right_eq_some ..).mp isPrior
          obtain ⟨noNul, first, isFirst, isSame, isFile, isPath⟩ :=
            known.found inode linkName several isPrior
          apply readable_header found reads _ rfl rfl rfl isSeconds
            (Ustar.takeKind_hardLink reads.typeflag · 0)
          · intro member isLink isEmpty
            rw [isKind, TellsKind, isLink, reads.linkName noNul, ← isPath]
            exact .inr ⟨first, isFirst, isSame, isFile, rfl, isEmpty⟩
          · intro member
            apply known.skip
            intro other _ isNone isOther
            cases isNode.symm.trans isOther
            rw [isPrior] at isNone
            cases isNone
          · rw [name, isKind]
            exact (List.append_nil _).symm
      | none =>
          simp only [isPrior, bind_eq_ok_iff, pure_eq_ok_iff, Prod.mk.injEq]
            at isOwn
          obtain ⟨own, isOwn, rfl, rfl⟩ := isOwn
          have isFirst : ∀ first ∈ earlier,
              fs.node (encodePath tree ++ first.1) ≠ some (.file inode) := by
            intro first isEarlier isSame
            have several : 1 < fs.nlink inode :=
              one_lt_nlink (mt List.append_cancel_left
                (distinct first isEarlier)) isSame isNode
            rw [if_pos several] at isPrior
            exact known.absent inode several isPrior first isEarlier isSame
          apply readable_file found isKind rfl isTime isSeconds isFirst _ isOwn
          intro member isFile isPath
          split
          case isTrue several =>
            apply known.insert isNode isFile isPath
            rw [name]
            exact noNul_joinPath found
          case isFalse single =>
            apply known.skip
            intro other several _ isOther
            cases isNode.symm.trans isOther
            exact single several
  | other mode time =>
      rw [isKind] at isOwn
      cases isOwn

end Entries

/-! ## The whole archive -/

section Archive

variable {tree : List Text}

theorem recovers_chunksFrom {entries : List TreeEntry} {stream : List Chunk}
    (plain : Plain fs (encodePath tree))
    (described : ∀ entry ∈ entries, entry.path ≠ [] ∧
      fs.lstat (encodePath (tree ++ entry.path)) = some entry.stats)
    (distinct : (earlier.map Prod.fst ++
      entries.map fun entry => encodePath entry.path).Nodup)
    (known : Known fs (encodePath tree) earlier hardLinks)
    (isStream : chunksFrom fs hardLinks entries = .ok stream) :
    entries.length < (stream.flatMap Chunk.bytes).length ∧
      ∃ members, Recovers fs (encodePath tree) earlier
          (entries.map fun entry => encodePath entry.path) members ∧
        ∀ fuel, entries.length < fuel →
          Ustar.members fuel (stream.flatMap Chunk.bytes) = some members := by
  induction entries generalizing earlier hardLinks stream with
  | nil =>
      cases isStream
      rw [List.flatMap_singleton, Chunk.bytes, List.length_replicate]
      refine ⟨by decide, [], .nil, fun fuel enough => ?_⟩
      obtain ⟨fuel, rfl⟩ := Nat.exists_eq_succ_of_ne_zero
        (Nat.ne_of_gt enough)
      exact Ustar.members_end fuel
  | cons entry entries induction =>
      rw [chunksFrom, bind_eq_ok_iff] at isStream
      obtain ⟨⟨own, next⟩, isOwn, isLater⟩ := isStream
      obtain ⟨rest, isRest, same⟩ := bind_eq_ok_iff.mp isLater
      cases same
      obtain ⟨⟨notRoot, found⟩, others⟩ := List.forall_mem_cons.mp described
      rw [List.map_cons, List.append_cons] at distinct
      have new : ∀ first ∈ earlier, first.1 ≠ encodePath entry.path := by
        intro first isFirst same
        have front := (List.nodup_append.mp distinct).1
        apply (List.nodup_append.mp front).2.2 _
          (List.mem_map_of_mem isFirst) _ (List.mem_singleton_self _) same
      obtain ⟨member, readable⟩ :=
        readable_entry plain notRoot found new known isOwn
      obtain ⟨counted, members, recovers, read⟩ := induction others
        (by rwa [List.map_append]) readable.known isRest
      have some := readable.some
      rw [List.flatMap_append, List.length_append, List.length_cons]
      refine ⟨by omega, member :: members, .cons readable.tells recovers, ?_⟩
      intro fuel enough
      obtain ⟨fuel, rfl⟩ := Nat.exists_eq_succ_of_ne_zero
        (show fuel ≠ 0 by omega)
      rw [readable.read, read fuel (by omega)]
      rfl

theorem permits_validatePath : Permits validatePath := by
  intro path some valid
  have noSlash : ∀ name ∈ path, '/' ∉ name := fun name member =>
    (valid name member).noSlash
  have isSafe := unsafePath_eq_false_iff.mpr (by
    rwa [splitOn_joinPath some noSlash])
  rw [validatePath, isSafe.1]
  rfl

/-- A complete archive is read back as the tree. -/
theorem archive_recovers {stream : List Chunk}
    (plain : Plain fs (encodePath tree))
    (completes : chunks fs tree = .ok stream) :
    ∃ members, Ustar.read (stream.flatMap Chunk.bytes) = some members ∧
      Recovers fs (encodePath tree) [] (fs.paths (encodePath tree)) members := by
  obtain ⟨entries, collected, paths, found⟩ :=
    collectWith_eq_ok permits_validatePath plain.named
  obtain ⟨others, isOthers, isStream⟩ := bind_eq_ok_iff.mp completes
  cases collected.symm.trans isOthers
  have below := (grown_collectWith collected).1.below
  obtain ⟨counted, members, recovers, read⟩ := recovers_chunksFrom plain
    (fun entry member => ⟨(below entry member).2, found entry member⟩)
    (by rw [paths]; exact nodup_paths) .empty isStream
  rw [paths] at recovers
  exact ⟨members, read _ (by omega), recovers⟩

end Archive

/-- A target that comes back from its text. -/
def textTarget : Node → Bool
  | .symlink target _ => Utf8.encode (Utf8.decodeLossy target) = target
  | _ => true

/-- The locations of a file system can be gone through. -/
theorem plain_of_listing
    (names : ∀ location ∈ fs.listing, ∀ name ∈ location,
      Utf8.encode (Utf8.decodeLossy name) = name)
    (targets : ∀ location ∈ fs.listing, (fs.node location).all textTarget)
    (times : ∀ location ∈ fs.listing, (fs.lstat location).all fun stats =>
      0 ≤ stats.mtime.total) : Plain fs root where
  named path isPresent name member :=
    ⟨_, (names _ (fs.listed _ isPresent) name
      (List.mem_append_right _ member)).symm⟩
  targets path target time isLink := by
    have isText := targets (root ++ path) (fs.listed _ (by
      rw [isLink]
      rfl))
    rw [isLink, Option.all_some, textTarget, decide_eq_true_eq] at isText
    exact ⟨_, isText.symm⟩
  timed path stats _ found := by
    have isSome : (fs.node (root ++ path)).isSome = true := by
      rw [node_of_lstat found]
      rfl
    have after := times _ (fs.listed _ isSome)
    rwa [found, Option.all_some, decide_eq_true_eq] at after

/-- A directory `d`, a file `d/f` with a further name `g`, and a link `l` to
`d`. -/
private def sample : FileSystem :=
  let first := (FileSystem.bare 0o755 (.whole 0)).place [] [100]
    (.directory 0o755 (.whole 0)) [] (by decide) trivial
  let second := first.place [[100]] [102] (.file 0)
    [{ mode := 0o644, mtime := .whole 1, content := [7] }] (by decide)
      Nat.one_pos
  let third := second.place [] [103] (.file 0) [] (by decide) Nat.one_pos
  third.place [] [108] (.symlink [100] (.whole 2)) [] (by decide) (by decide)

theorem archive_recovers_sample :
    ∃ stream members, chunks sample [] = .ok stream ∧
      Ustar.read (stream.flatMap Chunk.bytes) = some members ∧
      Recovers sample (encodePath []) [] (sample.paths (encodePath []))
        members := by
  have plain : Plain sample (encodePath []) :=
    plain_of_listing (by decide +kernel) (by decide +kernel)
      (by decide +kernel)
  have completes : (chunks sample []).isOk = true := by decide +kernel
  cases isStream : chunks sample [] with
  | error thrown =>
      rw [isStream] at completes
      cases completes
  | ok stream =>
      obtain ⟨members, read, recovers⟩ := archive_recovers plain isStream
      exact ⟨stream, members, rfl, read, recovers⟩

end Electrosphere.Tar
