import Electrosphere.Agent.SnapshotFidelity
import Electrosphere.Storage.CfsRecords

/-!
# The two exporters compared

On a tree with ordinary names and times the guest and the daemon know the same
of every entry.  They part over symbolic links: the guest rejects every target
that names a parent, the daemon only those that lead out of the workspace.
-/

namespace Electrosphere.Cfs

open Foundation FileSystem Workspace
open Agent.Snapshot (Observation exportWorkspaceFile guest)

/-- The first second of the year 2500. -/
def year2500 : Int := 16725225600

/-- Names are valid UTF-8 without backslashes, and times lie between 1970 and
2500. -/
structure Ordinary (fs : FileSystem) (root : List Text) : Prop where
  named : ∀ path, fs.present (encodePath root) path = true →
    ∀ name ∈ path, ∃ text : Text, name = Utf8.encode text ∧ '\\' ∉ text
  timed : ∀ path stats, path ≠ [] →
    fs.lstat (encodePath root ++ path) = some stats →
    0 ≤ stats.mtime.total ∧ stats.mtime.total < year2500 * 1000000000

/-- Files keep their contents while they are exported. -/
def Still (fs : FileSystem) (root : Location)
    (observe : List Name → Observation) : Prop :=
  ∀ path inode, fs.node (root ++ path) = some (.file inode) →
    (observe path).length = (fs.content inode).length ∧
      (observe path).reads.flatten = fs.content inode

/-- The entries of a tree in the order of their paths. -/
def listing (fs : FileSystem) (root : List Text) : List TreeEntry :=
  (fs.paths (encodePath root)).filterMap fun path =>
    (fs.lstat (encodePath root ++ path)).map fun stats =>
      { path := path.map Utf8.decodeLossy, stats }

/-- The bytes behind the header of an entry. -/
def payloadBytes (fs : FileSystem) (before : List TreeEntry)
    (entry : TreeEntry) : Nat :=
  match entry.stats.node with
  | .directory _ _ => 0
  | .symlink target _ => (Utf8.encode (Utf8.decodeLossy target)).length
  | .file inode =>
      match if 1 < fs.nlink inode then
          before.find? fun held => held.stats.node = .file inode
        else none with
      | some first => (Utf8.encode (joinPath first.path)).length
      | none => (fs.content inode).length
  | .other _ _ => 0

/-- The bytes that some entries take after others. -/
def treeBytes (fs : FileSystem) : List TreeEntry → List TreeEntry → Nat
  | _, [] => 0
  | before, entry :: rest =>
      (Utf8.encode (joinPath entry.path)).length + 25 +
        payloadBytes fs before entry + treeBytes fs (before ++ [entry]) rest

/-- A tree of directories, files and links that lead nowhere outside, without
`setuid` and `setgid` and within the limits on sizes. -/
structure Exportable (fs : FileSystem) (root : List Text) : Prop where
  directory : fs.isDirectory (encodePath root) = true
  mode : ∀ entry ∈ listing fs root,
    entry.stats.mode &&& 0o7777 &&& 0o6000 = 0
  target : ∀ entry ∈ listing fs root, ∀ target time,
    entry.stats.node = .symlink target time →
    targetLeaves root entry.path (Utf8.decodeLossy target) = false
  size : ∀ entry ∈ listing fs root, ∀ inode,
    entry.stats.node = .file inode →
    (fs.content inode).length ≤ maxFileBytes
  kind : ∀ entry ∈ listing fs root, ∀ mode time,
    entry.stats.node ≠ .other mode time
  total : magic.length + treeBytes fs [] (listing fs root) ≤ maxTreeBytes

/-- The target of some symbolic link names a parent. -/
def NamesParent (fs : FileSystem) (root : List Text) : Prop :=
  ∃ path target time,
    fs.node (encodePath root ++ path) = some (.symlink target time) ∧
      up ∈ components target

/-- Both reject the tree, or both accept it with the same bytes. -/
def Agree (guestResult : Except String Bytes)
    (hostResult : Except Thrown Bytes) : Prop :=
  (∃ bytes, guestResult = .ok bytes ∧ hostResult = .ok bytes) ∨
    (∃ message thrown, guestResult = .error message ∧
      hostResult = .error thrown)

variable {fs : FileSystem} {root : List Text} {entry : TreeEntry}
  {observe : List Name → Observation}

theorem Ordinary.utf8 (ordinary : Ordinary fs root) :
    Utf8Names fs (encodePath root) := by
  intro path isPresent name member
  obtain ⟨text, isText, -⟩ := ordinary.named path isPresent name member
  exact ⟨text, isText⟩

theorem collectEntries_eq (utf8 : Utf8Names fs (encodePath root)) :
    collectEntries fs root = .ok (listing fs root) := by
  obtain ⟨entries, collected, paths, described⟩ :=
    collectWith_eq_ok permits_validateRelativePath utf8
  have same : listing fs root = entries := by
    rw [listing, ← paths, List.filterMap_map]
    conv_rhs => rw [← List.filterMap_some (l := entries)]
    apply List.filterMap_congr
    intro entry member
    have found := described entry member
    rw [encodePath_append] at found
    have decoded : (encodePath entry.path).map Utf8.decodeLossy =
        entry.path := by
      rw [encodePath, List.map_map]
      refine (List.map_congr_left fun name _ => ?_).trans (List.map_id _)
      exact Utf8.decodeLossy_encode name
    rw [Function.comp_apply, found, Option.map_some, decoded]
  rw [collectEntries, collected, same]

theorem mem_listing (utf8 : Utf8Names fs (encodePath root))
    (member : entry ∈ listing fs root) :
    fs.lstat (encodePath root ++ encodePath entry.path) = some entry.stats ∧
      entry.path ≠ [] := by
  have collected := collectEntries_eq utf8
  have grown := (grown_collectWith collected).1
  have described := grown.described entry member
  rw [encodePath_append] at described
  exact ⟨described, (grown.below entry member).2⟩

theorem listing_map (utf8 : Utf8Names fs (encodePath root)) :
    (listing fs root).map (fun entry => encodePath entry.path) =
      fs.paths (encodePath root) := by
  obtain ⟨entries, collected, paths, -⟩ :=
    collectWith_eq_ok permits_validateRelativePath utf8
  cases (collectEntries_eq utf8).symm.trans collected
  exact paths

/-! ## Links without parents -/

theorem foldl_resolveStep {parts stack : List Text}
    (noParent : ['.', '.'] ∉ parts) :
    stack <+: parts.foldl resolveStep stack := by
  induction parts generalizing stack with
  | nil => exact List.prefix_refl stack
  | cons part parts induction =>
      obtain ⟨notParent, later⟩ := not_or.mp (mt List.mem_cons.mpr noParent)
      refine List.IsPrefix.trans ?_ (induction later)
      rw [resolveStep]
      split
      · exact List.prefix_refl stack
      · rw [if_neg fun same => notParent same.symm]
        exact List.prefix_append _ _

theorem up_mem_components_iff {target : Bytes} :
    ['.', '.'] ∈ (Utf8.decodeLossy target).splitOn '/' ↔
      up ∈ components target := by
  have single : slash.toNat ≤ 0x7F := by decide
  have split := Utf8.splitOn_decodeLossy single target
  have narrow : ∀ letter ∈ ['.', '.'], ¬ Utf8.Wide letter := by
    simp [Utf8.Wide]
  change (Utf8.decodeLossy target).splitOn '/' = _ at split
  rw [split, components, List.mem_map]
  constructor
  · rintro ⟨part, member, decoded⟩
    rwa [Utf8.eq_encode_of_decodeLossy narrow decoded] at member
  · intro member
    exact ⟨up, member, by decide⟩

theorem isAbsolute_decodeLossy_iff {target : Bytes} :
    (Utf8.decodeLossy target).head? = some '/' ↔
      target.head? = some slash := by
  have single : slash.toNat ≤ 0x7F := by decide
  exact Utf8.head_decodeLossy_single single

/-- A relative target without parents stays where it is. -/
theorem targetLeaves_of_noParent {parent : List Text} {workspace : Text}
    {path : List Text} {target : Bytes}
    (relative : target.head? ≠ some slash) (noParent : up ∉ components target) :
    targetLeaves (parent ++ [workspace]) path (Utf8.decodeLossy target) =
      false := by
  have relative := mt isAbsolute_decodeLossy_iff.mp relative
  have noParent := mt up_mem_components_iff.mp noParent
  have stays : parent ++ [workspace] <+:
      Workspace.resolve (parent ++ [workspace] ++ path.dropLast)
        (Utf8.decodeLossy target) := by
    rw [Workspace.resolve, if_neg relative]
    exact (List.prefix_append _ _).trans (foldl_resolveStep noParent)
  rw [targetLeaves, decide_eq_false_iff_not, not_or]
  refine ⟨relative, ?_⟩
  rw [Bool.not_eq_false, inside, decide_eq_true_eq]
  exact .inr ⟨by simp, stays⟩

/-! ## What both know of an entry -/

section Entries

variable (ordinary : Ordinary fs root)
  (still : Still fs (encodePath root) observe)

include ordinary

theorem written_eq {path : List Text}
    (isPresent : fs.present (encodePath root) (encodePath path) = true) :
    Agent.Snapshot.written (encodePath path) = joinPath path := by
  have noBackslash : '\\' ∉ joinPath path := by
    intro member
    obtain ⟨name, isName, inName⟩ := (mem_joinPath (by decide)).mp member
    obtain ⟨text, same, absent⟩ := ordinary.named _ isPresent
      (Utf8.encode name) (List.mem_map_of_mem isName)
    exact absent (Utf8.encode_injective same ▸ inName)
  rw [Agent.Snapshot.written, ← encode_joinPath, Utf8.decodeLossy_encode]
  refine (List.map_congr_left fun letter member => ?_).trans (List.map_id _)
  apply if_neg
  rintro rfl
  exact noBackslash member

theorem time_eq (member : entry ∈ listing fs root) :
    (Agent.Snapshot.mtimeNs entry.stats.mtime).toNat =
        (roundedMtimeNs entry.stats.mtime).toNat ∧
      0 ≤ roundedMtimeNs entry.stats.mtime ∧
      roundedMtimeNs entry.stats.mtime < 2 ^ 64 := by
  obtain ⟨found, notRoot⟩ := mem_listing ordinary.utf8 member
  obtain ⟨early, late⟩ := ordinary.timed _ _ (by
    intro isEmpty
    exact notRoot (List.map_eq_nil_iff.mp isEmpty)) found
  have wrapped := Agent.Snapshot.mtimeNs_eq entry.stats.mtime
  rw [year2500] at late
  rw [roundedMtimeNs, Int.tdiv_eq_ediv_of_nonneg (by omega)]
  omega

include still

theorem alike_subject (member : entry ∈ listing fs root) :
    ∃ found, Agent.Snapshot.subject fs (encodePath root) observe
        (encodePath entry.path) = some found ∧
      found.Alike (hostSubject fs entry) := by
  obtain ⟨found, -⟩ := mem_listing ordinary.utf8 member
  refine ⟨_, by rw [Agent.Snapshot.subject, found, Option.map_some], ?_⟩
  have isNode := node_of_lstat found
  constructor
  · apply written_eq ordinary
    rw [present, isNode]
    rfl
  · rfl
  · exact (time_eq ordinary member).1
  · intro inode isName
    rw [Subject.inode] at isName
    split at isName
    · rename_i isFile
      cases isName
      dsimp only at isFile
      rw [isFile] at isNode
      rw [hostSubject, isFile]
      exact still _ _ isNode
    · cases isName

/-- Without parents in targets both take the same entries. -/
theorem accepts_iff {parent : List Text} {workspace : Text}
    (isRoot : root = parent ++ [workspace])
    (member : entry ∈ listing fs root)
    (noParent : ∀ target time, entry.stats.node = .symlink target time →
      up ∉ components target)
    (short : (Utf8.encode (joinPath entry.path)).length < 2 ^ 32) :
    (guest fs (encodePath root) observe).Accepts (encodePath entry.path) ↔
      HostAccepts fs root entry := by
  obtain ⟨found, notRoot⟩ := mem_listing ordinary.utf8 member
  have isNode := node_of_lstat found
  have isPresent : fs.present (encodePath root) (encodePath entry.path) =
      true := by
    rw [present, isNode]
    rfl
  have lengths : ∀ inode, entry.stats.node = .file inode →
      (observe (encodePath entry.path)).length =
        (fs.content inode).length := by
    intro inode isFile
    rw [isFile] at isNode
    exact (still _ _ isNode).1
  have targets : ∀ target time, entry.stats.node = .symlink target time →
      (Agent.Snapshot.targetEscapes target = false ↔
        targetLeaves root entry.path (Utf8.decodeLossy target) = false) := by
    intro target time isLink
    have stays := noParent target time isLink
    rw [Agent.Snapshot.targetEscapes, decide_eq_false_iff_not, not_or,
      and_iff_left stays]
    constructor
    · intro relative
      rw [isRoot]
      exact targetLeaves_of_noParent relative stays
    · intro within absolute
      rw [targetLeaves, decide_eq_false_iff_not, not_or] at within
      exact within.1 (isAbsolute_decodeLossy_iff.mpr absolute)
  constructor
  · rintro ⟨stats, isStats, accepts⟩
    obtain rfl : entry.stats = stats := Option.some.inj (found.symm.trans isStats)
    refine ⟨⟨short, (time_eq ordinary member).2.1,
      (time_eq ordinary member).2.2⟩, accepts.mode, ?_, ?_, accepts.kind⟩
    · intro target time isLink
      exact (targets target time isLink).mp (accepts.target target time isLink)
    · intro inode isFile
      rw [← lengths inode isFile]
      exact accepts.length inode isFile
  · intro accepts
    have valid := validNames_of_present isPresent
    refine ⟨entry.stats, found, ⟨?_, ?_⟩, ⟨?_, ?_⟩, accepts.mode, ?_, ?_,
      accepts.kind⟩
    · intro isUp
      exact (valid up isUp).notUp rfl
    · intro isHere
      exact (valid here isHere).notHere rfl
    · rw [written_eq ordinary isPresent]
      intro isEmpty
      have split := splitOn_joinPath notRoot fun name isName =>
        ValidText.noSlash (valid _ (List.mem_map_of_mem isName))
      rw [isEmpty, List.splitOn_nil] at split
      have isEmpty : ([] : Text) ∈ entry.path := by
        rw [← split]
        exact List.mem_singleton_self _
      exact (valid _ (List.mem_map_of_mem isEmpty)).notEmpty rfl
    · rw [written_eq ordinary isPresent, mem_joinPath (by decide)]
      rintro ⟨name, isName, inName⟩
      exact ValidText.noNul (valid _ (List.mem_map_of_mem isName)) inName
    · intro target time isLink
      exact (targets target time isLink).mpr (accepts.target target time isLink)
    · intro inode isFile
      rw [lengths inode isFile]
      exact accepts.size inode isFile

end Entries

/-! ## Sizes -/

theorem length_payload (before : List TreeEntry) :
    ((hostSubject fs entry).piece fs.nlink
      (before.map (hostSubject fs))).payload.length =
        payloadBytes fs before entry := by
  have same : (hostSubject fs entry).stats = entry.stats := rfl
  rw [Subject.piece, payloadBytes, same]
  cases isNode : entry.stats.node with
  | directory mode time => rfl
  | symlink target time => rfl
  | other mode time => rfl
  | file inode =>
      have originals : Subject.original fs.nlink
          (before.map (hostSubject fs)) inode =
          (if 1 < fs.nlink inode then
            before.find? fun held => held.stats.node = .file inode
          else none).map (hostSubject fs) := by
        rw [Subject.original, Subject.firstName, List.find?_map]
        split
        · congr 2
          funext held
          have stats : (hostSubject fs held).stats = held.stats := rfl
          rw [Function.comp_apply, Subject.inode, stats]
          cases held.stats.node <;> simp
        · rfl
      dsimp only
      rw [originals]
      split
      · rename_i first isFirst
        obtain ⟨held, isHeld, rfl⟩ := Option.map_eq_some_iff.mp isFirst
        rw [isHeld]
        rfl
      · rename_i isNone
        rw [Option.map_eq_none_iff.mp isNone, hostSubject, isNode]

theorem length_entries (before entries : List TreeEntry) :
    (((host fs root).entries (before.map (hostSubject fs)) entries).flatMap
      Entry.encode).length = treeBytes fs before entries := by
  induction entries generalizing before with
  | nil => rfl
  | cons entry entries induction =>
      have later := induction (before ++ [entry])
      rw [List.map_append] at later
      have step : (host fs root).entries (before.map (hostSubject fs))
          (entry :: entries) =
          ((hostSubject fs entry).piece fs.nlink
            (before.map (hostSubject fs))).entry ::
            (host fs root).entries
              (before.map (hostSubject fs) ++ [hostSubject fs entry])
              entries := rfl
      rw [step, List.flatMap_cons, List.length_append, Entry.length_encode,
        treeBytes, ← later, ← length_payload, Piece.entry, Header.entry,
        Subject.path_piece]
      rfl

theorem path_le_treeBytes {before entries : List TreeEntry}
    (member : entry ∈ entries) :
    (Utf8.encode (joinPath entry.path)).length ≤
      treeBytes fs before entries := by
  induction entries generalizing before with
  | nil => cases member
  | cons first rest induction =>
      rw [treeBytes]
      cases List.mem_cons.mp member with
      | inl same =>
          subst same
          omega
      | inr later => exact (induction later).trans (Nat.le_add_left _ _)

/-! ## The two results -/

theorem exportable_iff (ordinary : Ordinary fs root) :
    (∃ bytes, exportCfs fs root = .ok bytes) ↔ Exportable fs root := by
  have counted : (archive ((host fs root).entries []
      (listing fs root))).length =
        magic.length + treeBytes fs [] (listing fs root) := by
    rw [archive, List.length_append]
    exact congrArg _ (length_entries [] (listing fs root))
  constructor
  · rintro ⟨bytes, exported⟩
    obtain ⟨directory, entries, collected, accepts, rfl, small⟩ :=
      exportCfs_eq_ok_iff.mp exported
    cases (collectEntries_eq ordinary.utf8).symm.trans collected
    exact {
      directory
      mode := fun entry member => (accepts entry member).mode
      target := fun entry member => (accepts entry member).target
      size := fun entry member => (accepts entry member).size
      kind := fun entry member => (accepts entry member).kind
      total := counted ▸ small }
  · intro exportable
    refine ⟨_, exportCfs_eq_ok_iff.mpr ⟨exportable.directory, _,
      collectEntries_eq ordinary.utf8, ?_, rfl, ?_⟩⟩
    · intro entry member
      have included : (Utf8.encode (joinPath entry.path)).length ≤
          treeBytes fs [] (listing fs root) := path_le_treeBytes member
      have fits := included.trans
        ((Nat.le_add_left _ _).trans exportable.total)
      obtain ⟨-, early, late⟩ := time_eq ordinary member
      exact {
        encodable := ⟨lt_of_le_of_lt fits (by decide), early, late⟩
        mode := exportable.mode entry member
        target := exportable.target entry member
        size := exportable.size entry member
        kind := exportable.kind entry member }
    · rw [counted]
      exact exportable.total

/-- The guest rejects every tree with such a link. -/
theorem rejects_of_namesParent {bytes : Bytes} (names : NamesParent fs root) :
    exportWorkspaceFile fs (encodePath root) observe ≠ .ok bytes := by
  intro exported
  obtain ⟨directory, pieces, isPieces, -⟩ :=
    Agent.Snapshot.exportWorkspaceFile_eq_ok_iff.mp exported
  obtain ⟨path, target, time, isLink, isParent⟩ := names
  have member : path ∈ fs.paths (encodePath root) := by
    apply mem_paths.mpr
    constructor
    · rintro rfl
      obtain ⟨mode, mtime, isDirectory⟩ := isDirectory_iff.mp directory
      rw [List.append_nil, isDirectory] at isLink
      cases isLink
    · rw [present, isLink]
      rfl
  obtain ⟨stats, isStats, accepts⟩ := isPieces.accepts path member
  have isNode := node_of_lstat isStats
  rw [isLink] at isNode
  have stays := accepts.target target time (Option.some.inj isNode).symm
  rw [Agent.Snapshot.targetEscapes, decide_eq_false_iff_not, not_or] at stays
  exact stays.2 isParent

/-- All other trees get the same bytes from both. -/
theorem same_of_noParent {parent : List Text} {workspace : Text}
    (isRoot : root = parent ++ [workspace]) (ordinary : Ordinary fs root)
    (still : Still fs (encodePath root) observe)
    (noParent : ¬ NamesParent fs root) (bytes : Bytes) :
    exportWorkspaceFile fs (encodePath root) observe = .ok bytes ↔
      exportCfs fs root = .ok bytes := by
  have targets : ∀ entry ∈ listing fs root, ∀ target time,
      entry.stats.node = .symlink target time → up ∉ components target := by
    intro entry member target time isLink isParent
    have isNode := node_of_lstat (mem_listing ordinary.utf8 member).1
    rw [isLink] at isNode
    exact noParent ⟨_, target, time, isNode, isParent⟩
  have archives : exportCfs fs root = .ok bytes ↔
      fs.isDirectory (encodePath root) = true ∧ ∃ pieces,
        (host fs root).Pieces [] (listing fs root) pieces ∧
        bytes = magic ++ pieces.flatMap Piece.bytes ∧
        bytes.length ≤ maxTreeBytes := by
    rw [exportCfs_eq_ok_iff]
    refine and_congr_right fun _ => ?_
    constructor
    · rintro ⟨entries, collected, accepts, rfl, small⟩
      cases (collectEntries_eq ordinary.utf8).symm.trans collected
      obtain ⟨pieces, isPieces⟩ : ∃ pieces,
          (host fs root).Pieces [] (listing fs root) pieces :=
        Exporter.Pieces.of_accepts (fun _ _ => rfl) accepts
      exact ⟨pieces, isPieces,
        (isPieces.flatMap_bytes (honest_host isPieces)).symm, small⟩
    · rintro ⟨pieces, isPieces, rfl, small⟩
      exact ⟨_, collectEntries_eq ordinary.utf8, isPieces.accepts,
        isPieces.flatMap_bytes (honest_host isPieces), small⟩
  have names : (guest fs (encodePath root) observe).nlink =
      (host fs root).nlink := rfl
  rw [archives, Agent.Snapshot.exportWorkspaceFile_eq_ok_iff,
    ← listing_map ordinary.utf8]
  refine and_congr_right fun _ => exists_congr fun pieces => ?_
  constructor
  · rintro ⟨isPieces, rfl, small⟩
    refine ⟨isPieces.transfer names .nil ?_, rfl, small⟩
    rw [List.forall₂_map_left_iff, List.forall₂_same]
    intro entry member
    obtain ⟨found, isFound, alike⟩ := alike_subject ordinary still member
    constructor
    · intro other isOther
      obtain rfl : found = other := Option.some.inj (isFound.symm.trans isOther)
      exact ⟨_, rfl, alike⟩
    · apply (accepts_iff ordinary still isRoot member
        (targets entry member) _).mp
      have fits := isPieces.written_le _ (List.mem_map_of_mem member) found
        isFound
      rw [alike.written] at fits
      rw [List.length_append] at small
      exact lt_of_le_of_lt fits (lt_of_le_of_lt ((Nat.le_add_left _ _).trans
        small) (by decide))
  · rintro ⟨isPieces, rfl, small⟩
    refine ⟨isPieces.transfer names.symm .nil ?_, rfl, small⟩
    rw [List.forall₂_map_right_iff, List.forall₂_same]
    intro entry member
    obtain ⟨found, isFound, alike⟩ := alike_subject ordinary still member
    constructor
    · intro other isOther
      cases isOther
      exact ⟨found, isFound, alike.symm⟩
    · intro accepts
      exact (accepts_iff ordinary still isRoot member (targets entry member)
        accepts.encodable.path).mpr accepts

/-- Reading files that stay as they are. -/
def observeStill (fs : FileSystem) (root : Location) (path : List Name) :
    Observation :=
  match fs.node (root ++ path) with
  | some (.file inode) =>
      { length := (fs.content inode).length, reads := [fs.content inode] }
  | _ => { length := 0, reads := [] }

theorem still_observeStill (fs : FileSystem) (root : Location) :
    Still fs root (observeStill fs root) := by
  intro path inode isFile
  simp [observeStill, isFile]

/-- The locations of a file system can be gone through. -/
theorem Ordinary.of_listing
    (names : ∀ location ∈ fs.listing, ∀ name ∈ location,
      Utf8.encode (Utf8.decodeLossy name) = name ∧
        '\\' ∉ Utf8.decodeLossy name)
    (times : ∀ location ∈ fs.listing, (fs.lstat location).all fun stats =>
      0 ≤ stats.mtime.total ∧ stats.mtime.total < year2500 * 1000000000) :
    Ordinary fs root where
  named path isPresent name member := by
    obtain ⟨isText, absent⟩ := names _ (fs.listed _ isPresent) name
      (List.mem_append_right _ member)
    exact ⟨_, isText.symm, absent⟩
  timed path stats _ found := by
    have isSome : (fs.node (encodePath root ++ path)).isSome = true := by
      rw [node_of_lstat found]
      rfl
    have within := times _ (fs.listed _ isSome)
    rw [found, Option.all_some, decide_eq_true_eq] at within
    exact within

/-- The exporters part exactly over the trees that the daemon takes and in
which a link names a parent. -/
theorem exporters_agree_iff {parent : List Text} {workspace : Text}
    (ordinary : Ordinary fs (parent ++ [workspace]))
    (still : Still fs (encodePath (parent ++ [workspace])) observe) :
    Agree
        (exportWorkspaceFile fs (encodePath (parent ++ [workspace])) observe)
        (exportCfs fs (parent ++ [workspace])) ↔
      ¬ (Exportable fs (parent ++ [workspace]) ∧
        NamesParent fs (parent ++ [workspace])) := by
  by_cases names : NamesParent fs (parent ++ [workspace])
  · rw [and_iff_left names, ← exportable_iff ordinary, Agree]
    constructor
    · rintro (⟨bytes, exported, -⟩ | ⟨_, thrown, -, rejected⟩)
      · exact absurd exported (rejects_of_namesParent names)
      · simp [rejected]
    · intro rejected
      right
      cases isGuest : exportWorkspaceFile fs
          (encodePath (parent ++ [workspace])) observe with
      | ok bytes => exact absurd isGuest (rejects_of_namesParent names)
      | error message =>
          cases isHost : exportCfs fs (parent ++ [workspace]) with
          | ok bytes => exact absurd ⟨bytes, isHost⟩ rejected
          | error thrown => exact ⟨message, thrown, rfl, rfl⟩
  · apply iff_of_true _ fun both => names both.2
    have same := same_of_noParent rfl ordinary still names
    cases isGuest : exportWorkspaceFile fs
        (encodePath (parent ++ [workspace])) observe with
    | ok bytes => exact .inl ⟨bytes, rfl, (same bytes).mp isGuest⟩
    | error message =>
        right
        cases isHost : exportCfs fs (parent ++ [workspace]) with
        | ok bytes =>
            rw [(same bytes).mpr isHost] at isGuest
            cases isGuest
        | error thrown => exact ⟨message, thrown, rfl, rfl⟩

private def midnight : Timestamp := .whole 0

/-- A workspace `w` with a directory `d` and a link `d/l` to `..`, which is the
workspace itself. -/
private def linked : FileSystem :=
  let top := (FileSystem.bare 0o755 midnight).place [] [119]
    (.directory 0o755 midnight) [] (by decide) trivial
  let inner := top.place [[119]] [100] (.directory 0o755 midnight) []
    (by decide) trivial
  inner.place [[119], [100]] [108] (.symlink up midnight) [] (by decide)
    (by decide)

private theorem ordinary_linked : Ordinary linked ([] ++ [['w']]) :=
  Ordinary.of_listing (by decide +kernel) (by decide +kernel)

theorem exporters_agree_linked :
    Agree
        (exportWorkspaceFile linked (encodePath ([] ++ [['w']]))
          (observeStill linked (encodePath ([] ++ [['w']]))))
        (exportCfs linked ([] ++ [['w']])) ↔
      ¬ (Exportable linked ([] ++ [['w']]) ∧
        NamesParent linked ([] ++ [['w']])) :=
  exporters_agree_iff ordinary_linked (still_observeStill _ _)

/-- The guest rejects what the daemon takes. -/
theorem exporters_differ :
    ∃ fs root observe, Ordinary fs root ∧
      Still fs (encodePath root) observe ∧ Exportable fs root ∧
      ¬ Agree (exportWorkspaceFile fs (encodePath root) observe)
        (exportCfs fs root) := by
  refine ⟨linked, [['w']], observeStill linked (encodePath [['w']]),
    ordinary_linked, still_observeStill _ _, ?_, ?_⟩
  · apply (exportable_iff ordinary_linked).mp
    have accepted : (exportCfs linked [['w']]).isOk = true := by
      decide +kernel
    cases isHost : exportCfs linked [['w']] with
    | ok bytes => exact ⟨bytes, isHost⟩
    | error thrown =>
        rw [isHost] at accepted
        cases accepted
  · have rejected : (exportWorkspaceFile linked (encodePath [['w']])
        (observeStill linked (encodePath [['w']]))).isOk = false := by
      decide +kernel
    have accepted : (exportCfs linked [['w']]).isOk = true := by
      decide +kernel
    rintro (⟨bytes, isGuest, -⟩ | ⟨message, thrown, -, isHost⟩)
    · rw [isGuest] at rejected
      cases rejected
    · rw [isHost] at accepted
      cases accepted

end Electrosphere.Cfs
