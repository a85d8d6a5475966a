import Electrosphere.Storage.RestoredTimes

/-!
# Digests under restore

A copy of a workspace is exported as the bytes that it has been restored from,
unless the copy has lost something that these bytes hold: the sticky bits, or
links that lead nowhere outside only where the workspace was.
-/

namespace Electrosphere.Cfs

open Foundation FileSystem Workspace

/-! ## The entries of a tree and those of its copy -/

/-- The entries at one place of a tree and of its copy. -/
structure Twin (time : Timestamp → Timestamp) (number : Nat → Nat)
    (subject twin : Subject) : Prop where
  written : twin.written = subject.written
  mode : twin.stats.mode = subject.stats.mode &&& 0o777
  mtime : twin.stats.mtime = time subject.stats.mtime
  mtimeNs : twin.mtimeNs = subject.mtimeNs
  length : twin.length = subject.length
  content : twin.content = subject.content
  node : Copied time number (some subject.stats.node) (some twin.stats.node)

section Twins

variable {time : Timestamp → Timestamp} {number : Nat → Nat}
  {subject twin first : Subject} {earlier earlierTwins : List Subject}
  {nlink twinLinks : Nat → Nat} {inode : Nat}

theorem Twin.inode_eq (isTwin : Twin time number subject twin) :
    twin.inode = subject.inode.map number := by
  have node := isTwin.node
  rw [Subject.inode, Subject.inode]
  generalize subject.stats.node = held at node
  generalize twin.stats.node = other at node
  cases node with
  | directory => rfl
  | file => rfl
  | symlink => rfl

/-- No two files of the tree have become one. -/
def Separate (number : Nat → Nat) (subjects : List Subject) : Prop :=
  ∀ first ∈ subjects, ∀ second ∈ subjects, ∀ inode other,
    first.inode = some inode → second.inode = some other →
      number inode = number other → inode = other

/-- The first names of a file come together. -/
theorem firstName_twins {subjects : List Subject}
    (separate : Separate number subjects)
    (twins : List.Forall₂ (Twin time number) earlier earlierTwins)
    (included : ∀ held ∈ earlier, held ∈ subjects)
    (member : subject ∈ subjects) (isName : subject.inode = some inode) :
    Option.Rel (Twin time number) (Subject.firstName earlier inode)
      (Subject.firstName earlierTwins (number inode)) := by
  induction twins with
  | nil => exact Option.Rel.none
  | @cons held heldTwin rest restTwins isTwin later induction =>
      obtain ⟨isHeld, areLater⟩ := List.forall_mem_cons.mp included
      rw [Subject.firstName, Subject.firstName, List.find?_cons,
        List.find?_cons]
      by_cases isHere : held.inode = some inode
      · have alsoHere : heldTwin.inode = some (number inode) := by
          rw [isTwin.inode_eq, isHere]
          rfl
        rw [decide_eq_true isHere, decide_eq_true alsoHere]
        exact Option.Rel.some isTwin
      · have notHere : heldTwin.inode ≠ some (number inode) := by
          intro isNumber
          rw [isTwin.inode_eq, Option.map_eq_some_iff] at isNumber
          obtain ⟨other, isOther, same⟩ := isNumber
          rw [separate held isHeld subject member other inode isOther isName
            same] at isOther
          exact isHere isOther
        rw [decide_eq_false isHere, decide_eq_false notHere]
        exact induction areLater

/-- The sticky bit is what the mode of an entry holds besides permissions. -/
theorem mode_eq_iff {mode : Nat} (safe : mode &&& 0o7777 &&& 0o6000 = 0) :
    mode &&& 0o777 = mode &&& 0o7777 ↔ mode &&& 0o1000 = 0 := by
  rw [Nat.and_assoc] at safe
  constructor
  · intro same
    have bit := congrArg (· &&& 0o1000) same
    rw [Nat.and_assoc, Nat.and_assoc] at bit
    exact bit.symm.trans (Nat.and_zero mode)
  · intro plain
    have parts : 0o7777 = 0o777 ||| (0o1000 ||| (0o7777 &&& 0o6000)) := by
      decide
    conv_rhs => rw [parts]
    rw [Nat.and_or_distrib_left, Nat.and_or_distrib_left, plain, safe,
      Nat.or_zero, Nat.or_zero]

theorem header_twin (isTwin : Twin time number subject twin)
    (same : subject.stats.mode &&& 0o777 = subject.stats.mode &&& 0o7777)
    (type payloadLength : Nat) :
    twin.header type payloadLength = subject.header type payloadLength := by
  have mode : twin.stats.mode &&& 0o7777 = subject.stats.mode &&& 0o7777 := by
    rw [isTwin.mode, ← same, Nat.and_assoc]
    rfl
  rw [Subject.header, Subject.header, mode, isTwin.written, isTwin.mtimeNs]

/-- What is written of an entry is written of its copy. -/
theorem piece_twin (isTwin : Twin time number subject twin)
    (same : subject.stats.mode &&& 0o777 = subject.stats.mode &&& 0o7777)
    (originals : ∀ inode, subject.stats.node = .file inode →
      Option.Rel (Twin time number) (Subject.original nlink earlier inode)
        (Subject.original twinLinks earlierTwins (number inode))) :
    twin.piece twinLinks earlierTwins = subject.piece nlink earlier := by
  have header := header_twin isTwin same
  have node := isTwin.node
  cases isNode : subject.stats.node with
  | directory mode mtime =>
      rw [isNode] at node
      cases isOther : twin.stats.node with
      | directory _ _ =>
          rw [Subject.piece_directory isNode, Subject.piece_directory isOther,
            header]
      | _ =>
          rw [isOther] at node
          cases node
  | symlink target mtime =>
      rw [isNode] at node
      cases isOther : twin.stats.node with
      | symlink copied _ =>
          rw [isOther] at node
          cases node
          rw [Subject.piece_symlink isNode, Subject.piece_symlink isOther,
            header, Utf8.decodeLossy_encode]
      | _ =>
          rw [isOther] at node
          cases node
  | file inode =>
      rw [isNode] at node
      cases isOther : twin.stats.node with
      | file other =>
          rw [isOther] at node
          cases node
          have related := originals inode isNode
          generalize isKnown : Subject.original nlink earlier inode = known
            at related
          generalize alsoKnown : Subject.original twinLinks earlierTwins
            (number inode) = twinKnown at related
          cases related with
          | none =>
              rw [Subject.piece_first isNode isKnown,
                Subject.piece_first isOther alsoKnown, header, isTwin.length,
                isTwin.content]
          | some areTwins =>
              rw [Subject.piece_again isNode isKnown,
                Subject.piece_again isOther alsoKnown, header,
                areTwins.written]
      | _ =>
          rw [isOther] at node
          cases node
  | other mode mtime =>
      rw [isNode] at node
      cases node

/-- The entries of two trees, one after the other. -/
theorem entries_twins {fs copy : FileSystem} {root goal : Location}
    {clock : Timestamp → Nat} {subjects twins : List Subject}
    (surveys : Surveys fs root clock subjects)
    (twinSurveys : Surveys copy goal clock twins)
    (separate : Separate number subjects)
    (areTwins : List.Forall₂ (Twin time number) subjects twins)
    (same : ∀ subject ∈ subjects,
      subject.stats.mode &&& 0o777 = subject.stats.mode &&& 0o7777) :
    writtenEntries copy.nlink [] twins =
      writtenEntries fs.nlink [] subjects := by
  have run : ∀ rest restTwins,
      List.Forall₂ (Twin time number) rest restTwins →
      ∀ earlier earlierTwins, subjects = earlier ++ rest →
        twins = earlierTwins ++ restTwins →
        List.Forall₂ (Twin time number) earlier earlierTwins →
          writtenEntries copy.nlink earlierTwins restTwins =
            writtenEntries fs.nlink earlier rest := by
    intro rest restTwins related
    induction related with
    | nil =>
        intro earlier earlierTwins split twinSplit before
        rfl
    | @cons subject twin rest restTwins isTwin later induction =>
        intro earlier earlierTwins split twinSplit before
        have included : ∀ held ∈ earlier, held ∈ subjects := by
          intro held member
          rw [split]
          exact List.mem_append_left _ member
        have here : subject ∈ subjects := by
          rw [split]
          exact List.mem_append_right _ List.mem_cons_self
        have pieces : twin.piece copy.nlink earlierTwins =
            subject.piece fs.nlink earlier := by
          apply piece_twin isTwin (same subject here)
          intro inode isNode
          have isName := Subject.inode_eq_some_iff.mpr isNode
          have twinName : twin.inode = some (number inode) := by
            rw [isTwin.inode_eq, isName]
            rfl
          rw [surveys.original_eq split isNode, twinSurveys.original_eq
            twinSplit (Subject.inode_eq_some_iff.mp twinName)]
          exact firstName_twins separate before included here isName
        have rests := induction (earlier ++ [subject]) (earlierTwins ++ [twin])
          (by rw [split, List.append_assoc]; rfl)
          (by rw [twinSplit, List.append_assoc]; rfl)
          (List.rel_append before (.cons isTwin .nil))
        rw [writtenEntries, writtenEntries, pieces, rests]
  exact run subjects twins areTwins [] [] rfl rfl .nil

theorem modes_written {earlier subjects : List Subject} :
    (writtenEntries nlink earlier subjects).map (·.header.mode) =
      subjects.map (·.stats.mode &&& 0o7777) := by
  induction subjects generalizing earlier with
  | nil => rfl
  | cons subject rest induction =>
      rw [writtenEntries, List.map_cons, List.map_cons, induction]
      congr 1
      exact Subject.mode_piece

/-- Entries that are written alike have only permissions in their modes. -/
theorem mode_eq_of_entries {subjects twins earlier : List Subject}
    (areTwins : List.Forall₂ (Twin time number) subjects twins)
    (same : writtenEntries twinLinks earlierTwins twins =
      writtenEntries nlink earlier subjects) :
    ∀ subject ∈ subjects,
      subject.stats.mode &&& 0o777 = subject.stats.mode &&& 0o7777 := by
  have modes := congrArg (List.map fun entry : Entry => entry.header.mode) same
  rw [modes_written, modes_written] at modes
  clear same
  induction areTwins with
  | nil => simp
  | cons isTwin later induction =>
      obtain ⟨isMode, modes⟩ := List.cons.inj modes
      dsimp only at isMode
      rw [List.forall_mem_cons]
      refine ⟨?_, induction modes⟩
      rw [← isMode, isTwin.mode, Nat.and_assoc]
      rfl

end Twins

/-! ## A copy and what it is a copy of -/

theorem forall₂_of_map_eq {α β γ : Type} {f : α → γ} {g : β → γ}
    {first : List α} {second : List β} (same : second.map g = first.map f) :
    List.Forall₂ (fun left right => (left ∈ first ∧ right ∈ second) ∧
      g right = f left) first second := by
  have counted := congrArg List.length same
  rw [List.length_map, List.length_map] at counted
  apply List.forall₂_iff_get.mpr
  refine ⟨counted.symm, ?_⟩
  intro index inFirst inSecond
  refine ⟨⟨List.get_mem _ _, List.get_mem _ _⟩, ?_⟩
  have here := congrArg (·[index]?) same
  rw [List.getElem?_map, List.getElem?_map, List.getElem?_eq_getElem inFirst,
    List.getElem?_eq_getElem inSecond] at here
  exact Option.some.inj here

section Copied

variable {fs start copy : FileSystem} {root goal : List Text}
  {time : Timestamp → Timestamp} {number : Nat → Nat}
  {entry other : TreeEntry}

variable (copies : Copies time fs (encodePath root) start copy
  (encodePath goal) number)

include copies

theorem Copies.present {path : Location} (notRoot : path ≠ []) :
    copy.present (encodePath goal) path =
      fs.present (encodePath root) path := by
  have absent := (copies.node path notRoot).isNone_iff
  rw [FileSystem.present, FileSystem.present, Bool.eq_iff_iff,
    Option.isSome_iff_ne_none, Option.isSome_iff_ne_none, Ne, Ne, absent]

theorem Copies.utf8 (utf8 : Utf8Names fs (encodePath root)) :
    Utf8Names copy (encodePath goal) := by
  intro path isPresent name member
  have notRoot : path ≠ [] := List.ne_nil_of_mem member
  rw [copies.present notRoot] at isPresent
  exact utf8 path isPresent name member

theorem Copies.paths : copy.paths (encodePath goal) =
    fs.paths (encodePath root) :=
  paths_congr fun _ notRoot => copies.present notRoot

/-- What stands in the copy where an entry stands in the tree. -/
theorem Copies.twin (utf8 : Utf8Names fs (encodePath root))
    (kept : roundedMtimeNs (time entry.stats.mtime) =
      roundedMtimeNs entry.stats.mtime)
    (member : entry ∈ listing fs root) (isOther : other ∈ listing copy goal)
    (same : encodePath other.path = encodePath entry.path) :
    Twin time number (hostSubject fs entry) (hostSubject copy other) := by
  obtain ⟨found, notRoot⟩ := mem_listing utf8 member
  obtain ⟨twinFound, -⟩ := mem_listing (copies.utf8 utf8) isOther
  rw [same] at twinFound
  have notEmpty : encodePath entry.path ≠ [] := by
    intro isEmpty
    exact notRoot (List.map_eq_nil_iff.mp isEmpty)
  have copied := copies.node (encodePath entry.path) notEmpty
  have node := node_of_lstat found
  rw [node, node_of_lstat twinFound] at copied
  have written : joinPath other.path = joinPath entry.path :=
    congrArg joinPath (encodePath_injective same)
  have inodes : ∀ inode held, entry.stats.node = .file inode →
      fs.inodes[inode]? = some held → copy.inodes[number inode]? =
        some { held with
          mode := held.mode &&& 0o777
          mtime := time held.mtime } := by
    intro inode held isFile isHeld
    rw [isFile] at node
    exact (copies.inode _ inode held notEmpty node isHeld).2
  obtain ⟨mode, mtime⟩ := copied.stats found twinFound inodes
  have contents : ∀ inode, entry.stats.node = .file inode →
      copy.content (number inode) = fs.content inode := by
    intro inode isFile
    have within := fs.fits _ _ node
    rw [isFile] at within
    obtain ⟨held, isHeld⟩ : ∃ held, fs.inodes[inode]? = some held :=
      ⟨_, List.getElem?_eq_getElem within⟩
    rw [FileSystem.content, FileSystem.content, isHeld,
      inodes inode held isFile isHeld]
    rfl
  refine ⟨written, mode, mtime, ?_, ?_, ?_, copied⟩
  · change (roundedMtimeNs other.stats.mtime).toNat = _
    rw [mtime, kept]
    rfl
  · rw [hostSubject, hostSubject]
    dsimp only
    generalize entry.stats.node = held at copied contents
    generalize other.stats.node = twinHeld at copied
    cases copied with
    | directory => rfl
    | symlink => rfl
    | @file inode => exact congrArg List.length (contents inode rfl)
  · rw [hostSubject, hostSubject]
    dsimp only
    generalize entry.stats.node = held at copied contents
    generalize other.stats.node = twinHeld at copied
    cases copied with
    | directory => rfl
    | symlink => rfl
    | @file inode => exact contents inode rfl

/-- The entries of the tree and of the copy, place by place. -/
theorem Copies.places (utf8 : Utf8Names fs (encodePath root)) :
    (listing copy goal).map (fun other => encodePath other.path) =
      (listing fs root).map fun entry => encodePath entry.path := by
  rw [listing_map utf8, listing_map (copies.utf8 utf8), copies.paths]

theorem Copies.twins (utf8 : Utf8Names fs (encodePath root))
    (kept : ∀ entry ∈ listing fs root,
      roundedMtimeNs (time entry.stats.mtime) =
        roundedMtimeNs entry.stats.mtime) :
    List.Forall₂ (Twin time number)
      ((listing fs root).map (hostSubject fs))
      ((listing copy goal).map (hostSubject copy)) := by
  rw [List.forall₂_map_left_iff, List.forall₂_map_right_iff]
  apply (forall₂_of_map_eq (copies.places utf8)).imp
  rintro entry other ⟨⟨member, isOther⟩, same⟩
  exact copies.twin utf8 (kept entry member) member isOther same

theorem Copies.separate_listing (utf8 : Utf8Names fs (encodePath root)) :
    Separate number ((listing fs root).map (hostSubject fs)) := by
  have stands {subject : Subject} {inode : Nat}
      (member : subject ∈ (listing fs root).map (hostSubject fs))
      (isName : subject.inode = some inode) :
      ∃ path, path ≠ [] ∧
        fs.node (encodePath root ++ path) = some (.file inode) := by
    obtain ⟨entry, isEntry, rfl⟩ := List.mem_map.mp member
    obtain ⟨found, notRoot⟩ := mem_listing utf8 isEntry
    refine ⟨encodePath entry.path, ?_, ?_⟩
    · intro isEmpty
      exact notRoot (List.map_eq_nil_iff.mp isEmpty)
    · have isNode : entry.stats.node = .file inode :=
        Subject.inode_eq_some_iff.mp isName
      rw [node_of_lstat found, isNode]
  intro first isFirst second isSecond inode other isName alsoName same
  obtain ⟨path, notRoot, isFile⟩ := stands isFirst isName
  obtain ⟨place, alsoNot, alsoFile⟩ := stands isSecond alsoName
  exact copies.separate path place inode other notRoot alsoNot isFile alsoFile
    same

/-- The entry of a copy where one of the tree is, and the other way round. -/
theorem Copies.exists_other (utf8 : Utf8Names fs (encodePath root))
    (member : entry ∈ listing fs root) :
    ∃ other ∈ listing copy goal, encodePath other.path = encodePath entry.path := by
  have isPlace := List.mem_map_of_mem
    (f := fun entry : TreeEntry => encodePath entry.path) member
  rw [← copies.places utf8] at isPlace
  exact List.mem_map.mp isPlace

theorem Copies.exists_entry (utf8 : Utf8Names fs (encodePath root))
    (isOther : other ∈ listing copy goal) :
    ∃ entry ∈ listing fs root, encodePath other.path = encodePath entry.path := by
  have isPlace := List.mem_map_of_mem
    (f := fun entry : TreeEntry => encodePath entry.path) isOther
  rw [copies.places utf8] at isPlace
  obtain ⟨entry, member, same⟩ := List.mem_map.mp isPlace
  exact ⟨entry, member, same.symm⟩

/-- The daemon takes an entry of a copy if it has taken that of the tree, unless
it is a link that leads out of the copy. -/
theorem Copies.accepts (utf8 : Utf8Names fs (encodePath root))
    (kept : roundedMtimeNs (time entry.stats.mtime) =
      roundedMtimeNs entry.stats.mtime)
    (member : entry ∈ listing fs root) (isOther : other ∈ listing copy goal)
    (same : encodePath other.path = encodePath entry.path)
    (accepted : HostAccepts fs root entry)
    (stays : ∀ target mtime, entry.stats.node = .symlink target mtime →
      targetLeaves goal entry.path (Utf8.decodeLossy target) = false) :
    HostAccepts copy goal other := by
  have isTwin := copies.twin utf8 kept member isOther same
  have path := encodePath_injective same
  have mode : other.stats.mode = entry.stats.mode &&& 0o777 := isTwin.mode
  have mtime : other.stats.mtime = time entry.stats.mtime := isTwin.mtime
  have length := isTwin.length
  have node := isTwin.node
  change Copied time number (some entry.stats.node) (some other.stats.node)
    at node
  constructor
  · have encodable := accepted.encodable
    constructor
    · rw [path]
      exact encodable.path
    · rw [mtime, kept]
      exact encodable.early
    · rw [mtime, kept]
      exact encodable.late
  · rw [mode, Nat.and_assoc, Nat.and_assoc]
    exact Nat.and_zero _
  · intro target time isLink
    rw [isLink] at node
    generalize isNode : entry.stats.node = held at node
    cases node with
    | symlink =>
        rw [path, Utf8.decodeLossy_encode]
        exact stays _ _ isNode
  · intro inode isFile
    rw [isFile] at node
    generalize isNode : entry.stats.node = held at node
    rw [hostSubject, hostSubject] at length
    dsimp only at length
    rw [isFile, isNode] at length
    cases node with
    | file => exact (le_of_eq length).trans (accepted.size _ isNode)
  · intro mode time isOtherKind
    rw [isOtherKind] at node
    generalize entry.stats.node = held at node
    cases node

/-- A copy is exported as the same bytes exactly if no entry has a sticky bit and
no link leads out of the copy. -/
theorem Copies.exports_iff {bytes : Bytes}
    (utf8 : Utf8Names fs (encodePath root))
    (exported : exportCfs fs root = .ok bytes)
    (kept : ∀ entry ∈ listing fs root,
      roundedMtimeNs (time entry.stats.mtime) =
        roundedMtimeNs entry.stats.mtime) :
    exportCfs copy goal = .ok bytes ↔
      (∀ entry ∈ listing fs root, entry.stats.mode &&& 0o1000 = 0) ∧
        ∀ entry ∈ listing fs root, ∀ target mtime,
          entry.stats.node = .symlink target mtime →
            targetLeaves goal entry.path (Utf8.decodeLossy target) = false := by
  obtain ⟨parsed, accepted⟩ := parse_exported utf8 exported
  have twins := copies.twins utf8 kept
  have also := copies.utf8 utf8
  constructor
  · intro again
    obtain ⟨alsoParsed, alsoAccepted⟩ := parse_exported also again
    have same := Option.some.inj (alsoParsed.symm.trans parsed)
    have modes := mode_eq_of_entries twins same
    rw [List.forall_mem_map] at modes
    constructor
    · intro entry member
      exact (mode_eq_iff (accepted entry member).mode).mp (modes entry member)
    · intro entry member target mtime isLink
      obtain ⟨other, isOther, samePath⟩ := copies.exists_other utf8 member
      have isTwin := copies.twin utf8 (kept entry member) member isOther samePath
      have node := isTwin.node
      change Copied time number (some entry.stats.node) (some other.stats.node)
        at node
      rw [isLink] at node
      generalize isNode : other.stats.node = held at node
      cases node with
      | symlink =>
          have stays := (alsoAccepted other isOther).target _ _ isNode
          rwa [encodePath_injective samePath, Utf8.decodeLossy_encode] at stays
  · rintro ⟨plain, stays⟩
    have accepts : ∀ other ∈ listing copy goal, HostAccepts copy goal other := by
      intro other isOther
      obtain ⟨entry, member, samePath⟩ := copies.exists_entry utf8 isOther
      exact copies.accepts utf8 (kept entry member) member isOther samePath
        (accepted entry member) (stays entry member)
    have surveys := surveys_listing utf8 fun entry member =>
      (accepted entry member).kind
    have twinSurveys := surveys_listing also fun other isOther =>
      (accepts other isOther).kind
    have same := entries_twins surveys twinSurveys
      (copies.separate_listing utf8) twins (by
        rw [List.forall_mem_map]
        intro entry member
        exact (mode_eq_iff (accepted entry member).mode).mpr
          (plain entry member))
    obtain ⟨-, _, -, -, -, small⟩ := exportCfs_eq_ok_iff.mp exported
    apply exportCfs_eq_ok_iff.mpr
    refine ⟨copies.directory, _, collectEntries_eq also, accepts, ?_, small⟩
    rw [entries_host, same]
    exact (parse_eq_some_iff.mp parsed).1

end Copied

/-! ## Digests -/

section Restored

variable {fs start after : FileSystem} {root : List Text} {bytes : Bytes}
  {extractor : Extractor}

/-- A rounded time that is stored is rounded to itself. -/
theorem rounded_time {mtime : Timestamp} (stores : extractor.StoresTimes)
    (early : 0 ≤ roundedMtimeNs mtime) (late : roundedMtimeNs mtime < 2 ^ 64) :
    roundedMtimeNs (extractor.time (clockMs mtime)) = roundedMtimeNs mtime := by
  obtain ⟨milliseconds, isRounded⟩ : ∃ milliseconds : Int,
      roundedMtimeNs mtime = milliseconds * 1000000 := ⟨_, rfl⟩
  have small : clockMs mtime < 2 ^ 64 := by
    rw [clockMs]
    omega
  obtain ⟨above, below⟩ := stores.time_near small
  rw [clockMs] at above below ⊢
  rw [isRounded] at above below early ⊢
  rw [roundedMtimeNs, Int.tdiv_eq_ediv_of_nonneg (by omega)]
  omega

/-- The digest of a workspace is that of what has been restored from its
snapshot, exactly if no entry has a sticky bit and no link leads out of where
it has been restored. -/
theorem restored_digest_iff (utf8 : Utf8Names fs (encodePath root))
    (exported : exportCfs fs root = .ok bytes)
    (unhindered : extractor.Unhindered) (stores : extractor.StoresTimes)
    (directory : start.isDirectory extractor.home = true)
    (restored : extractor.extractCfs (.ok bytes) start = (.ok (), after)) :
    exportCfs after extractor.destination = .ok bytes ↔
      (∀ entry ∈ listing fs root, entry.stats.mode &&& 0o1000 = 0) ∧
        ∀ entry ∈ listing fs root, ∀ target mtime,
          entry.stats.node = .symlink target mtime →
            targetLeaves extractor.destination entry.path
              (Utf8.decodeLossy target) = false := by
  obtain ⟨isDone, -⟩ :=
    Extractor.ensures_extraction unhindered directory start rfl
  obtain ⟨_, ⟨⟩, extracted⟩ := isDone () after restored
  obtain ⟨number, copies⟩ := extracted.copies utf8 exported
  have isGoal : encodePath extractor.destination =
      extractor.home ++ [extractor.goal] := Extractor.encodePath_home _
  rw [← isGoal] at copies
  apply copies.exports_iff utf8 exported
  intro entry member
  have encodable := ((parse_exported utf8 exported).2 entry member).encodable
  exact rounded_time stores encodable.early encodable.late

theorem restored_digest_of_twoNames :
    ∃ bytes after, exportCfs twoNames ([] ++ [['w']]) = .ok bytes ∧
      Extractor.toTop.extractCfs (.ok bytes)
        (FileSystem.bare 0o755 (.whole 0)) = (.ok (), after) ∧
      (exportCfs after Extractor.toTop.destination = .ok bytes ↔
        (∀ entry ∈ listing twoNames ([] ++ [['w']]),
          entry.stats.mode &&& 0o1000 = 0) ∧
          ∀ entry ∈ listing twoNames ([] ++ [['w']]), ∀ target mtime,
            entry.stats.node = .symlink target mtime →
              targetLeaves Extractor.toTop.destination entry.path
                (Utf8.decodeLossy target) = false) := by
  obtain ⟨bytes, isGuest⟩ := guest_exported_twoNames
  obtain ⟨exported, stays⟩ := host_of_guest ordinary_twoNames
    (still_observeStill _ _) isGuest
  have absent : (FileSystem.bare 0o755 (.whole 0)).node
      Extractor.toTop.root = none := rfl
  obtain ⟨after, restored⟩ := restores unrestricted_toTop rfl absent
    ordinary_twoNames.utf8 exported (stays _ _)
  refine ⟨bytes, after, exported, restored, ?_⟩
  exact restored_digest_iff ordinary_twoNames.utf8 exported ⟨rfl, rfl⟩
    storesTimes_toTop rfl restored

end Restored

end Electrosphere.Cfs
