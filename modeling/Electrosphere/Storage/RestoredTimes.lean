import Electrosphere.Storage.RestoredExports
import Mathlib.Tactic.NormNum

/-!
# Times under export and restore

The guest computes the time of an entry modulo `2^64` and writes it in
milliseconds.  The daemon divides it by `10^9` in doubles and hands the seconds
to `utimes`, which is exact enough for every time that the field can hold.
-/

namespace Electrosphere.Cfs

open Foundation FileSystem Workspace
open Agent.Snapshot (Observation Steady copies exportWorkspaceFile
  exportWorkspaceFile_eq_ok_iff guest honest_iff_steady inode_subject
  mtimeNs_eq subject subject_sized toMilliseconds written)

/-! ## Seconds -/

/-- The number of nanoseconds is rounded, and so is its quotient. -/
theorem seconds_roundings {mtimeNs : Nat} (positive : 0 < mtimeNs) :
    ∃ number : ℚ, |number - mtimeNs| ≤ mtimeNs / 2 ^ 53 ∧
      |seconds mtimeNs - number / 1000000000| ≤
        number / 1000000000 / 2 ^ 53 := by
  have wide : (0 : ℚ) < mtimeNs := by exact_mod_cast positive
  have near := abs_roundTo_sub 53 wide
  have below := (abs_le.mp near).1
  have isPositive : 0 < roundTo 53 (mtimeNs : ℚ) := by linarith
  have isQuotient := div_pos isPositive (by norm_num : (0 : ℚ) < 1000000000)
  exact ⟨_, near, abs_roundTo_sub 53 isQuotient⟩

theorem seconds_nonneg (mtimeNs : Nat) : 0 ≤ seconds mtimeNs := by
  rcases Nat.eq_zero_or_pos mtimeNs with rfl | positive
  · simp [seconds, roundTo_zero]
  · have wide : (0 : ℚ) < mtimeNs := by exact_mod_cast positive
    obtain ⟨number, near, quotient⟩ := seconds_roundings positive
    linarith [(abs_le.mp near).1, (abs_le.mp quotient).1]

/-- What the two roundings change is less than five microseconds. -/
theorem seconds_near {mtimeNs : Nat} (small : mtimeNs < 2 ^ 64) :
    |seconds mtimeNs * 1000000000 - mtimeNs| < 5000 := by
  rcases Nat.eq_zero_or_pos mtimeNs with rfl | positive
  · simp [seconds, roundTo_zero]
  · have bound : (mtimeNs : ℚ) < 2 ^ 64 := by exact_mod_cast small
    obtain ⟨number, near, quotient⟩ := seconds_roundings positive
    obtain ⟨numberAbove, numberBelow⟩ := abs_le.mp near
    obtain ⟨above, below⟩ := abs_le.mp quotient
    rw [abs_lt]
    constructor
    · linarith
    · linarith

/-- `utimes` and `lutimes` store a number of seconds to within 490
microseconds, up to the last one that a header can hold. -/
def Extractor.StoresTimes (extractor : Extractor) : Prop :=
  ∀ seconds, 0 ≤ seconds → seconds ≤ 18446744074 →
    |((extractor.stores seconds).total : ℚ) - seconds * 1000000000| < 490000

variable {extractor : Extractor}

/-- What is stored of the time in a header is nearer to it than half a
millisecond. -/
theorem Extractor.StoresTimes.time_near (stores : extractor.StoresTimes)
    {mtimeNs : Nat} (small : mtimeNs < 2 ^ 64) :
    (extractor.time mtimeNs).total - mtimeNs < 500000 ∧
      -500000 < (extractor.time mtimeNs).total - mtimeNs := by
  have near := seconds_near small
  have bound : (mtimeNs : ℚ) < 2 ^ 64 := by exact_mod_cast small
  rw [abs_lt] at near
  have late : seconds mtimeNs ≤ 18446744074 := by linarith [near.2]
  have stored := stores _ (seconds_nonneg mtimeNs) late
  rw [abs_lt, ← Extractor.time] at stored
  have above : ((extractor.time mtimeNs).total : ℚ) - mtimeNs < 500000 := by
    linarith [near.2, stored.2]
  have below : -500000 < ((extractor.time mtimeNs).total : ℚ) - mtimeNs := by
    linarith [near.1, stored.1]
  constructor
  · exact_mod_cast above
  · exact_mod_cast below

theorem storesTimes_toTop : Extractor.toTop.StoresTimes := by
  intro seconds early late
  have scaled : 0 ≤ seconds * 1000000 := by linarith
  have below := Nat.floor_le scaled
  have above := Nat.lt_floor_add_one (seconds * 1000000)
  have small : ⌊seconds * 1000000⌋₊ ≤ 18446744074000000 :=
    Nat.floor_le_of_le (by push_cast; linarith)
  have whole : (Int64.ofNat (⌊seconds * 1000000⌋₊ / 1000000)).toInt =
      (⌊seconds * 1000000⌋₊ / 1000000 : Nat) :=
    Int64.toInt_ofNat_of_lt (by omega)
  have total : (Extractor.toTop.stores seconds).total =
      ⌊seconds * 1000000⌋₊ * 1000 := by
    change (Int64.ofNat (⌊seconds * 1000000⌋₊ / 1000000)).toInt * 1000000000 +
      (⌊seconds * 1000000⌋₊ % 1000000 * 1000 : Nat) = _
    rw [whole]
    omega
  rw [total, abs_lt]
  push_cast
  constructor
  · linarith
  · linarith

/-! ## The times of a copy -/

section Copied

variable {fs start copy : FileSystem} {root goal : Location}
  {time : Timestamp → Timestamp} {number : Nat → Nat}

theorem Copied.isNone_iff {first second : Option Node}
    (copied : Copied time number first second) :
    second = none ↔ first = none := by
  cases copied with
  | _ => simp

/-- The attributes of what stands in a copy. -/
theorem Copied.stats {path place : Location} {stats twinStats : Stats}
    (found : fs.lstat path = some stats)
    (twinFound : copy.lstat place = some twinStats)
    (copied : Copied time number (some stats.node) (some twinStats.node))
    (inodes : ∀ inode held, stats.node = .file inode →
      fs.inodes[inode]? = some held → copy.inodes[number inode]? =
        some { held with
          mode := held.mode &&& 0o777
          mtime := time held.mtime }) :
    twinStats.mode = stats.mode &&& 0o777 ∧
      twinStats.mtime = time stats.mtime := by
  have node := node_of_lstat found
  have twinNode := node_of_lstat twinFound
  rw [lstat, node] at found
  rw [lstat, twinNode] at twinFound
  clear node twinNode
  generalize stats.node = held at found copied inodes
  generalize twinStats.node = twinHeld at twinFound copied
  cases copied with
  | directory =>
      cases found
      cases twinFound
      exact ⟨rfl, rfl⟩
  | symlink =>
      cases found
      cases twinFound
      exact ⟨(Nat.and_self 0o777).symm, rfl⟩
  | @file inode =>
      dsimp only at found twinFound
      cases isHeld : fs.inodes[inode]? with
      | none =>
          rw [isHeld] at found
          cases found
      | some held =>
          rw [isHeld] at found
          rw [inodes inode held rfl isHeld] at twinFound
          cases found
          cases twinFound
          exact ⟨rfl, rfl⟩

/-- What stands in a copy has the time that was made of the original's. -/
theorem Copies.mtime (copies : Copies time fs root start copy goal number)
    {path : Location} {stats : Stats} (notRoot : path ≠ [])
    (found : fs.lstat (root ++ path) = some stats) :
    ∃ held, copy.lstat (goal ++ path) = some held ∧
      held.mtime = time stats.mtime := by
  have copied := copies.node path notRoot
  rw [node_of_lstat found] at copied
  obtain ⟨held, isHeld⟩ : ∃ held, copy.lstat (goal ++ path) = some held := by
    rw [← Option.ne_none_iff_exists', ne_eq, lstat_eq_none_iff,
      copied.isNone_iff]
    exact Option.some_ne_none _
  rw [node_of_lstat isHeld] at copied
  refine ⟨held, isHeld, (copied.stats found isHeld ?_).2⟩
  intro inode entry isFile isEntry
  have isName : fs.node (root ++ path) = some (.file inode) := by
    rw [node_of_lstat found, isFile]
  exact (copies.inode path inode entry notRoot isName isEntry).2

end Copied

/-! ## What the guest has exported -/

/-- The guest writes every path as it is. -/
def Legible (fs : FileSystem) (root : Location) : Prop :=
  ∀ path ∈ fs.paths root, location (written path) = path

/-- The time of an entry as the guest writes it. -/
def guestClock (mtime : Timestamp) : Nat :=
  (Agent.Snapshot.mtimeNs mtime).toNat

/-- What the guest knows of the entries of a tree. -/
def guestSubjects (fs : FileSystem) (root : Location)
    (observe : List Name → Observation) : List Subject :=
  (fs.paths root).filterMap (subject fs root observe)

section Guest

variable {fs start after : FileSystem} {root : Location}
  {observe : List Name → Observation} {bytes : Bytes} {path : List Name}
  {earlier : List Subject} {found : Subject}

theorem mem_guestSubjects (legible : Legible fs root) :
    found ∈ guestSubjects fs root observe ↔
      found.place ∈ fs.paths root ∧
        subject fs root observe found.place = some found := by
  rw [guestSubjects, List.mem_filterMap]
  constructor
  · rintro ⟨path, member, isFound⟩
    have isPlace : found.place = path := by
      obtain ⟨stats, -, rfl⟩ := Option.map_eq_some_iff.mp isFound
      exact legible path member
    rw [isPlace]
    exact ⟨member, isFound⟩
  · rintro ⟨member, isFound⟩
    exact ⟨_, member, isFound⟩

theorem surveys_guest (legible : Legible fs root)
    (still : Still fs root observe)
    (kind : ∀ found ∈ guestSubjects fs root observe, ∀ mode mtime,
      found.stats.node ≠ .other mode mtime) :
    Surveys fs root guestClock (guestSubjects fs root observe) where
  stats found member := by
    have isFound := ((mem_guestSubjects legible).mp member).2
    obtain ⟨stats, isStats, same⟩ := Option.map_eq_some_iff.mp isFound
    rw [isStats, ← same]
  ordered := by
    rw [guestSubjects, List.pairwise_filterMap]
    apply not_prefix_paths.imp_of_mem
    intro first second isFirst isSecond apart held isHeld other isOther
    obtain ⟨_, -, rfl⟩ := Option.map_eq_some_iff.mp isHeld
    obtain ⟨_, -, rfl⟩ := Option.map_eq_some_iff.mp isOther
    change ¬ location (written second) <+: location (written first)
    rwa [legible first isFirst, legible second isSecond]
  whole path notRoot isPresent := by
    have member := mem_paths.mpr ⟨notRoot, isPresent⟩
    obtain ⟨stats, isStats⟩ : ∃ stats, fs.lstat (root ++ path) = some stats := by
      rw [← Option.ne_none_iff_exists', ne_eq, lstat_eq_none_iff,
        ← ne_eq, ← Option.isSome_iff_ne_none]
      exact isPresent
    have isFound : ∃ found, subject fs root observe path = some found ∧
        found.place = path := by
      rw [subject, isStats]
      exact ⟨_, rfl, legible path member⟩
    obtain ⟨found, isFound, isPlace⟩ := isFound
    exact ⟨found, List.mem_filterMap.mpr ⟨path, member, isFound⟩, isPlace⟩
  content found member inode isName := by
    have isFound := ((mem_guestSubjects legible).mp member).2
    have isFile := (inode_subject isFound inode).mp isName
    obtain ⟨stats, -, same⟩ := Option.map_eq_some_iff.mp isFound
    rw [← (still _ inode isFile).2, ← congrArg Subject.content same]
  times found member := by
    have isFound := ((mem_guestSubjects legible).mp member).2
    obtain ⟨stats, -, same⟩ := Option.map_eq_some_iff.mp isFound
    rw [← same]
    rfl
  kind := kind

theorem entries_guest (earlier : List Subject) (paths : List (List Name)) :
    (guest fs root observe).entries earlier paths =
      writtenEntries fs.nlink earlier
        (paths.filterMap (subject fs root observe)) := by
  induction paths generalizing earlier with
  | nil => rfl
  | cons path paths induction =>
      have isSubject : (guest fs root observe).subject path =
          subject fs root observe path := rfl
      rw [Exporter.entries, isSubject]
      cases isFound : subject fs root observe path with
      | none =>
          rw [List.filterMap_cons_none isFound]
          exact induction earlier
      | some found =>
          rw [List.filterMap_cons_some isFound]
          exact congrArg (_ :: ·) (induction (earlier ++ [found]))

theorem steady_of_still (still : Still fs root observe)
    (before paths : List (List Name)) :
    Steady fs root observe before paths := by
  intro middle path later _ isCopied
  rw [copies] at isCopied
  split at isCopied
  · next inode isFile =>
    obtain ⟨counted, same⟩ := still path inode isFile
    rw [counted, same]
  · cases isCopied

/-- What the guest has exported of files that keep still is the archive of its
entries. -/
theorem parse_guest (still : Still fs root observe)
    (exported : exportWorkspaceFile fs root observe = .ok bytes) :
    parse bytes =
      some (writtenEntries fs.nlink [] (guestSubjects fs root observe)) := by
  obtain ⟨-, pieces, isPieces, rfl, small⟩ :=
    exportWorkspaceFile_eq_ok_iff.mp exported
  rw [List.length_append] at small
  have sized := isPieces.sized (fun _ _ => subject_sized) (by omega)
  rw [guestSubjects, ← entries_guest]
  apply (isPieces.parse_eq_iff sized).mpr
  exact (honest_iff_steady isPieces List.filterMap_nil).mpr
    (steady_of_still still _ _)

theorem kind_guest (legible : Legible fs root)
    (exported : exportWorkspaceFile fs root observe = .ok bytes) :
    ∀ found ∈ guestSubjects fs root observe, ∀ mode mtime,
      found.stats.node ≠ .other mode mtime := by
  obtain ⟨-, pieces, isPieces, -, -⟩ :=
    exportWorkspaceFile_eq_ok_iff.mp exported
  intro found member
  obtain ⟨isPath, isFound⟩ := (mem_guestSubjects legible).mp member
  obtain ⟨stats, isStats, accepts⟩ := isPieces.accepts _ isPath
  rw [subject, isStats] at isFound
  rw [← Option.some.inj isFound]
  exact accepts.kind

/-- What is extracted of a workspace has the times that were written. -/
theorem restored_mtime (still : Still fs root observe)
    (legible : Legible fs root) (unhindered : extractor.Unhindered)
    (exported : exportWorkspaceFile fs root observe = .ok bytes)
    (directory : start.isDirectory extractor.home = true)
    (ran : extractor.extractCfs (.ok bytes) start = (.ok (), after))
    {stats : Stats} (notRoot : path ≠ [])
    (isStats : fs.lstat (root ++ path) = some stats) :
    ∃ held, after.lstat (extractor.home ++ [extractor.goal] ++ path) =
        some held ∧
      held.mtime = extractor.time (guestClock stats.mtime) := by
  obtain ⟨isDone, -⟩ :=
    Extractor.ensures_extraction unhindered directory start rfl
  obtain ⟨_, ⟨⟩, extracted⟩ := isDone () after ran
  have surveys := surveys_guest legible still (kind_guest legible exported)
  obtain ⟨number, copies⟩ :=
    extracted.copies_written surveys (parse_guest still exported)
  exact copies.mtime notRoot isStats

/-! ## Which times survive -/

/-- Times that fit the field once they are rounded. -/
def Writable (time : Timestamp) : Prop :=
  0 ≤ time.total + 500000 ∧ time.total + 500000 < 2 ^ 64

/-- The header keeps the time of an entry in milliseconds, it is found wherever
the header stands in an archive, and what the daemon stores for it is this time
again. -/
structure Exact (extractor : Extractor) (time : Timestamp) (header : Header) :
    Prop where
  field : (header.mtimeNs : Int) = toMilliseconds time.total
  found : ∀ rest, parseHeader (header.encode ++ rest) = some (header, rest)
  read : ∀ before rest held next,
    readHeader (before ++ (header.encode ++ rest)) before.length =
      .ok (held, next) →
    (held.mtimeNs : Int) = toMilliseconds time.total
  restored : toMilliseconds (extractor.time header.mtimeNs).total =
    toMilliseconds time.total

/-- An extraction with privileges of what the guest exported while no file
changed, under names that are written as they are. -/
structure Restores (extractor : Extractor) (fs : FileSystem) (root : Location)
    (observe : List Name → Observation) (bytes : Bytes)
    (start after : FileSystem) : Prop where
  still : Still fs root observe
  legible : Legible fs root
  unhindered : extractor.Unhindered
  directory : start.isDirectory extractor.home = true
  ran : extractor.extractCfs (.ok bytes) start = (.ok (), after)

/-- A header is read as it has been written. -/
theorem mtimeNs_of_readHeader {header : Header} {held : EntryHeader}
    {before rest : Bytes} {next : Nat} (sized : header.Sized)
    (isRead : readHeader (before ++ (header.encode ++ rest)) before.length =
      .ok (held, next)) : held.mtimeNs = header.mtimeNs := by
  obtain ⟨other, taken, rfl, -, split⟩ := readHeader_eq_ok_iff.mp isRead
  rw [List.drop_left] at split
  have parsed := parseHeader_eq_some_iff.mpr ⟨split, taken.sized⟩
  have alsoParsed : parseHeader (header.encode ++ rest) = some (header, rest) :=
    parseHeader_eq_some_iff.mpr ⟨rfl, sized⟩
  have same : header = other :=
    congrArg Prod.fst (Option.some.inj (alsoParsed.symm.trans parsed))
  rw [same]
  rfl

/-- The field is the rounded time if and only if that fits. -/
theorem guestClock_eq_iff {time : Timestamp} :
    (guestClock time : Int) = toMilliseconds time.total ↔ Writable time := by
  have wrapped := mtimeNs_eq time
  rw [guestClock, wrapped, toMilliseconds, Writable]
  omega

/-- What is stored for the field is rounded to the field. -/
theorem toMilliseconds_time (stores : extractor.StoresTimes)
    (time : Timestamp) :
    toMilliseconds (extractor.time (guestClock time)).total =
      guestClock time := by
  have wrapped := mtimeNs_eq time
  have small : guestClock time < 2 ^ 64 :=
    (Agent.Snapshot.mtimeNs time).toNat_lt
  have near := stores.time_near small
  rw [← guestClock] at wrapped
  rw [toMilliseconds]
  omega

theorem exact_iff (stores : extractor.StoresTimes) {time : Timestamp}
    {header : Header} (sized : header.Sized)
    (isField : header.mtimeNs = guestClock time) :
    Exact extractor time header ↔ Writable time := by
  rw [← guestClock_eq_iff, ← isField]
  constructor
  · exact fun exact => exact.field
  · intro field
    refine ⟨field, fun rest => ?_, ?_, ?_⟩
    · exact parseHeader_eq_some_iff.mpr ⟨rfl, sized⟩
    · intro before rest held next isRead
      rw [mtimeNs_of_readHeader sized isRead]
      exact field
    · rw [isField, toMilliseconds_time stores, ← isField]
      exact field

theorem exact_pieces (stores : extractor.StoresTimes)
    {pieces : List Piece} {paths : List (List Name)}
    (isPieces : (guest fs root observe).Pieces earlier paths pieces)
    (sized : ∀ piece ∈ pieces, piece.header.Sized ∧
      piece.payload.length < 256 ^ 8) :
    List.Forall₂ (fun path (piece : Piece) => ∀ stats,
      fs.lstat (root ++ path) = some stats →
      (Exact extractor stats.mtime piece.header ↔ Writable stats.mtime))
      paths pieces := by
  induction isPieces with
  | nil => exact .nil
  | cons isFound accepts _ induction =>
      rw [List.forall_mem_cons] at sized
      refine .cons ?_ (induction sized.2)
      intro stats isStats
      apply exact_iff stores sized.1.1
      change subject fs root observe _ = _ at isFound
      rw [subject, isStats] at isFound
      cases isFound
      exact Subject.mtimeNs_piece

/-- The time of an entry survives the way through an archive if and only if it
fits the field, in its header and in what is extracted. -/
theorem mtime_exact_iff
    (exported : exportWorkspaceFile fs root observe = .ok bytes)
    (stores : extractor.StoresTimes) :
    (∃ pieces, bytes = magic ++ pieces.flatMap Piece.bytes ∧
      List.Forall₂ (fun path (piece : Piece) => ∀ stats,
        fs.lstat (root ++ path) = some stats →
        (Exact extractor stats.mtime piece.header ↔ Writable stats.mtime))
        (fs.paths root) pieces) ∧
      ∀ start after, Restores extractor fs root observe bytes start after →
        ∀ path ≠ [], ∀ stats, fs.lstat (root ++ path) = some stats →
          ∃ held, after.lstat (extractor.home ++ [extractor.goal] ++ path) =
              some held ∧
            (toMilliseconds held.mtime.total =
              toMilliseconds stats.mtime.total ↔ Writable stats.mtime) := by
  constructor
  · obtain ⟨-, pieces, isPieces, rfl, small⟩ :=
      exportWorkspaceFile_eq_ok_iff.mp exported
    rw [List.length_append] at small
    have sized := isPieces.sized (fun _ _ => subject_sized) (by omega)
    exact ⟨pieces, rfl, exact_pieces stores isPieces sized⟩
  · intro start after restores path notRoot stats isStats
    obtain ⟨held, isHeld, isTime⟩ := restored_mtime restores.still
      restores.legible restores.unhindered exported restores.directory
      restores.ran notRoot isStats
    refine ⟨held, isHeld, ?_⟩
    rw [isTime, toMilliseconds_time stores]
    exact guestClock_eq_iff

end Guest

theorem mtime_exact_of_twoNames :
    ∃ bytes, exportWorkspaceFile twoNames (encodePath ([] ++ [['w']]))
        (observeStill twoNames (encodePath ([] ++ [['w']]))) = .ok bytes ∧
      (∃ pieces, bytes = magic ++ pieces.flatMap Piece.bytes ∧
        List.Forall₂ (fun path (piece : Piece) => ∀ stats,
          twoNames.lstat (encodePath ([] ++ [['w']]) ++ path) = some stats →
          (Exact Extractor.toTop stats.mtime piece.header ↔
            Writable stats.mtime))
          (twoNames.paths (encodePath ([] ++ [['w']]))) pieces) ∧
      ∀ start after, Restores Extractor.toTop twoNames
          (encodePath ([] ++ [['w']]))
          (observeStill twoNames (encodePath ([] ++ [['w']]))) bytes start
          after →
        ∀ path ≠ [], ∀ stats,
          twoNames.lstat (encodePath ([] ++ [['w']]) ++ path) = some stats →
          ∃ held, after.lstat (Extractor.toTop.home ++
                [Extractor.toTop.goal] ++ path) = some held ∧
            (toMilliseconds held.mtime.total =
              toMilliseconds stats.mtime.total ↔ Writable stats.mtime) := by
  obtain ⟨bytes, exported⟩ := guest_exported_twoNames
  exact ⟨bytes, exported, mtime_exact_iff exported storesTimes_toTop⟩

/-- One second before 1970. -/
private def early : Timestamp := .whole (-1)

/-- A workspace with one file, `a`, that is older than 1970. -/
private def earlyFile : FileSystem :=
  (FileSystem.bare 0o755 (.whole 0)).place [] [97] (.file 0)
    [{ mode := 0o644, mtime := early, content := [] }] (by decide) Nat.one_pos

/-- A time before 1970 is written as one in the year 2554. -/
theorem early_time_wraps :
    ∃ bytes, exportWorkspaceFile earlyFile [] (observeStill earlyFile []) =
      .ok bytes ∧ parse bytes = some [{
        path := [97], type := typeFile, mode := 0o644
        mtimeNs := 18446744072710000000, payload := [] }] ∧
      early.total = -1000000000 := by
  refine ⟨magic ++ (bigEndian 4 1 ++ ([97] ++ (bigEndian 1 typeFile ++
    (bigEndian 4 0o644 ++ (bigEndian 8 18446744072710000000 ++
      bigEndian 8 0))))), ?_, ?_, ?_⟩
  · decide +kernel
  · decide +kernel
  · decide +kernel

end Electrosphere.Cfs
