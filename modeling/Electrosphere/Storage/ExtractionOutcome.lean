import Electrosphere.Foundation.Replacement
import Electrosphere.Storage.DirectoryTimes

/-!
# What an extraction leaves behind

For a process with privileges an extraction is all or nothing.  A rejected
archive leaves every place as it was.  An accepted one has taken the place of
what was at the destination, as the tree that its entries describe.
-/

namespace Electrosphere.Cfs

open Foundation FileSystem Workspace

namespace Extractor

variable {extractor : Extractor} {start begun fs : FileSystem}
  {overlay : Overlay} {bytes : Bytes}

/-- The name of the staging directory. -/
def stagingName (extractor : Extractor) : Name :=
  Utf8.encode (".staging-".toList ++ extractor.uuid)

/-- The name of the destination. -/
def goal (extractor : Extractor) : Name := Utf8.encode extractor.name

theorem root_eq : extractor.root = extractor.home ++ [extractor.stagingName] :=
  encodePath_home _

theorem stagingName_ne_goal : extractor.stagingName ≠ extractor.goal := by
  intro same
  exact extractor.different (Utf8.encode_injective same).symm

/-- A process that may do everything, on a file system that takes the name of
the destination. -/
structure Unhindered (extractor : Extractor) : Prop where
  privileged : extractor.process.privileged = true
  accepts : extractor.process.refuses (extractor.home ++ [extractor.goal]) =
    false

/-- The bytes are an archive, the destination is the tree that it describes,
with the times of its directories, and nothing else has changed. -/
structure Extracted (extractor : Extractor) (start : FileSystem)
    (bytes : Bytes) (fs : FileSystem) : Prop where
  untouched : Untouched start extractor.home extractor.goal fs
  tree : ∃ entries number, bytes = archive entries ∧
    (∀ entry ∈ entries, entry.header.Taken) ∧
    Holds start (extractor.home ++ [extractor.goal])
      (extractor.describeAll .empty (decodedEntries entries)) number fs ∧
    ∀ entry ∈ decodedEntries entries, entry.1.type = typeDirectory →
      ∃ mode, fs.node (extractor.home ++ [extractor.goal] ++
        location entry.1.path) =
          some (.directory mode (extractor.time entry.1.mtimeNs))

section Calls

variable (privileged : extractor.process.privileged = true)

include privileged

theorem ensures_removeName {name : Text} {pre : FileSystem → Prop}
    {done failed : FileSystem → Prop} (valid : ValidText name)
    (isDirectory : ∀ fs, pre fs → fs.isDirectory extractor.home = true)
    (cleared : ∀ fs, pre fs → done (fs.cleared extractor.home
      (Utf8.encode name) extractor.process.now)) :
    Effect.Ensures pre (extractor.remove (extractor.parent ++ [name]))
      (fun _ => done) fun _ => failed := by
  apply Effect.ensures_of_ok
  intro fs isPre
  refine ⟨(), _, ?_, cleared fs isPre⟩
  rw [remove, encodePath_home,
    removeTree_of_privileged privileged (isDirectory fs isPre) valid]

/-- What has been staged is cleared away, and the call fails as before. -/
theorem ensures_discard
    (directory : start.isDirectory extractor.home = true)
    (absent : start.node extractor.root = none) (error : Thrown) :
    Effect.Ensures (Untouched start extractor.home extractor.stagingName)
      (do
        extractor.remove extractor.staging
        Effect.fail error : Disk Unit)
      (fun _ _ => False)
      fun _ => Unharmed start extractor.home := by
  rw [root_eq] at absent
  apply Effect.ensures_bind fun _ => Unharmed start extractor.home
  · apply ensures_removeName privileged extractor.validStaging
    · exact fun fs untouched => untouched.isDirectory directory
    · exact fun fs untouched => untouched.unharmed directory absent
  · intro _
    exact Effect.ensures_fail fun fs unharmed => unharmed

end Calls

/-- The staging directory is made where nothing was. -/
theorem ensures_beginStaging
    (directory : start.isDirectory extractor.home = true) :
    Effect.Ensures (fun fs => fs = start)
      (extractor.makeDirectory extractor.staging 0o700)
      (fun _ fs => ∃ begun, start.node extractor.root = none ∧
        Untouched start extractor.home extractor.stagingName begun ∧
        extractor.Laid begun .empty fs)
      fun _ fs => fs = start := by
  apply ensures_syscall
  · rintro fs rfl after made
    rw [staging, encodePath_home] at made
    obtain ⟨place, resolved, created⟩ := bind_eq_ok_iff.mp made
    have isHere := eq_of_resolve_concat directory extractor.validStaging
      resolved
    rw [isHere] at created
    have created := created_of_create created
    refine ⟨after, ?_, .created created, fun _ => 0, ?_⟩
    · rw [root_eq]
      exact created.absent
    · rw [root_eq]
      apply lays_empty
      · rw [FileSystem.isDirectory, stagingName, created.node, if_pos rfl]
        rfl
      · exact fun path notRoot => created.vacant notRoot
  · exact fun fs isStart => isStart

section Staged

variable (unhindered : extractor.Unhindered)
  (directory : start.isDirectory extractor.home = true)
  (absent : start.node extractor.root = none)
  (untouched : Untouched start extractor.home extractor.stagingName begun)

include unhindered directory absent untouched

/-- The tree takes the place of the destination. -/
theorem ensures_install (kept : FileSystem → Prop) :
    Effect.Ensures (fun fs => kept fs ∧ extractor.Laid begun overlay fs)
      (do
        extractor.remove extractor.destination
        extractor.moveTree extractor.staging extractor.destination : Disk Unit)
      (fun _ fs => Untouched start extractor.home extractor.goal fs ∧
        (∃ number, Holds start (extractor.home ++ [extractor.goal]) overlay
          number fs) ∧
        ∃ built, kept built ∧ ∀ rest,
          fs.node (extractor.home ++ [extractor.goal] ++ rest) =
            built.node (extractor.root ++ rest))
      fun _ _ => False := by
  have built : ∀ fs, extractor.Laid begun overlay fs →
      Untouched start extractor.home extractor.stagingName fs := by
    intro fs laid
    have confined := laid.confined
    rw [root_eq] at confined
    exact untouched.confined confined
  apply Effect.ensures_bind fun _ cleared => ∃ fs,
    cleared = fs.cleared extractor.home extractor.goal extractor.process.now ∧
      kept fs ∧ extractor.Laid begun overlay fs
  · apply ensures_removeName unhindered.privileged extractor.validName
    · exact fun fs both => (built fs both.2).isDirectory directory
    · exact fun fs both => ⟨fs, rfl, both⟩
  intro _
  apply Effect.ensures_of_ok
  rintro cleared ⟨fs, isCleared, isKept, laid⟩
  have isDirectory : cleared.isDirectory extractor.home = true := by
    obtain ⟨mode, mtime, found⟩ := FileSystem.isDirectory_iff.mp
      ((built fs laid).isDirectory directory)
    obtain ⟨later, isLater⟩ := directory_cleared found
    rw [isCleared]
    exact FileSystem.isDirectory_iff.mpr ⟨mode, later, isLater⟩
  obtain ⟨number, lays⟩ := laid
  rw [root_eq] at lays absent
  have vacant : cleared.node (extractor.home ++ [extractor.goal]) = none := by
    have nothing := @node_cleared fs extractor.home extractor.goal
      extractor.process.now []
    rwa [List.append_nil, ← isCleared] at nothing
  have present : (cleared.node
      (extractor.home ++ [extractor.stagingName])).isSome = true := by
    rw [isCleared, node_cleared_away _ (by simp)]
    · exact isSome_of_isDirectory lays.directory
    · rw [List.prefix_append_right_inj, List.cons_prefix_cons]
      exact fun same => stagingName_ne_goal same.1.symm
  obtain ⟨after, renamed⟩ := renameTree_of_privileged unhindered.privileged
    isDirectory extractor.validStaging extractor.validName present vacant
    unhindered.accepts
  obtain ⟨free, apart, isAfter⟩ := renameTree_eq_ok isDirectory
    extractor.validStaging extractor.validName renamed
  subst isCleared
  refine ⟨(), after, ?_, ?_⟩
  · rw [moveTree, staging, destination, encodePath_home, encodePath_home,
      syscall, Effect.run_change_eq_ok_iff]
    exact congrArg (Except.mapError _) renamed
  · obtain ⟨isUntouched, holds, tree⟩ := lays.replaces untouched directory
      absent stagingName_ne_goal free apart
    rw [isAfter, root_eq]
    exact ⟨isUntouched, ⟨number, holds⟩, fs, isKept, tree⟩

theorem ensures_stage (isMagic : bytes.take magic.length = magic) :
    Effect.Ensures (extractor.Laid begun .empty) (extractor.extractStaged bytes)
      (fun _ => extractor.Extracted start bytes)
      fun _ => Untouched start extractor.home extractor.stagingName := by
  have within : ∀ fs, Confined begun extractor.root fs →
      Untouched start extractor.home extractor.stagingName fs := by
    intro fs confined
    rw [root_eq] at confined
    exact untouched.confined confined
  apply Effect.ensures_bind _ (ensures_decoding.mono (fun _ laid => laid)
    (fun _ _ held => held) fun _ fs confined => within fs confined)
  intro progress
  apply Effect.ensures_of_exists
  intro entries
  apply Effect.ensures_of_and
  intro reads
  apply Effect.ensures_of_and
  rintro ⟨recorded, isDatings, distinct⟩
  have known : ∀ output mtimeNs,
      (output, mtimeNs) ∈ progress.directoryTimes.reverse →
        ∃ path mode, output = extractor.staging ++ parts path ∧
          (extractor.describeAll .empty entries).shape (location path) =
            some (.directory mode) := by
    intro output mtimeNs member
    exact recorded.directories output mtimeNs (List.mem_reverse.mp member)
  have reversed : (([] ++ progress.directoryTimes.reverse).map
      Prod.fst).Nodup := by
    rwa [List.nil_append, List.map_reverse, List.nodup_reverse]
  apply Effect.ensures_bind fun _ fs =>
    extractor.Dated progress.directoryTimes.reverse fs ∧
      extractor.Laid begun (extractor.describeAll .empty entries) fs
  · apply (ensures_setDirectoryTimes_dated known reversed).mono
    · intro fs laid
      refine ⟨?_, laid⟩
      intro output mtimeNs member
      cases member
    · exact fun _ _ both => both
    · exact fun _ fs confined => within fs confined
  · intro _
    apply (ensures_install unhindered directory absent untouched _).mono
      (fun _ both => both)
    · rintro _ fs ⟨isUntouched, ⟨number, holds⟩, built, dated, tree⟩
      obtain ⟨written, isArchive, taken, rfl⟩ :=
        reads_archive_iff.mp ⟨isMagic, reads⟩
      refine ⟨isUntouched, written, number, isArchive, taken, holds, ?_⟩
      intro entry member isType
      rw [tree, location, ← encodePath_staging]
      apply dated
      rw [List.mem_reverse, isDatings, datings]
      apply List.mem_map_of_mem (f := fun entry : EntryHeader × Bytes =>
        (extractor.staging ++ parts entry.1.path, entry.1.mtimeNs))
      exact List.mem_filter.mpr ⟨member, decide_eq_true isType⟩
    · exact fun _ _ impossible => impossible.elim

end Staged

theorem ensures_extraction {object : Except Thrown Bytes}
    (unhindered : extractor.Unhindered)
    (directory : start.isDirectory extractor.home = true) :
    Effect.Ensures (fun fs => fs = start) (extractor.extractCfs object)
      (fun _ fs => ∃ bytes, object = .ok bytes ∧
        extractor.Extracted start bytes fs)
      fun _ => Unharmed start extractor.home := by
  apply Effect.ensures_bind fun bytes fs => object = .ok bytes ∧ fs = start
  · apply Effect.ensures_ofExcept
    · exact fun bytes isRead fs isStart => ⟨isRead, isStart⟩
    · rintro _ _ fs rfl
      exact .refl
  intro bytes
  apply Effect.ensures_of_and
  intro isRead
  split
  · apply Effect.ensures_fail
    rintro fs rfl
    exact .refl
  · next isMagic =>
    apply Effect.ensures_bind _ ((ensures_beginStaging directory).mono
      (fun _ isStart => isStart) (fun _ _ staged => staged)
      (by rintro _ fs rfl; exact .refl))
    intro _
    apply Effect.ensures_of_exists
    intro begun
    apply Effect.ensures_of_and
    intro absent
    apply Effect.ensures_of_and
    intro untouched
    apply Effect.ensures_handle _
      ((ensures_stage unhindered directory absent untouched
        (not_not.mp isMagic)).mono (fun _ laid => laid) _
          fun _ _ failed => failed)
    · intro error
      exact (ensures_discard unhindered.privileged directory absent error).mono
        (fun _ held => held) (fun _ _ impossible => impossible.elim)
        fun _ _ unharmed => unharmed
    · intro _ fs extracted
      exact ⟨bytes, isRead, extracted⟩

/-- Whatever the archive is: either it is rejected, and nothing has happened,
or the destination is the tree that it describes, and nothing else has
happened. -/
theorem extraction_all_or_nothing {object : Except Thrown Bytes}
    {answer : Except Thrown Unit} {after : FileSystem}
    (unhindered : extractor.Unhindered)
    (directory : start.isDirectory extractor.home = true)
    (ran : extractor.extractCfs object start = (answer, after)) :
    (∃ error, answer = .error error ∧
        Unharmed start extractor.home after) ∨
      ∃ bytes, answer = .ok () ∧ object = .ok bytes ∧
        extractor.Extracted start bytes after := by
  obtain ⟨isDone, isFailed⟩ := ensures_extraction unhindered directory start rfl
  cases answer with
  | error error => exact .inl ⟨error, rfl, isFailed error after ran⟩
  | ok value =>
      obtain ⟨bytes, isRead, extracted⟩ := isDone value after ran
      exact .inr ⟨bytes, rfl, isRead, extracted⟩

theorem validText_v : ValidText ['v'] := by
  have valid : ValidName (Utf8.encode ['v']) := by decide
  exact valid

theorem validText_staging : ValidText (".staging-".toList ++ ['0']) := by
  have valid : ValidName (Utf8.encode (".staging-".toList ++ ['0'])) := by
    decide
  exact valid

theorem v_ne_staging : ['v'] ≠ ".staging-".toList ++ ['0'] := by simp

theorem mod_microseconds_lt (microseconds : Nat) :
    microseconds % 1000000 * 1000 < 1000000000 := by omega

/-- The super-user extracts to `/v`, on a file system that keeps
microseconds. -/
def toTop : Extractor where
  process := { privileged := true, now := .whole 1, refuses := fun _ => false }
  stores seconds :=
    { seconds := Int64.ofNat (⌊seconds * 1000000⌋₊ / 1000000)
      nanoseconds := ⌊seconds * 1000000⌋₊ % 1000000 * 1000
      below := mod_microseconds_lt ⌊seconds * 1000000⌋₊ }
  remnants := .all
  parent := []
  name := ['v']
  uuid := ['0']
  validName := validText_v
  validStaging := validText_staging
  different := v_ne_staging

/-- A directory `v` with a file `o` in it. -/
def oldDestination : FileSystem :=
  ((FileSystem.bare 0o755 (.whole 0)).place [] [118]
    (.directory 0o755 (.whole 0)) [] (by decide) trivial).place [[118]] [111]
      (.file 0) [{ mode := 0o644, mtime := .whole 1, content := [9] }]
      (by decide) (by decide)

/-- A directory `d` and a file `d/f`. -/
def twoEntries : List Entry :=
  [{ path := [100], type := typeDirectory, mode := 0o750, mtimeNs := 5000000
     payload := [] },
   { path := [100, 47, 102], type := typeFile, mode := 0o640
     mtimeNs := 3000000000, payload := [1, 2] }]

theorem extraction_of_twoEntries :
    ∃ answer after, toTop.extractCfs (.ok (archive twoEntries))
        oldDestination = (answer, after) ∧
      ((∃ error, answer = .error error ∧
          Unharmed oldDestination toTop.home after) ∨
        ∃ bytes, answer = .ok () ∧
          Except.ok (archive twoEntries) =
            (Except.ok bytes : Except Thrown Bytes) ∧
          toTop.Extracted oldDestination bytes after) := by
  cases ran : toTop.extractCfs (.ok (archive twoEntries)) oldDestination with
  | mk answer after =>
      refine ⟨answer, after, rfl, ?_⟩
      exact extraction_all_or_nothing ⟨rfl, rfl⟩ (by decide +kernel) ran

end Extractor

end Electrosphere.Cfs
