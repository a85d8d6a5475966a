import Electrosphere.Storage.ExtractionSteps

/-!
# Whole extractions

The loop reads the entries of an archive one after the other; what it leaves
is the tree that they describe together.  Whatever the archive says, nothing
happens away from the directory of the destination.
-/

namespace Electrosphere.Cfs

open Foundation FileSystem Workspace

/-- The entries that an archive holds from an offset on. -/
inductive Reads (bytes : Bytes) : Nat → List (EntryHeader × Bytes) → Prop
  | done {offset : Nat} (atEnd : bytes.length ≤ offset) : Reads bytes offset []
  | entry {offset next : Nat} {header : EntryHeader}
      {rest : List (EntryHeader × Bytes)} (more : offset < bytes.length)
      (isHeader : readHeader bytes offset = .ok (header, next))
      (whole : next + header.payloadLength ≤ bytes.length)
      (later : Reads bytes (next + header.payloadLength) rest) :
      Reads bytes offset
        ((header, subarray bytes next (next + header.payloadLength)) :: rest)

theorem readHeader_eq_ok {bytes : Bytes} {offset next : Nat}
    {header : EntryHeader}
    (isHeader : readHeader bytes offset = .ok (header, next)) :
    SafePath header.path ∧ offset < next ∧ next ≤ bytes.length := by
  rw [readHeader] at isHeader
  split at isHeader
  · cases isHeader
  · obtain ⟨pathLength, -, isHeader⟩ := bind_eq_ok_iff.mp isHeader
    dsimp only at isHeader
    split at isHeader
    · cases isHeader
    · next fits =>
        obtain ⟨mode, -, isHeader⟩ := bind_eq_ok_iff.mp isHeader
        obtain ⟨mtimeNs, -, isHeader⟩ := bind_eq_ok_iff.mp isHeader
        obtain ⟨payloadLength, -, isHeader⟩ := bind_eq_ok_iff.mp isHeader
        split at isHeader
        · cases isHeader
        · split at isHeader
          · cases isHeader
          · obtain ⟨_, validated, isHeader⟩ := bind_eq_ok_iff.mp isHeader
            cases isHeader
            refine ⟨safePath_of_validate validated, ?_, ?_⟩
            · omega
            · omega

namespace Extractor

variable {extractor : Extractor} {start : FileSystem} {overlay : Overlay}
  {progress : Progress} {bytes : Bytes} {pre : FileSystem → Prop}

/-- What some entries add to the tree together. -/
def describeAll (extractor : Extractor) (overlay : Overlay)
    (entries : List (EntryHeader × Bytes)) : Overlay :=
  entries.foldl (fun overlay entry =>
    extractor.describe overlay entry.1 entry.2) overlay

/-! ## The loop -/

theorem ensures_extractEntries {fuel offset : Nat}
    (enough : bytes.length ≤ offset + fuel)
    (recorded : extractor.Recorded overlay progress) :
    Effect.Ensures (extractor.Laid start overlay)
      (extractor.extractEntries bytes fuel offset progress)
      (fun later fs => ∃ entries, Reads bytes offset entries ∧
        extractor.Recorded (extractor.describeAll overlay entries) later ∧
        extractor.Laid start (extractor.describeAll overlay entries) fs)
      fun _ => Confined start extractor.root := by
  induction fuel generalizing offset overlay progress with
  | zero =>
      apply Effect.ensures_pure
      intro fs laid
      exact ⟨[], .done enough, recorded, laid⟩
  | succ fuel induction =>
      rw [extractEntries]
      by_cases more : offset < bytes.length
      · rw [if_pos more]
        apply Effect.ensures_bind fun decoded fs =>
          readHeader bytes offset = .ok decoded ∧
            extractor.Laid start overlay fs
        · apply Effect.ensures_ofExcept
          · exact fun _ isHeader fs laid => ⟨isHeader, laid⟩
          · exact fun _ _ fs laid => laid.confined
        rintro ⟨header, next⟩
        apply Effect.ensures_of_and
        intro isHeader
        obtain ⟨safe, further, -⟩ := readHeader_eq_ok isHeader
        dsimp only
        by_cases whole : bytes.length < next + header.payloadLength
        · rw [if_pos whole]
          exact Effect.ensures_fail fun fs laid => laid.confined
        · rw [if_neg whole]
          apply Effect.ensures_bind _ (ensures_extractEntry safe recorded)
          intro later
          apply Effect.ensures_of_and
          intro recordedLater
          apply (induction (by omega) recordedLater).mono
            (fun _ laid => laid) _ fun _ _ confined => confined
          rintro last fs ⟨entries, reads, recordedLast, laid⟩
          refine ⟨_, .entry more isHeader (Nat.not_lt.mp whole) reads,
            recordedLast, laid⟩
      · rw [if_neg more]
        apply Effect.ensures_pure
        intro fs laid
        exact ⟨[], .done (Nat.not_lt.mp more), recorded, laid⟩

theorem ensures_setDirectoryTimes {times : List (List Text × Nat)}
    (known : ∀ output mtimeNs, (output, mtimeNs) ∈ times →
      ∃ path mode, output = extractor.staging ++ parts path ∧
        overlay.shape (location path) = some (.directory mode)) :
    Effect.Ensures (extractor.Laid start overlay)
      (extractor.setDirectoryTimes times)
      (fun _ => extractor.Laid start overlay)
      fun _ => Confined start extractor.root := by
  induction times with
  | nil => exact Effect.ensures_pure fun _ laid => laid
  | cons first times induction =>
      obtain ⟨output, mtimeNs⟩ := first
      obtain ⟨path, mode, isOutput, isShape⟩ :=
        known output mtimeNs List.mem_cons_self
      rw [setDirectoryTimes, isOutput]
      apply Effect.ensures_bind _ (ensures_changeTimes_directory isShape)
      intro _
      apply induction
      intro other time member
      exact known other time (List.mem_cons_of_mem _ member)

/-! ## Away from the destination -/

section Confinement

variable {name other : Text}

/-- The directory of the destination. -/
def home (extractor : Extractor) : Location := encodePath extractor.parent

theorem encodePath_home (name : Text) :
    encodePath (extractor.parent ++ [name]) =
      extractor.home ++ [Utf8.encode name] :=
  encodePath_append _ _

theorem ensures_remove (valid : ValidText name) :
    Effect.Ensures (Confined start extractor.home)
      (extractor.remove (extractor.parent ++ [name]))
      (fun _ => Confined start extractor.home)
      fun _ => Confined start extractor.home := by
  intro fs confined
  rw [remove, encodePath_home]
  split
  · next cleared removed =>
      constructor
      · intro _ later same
        cases same
        rcases removeTree_eq_ok confined.directory valid removed with rfl | rfl
        · exact confined
        · exact confined.removed.touched _
      · intro error later same
        cases same
  · next errno place failed =>
      constructor
      · intro _ later same
        cases same
      · intro error later same
        cases same
        rcases removeTree_eq_error confined.directory valid failed with
          rfl | rfl
        · exact confined
        · exact confined.left _

theorem ensures_moveTree (valid : ValidText name) (validOther : ValidText other) :
    Effect.Ensures (Confined start extractor.home)
      (extractor.moveTree (extractor.parent ++ [name])
        (extractor.parent ++ [other]))
      (fun _ => Confined start extractor.home)
      fun _ => Confined start extractor.home := by
  apply ensures_syscall
  · intro fs confined after renamed
    rw [encodePath_home, encodePath_home] at renamed
    obtain ⟨free, apart, rfl⟩ :=
      renameTree_eq_ok confined.directory valid validOther renamed
    exact ((confined.moved free apart).touched _).touched _
  · exact fun fs confined => confined

/-- The staging directory is made: it is empty, and it is below the directory
of the destination. -/
theorem ensures_makeStaging :
    Effect.Ensures (Confined start extractor.home)
      (extractor.makeDirectory extractor.staging 0o700)
      (fun _ fs => ∃ begun, Confined start extractor.home begun ∧
        extractor.Laid begun .empty fs)
      fun _ => Confined start extractor.home := by
  apply ensures_syscall
  · intro fs confined after made
    rw [staging, encodePath_home] at made
    obtain ⟨place, resolved, created⟩ := bind_eq_ok_iff.mp made
    have isHere := eq_of_resolve_concat confined.directory
      extractor.validStaging resolved
    rw [isHere] at created
    have created := created_of_create created
    have isRoot : extractor.root = extractor.home ++
        [Utf8.encode (".staging-".toList ++ extractor.uuid)] :=
      encodePath_home _
    refine ⟨after, confined.created (by simp) created, fun _ => 0, ?_⟩
    rw [isRoot]
    apply lays_empty
    · rw [isDirectory, created.node, if_pos rfl]
      rfl
    · exact fun path notRoot => created.vacant notRoot
  · exact fun fs confined => confined

theorem ensures_extractStaged {begun : FileSystem}
    (earlier : Confined start extractor.home begun) :
    Effect.Ensures (extractor.Laid begun .empty) (extractor.extractStaged bytes)
      (fun _ => Confined start extractor.home)
      fun _ => Confined start extractor.home := by
  have within : ∀ fs, Confined begun extractor.root fs →
      Confined start extractor.home fs := by
    intro fs confined
    rw [root, staging, encodePath_home] at confined
    exact earlier.within confined
  have enough : bytes.length ≤ magic.length + bytes.length :=
    Nat.le_add_left _ _
  apply Effect.ensures_bind _
    ((ensures_extractEntries enough recorded_empty).mono (fun _ laid => laid)
      (fun _ _ held => held) fun _ fs confined => within fs confined)
  intro progress
  apply Effect.ensures_of_exists
  intro entries
  apply Effect.ensures_of_and
  intro _
  apply Effect.ensures_of_and
  intro recorded
  apply Effect.ensures_bind fun _ => Confined start extractor.home
  · apply (ensures_setDirectoryTimes _).mono (fun _ laid => laid)
      (fun _ fs laid => within fs laid.confined)
      fun _ fs confined => within fs confined
    intro output mtimeNs member
    exact recorded.directories output mtimeNs (List.mem_reverse.mp member)
  · intro _
    apply Effect.ensures_bind _ (ensures_remove extractor.validName)
    intro _
    exact ensures_moveTree extractor.validStaging extractor.validName

/-- Whatever the archive is, only the directory of the destination is worked
in. -/
theorem ensures_extractCfs {object : Except Thrown Bytes} :
    Effect.Ensures (Confined start extractor.home)
      (extractor.extractCfs object)
      (fun _ => Confined start extractor.home)
      fun _ => Confined start extractor.home := by
  apply Effect.ensures_bind fun _ => Confined start extractor.home
  · apply Effect.ensures_ofExcept
    · exact fun _ _ fs confined => confined
    · exact fun _ _ fs confined => confined
  intro bytes
  split
  · exact Effect.ensures_fail fun fs confined => confined
  · apply Effect.ensures_bind _ ensures_makeStaging
    intro _
    apply Effect.ensures_of_exists
    intro begun
    apply Effect.ensures_of_and
    intro earlier
    apply Effect.ensures_handle _ (ensures_extractStaged earlier)
    intro error
    apply Effect.ensures_bind _ (ensures_remove extractor.validStaging)
    intro _
    exact Effect.ensures_fail fun fs confined => confined

theorem ensures_materializeCfs {object : Except Thrown Bytes} :
    Effect.Ensures (Confined start extractor.home)
      (extractor.materializeCfs object)
      (fun _ => Confined start extractor.home)
      fun _ => Confined start extractor.home := by
  apply Effect.ensures_bind _
    (ensures_makeAbove fun fs confined => confined.directory)
  intro _
  exact ensures_extractCfs

end Confinement

/-- An archive begins with its magic. -/
theorem not_ok_of_magic {fs after : FileSystem}
    (invalid : bytes.take magic.length ≠ magic) :
    extractor.materializeCfs (.ok bytes) fs ≠ (.ok (), after) := by
  intro materialized
  obtain ⟨_, made, -, extracted⟩ := Effect.run_bind_eq_ok_iff.mp materialized
  obtain ⟨read, opened, isRead, extracted⟩ :=
    Effect.run_bind_eq_ok_iff.mp extracted
  cases isRead
  rw [if_pos invalid] at extracted
  cases extracted

end Extractor

end Electrosphere.Cfs
