import Electrosphere.Storage.ArchiveReading

/-!
# The times of directories

Making an entry changes the time of the directory it is made in, so the times
of directories are set when all entries are there.  Each directory gets the
time of its entry.
-/

namespace Electrosphere.Cfs

open Foundation FileSystem Workspace

namespace Extractor

variable {extractor : Extractor} {start : FileSystem} {overlay : Overlay}

/-- The directories that some entries have been made for, with their times. -/
def datings (extractor : Extractor) (entries : List (EntryHeader × Bytes)) :
    List (List Text × Nat) :=
  (entries.filter fun entry => entry.1.type = typeDirectory).map fun entry =>
    (extractor.staging ++ parts entry.1.path, entry.1.mtimeNs)

/-- Directories have their times. -/
def Dated (extractor : Extractor) (times : List (List Text × Nat))
    (fs : FileSystem) : Prop :=
  ∀ output mtimeNs, (output, mtimeNs) ∈ times →
    ∃ mode, fs.node (encodePath output) =
      some (.directory mode (extractor.time mtimeNs))

/-! ## What the loop keeps -/

section Runs

variable {fs after : FileSystem} {progress later : Progress}
  {header : EntryHeader} {payload bytes : Bytes}

/-- An entry that has been made is noted, and nothing stood at its path. -/
theorem noted_of_extractEntry (safe : SafePath header.path)
    (recorded : extractor.Recorded overlay progress)
    (laid : extractor.Laid start overlay fs)
    (extracted : extractor.extractEntry progress header payload fs =
      (.ok later, after)) :
    later = extractor.note progress header ∧
      (overlay.ensureAll 0o700 [] (location header.path).dropLast).shape
        (location header.path) = none := by
  obtain ⟨_, _, checked, extracted⟩ := Effect.run_bind_eq_ok_iff.mp extracted
  obtain ⟨passed, rfl⟩ := Prod.mk.inj checked
  have noLink := recorded.noLinkAbove passed
  obtain ⟨output, _, placed, extracted⟩ :=
    Effect.run_bind_eq_ok_iff.mp extracted
  obtain ⟨isOutput, rfl⟩ := Prod.mk.inj placed
  rw [eq_of_safeDestination safe isOutput] at extracted
  obtain ⟨_, ensured, isEnsured, extracted⟩ :=
    Effect.run_bind_eq_ok_iff.mp extracted
  have stands := (ensures_makeDirectories safe noLink _ laid).1 _ _ isEnsured
  have attached : extractor.Attaches start
      (overlay.ensureAll 0o700 [] (location header.path).dropLast) progress
      header payload :=
    attaches_of_recorded (recorded.ensureAll 0o700 [] _) safe noLink.ensureAll
  exact ((attached _ stands).1 later after extracted).1

theorem noted_of_extractEntries {fuel offset : Nat}
    {entries : List (EntryHeader × Bytes)}
    (enough : bytes.length ≤ offset + fuel) (reads : Reads bytes offset entries)
    (recorded : extractor.Recorded overlay progress)
    (laid : extractor.Laid start overlay fs)
    (distinct : (progress.directoryTimes.map Prod.fst).Nodup)
    (extracted : extractor.extractEntries bytes fuel offset progress fs =
      (.ok later, after)) :
    later.directoryTimes = progress.directoryTimes ++
        extractor.datings entries ∧
      (later.directoryTimes.map Prod.fst).Nodup := by
  induction reads generalizing fuel progress overlay fs with
  | done atEnd =>
      have same : later = progress := by
        cases fuel with
        | zero =>
            cases extracted
            rfl
        | succ fuel =>
            rw [extractEntries, if_neg (Nat.not_lt.mpr atEnd)] at extracted
            cases extracted
            rfl
      rw [same]
      exact ⟨(List.append_nil _).symm, distinct⟩
  | @entry offset next header rest more isHeader whole reads induction =>
      obtain ⟨safe, further, -⟩ := readHeader_eq_ok isHeader
      cases fuel with
      | zero => omega
      | succ fuel =>
          rw [extractEntries, if_pos more, isHeader] at extracted
          obtain ⟨decoded, stood, isDecoded, extracted⟩ :=
            Effect.run_bind_eq_ok_iff.mp extracted
          cases isDecoded
          dsimp only at extracted
          rw [if_neg (Nat.not_lt.mpr whole)] at extracted
          obtain ⟨noted, made, isMade, extracted⟩ :=
            Effect.run_bind_eq_ok_iff.mp extracted
          obtain ⟨rfl, absent⟩ := noted_of_extractEntry safe recorded laid
            isMade
          obtain ⟨recordedLater, laidLater⟩ :=
            (ensures_extractEntry safe recorded _ laid).1 _ _ isMade
          have fresh : extractor.staging ++ parts header.path ∉
              progress.directoryTimes.map Prod.fst := by
            intro member
            obtain ⟨⟨output, mtimeNs⟩, isTime, same⟩ := List.mem_map.mp member
            have ensured := recorded.ensureAll 0o700 []
              (location header.path).dropLast
            obtain ⟨path, mode, isOutput, isShape⟩ :=
              ensured.directories output mtimeNs isTime
            change output = _ at same
            rw [isOutput, List.append_cancel_left_eq] at same
            have samePlace : location path = location header.path :=
              congrArg encodePath same
            rw [samePlace, absent] at isShape
            cases isShape
          have nodup : ((extractor.note progress header).directoryTimes.map
              Prod.fst).Nodup := by
            rw [note]
            dsimp only
            split
            · rw [List.map_append, List.nodup_append]
              refine ⟨distinct, List.nodup_singleton _, ?_⟩
              rintro first isFirst second isSecond rfl
              rw [List.map_singleton, List.mem_singleton] at isSecond
              rw [isSecond] at isFirst
              exact fresh isFirst
            · exact distinct
          obtain ⟨isLater, later⟩ := induction (by omega) recordedLater
            laidLater nodup extracted
          refine ⟨?_, later⟩
          rw [isLater, datings, datings, List.filter_cons, note]
          dsimp only
          by_cases isType : header.type = typeDirectory
          · rw [if_pos isType, if_pos (by simpa using isType), List.map_cons,
              List.append_assoc]
            rfl
          · rw [if_neg isType, if_neg (by simpa using isType)]

end Runs

/-! ## Setting the times -/

section Steps

theorem ensures_decoding {bytes : Bytes} :
    Effect.Ensures (extractor.Laid start .empty)
      (extractor.extractEntries bytes bytes.length magic.length {})
      (fun later fs => ∃ entries, Reads bytes magic.length entries ∧
        (extractor.Recorded (extractor.describeAll .empty entries) later ∧
          later.directoryTimes = extractor.datings entries ∧
          (later.directoryTimes.map Prod.fst).Nodup) ∧
        extractor.Laid start (extractor.describeAll .empty entries) fs)
      fun _ => Confined start extractor.root := by
  have enough : bytes.length ≤ magic.length + bytes.length :=
    Nat.le_add_left _ _
  intro fs laid
  obtain ⟨isDone, isFailed⟩ :=
    ensures_extractEntries enough recorded_empty fs laid
  constructor
  · intro later after extracted
    obtain ⟨entries, reads, recorded, laidLater⟩ :=
      isDone later after extracted
    refine ⟨entries, reads, ⟨recorded, ?_⟩, laidLater⟩
    exact noted_of_extractEntries enough reads recorded_empty laid
      List.nodup_nil extracted
  · exact isFailed

/-- Setting the time of a directory leaves those of the others. -/
theorem ensures_changeTimes_dated {path : Text} {mode mtimeNs : Nat}
    {done : List (List Text × Nat)}
    (isShape : overlay.shape (location path) = some (.directory mode))
    (other : extractor.staging ++ parts path ∉ done.map Prod.fst) :
    Effect.Ensures
      (fun fs => extractor.Dated done fs ∧ extractor.Laid start overlay fs)
      (extractor.changeTimes (extractor.staging ++ parts path) mtimeNs)
      (fun _ fs => extractor.Dated
          (done ++ [(extractor.staging ++ parts path, mtimeNs)]) fs ∧
        extractor.Laid start overlay fs)
      fun _ => Confined start extractor.root := by
  have isHere : overlay.shape (encodePath (parts path)) =
      some (.directory mode) := isShape
  apply ensures_syscall
  · rintro fs ⟨dated, number, lays⟩ after changed
    rw [encodePath_staging] at changed
    obtain ⟨place, resolved, -, rfl⟩ := setAttributes_eq_ok changed
    have isPlace := lays.eq_of_resolve (lays.validName isHere)
      (lays.noLinkAbove isHere) (by simp [isHere]) resolved
    have adjusted := lays.adjust_directory isHere id
      fun _ => extractor.time mtimeNs
    rw [id, Overlay.put_eq_self isHere] at adjusted
    rw [isPlace]
    refine ⟨?_, number, adjusted⟩
    intro output time member
    rcases List.mem_append.mp member with earlier | isLast
    · obtain ⟨held, found⟩ := dated output time earlier
      refine ⟨held, ?_⟩
      rw [node_adjust_of_ne]
      · exact found
      · rw [← encodePath_staging]
        intro same
        rw [encodePath_injective same] at earlier
        exact other (List.mem_map_of_mem (f := Prod.fst) earlier)
    · cases List.mem_singleton.mp isLast
      obtain ⟨held, found⟩ := lays.node_directory isHere
      refine ⟨mode, ?_⟩
      rw [encodePath_staging, node_adjust, if_pos rfl, found]
      rfl
  · exact fun fs both => both.2.confined

theorem ensures_setDirectoryTimes_dated {done times : List (List Text × Nat)}
    (known : ∀ output mtimeNs, (output, mtimeNs) ∈ times →
      ∃ path mode, output = extractor.staging ++ parts path ∧
        overlay.shape (location path) = some (.directory mode))
    (distinct : ((done ++ times).map Prod.fst).Nodup) :
    Effect.Ensures
      (fun fs => extractor.Dated done fs ∧ extractor.Laid start overlay fs)
      (extractor.setDirectoryTimes times)
      (fun _ fs => extractor.Dated (done ++ times) fs ∧
        extractor.Laid start overlay fs)
      fun _ => Confined start extractor.root := by
  induction times generalizing done with
  | nil =>
      rw [List.append_nil]
      exact Effect.ensures_pure fun _ both => both
  | cons first times induction =>
      obtain ⟨output, mtimeNs⟩ := first
      obtain ⟨path, mode, rfl, isShape⟩ :=
        known output mtimeNs List.mem_cons_self
      have other : extractor.staging ++ parts path ∉ done.map Prod.fst := by
        intro member
        rw [List.map_append, List.nodup_append] at distinct
        exact distinct.2.2 _ member _ List.mem_cons_self rfl
      rw [setDirectoryTimes]
      apply Effect.ensures_bind _ (ensures_changeTimes_dated isShape other)
      intro _
      have whole := List.append_cons done
        (extractor.staging ++ parts path, mtimeNs) times
      rw [whole] at distinct
      rw [whole]
      apply induction _ distinct
      intro held time member
      exact known held time (List.mem_cons_of_mem _ member)

end Steps

end Extractor

end Electrosphere.Cfs
