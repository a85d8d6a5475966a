import Electrosphere.Storage.ExtractionRuns

/-!
# Reading an archive

The decode loop takes the bytes of an archive for exactly the entries that the
format puts there, and it takes nothing else.
-/

namespace Electrosphere.Cfs

open Foundation FileSystem Workspace

variable {bytes buffer : Bytes} {offset next : Nat}

/-! ## Numbers and headers -/

theorem readNumber_eq_ok_iff {width value : Nat} (some : 0 < width) :
    readNumber width buffer offset = .ok value ↔
      value < 256 ^ width ∧ buffer.drop offset =
        bigEndian width value ++ buffer.drop (offset + width) := by
  rw [readNumber]
  constructor
  · intro isRead
    split at isRead
    · next fits =>
        cases isRead
        have full : ((buffer.drop offset).take width).length = width := by
          rw [List.length_take, List.length_drop]
          omega
        have small := ofBigEndian_lt ((buffer.drop offset).take width)
        have same := bigEndian_ofBigEndian ((buffer.drop offset).take width)
        rw [full] at small same
        refine ⟨small, ?_⟩
        rw [same, ← List.drop_drop, List.take_append_drop]
    · cases isRead
  · rintro ⟨small, isNumber⟩
    have counted := congrArg List.length isNumber
    rw [List.length_append, length_bigEndian, List.length_drop,
      List.length_drop] at counted
    rw [if_pos (by omega), isNumber, List.take_left' (length_bigEndian _ _),
      ofBigEndian_bigEndian_of_lt small]

theorem drop_add_length {first rest : Bytes}
    (isFirst : buffer.drop offset = first ++ rest) :
    buffer.drop (offset + first.length) = rest := by
  rw [← List.drop_drop, isFirst, List.drop_left]

/-- A number that has been written is read. -/
theorem readNumber_of_drop {width value : Nat} {rest : Bytes}
    (some : 0 < width) (small : value < 256 ^ width)
    (isNumber : buffer.drop offset = bigEndian width value ++ rest) :
    readNumber width buffer offset = .ok value ∧
      buffer.drop (offset + width) = rest := by
  have later := drop_add_length isNumber
  rw [length_bigEndian] at later
  refine ⟨(readNumber_eq_ok_iff some).mpr ⟨small, ?_⟩, later⟩
  rw [later, isNumber]

theorem subarray_append {first rest : Bytes}
    (isFirst : buffer.drop offset = first ++ rest) :
    subarray buffer offset (offset + first.length) = first := by
  rw [subarray, isFirst, Nat.add_sub_cancel_left, List.take_left]

theorem subarray_append_drop (ordered : offset ≤ next)
    (within : next ≤ buffer.length) :
    (subarray buffer offset next).length = next - offset ∧
      buffer.drop offset =
        subarray buffer offset next ++ buffer.drop next := by
  have same : offset + (next - offset) = next := by omega
  constructor
  · rw [subarray, List.length_take, List.length_drop]
    omega
  · have split := List.take_append_drop (next - offset) (buffer.drop offset)
    rw [List.drop_drop, same] at split
    exact split.symm

/-- What the loop makes of a header. -/
def Header.decoded (header : Header) : EntryHeader where
  path := Utf8.decodeLossy header.path
  type := header.type
  mode := header.mode
  mtimeNs := header.mtimeNs
  payloadLength := header.payloadLength

/-- The headers that the loop does not reject. -/
structure Header.Taken (header : Header) : Prop where
  sized : header.Sized
  safeLength : header.payloadLength ≤ maxSafeInteger
  mode : header.mode &&& 0o6000 = 0
  path : validateRelativePath (Utf8.decodeLossy header.path) = .ok ()

theorem readHeader_eq_ok_iff {held : EntryHeader} :
    readHeader bytes offset = .ok (held, next) ↔
      ∃ header : Header, header.Taken ∧ held = header.decoded ∧
        next = offset + header.encode.length ∧
        bytes.drop offset = header.encode ++ bytes.drop next := by
  constructor
  · intro isHeader
    have further := (readHeader_eq_ok isHeader).2.2
    rw [readHeader] at isHeader
    split at isHeader
    · cases isHeader
    obtain ⟨pathLength, isLength, isHeader⟩ := bind_eq_ok_iff.mp isHeader
    dsimp only at isHeader
    split at isHeader
    · cases isHeader
    next fits =>
    obtain ⟨mode, isMode, isHeader⟩ := bind_eq_ok_iff.mp isHeader
    obtain ⟨mtimeNs, isTime, isHeader⟩ := bind_eq_ok_iff.mp isHeader
    obtain ⟨payloadLength, isPayload, isHeader⟩ := bind_eq_ok_iff.mp isHeader
    split at isHeader
    · cases isHeader
    next safeLength =>
    split at isHeader
    · cases isHeader
    next plainMode =>
    obtain ⟨_, validated, isHeader⟩ := bind_eq_ok_iff.mp isHeader
    cases isHeader
    obtain ⟨pathSmall, atPath⟩ :=
      (readNumber_eq_ok_iff (by decide)).mp isLength
    obtain ⟨modeSmall, atMode⟩ := (readNumber_eq_ok_iff (by decide)).mp isMode
    obtain ⟨timeSmall, atTime⟩ := (readNumber_eq_ok_iff (by decide)).mp isTime
    obtain ⟨payloadSmall, atPayload⟩ :=
      (readNumber_eq_ok_iff (by decide)).mp isPayload
    have inside : offset + 4 + pathLength < bytes.length := by omega
    obtain ⟨pathCounted, split⟩ := subarray_append_drop
      (Nat.le_add_right (offset + 4) pathLength) inside.le
    have isType : bytes.drop (offset + 4 + pathLength) =
        bigEndian 1 bytes[offset + 4 + pathLength].toNat ++
          bytes.drop (offset + 4 + pathLength + 1) := by
      rw [List.drop_eq_getElem_cons inside]
      simp [bigEndian]
    refine ⟨{ path := subarray bytes (offset + 4) (offset + 4 + pathLength)
              type := bytes[offset + 4 + pathLength].toNat
              mode
              mtimeNs
              payloadLength }, ⟨⟨?_, ?_, modeSmall, timeSmall, payloadSmall⟩,
      by dsimp only; omega, not_not.mp plainMode, validated⟩, ?_, ?_, ?_⟩
    · rw [pathCounted]
      omega
    · exact UInt8.toNat_lt _
    · simp [Header.decoded, List.getElem?_eq_getElem inside]
    · rw [Header.length_encode, pathCounted]
      omega
    · rw [Header.encode, pathCounted, Nat.add_sub_cancel_left, atPath, split,
        isType, atMode, atTime, atPayload]
      simp only [List.append_assoc]
  · rintro ⟨header, taken, rfl, rfl, isEncoded⟩
    have counted := congrArg List.length isEncoded
    rw [List.length_append, Header.length_encode, List.length_drop,
      List.length_drop] at counted
    have sized := taken.sized
    rw [Header.encode] at isEncoded
    simp only [List.append_assoc] at isEncoded
    obtain ⟨isLength, atPath⟩ :=
      readNumber_of_drop (by decide) sized.path isEncoded
    have isPath := subarray_append atPath
    obtain ⟨isType, atMode⟩ :=
      readNumber_of_drop (by decide) sized.type (drop_add_length atPath)
    obtain ⟨isMode, atTime⟩ := readNumber_of_drop (by decide) sized.mode atMode
    obtain ⟨isTime, atPayload⟩ :=
      readNumber_of_drop (by decide) sized.mtimeNs atTime
    obtain ⟨isPayload, -⟩ :=
      readNumber_of_drop (by decide) sized.payloadLength atPayload
    have long : offset + header.path.length + 25 ≤ bytes.length := by
      by_contra short
      omega
    have typeByte : (bytes[offset + 4 + header.path.length]?).elim 0
        UInt8.toNat = header.type := by
      have isByte := congrArg List.head? (drop_add_length atPath)
      rw [List.head?_drop] at isByte
      rw [isByte]
      have fits := sized.type
      simp only [bigEndian, List.cons_append, List.head?_cons, Option.elim_some,
        pow_zero, Nat.div_one, UInt8.toNat_ofNat']
      exact Nat.mod_eq_of_lt fits
    rw [readHeader, if_neg (by omega)]
    refine bind_eq_ok_iff.mpr ⟨_, isLength, ?_⟩
    dsimp only
    rw [if_neg (by omega), isPath, typeByte]
    refine bind_eq_ok_iff.mpr ⟨_, isMode, ?_⟩
    refine bind_eq_ok_iff.mpr ⟨_, isTime, ?_⟩
    refine bind_eq_ok_iff.mpr ⟨_, isPayload, ?_⟩
    rw [if_neg (Nat.not_lt.mpr taken.safeLength),
      if_neg (not_not_intro taken.mode)]
    refine bind_eq_ok_iff.mpr ⟨(), taken.path, ?_⟩
    rw [Header.length_encode]
    exact congrArg (fun stop => Except.ok (header.decoded, stop)) (by omega)

/-! ## Whole archives -/

/-- The entries that the loop reads where these have been written. -/
def decodedEntries (entries : List Entry) : List (EntryHeader × Bytes) :=
  entries.map fun entry => (entry.header.decoded, entry.payload)

theorem reads_iff {held : List (EntryHeader × Bytes)} (within : offset ≤ bytes.length) :
    Reads bytes offset held ↔
      ∃ entries : List Entry, (∀ entry ∈ entries, entry.header.Taken) ∧
        held = decodedEntries entries ∧
        bytes.drop offset = entries.flatMap Entry.encode := by
  constructor
  · intro reads
    induction reads with
    | done atEnd =>
        refine ⟨[], by simp, rfl, ?_⟩
        rw [List.drop_eq_nil_of_le atEnd]
        rfl
    | @entry offset next held rest more isHeader whole later induction =>
        obtain ⟨header, taken, rfl, isNext, isEncoded⟩ :=
          readHeader_eq_ok_iff.mp isHeader
        obtain ⟨entries, allTaken, rfl, areEncoded⟩ := induction whole
        obtain ⟨counted, split⟩ := subarray_append_drop
          (Nat.le_add_right next header.decoded.payloadLength) whole
        rw [Nat.add_sub_cancel_left] at counted
        have same : (header.entry (subarray bytes next
            (next + header.decoded.payloadLength))).header = header := by
          rw [Entry.header, Header.entry, counted]
          rfl
        refine ⟨header.entry (subarray bytes next
          (next + header.decoded.payloadLength)) :: entries, ?_, ?_, ?_⟩
        · rw [List.forall_mem_cons, same]
          exact ⟨taken, allTaken⟩
        · rw [decodedEntries, decodedEntries, List.map_cons, same]
          rfl
        · rw [List.flatMap_cons, Entry.encode, same, isEncoded, split,
            areEncoded, List.append_assoc]
          rfl
  · rintro ⟨entries, allTaken, rfl, areEncoded⟩
    induction entries generalizing offset with
    | nil =>
        apply Reads.done
        have counted := congrArg List.length areEncoded
        rw [List.length_drop] at counted
        exact Nat.le_of_sub_eq_zero counted
    | cons entry entries induction =>
        obtain ⟨taken, laterTaken⟩ := List.forall_mem_cons.mp allTaken
        rw [List.flatMap_cons, Entry.encode, List.append_assoc] at areEncoded
        have later := drop_add_length areEncoded
        have isPayload := subarray_append later
        have rest := drop_add_length later
        have counted := congrArg List.length areEncoded
        simp only [List.length_append, Header.length_encode, List.length_drop]
          at counted
        have isHeader : readHeader bytes offset = .ok (entry.header.decoded,
            offset + entry.header.encode.length) := by
          apply readHeader_eq_ok_iff.mpr
          exact ⟨entry.header, taken, rfl, rfl, by rw [later, areEncoded]⟩
        have whole : offset + entry.header.encode.length +
            entry.header.decoded.payloadLength ≤ bytes.length := by
          rw [Header.length_encode]
          change _ + entry.payload.length ≤ _
          omega
        have reads := Reads.entry (by omega) isHeader whole
          (induction whole laterTaken rest)
        rwa [show subarray bytes (offset + entry.header.encode.length)
          (offset + entry.header.encode.length +
            entry.header.decoded.payloadLength) = entry.payload from isPayload]
          at reads

/-- The loop goes through all of some bytes exactly if they are an archive, and
takes its entries for what they are. -/
theorem reads_archive_iff {held : List (EntryHeader × Bytes)} :
    bytes.take magic.length = magic ∧ Reads bytes magic.length held ↔
      ∃ entries : List Entry, bytes = archive entries ∧
        (∀ entry ∈ entries, entry.header.Taken) ∧
        held = decodedEntries entries := by
  constructor
  · rintro ⟨isMagic, reads⟩
    have within : magic.length ≤ bytes.length := by
      have counted := congrArg List.length isMagic
      rw [List.length_take] at counted
      omega
    obtain ⟨entries, allTaken, isHeld, areEncoded⟩ := (reads_iff within).mp reads
    refine ⟨entries, ?_, allTaken, isHeld⟩
    have split := List.take_append_drop magic.length bytes
    rw [isMagic, areEncoded] at split
    exact split.symm
  · rintro ⟨entries, rfl, allTaken, rfl⟩
    constructor
    · exact List.take_left
    · apply (reads_iff _).mpr
      · exact ⟨entries, allTaken, rfl, List.drop_left⟩
      · rw [archive, List.length_append]
        exact Nat.le_add_right _ _

end Electrosphere.Cfs
