import Electrosphere.Foundation.Outcome
import Electrosphere.Storage.Tar

/-!
# The archive can be read

Every header that `tarHeader` writes is a ustar header with the fields that
it was given, so a reader gets the members of the archive back.
-/

namespace Electrosphere.Tar

open Foundation FileSystem Workspace

/-! ## Filling fields -/

/-- A value in a field, with zeros behind it. -/
def fit (width : Nat) (value : Bytes) : Bytes :=
  value ++ Ustar.zeros (width - value.length)

theorem length_fit {width : Nat} {value : Bytes} (fits : value.length ≤ width) :
    (fit width value).length = width := by
  rw [fit, List.length_append, Ustar.length_zeros]
  omega

theorem fit_of_length {width : Nat} {value : Bytes}
    (counted : value.length = width) : fit width value = value := by
  rw [fit, counted, Nat.sub_self]
  exact List.append_nil _

/-- Values written to the fields one after the other. -/
def writes : Nat → List (Nat × Bytes) → Bytes → Bytes
  | _, [], header => header
  | offset, (width, value) :: fields, header =>
      writes (offset + width) fields (copy value header offset)

/-- Behind what has been written there are zeros, and the next field takes
some of them. -/
theorem writes_eq {fields : List (Nat × Bytes)}
    (fits : ∀ field ∈ fields, field.2.length ≤ field.1) (front : Bytes)
    (more : Nat) :
    writes front.length fields
        (front ++ Ustar.zeros ((fields.map Prod.fst).sum + more)) =
      front ++ ((fields.map fun field => fit field.1 field.2).flatten ++
        Ustar.zeros more) := by
  induction fields generalizing front with
  | nil => simp [writes]
  | cons field fields induction =>
      obtain ⟨fitsFirst, fitsRest⟩ := List.forall_mem_cons.mp fits
      obtain ⟨width, value⟩ := field
      have behind : (Ustar.zeros (width + (fields.map Prod.fst).sum +
          more)).drop value.length = Ustar.zeros (width - value.length) ++
            Ustar.zeros ((fields.map Prod.fst).sum + more) := by
        rw [Ustar.zeros, List.drop_replicate, Ustar.zeros, Ustar.zeros,
          List.replicate_append_replicate]
        congr 1
        dsimp only at fitsFirst
        omega
      have step : copy value (front ++ Ustar.zeros
          (width + (fields.map Prod.fst).sum + more)) front.length =
            front ++ fit width value ++
              Ustar.zeros ((fields.map Prod.fst).sum + more) := by
        rw [copy, List.take_left, ← List.drop_drop, List.drop_left, behind,
          fit]
        simp only [List.append_assoc]
      have later := induction fitsRest (front ++ fit width value)
      rw [List.length_append, length_fit fitsFirst] at later
      rw [List.map_cons, List.sum_cons, writes, step, later, List.map_cons,
        List.flatten_cons]
      simp only [List.append_assoc]

/-- A field is written again. -/
theorem copy_over {front old value rest : Bytes} {offset : Nat}
    (isOffset : front.length = offset) (same : value.length = old.length) :
    copy value (front ++ (old ++ rest)) offset = front ++ (value ++ rest) := by
  subst isOffset
  rw [copy, List.take_left, ← List.drop_drop, List.drop_left, same,
    List.drop_left]

/-! ## Headers -/

theorem writeField_eq_ok_iff {header value next : Bytes} {offset width : Nat} :
    writeField header offset width value = .ok next ↔
      value.length ≤ width ∧ copy value header offset = next := by
  rw [writeField, guard_eq_ok_iff, Nat.not_lt, Except.ok.injEq]

/-- What `octal` writes fills its field and is read as the same number. -/
theorem octal_eq_ok {value width : Nat} {bytes : Bytes}
    (isBytes : octal value (width + 1) = .ok bytes) :
    bytes.length = width + 1 ∧ Ustar.number bytes = some value := by
  have digits : toStringOctal value = Nat.toDigits 8 value := rfl
  rw [octal, guard_eq_ok_iff, digits, Except.ok.injEq, Nat.add_sub_cancel,
    List.length_leftpad] at isBytes
  obtain ⟨fits, rfl⟩ := isBytes
  have split : Ustar.ascii ((Nat.toDigits 8 value).leftpad width '0' ++
      ['\x00']) = Ustar.ascii ((Nat.toDigits 8 value).leftpad width '0') ++
        [0] := List.map_append
  rw [split, List.leftpad]
  constructor
  · simp only [Ustar.ascii, List.length_append, List.length_map,
      List.length_replicate, List.length_singleton]
    omega
  · exact Ustar.number_octal _ value (.inl rfl) []

/-- The header with its numbers. -/
def headerBlock (input : HeaderInput) (mode uid gid size mtime checksum : Bytes) :
    Ustar.Block where
  name := fit 100 (Utf8.encode input.name)
  mode := mode
  uid := uid
  gid := gid
  size := size
  mtime := mtime
  checksum := checksum
  typeflag := Ustar.ascii [input.type]
  linkName := fit 100 (Utf8.encode input.linkName)
  magic := Ustar.magicBytes
  version := Ustar.versionBytes
  owner := fit 32 (Ustar.ascii "code".toList)
  group := fit 32 (Ustar.ascii "code".toList)
  devMajor := Ustar.zeros 8
  devMinor := Ustar.zeros 8
  leading := Ustar.zeros 155
  rest := Ustar.zeros 12

/-- The fields that are written before the sum is taken. -/
def fill (input : HeaderInput) (mode uid gid size mtime : Bytes) : Bytes :=
  let header := copy (Utf8.encode input.name) (List.replicate 512 0) 0
  let header := copy mode header 100
  let header := copy uid header 108
  let header := copy gid header 116
  let header := copy size header 124
  let header := copy mtime header 136
  let header := copy (List.replicate 8 0x20) header 148
  let header := copy (Ustar.ascii [input.type]) header 156
  let header := copy (Utf8.encode input.linkName) header 157
  let header := copy (Ustar.ascii "ustar\x00".toList) header 257
  let header := copy (Ustar.ascii "00".toList) header 263
  let header := copy (Ustar.ascii "code".toList) header 265
  copy (Ustar.ascii "code".toList) header 297

section Filling

variable {input : HeaderInput} {mode uid gid size mtime : Bytes}

/-- The fields that `tarHeader` fills in. -/
structure Fitting (input : HeaderInput) (mode uid gid size mtime : Bytes) :
    Prop where
  name : (Utf8.encode input.name).length ≤ 100
  linkName : (Utf8.encode input.linkName).length ≤ 100
  mode : mode.length = 8
  uid : uid.length = 8
  gid : gid.length = 8
  size : size.length = 12
  mtime : mtime.length = 12

theorem Fitting.sized (fitting : Fitting input mode uid gid size mtime)
    {checksum : Bytes} (counted : checksum.length = 8) :
    (headerBlock input mode uid gid size mtime checksum).Sized where
  name := length_fit fitting.name
  mode := fitting.mode
  uid := fitting.uid
  gid := fitting.gid
  size := fitting.size
  mtime := fitting.mtime
  checksum := counted
  typeflag := rfl
  linkName := length_fit fitting.linkName
  magic := rfl
  version := rfl
  owner := rfl
  group := rfl
  devMajor := Ustar.length_zeros 8
  devMinor := Ustar.length_zeros 8
  leading := Ustar.length_zeros 155
  rest := Ustar.length_zeros 12

theorem fill_eq (fitting : Fitting input mode uid gid size mtime) :
    fill input mode uid gid size mtime =
      (headerBlock input mode uid gid size mtime
        (List.replicate 8 0x20)).encode := by
  let fields : List (Nat × Bytes) := [(100, Utf8.encode input.name), (8, mode),
    (8, uid), (8, gid), (12, size), (12, mtime), (8, List.replicate 8 0x20),
    (1, Ustar.ascii [input.type]), (100, Utf8.encode input.linkName),
    (6, Ustar.magicBytes), (2, Ustar.versionBytes),
    (32, Ustar.ascii "code".toList), (32, Ustar.ascii "code".toList)]
  have fits : ∀ field ∈ fields, field.2.length ≤ field.1 := by
    simp only [fields, List.forall_mem_cons]
    exact ⟨fitting.name, fitting.mode.le, fitting.uid.le, fitting.gid.le,
      fitting.size.le, fitting.mtime.le, by decide, Nat.le_refl _,
      fitting.linkName, by decide, by decide, by decide, by decide, by simp⟩
  have filled := writes_eq fits [] 183
  have zeros : Ustar.zeros 183 = Ustar.zeros 8 ++ (Ustar.zeros 8 ++
      (Ustar.zeros 155 ++ Ustar.zeros 12)) := by
    simp only [Ustar.zeros, List.replicate_append_replicate]
  refine filled.trans ?_
  simp only [fields, List.map_cons, List.map_nil, List.flatten_cons,
    List.flatten_nil, List.append_assoc, List.nil_append, zeros, headerBlock,
    Ustar.Block.encode, fit_of_length fitting.mode, fit_of_length fitting.uid,
    fit_of_length fitting.gid, fit_of_length fitting.size,
    fit_of_length fitting.mtime]
  rfl

theorem copy_checksum (fitting : Fitting input mode uid gid size mtime)
    {before after : Bytes} (isBefore : before.length = 8)
    (isAfter : after.length = 8) :
    copy after (headerBlock input mode uid gid size mtime before).encode 148 =
      (headerBlock input mode uid gid size mtime after).encode := by
  have name := length_fit fitting.name
  have front : (fit 100 (Utf8.encode input.name) ++ (mode ++ (uid ++ (gid ++
      (size ++ mtime))))).length = 148 := by
    simp only [List.length_append, name, fitting.mode, fitting.uid,
      fitting.gid, fitting.size, fitting.mtime]
  have again (rest : Bytes) : copy after ((fit 100 (Utf8.encode input.name) ++
      (mode ++ (uid ++ (gid ++ (size ++ mtime))))) ++ (before ++ rest)) 148 =
        (fit 100 (Utf8.encode input.name) ++
          (mode ++ (uid ++ (gid ++ (size ++ mtime))))) ++ (after ++ rest) :=
    copy_over front (isAfter.trans isBefore.symm)
  simp only [List.append_assoc] at again
  exact again _

end Filling

/-- The digits of the sum of a header fill its field. -/
theorem length_checksum {sum : Nat} (small : sum < 8 ^ 6) :
    (Ustar.ascii ((Nat.toDigits 8 sum).leftpad 6 '0' ++
      ['\x00', ' '])).length = 8 := by
  have digits := (Nat.length_toDigits_le_iff (b := 8) (k := 6) (by decide)
    (by decide)).mpr small
  rw [Ustar.ascii, List.length_map, List.length_append, List.length_leftpad]
  exact congrArg (· + 2) (Nat.max_eq_left digits)

theorem sum_bytes_le (bytes : Bytes) :
    (bytes.map UInt8.toNat).sum ≤ bytes.length * 255 := by
  induction bytes with
  | nil => rfl
  | cons byte bytes induction =>
      have small := byte.toNat_lt
      rw [List.map_cons, List.sum_cons, List.length_cons]
      omega

/-- What a reader finds in a header. -/
structure Reads (input : HeaderInput) (seconds : Nat) (header : Bytes)
    (block : Ustar.Block) : Prop where
  encoded : header = block.encode
  fine : block.Fine (input.mode &&& 0o7777) input.size seconds
  path : 0 ∉ Utf8.encode input.name → block.path = Utf8.encode input.name
  linkName : 0 ∉ Utf8.encode input.linkName →
    Ustar.text block.linkName = Utf8.encode input.linkName
  typeflag : block.typeflag = Ustar.ascii [input.type]

theorem reads_of_tarHeader {input : HeaderInput} {seconds : Nat}
    {header : Bytes} (isTime : input.mtime = seconds)
    (isHeader : tarHeader input = .ok header) :
    ∃ block, Reads input seconds header block := by
  simp only [tarHeader, guard_eq_ok_iff, bind_eq_ok_iff, writeField_eq_ok_iff,
    pure_eq_ok_iff] at isHeader
  obtain ⟨_, _, ⟨name, rfl⟩, mode, isMode, _, ⟨_, rfl⟩, uid, isUid, _,
    ⟨_, rfl⟩, gid, isGid, _, ⟨_, rfl⟩, size, isSize, _, ⟨_, rfl⟩, mtime,
    isMtime, _, ⟨_, rfl⟩, _, ⟨linkName, rfl⟩, isHeader⟩ := isHeader
  rw [isTime] at isMtime
  obtain ⟨modeCounted, modeRead⟩ := octal_eq_ok isMode
  have owned {bytes : Bytes} (isBytes : octal (1000 : Nat) 8 = .ok bytes) :
      bytes.length = 8 := (octal_eq_ok isBytes).1
  have uidCounted := owned isUid
  have gidCounted := owned isGid
  obtain ⟨sizeCounted, sizeRead⟩ := octal_eq_ok isSize
  obtain ⟨mtimeCounted, mtimeRead⟩ := octal_eq_ok isMtime
  have fitting : Fitting input mode uid gid size mtime :=
    ⟨name, linkName, modeCounted, uidCounted, gidCounted, sizeCounted,
      mtimeCounted⟩
  have filled := fill_eq fitting
  simp only [fill] at filled
  rw [filled] at isHeader
  let block := headerBlock input mode uid gid size mtime (List.replicate 8 0x20)
  have sized : block.Sized := fitting.sized List.length_replicate
  have small : (block.encode.map UInt8.toNat).sum < 8 ^ 6 := by
    refine lt_of_le_of_lt (sum_bytes_le _) ?_
    rw [sized.length_encode]
    decide
  have counted := length_checksum small
  rw [copy_checksum fitting List.length_replicate counted] at isHeader
  refine ⟨_, isHeader.symm, ⟨fitting.sized counted, rfl, rfl, ?_, modeRead,
    sizeRead, mtimeRead⟩, ?_, ?_, rfl⟩
  · have split : Ustar.ascii ((Nat.toDigits 8
        (block.encode.map UInt8.toNat).sum).leftpad 6 '0' ++ ['\x00', ' ']) =
        Ustar.ascii ((Nat.toDigits 8
          (block.encode.map UInt8.toNat).sum).leftpad 6 '0') ++ [0, 0x20] :=
      List.map_append
    change Ustar.number (Ustar.ascii _) = some
      (block.encode.map UInt8.toNat).sum
    rw [split, List.leftpad]
    exact Ustar.number_octal _ _ (.inl rfl) [0x20]
  · intro noNul
    have leading : Ustar.text (Ustar.zeros 155) = [] :=
      Ustar.text_fill List.not_mem_nil 155
    exact (if_pos leading).trans (Ustar.text_fill noNul _)
  · exact fun noNul => Ustar.text_fill noNul _

end Electrosphere.Tar
