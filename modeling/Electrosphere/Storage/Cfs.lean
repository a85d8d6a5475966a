import Electrosphere.Foundation.BigEndian
import Electrosphere.Storage.Artifacts

/-!
# The CFS-v1 format

A magic number, then entries one after the other: a path, a kind, a mode, a
modification time, and a payload whose length stands before it.  The guest and
the daemon write the same format.
-/

namespace Electrosphere.Cfs

open Foundation

/-- `CFS-v1\0`. -/
def magic : Bytes := [67, 70, 83, 45, 118, 49, 0]

def maxFileBytes : Nat := 256 * 1024 * 1024

def maxTreeBytes : Nat := 1024 * 1024 * 1024

def typeDirectory : Nat := 1

def typeFile : Nat := 2

def typeSymlink : Nat := 3

def typeHardlink : Nat := 4

structure Header where
  path : Bytes
  type : Nat
  mode : Nat
  mtimeNs : Nat
  payloadLength : Nat
  deriving DecidableEq

structure Entry where
  path : Bytes
  type : Nat
  mode : Nat
  mtimeNs : Nat
  payload : Bytes
  deriving DecidableEq

def Entry.header (entry : Entry) : Header where
  path := entry.path
  type := entry.type
  mode := entry.mode
  mtimeNs := entry.mtimeNs
  payloadLength := entry.payload.length

def Header.entry (header : Header) (payload : Bytes) : Entry where
  path := header.path
  type := header.type
  mode := header.mode
  mtimeNs := header.mtimeNs
  payload := payload

/-! ## Writing -/

/-- The fields as they are written, each cut to its width. -/
def Header.encode (header : Header) : Bytes :=
  bigEndian 4 header.path.length ++ (header.path ++
    (bigEndian 1 header.type ++ (bigEndian 4 header.mode ++
      (bigEndian 8 header.mtimeNs ++ bigEndian 8 header.payloadLength))))

def Entry.encode (entry : Entry) : Bytes :=
  entry.header.encode ++ entry.payload

def archive (entries : List Entry) : Bytes :=
  magic ++ entries.flatMap Entry.encode

/-- Every field fits its width. -/
structure Header.Sized (header : Header) : Prop where
  path : header.path.length < 256 ^ 4
  type : header.type < 256 ^ 1
  mode : header.mode < 256 ^ 4
  mtimeNs : header.mtimeNs < 256 ^ 8
  payloadLength : header.payloadLength < 256 ^ 8

def Entry.Sized (entry : Entry) : Prop := entry.header.Sized

@[simp] theorem Header.length_encode (header : Header) :
    header.encode.length = header.path.length + 25 := by
  simp only [encode, List.length_append, length_bigEndian]
  omega

@[simp] theorem Entry.length_encode (entry : Entry) :
    entry.encode.length = entry.path.length + 25 + entry.payload.length := by
  rw [encode, List.length_append, Header.length_encode]
  rfl

theorem Entry.encode_ne_nil (entry : Entry) : entry.encode ≠ [] := by
  intro isEmpty
  have counted := congrArg List.length isEmpty
  rw [length_encode, List.length_nil] at counted
  omega

/-! ## Reading -/

def parseHeader (bytes : Bytes) : Option (Header × Bytes) := do
  let (pathLength, bytes) ← takeNumber 4 bytes
  let (path, bytes) ← takeBytes pathLength bytes
  let (type, bytes) ← takeNumber 1 bytes
  let (mode, bytes) ← takeNumber 4 bytes
  let (mtimeNs, bytes) ← takeNumber 8 bytes
  let (payloadLength, bytes) ← takeNumber 8 bytes
  return ({ path, type, mode, mtimeNs, payloadLength }, bytes)

def parseEntry (bytes : Bytes) : Option (Entry × Bytes) := do
  let (header, bytes) ← parseHeader bytes
  let (payload, bytes) ← takeBytes header.payloadLength bytes
  return (header.entry payload, bytes)

/-- Entries up to the end; each takes some bytes, so the number of bytes
bounds the number of entries. -/
def parseEntries : Nat → Bytes → Option (List Entry)
  | 0, bytes => if bytes = [] then some [] else none
  | fuel + 1, bytes =>
      if bytes = [] then some []
      else do
        let (entry, bytes) ← parseEntry bytes
        return entry :: (← parseEntries fuel bytes)

def parse (bytes : Bytes) : Option (List Entry) := do
  let (start, bytes) ← takeBytes magic.length bytes
  if start = magic then parseEntries bytes.length bytes else none

theorem parseHeader_eq_some_iff {bytes rest : Bytes} {header : Header} :
    parseHeader bytes = some (header, rest) ↔
      bytes = header.encode ++ rest ∧ header.Sized := by
  constructor
  · intro parsed
    simp only [parseHeader, bind, Option.bind_eq_some_iff, pure,
      Option.some.injEq, Prod.mk.injEq] at parsed
    obtain ⟨⟨pathLength, first⟩, isPathLength, ⟨path, second⟩, isPath,
      ⟨type, third⟩, isType, ⟨mode, fourth⟩, isMode, ⟨mtimeNs, fifth⟩, isTime,
      ⟨payloadLength, sixth⟩, isLength, rfl, rfl⟩ := parsed
    obtain ⟨rfl, pathFits⟩ := takeNumber_eq_some_iff.mp isPathLength
    obtain ⟨rfl, rfl⟩ := takeBytes_eq_some_iff.mp isPath
    obtain ⟨rfl, typeFits⟩ := takeNumber_eq_some_iff.mp isType
    obtain ⟨rfl, modeFits⟩ := takeNumber_eq_some_iff.mp isMode
    obtain ⟨rfl, timeFits⟩ := takeNumber_eq_some_iff.mp isTime
    obtain ⟨rfl, lengthFits⟩ := takeNumber_eq_some_iff.mp isLength
    constructor
    · simp only [Header.encode, List.append_assoc]
    · exact ⟨pathFits, typeFits, modeFits, timeFits, lengthFits⟩
  · rintro ⟨rfl, sized⟩
    simp only [parseHeader, Header.encode, List.append_assoc, bind, pure,
      takeNumber_append sized.path, takeNumber_append sized.type,
      takeNumber_append sized.mode, takeNumber_append sized.mtimeNs,
      takeNumber_append sized.payloadLength, takeBytes_append,
      Option.bind_some]

theorem parseEntry_eq_some_iff {bytes rest : Bytes} {entry : Entry} :
    parseEntry bytes = some (entry, rest) ↔
      bytes = entry.encode ++ rest ∧ entry.Sized := by
  constructor
  · intro parsed
    simp only [parseEntry, bind, Option.bind_eq_some_iff, pure,
      Option.some.injEq, Prod.mk.injEq] at parsed
    obtain ⟨⟨header, first⟩, isHeader, ⟨payload, second⟩, isPayload, rfl,
      rfl⟩ := parsed
    obtain ⟨rfl, sized⟩ := parseHeader_eq_some_iff.mp isHeader
    obtain ⟨rfl, counted⟩ := takeBytes_eq_some_iff.mp isPayload
    have same : (header.entry payload).header = header := by
      rw [Entry.header, Header.entry, counted]
    constructor
    · rw [Entry.encode, same, List.append_assoc]
      rfl
    · rw [Entry.Sized, same]
      exact sized
  · rintro ⟨rfl, sized⟩
    have isHeader : parseHeader (entry.encode ++ rest) =
        some (entry.header, entry.payload ++ rest) := by
      apply parseHeader_eq_some_iff.mpr
      exact ⟨by rw [Entry.encode, List.append_assoc], sized⟩
    have isPayload : takeBytes entry.header.payloadLength
        (entry.payload ++ rest) = some (entry.payload, rest) :=
      takeBytes_append entry.payload rest
    simp only [parseEntry, isHeader, bind, pure, Option.bind_some, isPayload]
    rfl

theorem parseEntries_eq_some_iff {fuel : Nat} {bytes : Bytes}
    {entries : List Entry} (enough : bytes.length ≤ fuel) :
    parseEntries fuel bytes = some entries ↔
      bytes = entries.flatMap Entry.encode ∧
        ∀ entry ∈ entries, entry.Sized := by
  induction fuel generalizing bytes entries with
  | zero =>
      obtain rfl := List.length_eq_zero_iff.mp (Nat.le_zero.mp enough)
      cases entries with
      | nil => simp [parseEntries]
      | cons entry entries => simp [parseEntries, entry.encode_ne_nil]
  | succ fuel induction =>
      rw [parseEntries]
      split
      case isTrue isEmpty =>
        subst isEmpty
        cases entries with
        | nil => simp
        | cons entry entries => simp [entry.encode_ne_nil]
      case isFalse notEmpty =>
        simp only [bind, pure, Option.bind_eq_some_iff, Option.some.injEq]
        constructor
        · rintro ⟨⟨entry, rest⟩, isEntry, others, areOthers, rfl⟩
          obtain ⟨rfl, sized⟩ := parseEntry_eq_some_iff.mp isEntry
          rw [List.length_append, Entry.length_encode] at enough
          obtain ⟨rfl, allSized⟩ :=
            (induction (show rest.length ≤ fuel by omega)).mp areOthers
          constructor
          · rw [List.flatMap_cons]
          · exact List.forall_mem_cons.mpr ⟨sized, allSized⟩
        · rintro ⟨rfl, allSized⟩
          cases entries with
          | nil => exact absurd rfl notEmpty
          | cons entry entries =>
              obtain ⟨sized, restSized⟩ := List.forall_mem_cons.mp allSized
              rw [List.flatMap_cons, List.length_append, Entry.length_encode]
                at enough
              refine ⟨(entry, entries.flatMap Entry.encode), ?_, entries, ?_,
                rfl⟩
              · exact parseEntry_eq_some_iff.mpr ⟨List.flatMap_cons, sized⟩
              · exact (induction (by dsimp only; omega)).mpr ⟨rfl, restSized⟩

/-- The archives are exactly what the format describes, each in one way. -/
theorem parse_eq_some_iff {bytes : Bytes} {entries : List Entry} :
    parse bytes = some entries ↔
      bytes = archive entries ∧ ∀ entry ∈ entries, entry.Sized := by
  constructor
  · intro parsed
    simp only [parse, bind, Option.bind_eq_some_iff] at parsed
    obtain ⟨⟨start, rest⟩, isStart, areEntries⟩ := parsed
    obtain ⟨rfl, -⟩ := takeBytes_eq_some_iff.mp isStart
    split at areEntries
    case isTrue isMagic =>
      subst isMagic
      obtain ⟨rfl, sized⟩ :=
        (parseEntries_eq_some_iff (Nat.le_refl _)).mp areEntries
      exact ⟨rfl, sized⟩
    case isFalse => cases areEntries
  · rintro ⟨rfl, sized⟩
    simp only [parse, archive, takeBytes_append, bind, Option.bind_some,
      if_true]
    exact (parseEntries_eq_some_iff (Nat.le_refl _)).mpr ⟨rfl, sized⟩

end Electrosphere.Cfs
