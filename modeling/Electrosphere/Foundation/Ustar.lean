import Electrosphere.Foundation.BigEndian
import Mathlib

/-!
# The ustar format

A header of 512 bytes for each member, behind that of a regular file its
bytes, filled up to a multiple of 512, and two blocks of zeros at the end.
-/

namespace Foundation.Ustar

/-- The fields of a header in their order. -/
structure Block where
  name : List UInt8
  mode : List UInt8
  uid : List UInt8
  gid : List UInt8
  size : List UInt8
  mtime : List UInt8
  checksum : List UInt8
  typeflag : List UInt8
  linkName : List UInt8
  magic : List UInt8
  version : List UInt8
  owner : List UInt8
  group : List UInt8
  devMajor : List UInt8
  devMinor : List UInt8
  leading : List UInt8
  rest : List UInt8

def blockBytes : Nat := 512

def zeros (count : Nat) : List UInt8 := List.replicate count 0

@[simp] theorem length_zeros (count : Nat) : (zeros count).length = count :=
  List.length_replicate

namespace Block

def encode (block : Block) : List UInt8 :=
  block.name ++ (block.mode ++ (block.uid ++ (block.gid ++ (block.size ++
    (block.mtime ++ (block.checksum ++ (block.typeflag ++ (block.linkName ++
      (block.magic ++ (block.version ++ (block.owner ++ (block.group ++
        (block.devMajor ++ (block.devMinor ++ (block.leading ++
          block.rest)))))))))))))))

structure Sized (block : Block) : Prop where
  name : block.name.length = 100
  mode : block.mode.length = 8
  uid : block.uid.length = 8
  gid : block.gid.length = 8
  size : block.size.length = 12
  mtime : block.mtime.length = 12
  checksum : block.checksum.length = 8
  typeflag : block.typeflag.length = 1
  linkName : block.linkName.length = 100
  magic : block.magic.length = 6
  version : block.version.length = 2
  owner : block.owner.length = 32
  group : block.group.length = 32
  devMajor : block.devMajor.length = 8
  devMinor : block.devMinor.length = 8
  leading : block.leading.length = 155
  rest : block.rest.length = 12

/-- The sum of the bytes, with blanks in place of the checksum. -/
def sum (block : Block) : Nat :=
  ({ block with checksum := List.replicate 8 0x20 }.encode.map
    UInt8.toNat).sum

theorem Sized.length_encode {block : Block} (sized : block.Sized) :
    block.encode.length = blockBytes := by
  simp only [encode, List.length_append, sized.name, sized.mode, sized.uid,
    sized.gid, sized.size, sized.mtime, sized.checksum, sized.typeflag,
    sized.linkName, sized.magic, sized.version, sized.owner, sized.group,
    sized.devMajor, sized.devMinor, sized.leading, sized.rest, blockBytes]

end Block

/-! ## Reading -/

/-- The bytes up to the first zero, or all of them. -/
def text (field : List UInt8) : List UInt8 := field.takeWhile (· ≠ 0)

/-- Octal digits up to a zero or a blank. -/
def number (field : List UInt8) : Option Nat :=
  let digits := field.takeWhile fun byte => byte ≠ 0 ∧ byte ≠ 0x20
  if digits ≠ [] ∧ ∀ byte ∈ digits, 0x30 ≤ byte ∧ byte ≤ 0x37 then
    some (Nat.ofDigitChars 8 (digits.map fun byte => Char.ofNat byte.toNat) 0)
  else none

def takeBlock (bytes : List UInt8) : Option (Block × List UInt8) := do
  let (name, bytes) ← takeBytes 100 bytes
  let (mode, bytes) ← takeBytes 8 bytes
  let (uid, bytes) ← takeBytes 8 bytes
  let (gid, bytes) ← takeBytes 8 bytes
  let (size, bytes) ← takeBytes 12 bytes
  let (mtime, bytes) ← takeBytes 12 bytes
  let (checksum, bytes) ← takeBytes 8 bytes
  let (typeflag, bytes) ← takeBytes 1 bytes
  let (linkName, bytes) ← takeBytes 100 bytes
  let (magic, bytes) ← takeBytes 6 bytes
  let (version, bytes) ← takeBytes 2 bytes
  let (owner, bytes) ← takeBytes 32 bytes
  let (group, bytes) ← takeBytes 32 bytes
  let (devMajor, bytes) ← takeBytes 8 bytes
  let (devMinor, bytes) ← takeBytes 8 bytes
  let (leading, bytes) ← takeBytes 155 bytes
  let (rest, bytes) ← takeBytes 12 bytes
  return ({ name, mode, uid, gid, size, mtime, checksum, typeflag, linkName,
            magic, version, owner, group, devMajor, devMinor, leading, rest },
    bytes)

inductive Kind where
  | file (content : List UInt8)
  | hardLink (target : List UInt8)
  | symlink (target : List UInt8)
  | directory
  deriving DecidableEq

structure Member where
  path : List UInt8
  mode : Nat
  size : Nat
  mtime : Nat
  kind : Kind
  deriving DecidableEq

/-- `ustar` and a zero. -/
def magicBytes : List UInt8 := [0x75, 0x73, 0x74, 0x61, 0x72, 0]

/-- `00` -/
def versionBytes : List UInt8 := [0x30, 0x30]

/-- Long paths are split at a slash. -/
def Block.path (block : Block) : List UInt8 :=
  if text block.leading = [] then text block.name
  else text block.leading ++ 0x2F :: text block.name

/-- What fills the last block of a file. -/
def filler (size : Nat) : Nat := (blockBytes - size % blockBytes) % blockBytes

/-- The bytes of a file, where a header announces some. -/
def takeKind (block : Block) (size : Nat) (bytes : List UInt8) :
    Option (Kind × List UInt8) :=
  if block.typeflag = [0x30] then do
    let (content, bytes) ← takeBytes size bytes
    let (_, bytes) ← takeBytes (filler size) bytes
    return (.file content, bytes)
  else if block.typeflag = [0x31] then
    some (.hardLink (text block.linkName), bytes)
  else if block.typeflag = [0x32] then
    some (.symlink (text block.linkName), bytes)
  else if block.typeflag = [0x35] then some (.directory, bytes)
  else none

def takeMember (bytes : List UInt8) : Option (Member × List UInt8) := do
  let (block, bytes) ← takeBlock bytes
  if block.magic = magicBytes ∧ block.version = versionBytes ∧
      number block.checksum = some block.sum then do
    let mode ← number block.mode
    let size ← number block.size
    let mtime ← number block.mtime
    let (kind, bytes) ← takeKind block size bytes
    return ({ path := block.path, mode, size, mtime, kind }, bytes)
  else none

/-- Every member takes some bytes, so their number bounds that of the
members. -/
def members : Nat → List UInt8 → Option (List Member)
  | 0, _ => none
  | fuel + 1, bytes => do
      let (block, rest) ← takeBytes blockBytes bytes
      if block = zeros blockBytes then
        if rest = zeros blockBytes then some [] else none
      else do
        let (member, bytes) ← takeMember bytes
        return member :: (← members fuel bytes)

/-- The members of an archive. -/
def read (bytes : List UInt8) : Option (List Member) :=
  members (bytes.length + 1) bytes

/-! ## What is read back -/

variable {block : Block} {bytes content after : List UInt8}

theorem takeBytes_of_length {count : Nat} {front : List UInt8}
    (counted : front.length = count) (after : List UInt8) :
    takeBytes count (front ++ after) = some (front, after) := by
  rw [← counted]
  exact takeBytes_append front after

theorem take_bind {α : Type} {count : Nat} {front : List UInt8}
    (counted : front.length = count) (after : List UInt8)
    (later : List UInt8 × List UInt8 → Option α) :
    (takeBytes count (front ++ after) >>= later) = later (front, after) := by
  rw [takeBytes_of_length counted]
  rfl

theorem takeBlock_encode (sized : block.Sized) (after : List UInt8) :
    takeBlock (block.encode ++ after) = some (block, after) := by
  simp only [takeBlock, Block.encode, List.append_assoc]
  refine (take_bind sized.name _ _).trans ?_
  refine (take_bind sized.mode _ _).trans ?_
  refine (take_bind sized.uid _ _).trans ?_
  refine (take_bind sized.gid _ _).trans ?_
  refine (take_bind sized.size _ _).trans ?_
  refine (take_bind sized.mtime _ _).trans ?_
  refine (take_bind sized.checksum _ _).trans ?_
  refine (take_bind sized.typeflag _ _).trans ?_
  refine (take_bind sized.linkName _ _).trans ?_
  refine (take_bind sized.magic _ _).trans ?_
  refine (take_bind sized.version _ _).trans ?_
  refine (take_bind sized.owner _ _).trans ?_
  refine (take_bind sized.group _ _).trans ?_
  refine (take_bind sized.devMajor _ _).trans ?_
  refine (take_bind sized.devMinor _ _).trans ?_
  refine (take_bind sized.leading _ _).trans ?_
  exact take_bind sized.rest _ _

theorem takeKind_file (isFile : block.typeflag = [0x30])
    (content after : List UInt8) :
    takeKind block content.length
        (content ++ (zeros (filler content.length) ++ after)) =
      some (.file content, after) := by
  rw [takeKind, if_pos isFile]
  refine (take_bind rfl _ _).trans ?_
  exact take_bind (length_zeros _) _ _

theorem takeKind_hardLink (isLink : block.typeflag = [0x31])
    (after : List UInt8) (size : Nat) :
    takeKind block size after =
      some (.hardLink (text block.linkName), after) := by
  rw [takeKind, isLink]
  rfl

theorem takeKind_symlink (isLink : block.typeflag = [0x32])
    (after : List UInt8) (size : Nat) :
    takeKind block size after =
      some (.symlink (text block.linkName), after) := by
  rw [takeKind, isLink]
  rfl

theorem takeKind_directory (isDirectory : block.typeflag = [0x35])
    (after : List UInt8) (size : Nat) :
    takeKind block size after = some (.directory, after) := by
  rw [takeKind, isDirectory]
  rfl

/-- A header as a reader wants it. -/
structure Block.Fine (block : Block) (mode size mtime : Nat) : Prop where
  sized : block.Sized
  magic : block.magic = magicBytes
  version : block.version = versionBytes
  checksum : number block.checksum = some block.sum
  mode : number block.mode = some mode
  size : number block.size = some size
  mtime : number block.mtime = some mtime

theorem takeMember_encode {mode size mtime : Nat} {kind : Kind}
    (fine : block.Fine mode size mtime)
    (isKind : takeKind block size bytes = some (kind, after)) :
    takeMember (block.encode ++ bytes) =
      some ({ path := block.path, mode, size, mtime, kind }, after) := by
  have accepted : block.magic = magicBytes ∧ block.version = versionBytes ∧
      number block.checksum = some block.sum :=
    ⟨fine.magic, fine.version, fine.checksum⟩
  simp only [takeMember, takeBlock_encode fine.sized, bind, pure,
    Option.bind_some, if_pos accepted, fine.mode, fine.size, fine.mtime,
    isKind]

/-- The magic number tells a header from a block of zeros. -/
theorem Block.Fine.encode_ne_zeros {mode size mtime : Nat}
    (fine : block.Fine mode size mtime) :
    block.encode ≠ zeros blockBytes := by
  intro same
  have member : (0x75 : UInt8) ∈ block.encode := by
    have inMagic : (0x75 : UInt8) ∈ block.magic := by
      rw [fine.magic]
      decide
    simp [Block.encode, inMagic]
  rw [same] at member
  have isZero := List.eq_of_mem_replicate member
  revert isZero
  decide

theorem members_cons {mode size mtime fuel : Nat} {kind : Kind}
    (fine : block.Fine mode size mtime)
    (isKind : takeKind block size bytes = some (kind, after)) :
    members (fuel + 1) (block.encode ++ bytes) =
      (members fuel after).map fun later =>
        { path := block.path, mode, size, mtime, kind } :: later := by
  have front := takeBytes_of_length fine.sized.length_encode bytes
  simp only [members, front, bind, pure, Option.bind_some,
    if_neg fine.encode_ne_zeros, takeMember_encode fine isKind]
  cases members fuel after <;> rfl

theorem members_end (fuel : Nat) :
    members (fuel + 1) (zeros (blockBytes + blockBytes)) = some [] := by
  have split : zeros (blockBytes + blockBytes) =
      zeros blockBytes ++ zeros blockBytes := List.replicate_add ..
  rw [split, members, takeBytes_of_length (length_zeros blockBytes)]
  simp

/-! ## Fields -/

/-- Text of characters with one byte. -/
def ascii (text : List Char) : List UInt8 :=
  text.map fun letter => UInt8.ofNat letter.toNat

def OctalDigit (letter : Char) : Prop := ∃ digit < 8, letter = Nat.digitChar digit

theorem OctalDigit.byte {letter : Char} (octal : OctalDigit letter) :
    0x30 ≤ UInt8.ofNat letter.toNat ∧ UInt8.ofNat letter.toNat ≤ 0x37 ∧
      Char.ofNat (UInt8.ofNat letter.toNat).toNat = letter := by
  obtain ⟨digit, small, rfl⟩ := octal
  revert digit
  decide

theorem octalDigit_of_mem {letter : Char} {value : Nat}
    (member : letter ∈ Nat.toDigits 8 value) : OctalDigit letter := by
  induction value using Nat.strongRecOn with
  | ind value induction =>
      rw [Nat.toDigits_eq_if (by decide)] at member
      split at member
      case isTrue small =>
        exact ⟨value, small, List.mem_singleton.mp member⟩
      case isFalse large =>
        cases List.mem_append.mp member with
        | inl above => exact induction _ (Nat.div_lt_self (by omega) (by decide)) above
        | inr last =>
            exact ⟨value % 8, Nat.mod_lt _ (by decide),
              List.mem_singleton.mp last⟩

theorem number_ascii {digits : List Char} (some : digits ≠ [])
    (octal : ∀ letter ∈ digits, OctalDigit letter) {stop : UInt8}
    (stops : stop = 0 ∨ stop = 0x20) (after : List UInt8) :
    number (ascii digits ++ stop :: after) =
      Option.some (Nat.ofDigitChars 8 digits 0) := by
  have bounds : ∀ byte ∈ ascii digits, 0x30 ≤ byte ∧ byte ≤ 0x37 := by
    intro byte member
    obtain ⟨letter, isLetter, rfl⟩ := List.mem_map.mp member
    obtain ⟨low, high, -⟩ := (octal letter isLetter).byte
    exact ⟨low, high⟩
  have taken : (ascii digits ++ stop :: after).takeWhile
      (fun byte => byte ≠ 0 ∧ byte ≠ 0x20) = ascii digits := by
    rw [List.takeWhile_append_of_pos, List.takeWhile_cons_of_neg,
      List.append_nil]
    · cases stops with
      | inl isZero => simp [isZero]
      | inr isBlank => simp [isBlank]
    · intro byte member
      obtain ⟨low, -⟩ := bounds byte member
      rw [decide_eq_true_eq]
      constructor
      · rintro rfl
        exact absurd low (by decide)
      · rintro rfl
        exact absurd low (by decide)
  have back : (ascii digits).map (fun byte => Char.ofNat byte.toNat) =
      digits := by
    rw [ascii, List.map_map]
    refine (List.map_congr_left fun letter member => ?_).trans (List.map_id _)
    exact (octal letter member).byte.2.2
  have notEmpty : ascii digits ≠ [] := mt List.map_eq_nil_iff.mp some
  rw [number, taken, if_pos ⟨notEmpty, bounds⟩, back]

/-- Numbers in octal, with zeros before them. -/
theorem number_octal (fill value : Nat) {stop : UInt8}
    (stops : stop = 0 ∨ stop = 0x20) (after : List UInt8) :
    number (ascii (List.replicate fill '0' ++ Nat.toDigits 8 value) ++
      stop :: after) = some value := by
  rw [number_ascii _ _ stops, Nat.ofDigitChars_append,
    Nat.ofDigitChars_replicate_zero, Nat.mul_zero,
    Nat.ofDigitChars_toDigits (by decide) (by decide)]
  · simp [Nat.toDigits_ne_nil]
  · intro letter member
    cases List.mem_append.mp member with
    | inl isZero =>
        exact ⟨0, by decide, List.eq_of_mem_replicate isZero⟩
    | inr isDigit => exact octalDigit_of_mem isDigit

/-- Texts end at a zero or fill their field. -/
theorem text_fill {field : List UInt8} (noNul : 0 ∉ field) (count : Nat) :
    text (field ++ zeros count) = field := by
  have keeps : ∀ byte ∈ field, decide (byte ≠ 0) = true := by
    intro byte member
    rw [decide_eq_true_eq]
    rintro rfl
    exact noNul member
  rw [text, List.takeWhile_append_of_pos keeps]
  cases count with
  | zero => exact List.append_nil _
  | succ count => simp [zeros, List.replicate_succ]

end Foundation.Ustar
