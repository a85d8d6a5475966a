import Mathlib.Data.List.Basic

/-!
# Decoding UTF-8 that may be ill-formed

The decoder of the Encoding Standard, one byte at a time: every maximal
ill-formed part of the input becomes one replacement character.  Encoding is
`String.utf8EncodeChar`.  The lemmas say what the decoder makes of a text that
is whole, of one that breaks off inside a character, and of one that begins
inside a character.
-/

namespace Foundation.Utf8

def replacement : Char := Char.ofNat 0xFFFD

/-- The decoder between two bytes: the bits read of a character, how many
bytes it still lacks, and the bounds of the next one. -/
structure Decoder where
  value : Nat := 0
  owed : Nat := 0
  low : Nat := 0x80
  high : Nat := 0xBF
  deriving DecidableEq

/-- A byte that does not continue a character. -/
def lead (byte : Nat) : List Char × Decoder :=
  if byte ≤ 0x7F then ([Char.ofNat byte], {})
  else if 0xC2 ≤ byte ∧ byte ≤ 0xDF then
    ([], { value := byte - 0xC0, owed := 1 })
  else if 0xE0 ≤ byte ∧ byte ≤ 0xEF then
    ([], { value := byte - 0xE0, owed := 2,
           low := if byte = 0xE0 then 0xA0 else 0x80
           high := if byte = 0xED then 0x9F else 0xBF })
  else if 0xF0 ≤ byte ∧ byte ≤ 0xF4 then
    ([], { value := byte - 0xF0, owed := 3,
           low := if byte = 0xF0 then 0x90 else 0x80
           high := if byte = 0xF4 then 0x8F else 0xBF })
  else ([replacement], {})

namespace Decoder

def push (decoder : Decoder) (byte : Nat) : List Char × Decoder :=
  if decoder.owed = 0 then lead byte
  else if decoder.low ≤ byte ∧ byte ≤ decoder.high then
    let value := decoder.value * 64 + (byte - 0x80)
    if decoder.owed = 1 then ([Char.ofNat value], {})
    else ([], { value, owed := decoder.owed - 1 })
  else
    let (decoded, next) := lead byte
    (replacement :: decoded, next)

def run (decoder : Decoder) : List UInt8 → List Char × Decoder
  | [] => ([], decoder)
  | byte :: bytes =>
      let (decoded, next) := decoder.push byte.toNat
      let (rest, last) := next.run bytes
      (decoded ++ rest, last)

/-- What the end of the input adds. -/
def finish (decoder : Decoder) : List Char :=
  if decoder.owed = 0 then [] else [replacement]

theorem run_append (decoder : Decoder) (first second : List UInt8) :
    decoder.run (first ++ second) =
      ((decoder.run first).1 ++ ((decoder.run first).2.run second).1,
        ((decoder.run first).2.run second).2) := by
  induction first generalizing decoder with
  | nil => rfl
  | cons byte bytes induction =>
      simp only [List.cons_append, run, induction, List.append_assoc]

end Decoder

/-- The text of some bytes, ill-formed parts replaced. -/
def decodeLossy (bytes : List UInt8) : List Char :=
  let (decoded, decoder) := Decoder.run {} bytes
  decoded ++ decoder.finish

/-- The bytes of a text. -/
def encode (text : List Char) : List UInt8 :=
  text.flatMap String.utf8EncodeChar

@[simp] theorem encode_nil : encode [] = [] := rfl

@[simp] theorem encode_cons (character : Char) (text : List Char) :
    encode (character :: text) =
      String.utf8EncodeChar character ++ encode text :=
  List.flatMap_cons

@[simp] theorem encode_append (first second : List Char) :
    encode (first ++ second) = encode first ++ encode second :=
  List.flatMap_append

/-! ## Whole characters -/

theorem toNat_ofNat {value : Nat} (small : value < 256) :
    (UInt8.ofNat value).toNat = value := by
  simp [UInt8.toNat_ofNat', Nat.mod_eq_of_lt small]

/-- The bytes of a character, by its size. -/
inductive Encoded (character : Char) : List UInt8 → Prop where
  | one {a : UInt8} : a.toNat ≤ 0x7F → character.toNat = a.toNat →
      Encoded character [a]
  | two {a b : UInt8} : 0xC2 ≤ a.toNat → a.toNat ≤ 0xDF →
      0x80 ≤ b.toNat → b.toNat ≤ 0xBF →
      character.toNat = (a.toNat - 0xC0) * 64 + (b.toNat - 0x80) →
      Encoded character [a, b]
  | three {a b c : UInt8} : 0xE0 ≤ a.toNat → a.toNat ≤ 0xEF →
      (if a.toNat = 0xE0 then 0xA0 else 0x80) ≤ b.toNat →
      b.toNat ≤ (if a.toNat = 0xED then 0x9F else 0xBF) →
      0x80 ≤ c.toNat → c.toNat ≤ 0xBF →
      character.toNat = ((a.toNat - 0xE0) * 64 + (b.toNat - 0x80)) * 64 +
        (c.toNat - 0x80) →
      Encoded character [a, b, c]
  | four {a b c d : UInt8} : 0xF0 ≤ a.toNat → a.toNat ≤ 0xF4 →
      (if a.toNat = 0xF0 then 0x90 else 0x80) ≤ b.toNat →
      b.toNat ≤ (if a.toNat = 0xF4 then 0x8F else 0xBF) →
      0x80 ≤ c.toNat → c.toNat ≤ 0xBF → 0x80 ≤ d.toNat → d.toNat ≤ 0xBF →
      character.toNat = (((a.toNat - 0xF0) * 64 + (b.toNat - 0x80)) * 64 +
        (c.toNat - 0x80)) * 64 + (d.toNat - 0x80) →
      Encoded character [a, b, c, d]

theorem encoded (character : Char) :
    Encoded character (String.utf8EncodeChar character) := by
  have valid : character.toNat < 0xD800 ∨
      0xDFFF < character.toNat ∧ character.toNat < 0x110000 :=
    character.valid
  unfold String.utf8EncodeChar
  rw [show character.val.toNat = character.toNat from rfl]
  dsimp only
  generalize isValue : character.toNat = value at valid
  have last := toNat_ofNat (show value % 64 + 128 < 256 by omega)
  have middle := toNat_ofNat (show value / 64 % 64 + 128 < 256 by omega)
  split
  case isTrue small =>
    have first := toNat_ofNat (show value < 256 by omega)
    refine .one ?_ ?_ <;> omega
  split
  case isTrue small =>
    have first := toNat_ofNat (show value / 64 % 32 + 192 < 256 by omega)
    refine .two ?_ ?_ ?_ ?_ ?_ <;> omega
  split
  case isTrue small =>
    have first := toNat_ofNat (show value / 4096 % 16 + 224 < 256 by omega)
    refine .three ?_ ?_ ?_ ?_ ?_ ?_ ?_ <;> (try split) <;> omega
  case isFalse large =>
    have first := toNat_ofNat (show value / 262144 % 8 + 240 < 256 by omega)
    have second := toNat_ofNat (show value / 4096 % 64 + 128 < 256 by omega)
    refine .four ?_ ?_ ?_ ?_ ?_ ?_ ?_ ?_ ?_ <;> (try split) <;> omega

/-! ## Single bytes -/

theorem lead_one {byte : Nat} (high : byte ≤ 0x7F) :
    lead byte = ([Char.ofNat byte], {}) :=
  if_pos high

theorem lead_two {byte : Nat} (low : 0xC2 ≤ byte) (high : byte ≤ 0xDF) :
    lead byte = ([], { value := byte - 0xC0, owed := 1 }) := by
  unfold lead
  rw [if_neg (by omega), if_pos ⟨low, high⟩]

theorem lead_three {byte : Nat} (low : 0xE0 ≤ byte) (high : byte ≤ 0xEF) :
    lead byte =
      ([], { value := byte - 0xE0, owed := 2,
             low := if byte = 0xE0 then 0xA0 else 0x80
             high := if byte = 0xED then 0x9F else 0xBF }) := by
  unfold lead
  rw [if_neg (by omega), if_neg (by omega), if_pos ⟨low, high⟩]

theorem lead_four {byte : Nat} (low : 0xF0 ≤ byte) (high : byte ≤ 0xF4) :
    lead byte =
      ([], { value := byte - 0xF0, owed := 3,
             low := if byte = 0xF0 then 0x90 else 0x80
             high := if byte = 0xF4 then 0x8F else 0xBF }) := by
  unfold lead
  rw [if_neg (by omega), if_neg (by omega), if_neg (by omega),
    if_pos ⟨low, high⟩]

namespace Decoder

variable {decoder : Decoder} {byte : Nat}

theorem push_start (byte : Nat) : push {} byte = lead byte := rfl

theorem push_last (isLast : decoder.owed = 1) (low : decoder.low ≤ byte)
    (high : byte ≤ decoder.high) :
    decoder.push byte =
      ([Char.ofNat (decoder.value * 64 + (byte - 0x80))], {}) := by
  unfold push
  rw [if_neg (by omega), if_pos ⟨low, high⟩, if_pos isLast]

theorem push_more {more : Nat} (isMore : decoder.owed = more + 2)
    (low : decoder.low ≤ byte) (high : byte ≤ decoder.high) :
    decoder.push byte =
      ([], { value := decoder.value * 64 + (byte - 0x80)
             owed := more + 1 }) := by
  unfold push
  rw [if_neg (by omega), if_pos ⟨low, high⟩, if_neg (by omega), isMore]
  rfl

end Decoder

/-- What the decoder holds after some but not all bytes of a character. -/
def Breaks (bytes : List UInt8) : Prop :=
  ∃ decoder, Decoder.run {} bytes = ([], decoder) ∧ decoder.owed ≠ 0

theorem Encoded.run {character : Char} {bytes : List UInt8}
    (isEncoded : Encoded character bytes) :
    Decoder.run {} bytes = ([character], {}) := by
  have whole : Char.ofNat character.toNat = character :=
    Char.ofNat_toNat character
  cases isEncoded with
  | one small value =>
      simp only [Decoder.run, Decoder.push_start, lead_one small]
      rw [← value, whole]
      rfl
  | two firstLow firstHigh low high value =>
      simp only [Decoder.run, Decoder.push_start, lead_two firstLow firstHigh]
      rw [Decoder.push_last rfl low high, ← value, whole]
      rfl
  | three firstLow firstHigh secondLow secondHigh low high value =>
      simp only [Decoder.run, Decoder.push_start,
        lead_three firstLow firstHigh]
      rw [Decoder.push_more rfl secondLow secondHigh,
        Decoder.push_last rfl low high, ← value, whole]
      rfl
  | four firstLow firstHigh secondLow secondHigh thirdLow thirdHigh low high
      value =>
      simp only [Decoder.run, Decoder.push_start, lead_four firstLow firstHigh]
      rw [Decoder.push_more rfl secondLow secondHigh,
        Decoder.push_more rfl thirdLow thirdHigh,
        Decoder.push_last rfl low high, ← value, whole]
      rfl

theorem Breaks.of_run {bytes : List UInt8} {decoder : Decoder}
    (isRun : Decoder.run {} bytes = ([], decoder))
    (isInside : decoder.owed ≠ 0) : Breaks bytes :=
  ⟨decoder, isRun, isInside⟩

/-- A proper beginning of a character leaves the decoder inside it. -/
theorem Encoded.breaks {character : Char} {bytes : List UInt8}
    (isEncoded : Encoded character bytes) {count : Nat} (some : 0 < count)
    (notAll : count < bytes.length) : Breaks (bytes.take count) := by
  cases isEncoded with
  | one =>
      simp only [List.length_cons, List.length_nil] at notAll
      omega
  | two firstLow firstHigh =>
      simp only [List.length_cons, List.length_nil] at notAll
      obtain rfl : count = 1 := by omega
      apply Breaks.of_run
      · simp only [List.take, Decoder.run, Decoder.push_start,
          lead_two firstLow firstHigh]
        rfl
      · exact Nat.succ_ne_zero _
  | three firstLow firstHigh secondLow secondHigh =>
      simp only [List.length_cons, List.length_nil] at notAll
      obtain rfl | rfl : count = 1 ∨ count = 2 := by omega
      · apply Breaks.of_run
        · simp only [List.take, Decoder.run, Decoder.push_start,
            lead_three firstLow firstHigh]
          rfl
        · exact Nat.succ_ne_zero _
      · apply Breaks.of_run
        · simp only [List.take, Decoder.run, Decoder.push_start,
            lead_three firstLow firstHigh]
          rw [Decoder.push_more rfl secondLow secondHigh]
          rfl
        · exact Nat.succ_ne_zero _
  | four firstLow firstHigh secondLow secondHigh thirdLow thirdHigh =>
      simp only [List.length_cons, List.length_nil] at notAll
      obtain rfl | rfl | rfl : count = 1 ∨ count = 2 ∨ count = 3 := by omega
      · apply Breaks.of_run
        · simp only [List.take, Decoder.run, Decoder.push_start,
            lead_four firstLow firstHigh]
          rfl
        · exact Nat.succ_ne_zero _
      · apply Breaks.of_run
        · simp only [List.take, Decoder.run, Decoder.push_start,
            lead_four firstLow firstHigh]
          rw [Decoder.push_more rfl secondLow secondHigh]
          rfl
        · exact Nat.succ_ne_zero _
      · apply Breaks.of_run
        · simp only [List.take, Decoder.run, Decoder.push_start,
            lead_four firstLow firstHigh]
          rw [Decoder.push_more rfl secondLow secondHigh,
            Decoder.push_more rfl thirdLow thirdHigh]
          rfl
        · exact Nat.succ_ne_zero _

/-- A byte that only continues a character. -/
def Continues (byte : UInt8) : Prop := 0x80 ≤ byte.toNat ∧ byte.toNat ≤ 0xBF

theorem Encoded.continues {character : Char} {bytes : List UInt8}
    (isEncoded : Encoded character bytes) :
    ∀ byte ∈ bytes.tail, Continues byte := by
  cases isEncoded with
  | one => simp
  | two _ _ low high =>
      simp only [List.tail_cons, List.forall_mem_singleton]
      exact ⟨low, high⟩
  | three _ _ secondLow secondHigh low high =>
      simp only [List.tail_cons, List.forall_mem_cons]
      refine ⟨⟨?_, ?_⟩, ⟨low, high⟩, by simp⟩
      · split at secondLow <;> omega
      · split at secondHigh <;> omega
  | four _ _ secondLow secondHigh thirdLow thirdHigh low high =>
      simp only [List.tail_cons, List.forall_mem_cons]
      refine ⟨⟨?_, ?_⟩, ⟨thirdLow, thirdHigh⟩, ⟨low, high⟩, by simp⟩
      · split at secondLow <;> omega
      · split at secondHigh <;> omega

/-! ## Texts -/

theorem run_encode (text : List Char) :
    Decoder.run {} (encode text) = (text, {}) := by
  induction text with
  | nil => rfl
  | cons character text induction =>
      rw [encode_cons, Decoder.run_append, (encoded character).run, induction]
      rfl

theorem decodeLossy_encode_append (text : List Char) (bytes : List UInt8) :
    decodeLossy (encode text ++ bytes) = text ++ decodeLossy bytes := by
  unfold decodeLossy
  rw [Decoder.run_append, run_encode]
  simp only [List.append_assoc]

@[simp] theorem decodeLossy_encode (text : List Char) :
    decodeLossy (encode text) = text := by
  have whole := decodeLossy_encode_append text []
  rw [List.append_nil] at whole
  exact whole.trans (List.append_nil text)

theorem encode_injective : Function.Injective encode := by
  intro first second same
  rw [← decodeLossy_encode first, same, decodeLossy_encode]

/-- The characters of a step are no more than its byte and what was open. -/
theorem Decoder.length_push_le (decoder : Decoder) (byte : Nat) :
    (decoder.push byte).1.length + (decoder.push byte).2.finish.length ≤
      decoder.finish.length + 1 := by
  have ofLead : (lead byte).1.length + (lead byte).2.finish.length ≤ 1 := by
    unfold lead
    iterate 4
      split
      case isTrue => exact Nat.le_refl 1
    exact Nat.le_refl 1
  unfold push
  split
  case isTrue => exact Nat.le_add_left_of_le ofLead
  case isFalse inside =>
    have isOpen : decoder.finish.length = 1 := by
      rw [finish, if_neg inside, List.length_singleton]
    split
    case isTrue =>
      dsimp only
      split
      case isTrue => exact Nat.le_add_left 1 _
      case isFalse more =>
        rw [finish, if_neg (by dsimp only; omega)]
        exact Nat.le_add_left 1 _
    case isFalse =>
      change (replacement :: (lead byte).1).length +
        (lead byte).2.finish.length ≤ _
      rw [isOpen, List.length_cons]
      omega

theorem Decoder.length_run_le (decoder : Decoder) (bytes : List UInt8) :
    (decoder.run bytes).1.length + (decoder.run bytes).2.finish.length ≤
      decoder.finish.length + bytes.length := by
  induction bytes generalizing decoder with
  | nil => exact Nat.le_of_eq (Nat.add_comm _ _)
  | cons byte bytes induction =>
      have first := decoder.length_push_le byte.toNat
      have later := induction (decoder.push byte.toNat).2
      have whole : decoder.run (byte :: bytes) =
          ((decoder.push byte.toNat).1 ++
            ((decoder.push byte.toNat).2.run bytes).1,
            ((decoder.push byte.toNat).2.run bytes).2) := rfl
      rw [whole]
      dsimp only
      rw [List.length_append, List.length_cons]
      omega

/-- A text has no more characters than the bytes that it is read from. -/
theorem length_decodeLossy_le (bytes : List UInt8) :
    (decodeLossy bytes).length ≤ bytes.length := by
  have whole := Decoder.length_run_le {} bytes
  rw [decodeLossy, List.length_append]
  exact Nat.le_trans whole (Nat.le_of_eq (Nat.zero_add _))

theorem length_le_encode (text : List Char) :
    text.length ≤ (encode text).length := by
  have whole := length_decodeLossy_le (encode text)
  rw [decodeLossy_encode] at whole
  exact whole

/-! ## Offsets -/

/-- The bytes that a character takes. -/
def width (character : Char) : Nat := (String.utf8EncodeChar character).length

theorem width_pos (character : Char) : 0 < width character := by
  have isEncoded := encoded character
  rw [width]
  generalize String.utf8EncodeChar character = bytes at isEncoded
  cases isEncoded <;> exact Nat.succ_pos _

theorem length_encode_cons (character : Char) (text : List Char) :
    (encode (character :: text)).length =
      width character + (encode text).length := by
  rw [encode_cons, List.length_append, width]

/-- The text from a byte offset on, if a character begins there or the text
ends. -/
def textFrom : List Char → Nat → Option (List Char)
  | text, 0 => some text
  | [], _ + 1 => none
  | character :: text, offset + 1 =>
      if width character ≤ offset + 1 then
        textFrom text (offset + 1 - width character)
      else none

theorem textFrom_append (before after : List Char) :
    textFrom (before ++ after) (encode before).length = some after := by
  induction before with
  | nil =>
      rw [List.nil_append, encode_nil, List.length_nil, textFrom.eq_def]
  | cons character before induction =>
      have positive := width_pos character
      rw [List.cons_append, length_encode_cons]
      cases isOffset : width character + (encode before).length with
      | zero => omega
      | succ offset =>
          have left : offset + 1 - width character =
              (encode before).length := by
            omega
          rw [textFrom, if_pos (by omega), left, induction]

theorem textFrom_eq_some_iff {text after : List Char} {offset : Nat} :
    textFrom text offset = some after ↔
      ∃ before, text = before ++ after ∧ (encode before).length = offset := by
  constructor
  · intro isAfter
    induction text generalizing offset with
    | nil =>
        cases offset with
        | zero =>
            rw [textFrom.eq_def] at isAfter
            cases isAfter
            exact ⟨[], rfl, rfl⟩
        | succ offset =>
            rw [textFrom] at isAfter
            cases isAfter
    | cons character text induction =>
        cases offset with
        | zero =>
            rw [textFrom.eq_def] at isAfter
            cases isAfter
            exact ⟨[], rfl, rfl⟩
        | succ offset =>
            rw [textFrom] at isAfter
            split at isAfter
            case isFalse => cases isAfter
            case isTrue fits =>
              obtain ⟨before, isText, length⟩ := induction isAfter
              refine ⟨character :: before, ?_, ?_⟩
              · rw [isText, List.cons_append]
              · rw [length_encode_cons, length]
                omega
  · rintro ⟨before, rfl, rfl⟩
    exact textFrom_append before after

/-- A character begins at the offset, or the text ends there. -/
def Boundary (text : List Char) (offset : Nat) : Prop :=
  ∃ after, textFrom text offset = some after

theorem boundary_zero (text : List Char) : Boundary text 0 := by
  refine ⟨text, ?_⟩
  rw [textFrom.eq_def]

theorem Boundary.le {text : List Char} {offset : Nat}
    (boundary : Boundary text offset) : offset ≤ (encode text).length := by
  obtain ⟨after, isAfter⟩ := boundary
  obtain ⟨before, rfl, rfl⟩ := textFrom_eq_some_iff.mp isAfter
  rw [encode_append, List.length_append]
  exact Nat.le_add_right _ _

/-- The next character begins where one ends. -/
theorem textFrom_next {text after : List Char} {offset : Nat}
    {character : Char} (isAfter : textFrom text offset =
      some (character :: after)) :
    textFrom text (offset + width character) = some after := by
  obtain ⟨before, rfl, rfl⟩ := textFrom_eq_some_iff.mp isAfter
  apply textFrom_eq_some_iff.mpr
  refine ⟨before ++ [character], ?_, ?_⟩
  · rw [List.append_assoc]
    rfl
  · rw [encode_append, List.length_append, length_encode_cons, encode_nil]
    rfl

theorem length_of_textFrom {text after : List Char} {offset : Nat}
    (isAfter : textFrom text offset = some after) :
    offset + (encode after).length = (encode text).length := by
  obtain ⟨before, rfl, rfl⟩ := textFrom_eq_some_iff.mp isAfter
  rw [encode_append, List.length_append]

end Foundation.Utf8
