import Electrosphere.Foundation.Utf8

/-!
# Decoding that stops at the first error

The decoder of the Encoding Standard in its fatal mode, for a stream that comes
in chunks.  It accepts whatever a well-formed text begins with, and it ends
without error exactly between two characters.
-/

namespace Foundation.Utf8

namespace Decoder

/-- The byte can come next in a text. -/
def accepts (decoder : Decoder) (byte : Nat) : Bool :=
  if decoder.owed = 0 then
    decide (byte ≤ 0x7F ∨ 0xC2 ≤ byte ∧ byte ≤ 0xF4)
  else decide (decoder.low ≤ byte ∧ byte ≤ decoder.high)

def wellFormed (decoder : Decoder) : List UInt8 → Bool
  | [] => true
  | byte :: bytes =>
      decoder.accepts byte.toNat && (decoder.push byte.toNat).2.wellFormed bytes

/-- What one chunk decodes to. -/
def decode (decoder : Decoder) (bytes : List UInt8) :
    Option (List Char × Decoder) :=
  if decoder.wellFormed bytes then some (decoder.run bytes) else none

theorem wellFormed_append (decoder : Decoder) (first second : List UInt8) :
    decoder.wellFormed (first ++ second) =
      (decoder.wellFormed first && (decoder.run first).2.wellFormed second) := by
  induction first generalizing decoder with
  | nil => rfl
  | cons byte first induction =>
      rw [List.cons_append, wellFormed, induction, wellFormed, Bool.and_assoc]
      rfl

theorem wellFormed_of_append {decoder : Decoder} {first second : List UInt8}
    (whole : decoder.wellFormed (first ++ second) = true) :
    decoder.wellFormed first = true ∧
      (decoder.run first).2.wellFormed second = true := by
  rw [wellFormed_append, Bool.and_eq_true] at whole
  exact whole

end Decoder

/-- The text of bytes without error. -/
def decodeFatal (bytes : List UInt8) : Option (List Char) :=
  match Decoder.decode {} bytes with
  | some (text, decoder) => if decoder.owed = 0 then some text else none
  | none => none

/-! ## Texts -/

theorem Encoded.wellFormed {character : Char} {bytes : List UInt8}
    (isEncoded : Encoded character bytes) :
    Decoder.wellFormed {} bytes = true := by
  have accepts_start : ∀ byte : Nat, byte ≤ 0x7F ∨ 0xC2 ≤ byte ∧ byte ≤ 0xF4 →
      Decoder.accepts {} byte = true := by
    intro byte starts
    rw [Decoder.accepts, if_pos rfl]
    exact decide_eq_true starts
  have accepts_next : ∀ (decoder : Decoder) (byte : Nat), decoder.owed ≠ 0 →
      decoder.low ≤ byte → byte ≤ decoder.high →
      decoder.accepts byte = true := by
    intro decoder byte owed low high
    rw [Decoder.accepts, if_neg owed]
    exact decide_eq_true ⟨low, high⟩
  cases isEncoded with
  | one small =>
      rw [Decoder.wellFormed, accepts_start _ (.inl small)]
      rfl
  | two firstLow firstHigh low high =>
      rw [Decoder.wellFormed, accepts_start _ (.inr ⟨by omega, by omega⟩),
        Decoder.push_start, lead_two firstLow firstHigh, Decoder.wellFormed,
        accepts_next _ _ (Nat.succ_ne_zero _) low high]
      rfl
  | three firstLow firstHigh secondLow secondHigh low high =>
      rw [Decoder.wellFormed, accepts_start _ (.inr ⟨by omega, by omega⟩),
        Decoder.push_start, lead_three firstLow firstHigh, Decoder.wellFormed,
        accepts_next _ _ (Nat.succ_ne_zero _) secondLow secondHigh,
        Decoder.push_more rfl secondLow secondHigh, Decoder.wellFormed,
        accepts_next _ _ (Nat.succ_ne_zero _) low high]
      rfl
  | four firstLow firstHigh secondLow secondHigh thirdLow thirdHigh low high =>
      rw [Decoder.wellFormed, accepts_start _ (.inr ⟨by omega, by omega⟩),
        Decoder.push_start, lead_four firstLow firstHigh, Decoder.wellFormed,
        accepts_next _ _ (Nat.succ_ne_zero _) secondLow secondHigh,
        Decoder.push_more rfl secondLow secondHigh, Decoder.wellFormed,
        accepts_next _ _ (Nat.succ_ne_zero _) thirdLow thirdHigh,
        Decoder.push_more rfl thirdLow thirdHigh, Decoder.wellFormed,
        accepts_next _ _ (Nat.succ_ne_zero _) low high]
      rfl

theorem wellFormed_encode (text : List Char) :
    Decoder.wellFormed {} (encode text) = true := by
  induction text with
  | nil => rfl
  | cons character text induction =>
      rw [encode_cons, Decoder.wellFormed_append, (encoded character).wellFormed,
        (encoded character).run, induction]
      rfl

theorem decodeFatal_encode (text : List Char) :
    decodeFatal (encode text) = some text := by
  rw [decodeFatal, Decoder.decode, wellFormed_encode, if_pos rfl, run_encode]
  rfl

/-- A chunk of a text that is decoded chunk by chunk. -/
theorem decode_chunk {decoder : Decoder} {chunk rest : List UInt8}
    (whole : decoder.wellFormed (chunk ++ rest) = true) :
    decoder.decode chunk = some (decoder.run chunk) ∧
      (decoder.run chunk).2.wellFormed rest = true := by
  obtain ⟨first, second⟩ := Decoder.wellFormed_of_append whole
  exact ⟨if_pos first, second⟩

/-! ## Where a text may be cut -/

theorem encoded_ne_nil (character : Char) :
    String.utf8EncodeChar character ≠ [] := by
  intro none
  have isEncoded := encoded character
  rw [none] at isEncoded
  cases isEncoded

theorem Encoded.lead {character : Char} {byte : UInt8} {bytes : List UInt8}
    (isEncoded : Encoded character (byte :: bytes)) : ¬ Continues byte := by
  intro continues
  obtain ⟨low, high⟩ := continues
  cases isEncoded with
  | one small => omega
  | two firstLow => omega
  | three firstLow => omega
  | four firstLow => omega

/-- A cut inside a text falls before a character or inside one. -/
theorem cut_encode (text : List Char) {count : Nat}
    (inside : count < (encode text).length) :
    ∃ before character after held, text = before ++ character :: after ∧
      count = (encode before).length + held ∧
      held < (String.utf8EncodeChar character).length := by
  induction text generalizing count with
  | nil => cases inside
  | cons character text induction =>
      rw [encode_cons, List.length_append] at inside
      by_cases within : count < (String.utf8EncodeChar character).length
      · exact ⟨[], character, text, count, rfl, (Nat.zero_add _).symm, within⟩
      · obtain ⟨before, next, after, held, isText, isCount, isHeld⟩ :=
          induction (show count - (String.utf8EncodeChar character).length <
            (encode text).length by omega)
        refine ⟨character :: before, next, after, held, ?_, ?_, isHeld⟩
        · rw [isText]
          rfl
        · rw [encode_cons, List.length_append]
          omega

/-- Bytes that break off inside a character are no text. -/
theorem decodeFatal_broken (before : List Char) {bytes : List UInt8}
    (breaks : Breaks bytes) : decodeFatal (encode before ++ bytes) = none := by
  obtain ⟨decoder, isRun, owed⟩ := breaks
  unfold decodeFatal Decoder.decode
  rw [Decoder.run_append, run_encode, isRun]
  split
  · rename_i text last isSome
    split at isSome
    · cases isSome
      exact if_neg owed
    · cases isSome
  · rfl

/-- The text before a cut is whole if the byte after it begins a character. -/
theorem decodeFatal_take_iff (text : List Char) {count : Nat} {byte : UInt8}
    (isByte : (encode text)[count]? = some byte) :
    (decodeFatal ((encode text).take count)).isSome = true ↔
      ¬ Continues byte := by
  have inside : count < (encode text).length :=
    (List.getElem?_eq_some_iff.mp isByte).1
  obtain ⟨before, character, after, held, isText, isCount, isHeld⟩ :=
    cut_encode text inside
  have whole : encode text = encode before ++
      (String.utf8EncodeChar character ++ encode after) := by
    rw [isText, encode_append, encode_cons]
  have atByte : (String.utf8EncodeChar character)[held]? = some byte := by
    rw [whole, isCount, List.getElem?_append_right (Nat.le_add_right _ _),
      Nat.add_sub_cancel_left, List.getElem?_append_left isHeld] at isByte
    exact isByte
  have taken : (encode text).take count =
      encode before ++ (String.utf8EncodeChar character).take held := by
    rw [whole, isCount, List.take_length_add_append,
      List.take_append_of_le_length (Nat.le_of_lt isHeld)]
  rw [taken]
  cases held with
  | zero =>
      refine iff_of_true ?_ ?_
      · rw [List.take_zero, List.append_nil, decodeFatal_encode]
        rfl
      · have isEncoded := encoded character
        cases bytes : String.utf8EncodeChar character with
        | nil => exact (encoded_ne_nil character bytes).elim
        | cons first rest =>
            rw [bytes] at isEncoded atByte
            cases atByte
            exact isEncoded.lead
  | succ held =>
      refine iff_of_false ?_ ?_
      · rw [decodeFatal_broken before
          ((encoded character).breaks (Nat.succ_pos held) isHeld)]
        exact Bool.false_ne_true
      · intro single
        apply single
        apply (encoded character).continues
        rw [← List.getElem?_tail] at atByte
        exact List.mem_of_getElem? atByte

end Foundation.Utf8
