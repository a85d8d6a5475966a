import Electrosphere.Foundation.Utf8

/-!
# Base64

Bytes as text in the alphabet that addresses allow, without padding, and in
the standard alphabet, with padding; and back.
-/

namespace Foundation.Base64

def digit (value : Nat) : Char :=
  if value < 26 then Char.ofNat (0x41 + value)
  else if value < 52 then Char.ofNat (0x61 + (value - 26))
  else if value < 62 then Char.ofNat (0x30 + (value - 52))
  else if value = 62 then '-'
  else '_'

def digitValue (character : Char) : Nat :=
  if character = '-' then 62
  else if character = '_' then 63
  else if character.toNat < 0x3A then character.toNat - 0x30 + 52
  else if character.toNat < 0x5B then character.toNat - 0x41
  else character.toNat - 0x61 + 26

theorem digitValue_digit {value : Nat} (small : value < 64) :
    digitValue (digit value) = value := by
  have all : ∀ value : Fin 64, digitValue (digit value) = value := by decide
  exact all ⟨value, small⟩

/-- Six bits at a time. -/
def sextets : List UInt8 → List Nat
  | [] => []
  | [a] => [a.toNat / 4, a.toNat % 4 * 16]
  | [a, b] =>
      [a.toNat / 4, a.toNat % 4 * 16 + b.toNat / 16, b.toNat % 16 * 4]
  | a :: b :: c :: bytes =>
      a.toNat / 4 :: (a.toNat % 4 * 16 + b.toNat / 16) ::
        (b.toNat % 16 * 4 + c.toNat / 64) :: c.toNat % 64 :: sextets bytes

def octets : List Nat → List UInt8
  | a :: b :: c :: d :: values =>
      UInt8.ofNat (a * 4 + b / 16) :: UInt8.ofNat (b % 16 * 16 + c / 4) ::
        UInt8.ofNat (c % 4 * 64 + d) :: octets values
  | [a, b, c] =>
      [UInt8.ofNat (a * 4 + b / 16), UInt8.ofNat (b % 16 * 16 + c / 4)]
  | [a, b] => [UInt8.ofNat (a * 4 + b / 16)]
  | _ => []

def encode (bytes : List UInt8) : List Char := (sextets bytes).map digit

def decode (text : List Char) : List UInt8 := octets (text.map digitValue)

theorem ofNat_eq (byte : UInt8) {value : Nat} (same : value = byte.toNat) :
    UInt8.ofNat value = byte := by
  rw [same, UInt8.ofNat_toNat]

theorem sextets_lt (bytes : List UInt8) :
    ∀ value ∈ sextets bytes, value < 64 := by
  induction bytes using sextets.induct with
  | case1 => simp [sextets]
  | case2 a =>
      have bound := a.toNat_lt
      simp [sextets]
      omega
  | case3 a b =>
      have first := a.toNat_lt
      have second := b.toNat_lt
      simp [sextets]
      omega
  | case4 a b c bytes induction =>
      have first := a.toNat_lt
      have second := b.toNat_lt
      have third := c.toNat_lt
      simp only [sextets, List.forall_mem_cons]
      refine ⟨?_, ?_, ?_, ?_, induction⟩ <;> omega

theorem length_encode (bytes : List UInt8) :
    (encode bytes).length = (4 * bytes.length + 2) / 3 := by
  rw [encode, List.length_map]
  induction bytes using sextets.induct with
  | case1 => rfl
  | case2 => simp [sextets]
  | case3 => simp [sextets]
  | case4 a b c bytes induction =>
      simp only [sextets, List.length_cons, induction]
      omega

theorem octets_sextets (bytes : List UInt8) :
    octets (sextets bytes) = bytes := by
  induction bytes using sextets.induct with
  | case1 => rfl
  | case2 a =>
      have first := a.toNat_lt
      rw [sextets, octets, ofNat_eq a (by omega)]
  | case3 a b =>
      have first := a.toNat_lt
      have second := b.toNat_lt
      rw [sextets, octets, ofNat_eq a (by omega),
        ofNat_eq b (by omega)]
  | case4 a b c bytes induction =>
      have first := a.toNat_lt
      have second := b.toNat_lt
      have third := c.toNat_lt
      rw [sextets, octets, induction, ofNat_eq a (by omega),
        ofNat_eq b (by omega), ofNat_eq c (by omega)]

/-- Bytes that are encoded and decoded are the bytes again. -/
theorem decode_encode (bytes : List UInt8) : decode (encode bytes) = bytes := by
  have values : ((sextets bytes).map digit).map digitValue = sextets bytes := by
    rw [List.map_map]
    calc
      (sextets bytes).map (digitValue ∘ digit) = (sextets bytes).map id := by
        apply List.map_congr_left
        intro value member
        exact digitValue_digit (sextets_lt bytes value member)
      _ = sextets bytes := List.map_id _
  rw [decode, encode, values, octets_sextets]

/-! ## The standard alphabet -/

def toStandard (character : Char) : Char :=
  if character = '-' then '+'
  else if character = '_' then '/'
  else character

def ofStandard (character : Char) : Char :=
  if character = '+' then '-'
  else if character = '/' then '_'
  else character

def padding (bytes : List UInt8) : List Char :=
  List.replicate ((3 - bytes.length % 3) % 3) '='

def encodeStandard (bytes : List UInt8) : List Char :=
  (encode bytes).map toStandard ++ padding bytes

def decodeStandard (text : List Char) : List UInt8 :=
  decode ((text.takeWhile fun character => character != '=').map ofStandard)

theorem standard_digit {value : Nat} (small : value < 64) :
    toStandard (digit value) ≠ '=' ∧
      ofStandard (toStandard (digit value)) = digit value := by
  have all : ∀ value : Fin 64, toStandard (digit value) ≠ '=' ∧
      ofStandard (toStandard (digit value)) = digit value := by decide
  exact all ⟨value, small⟩

theorem digit_of_mem_encode {bytes : List UInt8} {character : Char}
    (member : character ∈ encode bytes) :
    ∃ value, value < 64 ∧ digit value = character := by
  obtain ⟨value, inside, isDigit⟩ := List.mem_map.mp member
  exact ⟨value, sextets_lt bytes value inside, isDigit⟩

theorem ascii_of_mem_encode {bytes : List UInt8} {character : Char}
    (member : character ∈ encode bytes) : character.toNat < 0x80 := by
  obtain ⟨value, small, rfl⟩ := digit_of_mem_encode member
  have all : ∀ value : Fin 64, (digit value).toNat < 0x80 := by decide
  exact all ⟨value, small⟩

theorem decodeStandard_encodeStandard (bytes : List UInt8) :
    decodeStandard (encodeStandard bytes) = bytes := by
  have digits : ((encode bytes).map toStandard ++ padding bytes).takeWhile
      (fun character => character != '=') = (encode bytes).map toStandard := by
    rw [List.takeWhile_append_of_pos]
    · rw [padding, List.takeWhile_replicate, if_neg (by simp),
        List.append_nil]
    · intro character member
      obtain ⟨letter, inside, rfl⟩ := List.mem_map.mp member
      obtain ⟨value, small, rfl⟩ := digit_of_mem_encode inside
      simpa using (standard_digit small).1
  have letters : ((encode bytes).map toStandard).map ofStandard =
      encode bytes := by
    rw [List.map_map]
    calc
      (encode bytes).map (ofStandard ∘ toStandard) =
          (encode bytes).map id := by
        apply List.map_congr_left
        intro letter inside
        obtain ⟨value, small, rfl⟩ := digit_of_mem_encode inside
        exact (standard_digit small).2
      _ = encode bytes := List.map_id _
  rw [decodeStandard, encodeStandard, digits, letters, decode_encode]

/-! ## Text in pieces -/

theorem sextets_append {first : List UInt8} (second : List UInt8)
    (whole : 3 ∣ first.length) :
    sextets (first ++ second) = sextets first ++ sextets second := by
  induction first using sextets.induct with
  | case1 => rfl
  | case2 a =>
      rw [List.length_singleton] at whole
      omega
  | case3 a b =>
      rw [List.length_cons, List.length_singleton] at whole
      omega
  | case4 a b c bytes induction =>
      have fewer : 3 ∣ bytes.length := by
        rw [List.length_cons, List.length_cons, List.length_cons] at whole
        omega
      simp only [List.cons_append, sextets, induction fewer]

/-- Bytes in whole groups of three are encoded apart from those after them. -/
theorem encodeStandard_append {first : List UInt8} (second : List UInt8)
    (whole : 3 ∣ first.length) :
    encodeStandard (first ++ second) =
      encodeStandard first ++ encodeStandard second := by
  have noPadding : padding first = [] := by
    rw [padding, Nat.mod_eq_zero_of_dvd whole]
    rfl
  have samePadding : padding (first ++ second) = padding second := by
    have same : (first ++ second).length % 3 = second.length % 3 := by
      rw [List.length_append]
      omega
    rw [padding, padding, same]
  rw [encodeStandard, encodeStandard, encodeStandard, encode,
    sextets_append second whole, List.map_append, List.map_append, noPadding,
    samePadding, List.append_nil, List.append_assoc]
  rfl

theorem length_encodeStandard (bytes : List UInt8) :
    (encodeStandard bytes).length = (bytes.length + 2) / 3 * 4 := by
  rw [encodeStandard, List.length_append, List.length_map, length_encode,
    padding, List.length_replicate]
  omega

theorem length_padding_le (bytes : List UInt8) : (padding bytes).length ≤ 2 := by
  rw [padding, List.length_replicate]
  omega

/-- Padding stands at the end only. -/
theorem not_mem_digits (bytes : List UInt8) :
    '=' ∉ (encode bytes).map toStandard := by
  intro member
  obtain ⟨letter, inside, isPadding⟩ := List.mem_map.mp member
  obtain ⟨value, small, rfl⟩ := digit_of_mem_encode inside
  exact (standard_digit small).1 isPadding

end Foundation.Base64
