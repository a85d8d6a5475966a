import Mathlib.Data.Nat.ModEq

/-!
# Numbers as bytes of a fixed width

The most significant byte comes first.  A number that does not fit loses its
upper bits, as a cast to a narrower type does.
-/

namespace Foundation

def bigEndian : Nat → Nat → List UInt8
  | 0, _ => []
  | width + 1, value =>
      UInt8.ofNat (value / 256 ^ width) :: bigEndian width value

def ofBigEndian : List UInt8 → Nat
  | [] => 0
  | byte :: bytes => byte.toNat * 256 ^ bytes.length + ofBigEndian bytes

@[simp] theorem length_bigEndian (width value : Nat) :
    (bigEndian width value).length = width := by
  induction width with
  | zero => rfl
  | succ width induction => rw [bigEndian, List.length_cons, induction]

theorem ofBigEndian_lt (bytes : List UInt8) :
    ofBigEndian bytes < 256 ^ bytes.length := by
  induction bytes with
  | nil => exact Nat.one_pos
  | cons byte bytes induction =>
      have small : byte.toNat + 1 ≤ 256 := byte.toNat_lt
      calc ofBigEndian (byte :: bytes)
          < byte.toNat * 256 ^ bytes.length + 256 ^ bytes.length :=
            Nat.add_lt_add_left induction _
        _ = (byte.toNat + 1) * 256 ^ bytes.length := (Nat.succ_mul _ _).symm
        _ ≤ 256 * 256 ^ bytes.length := Nat.mul_le_mul_right _ small
        _ = 256 ^ (byte :: bytes).length := by
            rw [List.length_cons, Nat.pow_succ, Nat.mul_comm]

theorem ofBigEndian_bigEndian (width value : Nat) :
    ofBigEndian (bigEndian width value) = value % 256 ^ width := by
  induction width with
  | zero => rw [Nat.pow_zero, Nat.mod_one]; rfl
  | succ width induction =>
      have last := Nat.mod_pow_succ (b := 256) (x := value) (k := width)
      rw [bigEndian, ofBigEndian, induction, length_bigEndian,
        UInt8.toNat_ofNat', last, Nat.mul_comm, Nat.add_comm]

theorem ofBigEndian_bigEndian_of_lt {width value : Nat}
    (fits : value < 256 ^ width) :
    ofBigEndian (bigEndian width value) = value := by
  rw [ofBigEndian_bigEndian, Nat.mod_eq_of_lt fits]

/-- Upper bits do not reach the lower bytes. -/
theorem bigEndian_add_mul {width more : Nat} (narrow : width ≤ more)
    (upper value : Nat) :
    bigEndian width (upper * 256 ^ more + value) = bigEndian width value := by
  induction width with
  | zero => rfl
  | succ width induction =>
      have split : 256 ^ more = 256 ^ (more - width - 1) * 256 * 256 ^ width := by
        rw [← Nat.pow_succ, ← Nat.pow_add]
        congr 1
        omega
      have first : (upper * 256 ^ more + value) / 256 ^ width =
          upper * 256 ^ (more - width - 1) * 256 + value / 256 ^ width := by
        rw [split, ← Nat.mul_assoc, ← Nat.mul_assoc, Nat.add_comm,
          Nat.add_mul_div_right _ _ (Nat.pow_pos (by decide)), Nat.add_comm]
      rw [bigEndian, bigEndian, induction (by omega), first]
      congr 1
      apply UInt8.toNat_inj.mp
      rw [UInt8.toNat_ofNat', UInt8.toNat_ofNat']
      omega

theorem bigEndian_ofBigEndian (bytes : List UInt8) :
    bigEndian bytes.length (ofBigEndian bytes) = bytes := by
  induction bytes with
  | nil => rfl
  | cons byte bytes induction =>
      have first : ofBigEndian (byte :: bytes) / 256 ^ bytes.length =
          byte.toNat := by
        rw [ofBigEndian, Nat.add_comm,
          Nat.add_mul_div_right _ _ (Nat.pow_pos (by decide)),
          Nat.div_eq_of_lt (ofBigEndian_lt bytes), Nat.zero_add]
      rw [List.length_cons, bigEndian, first, UInt8.ofNat_toNat, ofBigEndian,
        bigEndian_add_mul (Nat.le_refl _), induction]

/-! ## Reading from the front -/

/-- The first bytes, if there are enough of them, and what follows. -/
def takeBytes (count : Nat) (bytes : List UInt8) :
    Option (List UInt8 × List UInt8) :=
  if count ≤ bytes.length then some (bytes.take count, bytes.drop count)
  else none

def takeNumber (width : Nat) (bytes : List UInt8) :
    Option (Nat × List UInt8) :=
  (takeBytes width bytes).map fun taken => (ofBigEndian taken.1, taken.2)

section Reading

variable {count width value : Nat} {bytes taken rest : List UInt8}

theorem takeBytes_append (bytes rest : List UInt8) :
    takeBytes bytes.length (bytes ++ rest) = some (bytes, rest) := by
  rw [takeBytes, if_pos (by simp), List.take_left, List.drop_left]

theorem takeBytes_eq_some_iff :
    takeBytes count bytes = some (taken, rest) ↔
      bytes = taken ++ rest ∧ taken.length = count := by
  constructor
  · intro isTaken
    rw [takeBytes] at isTaken
    split at isTaken
    case isTrue enough =>
      cases isTaken
      exact ⟨(List.take_append_drop count bytes).symm,
        List.length_take_of_le enough⟩
    case isFalse => cases isTaken
  · rintro ⟨rfl, rfl⟩
    exact takeBytes_append taken rest

theorem takeNumber_append (fits : value < 256 ^ width)
    (rest : List UInt8) :
    takeNumber width (bigEndian width value ++ rest) = some (value, rest) := by
  have front := takeBytes_append (bigEndian width value) rest
  rw [length_bigEndian] at front
  rw [takeNumber, front, Option.map_some, ofBigEndian_bigEndian_of_lt fits]

theorem takeNumber_eq_some_iff :
    takeNumber width bytes = some (value, rest) ↔
      bytes = bigEndian width value ++ rest ∧ value < 256 ^ width := by
  constructor
  · intro isTaken
    rw [takeNumber, Option.map_eq_some_iff] at isTaken
    obtain ⟨⟨front, behind⟩, isFront, same⟩ := isTaken
    cases same
    obtain ⟨rfl, rfl⟩ := takeBytes_eq_some_iff.mp isFront
    exact ⟨by rw [bigEndian_ofBigEndian], ofBigEndian_lt front⟩
  · rintro ⟨rfl, fits⟩
    exact takeNumber_append fits rest

end Reading

end Foundation
