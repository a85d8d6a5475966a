import Electrosphere.Foundation.Utf8
import Mathlib.Algebra.GroupWithZero.Nat

/-!
# Compact JSON text

What a compact serialiser writes, value by value, and how many bytes it takes.
A value is given by its text; an object lists its fields in order.
-/

namespace Foundation.Json

def hexDigit (value : Nat) : Char :=
  if value < 10 then Char.ofNat (0x30 + value)
  else Char.ofNat (0x57 + value)

/-- How a character stands in a string literal. -/
def escape (character : Char) : List Char :=
  if character = Char.ofNat 0x22 then [Char.ofNat 0x5C, Char.ofNat 0x22]
  else if character = Char.ofNat 0x5C then
    [Char.ofNat 0x5C, Char.ofNat 0x5C]
  else if character = Char.ofNat 0x08 then [Char.ofNat 0x5C, 'b']
  else if character = Char.ofNat 0x09 then [Char.ofNat 0x5C, 't']
  else if character = Char.ofNat 0x0A then [Char.ofNat 0x5C, 'n']
  else if character = Char.ofNat 0x0C then [Char.ofNat 0x5C, 'f']
  else if character = Char.ofNat 0x0D then [Char.ofNat 0x5C, 'r']
  else if character.toNat < 0x20 then
    [Char.ofNat 0x5C, 'u', '0', '0', hexDigit (character.toNat / 16),
      hexDigit (character.toNat % 16)]
  else [character]

def string (text : List Char) : List Char :=
  Char.ofNat 0x22 :: (text.flatMap escape ++ [Char.ofNat 0x22])

def natural (value : Nat) : List Char := Nat.toDigits 10 value

def boolean (value : Bool) : List Char :=
  if value then ['t', 'r', 'u', 'e'] else ['f', 'a', 'l', 's', 'e']

def separated : List (List Char) → List Char
  | [] => []
  | [value] => value
  | value :: next :: values => value ++ ',' :: separated (next :: values)

def array (values : List (List Char)) : List Char :=
  '[' :: (separated values ++ [']'])

def field (entry : String × List Char) : List Char :=
  string entry.1.toList ++ ':' :: entry.2

def object (fields : List (String × List Char)) : List Char :=
  Char.ofNat 0x7B :: (separated (fields.map field) ++ [Char.ofNat 0x7D])

/-! ## Sizes -/

/-- The bytes that a text takes. -/
def size (text : List Char) : Nat := (Utf8.encode text).length

@[simp] theorem size_nil : size [] = 0 := rfl

@[simp] theorem size_append (first second : List Char) :
    size (first ++ second) = size first + size second := by
  simp [size]

theorem size_cons (character : Char) (text : List Char) :
    size (character :: text) = size [character] + size text := by
  simp [size]

theorem size_replicate (count : Nat) (character : Char) :
    size (List.replicate count character) = count * size [character] := by
  induction count with
  | zero => simp
  | succ count induction =>
      rw [List.replicate_succ, size_cons, induction, Nat.succ_mul]
      omega

theorem size_flatMap (f : Char → List Char) (text : List Char) :
    size (text.flatMap f) = (text.map fun character => size (f character)).sum := by
  induction text with
  | nil => rfl
  | cons character text induction =>
      simp [List.flatMap_cons, induction]

theorem size_singleton_le (character : Char) : size [character] ≤ 4 := by
  have isEncoded := Utf8.encoded character
  have same : size [character] = (String.utf8EncodeChar character).length := by
    simp [size]
  rw [same]
  generalize String.utf8EncodeChar character = bytes at isEncoded
  cases isEncoded <;> simp

theorem size_escape_le (character : Char) : size (escape character) ≤ 12 := by
  have plain := size_singleton_le character
  unfold escape
  iterate 7
    split
    case isTrue => decide
  split
  case isTrue =>
    have high := size_singleton_le (hexDigit (character.toNat / 16))
    have low := size_singleton_le (hexDigit (character.toNat % 16))
    have mark : size [Char.ofNat 0x5C, 'u', '0', '0'] = 4 := by decide
    calc
      size ([Char.ofNat 0x5C, 'u', '0', '0'] ++
          ([hexDigit (character.toNat / 16)] ++
            [hexDigit (character.toNat % 16)])) ≤ 4 + (4 + 4) := by
        rw [size_append, size_append, mark]
        omega
      _ = 12 := rfl
  case isFalse => omega

theorem size_string (text : List Char) :
    size (string text) =
      (text.map fun character => size (escape character)).sum + 2 := by
  have quote : size [Char.ofNat 0x22] = 1 := by decide
  rw [string, size_cons, size_append, size_flatMap, quote]
  omega

theorem size_string_le (text : List Char) :
    size (string text) ≤ 12 * text.length + 2 := by
  rw [size_string]
  apply Nat.add_le_add_right
  induction text with
  | nil => exact Nat.le_refl _
  | cons character text induction =>
      have first := size_escape_le character
      rw [List.map_cons, List.sum_cons, List.length_cons]
      omega

/-- A text of characters that stand for themselves, each of one byte. -/
theorem size_string_replicate {character : Char} (count : Nat)
    (plain : size (escape character) = 1) (rest : List Char) :
    size (string (List.replicate count character ++ rest)) =
      count + size (string rest) := by
  rw [size_string, size_string, List.map_append, List.sum_append,
    List.map_replicate, plain, List.sum_replicate_nat]
  omega

theorem size_separated_cons (value : List Char) (values : List (List Char)) :
    size (separated (value :: values)) =
      size value + (values.map fun next => size next + 1).sum := by
  have comma : size [','] = 1 := by decide
  induction values generalizing value with
  | nil => rfl
  | cons next values induction =>
      rw [separated, size_append, size_cons, comma, induction]
      simp only [List.map_cons, List.sum_cons]
      omega

theorem size_separated_append (values more : List (List Char)) :
    size (separated values) ≤ size (separated (values ++ more)) := by
  cases values with
  | nil => exact Nat.zero_le _
  | cons value values =>
      rw [List.cons_append, size_separated_cons, size_separated_cons,
        List.map_append, List.sum_append]
      omega

theorem size_array (values : List (List Char)) :
    size (array values) = size (separated values) + 2 := by
  have opening : size ['['] = 1 := by decide
  have closing : size [']'] = 1 := by decide
  rw [array, size_cons, size_append, opening, closing]
  omega

/-- An array takes no less than one that it goes on from. -/
theorem size_array_append (values more : List (List Char)) :
    size (array values) ≤ size (array (values ++ more)) := by
  rw [size_array, size_array]
  exact Nat.add_le_add_right (size_separated_append values more) 2

theorem size_object (fields : List (String × List Char)) :
    size (object fields) = size (separated (fields.map field)) + 2 := by
  have opening : size [Char.ofNat 0x7B] = 1 := by decide
  have closing : size [Char.ofNat 0x7D] = 1 := by decide
  rw [object, size_cons, size_append, opening, closing]
  omega

theorem size_field (entry : String × List Char) :
    size (field entry) = size (string entry.1.toList) + 1 + size entry.2 := by
  have colon : size [':'] = 1 := by decide
  rw [field, size_append, size_cons, colon]
  omega

/-! ## Bounds -/

theorem size_le (text : List Char) : size text ≤ 4 * text.length := by
  induction text with
  | nil => exact Nat.le_refl _
  | cons character text induction =>
      have first := size_singleton_le character
      rw [size_cons, List.length_cons]
      omega

theorem size_natural_le {value digits : Nat} (positive : 0 < digits)
    (small : value < 10 ^ digits) : size (natural value) ≤ 4 * digits := by
  have few : (natural value).length ≤ digits :=
    (Nat.length_toDigits_le_iff (by decide) positive).mpr small
  exact Nat.le_trans (size_le _) (Nat.mul_le_mul_left 4 few)

theorem length_le_size (text : List Char) : text.length ≤ size text :=
  Utf8.length_le_encode text

theorem length_le_size_string (text : List Char) :
    text.length ≤ size (string text) := by
  have each : ∀ character : Char, 1 ≤ (escape character).length := by
    intro character
    unfold escape
    iterate 8
      split
      case isTrue => exact Nat.succ_pos _
    exact Nat.le_refl 1
  rw [size_string]
  apply Nat.le_add_right_of_le
  induction text with
  | nil => exact Nat.le_refl 0
  | cons character text induction =>
      have first := Nat.le_trans (each character) (length_le_size _)
      rw [List.map_cons, List.sum_cons, List.length_cons]
      omega

/-- What a field adds to the size of an object is at most this. -/
def fieldSize (entry : String × List Char) : Nat :=
  size (string entry.1.toList) + size entry.2 + 2

theorem size_object_le (fields : List (String × List Char)) :
    size (object fields) ≤ (fields.map fieldSize).sum + 2 := by
  have cost : ∀ entries : List (String × List Char),
      (entries.map fun entry => size (field entry) + 1).sum =
        (entries.map fieldSize).sum := by
    intro entries
    congr 1
    apply List.map_congr_left
    intro entry _
    rw [size_field, fieldSize]
    omega
  rw [size_object]
  cases fields with
  | nil => exact Nat.le_refl _
  | cons first fields =>
      have later := cost fields
      rw [List.map_cons, size_separated_cons, List.map_map, List.map_cons,
        List.sum_cons, size_field, fieldSize]
      change _ + (fields.map fun entry => size (field entry) + 1).sum + 2 ≤ _
      omega

/-! ## Reading back -/

def hexValue (character : Char) : Nat :=
  if character.toNat < 0x3A then character.toNat - 0x30
  else character.toNat - 0x57

def unescapeCharacter (character : Char) : Char :=
  if character = 'b' then Char.ofNat 0x08
  else if character = 't' then Char.ofNat 0x09
  else if character = 'n' then Char.ofNat 0x0A
  else if character = 'f' then Char.ofNat 0x0C
  else if character = 'r' then Char.ofNat 0x0D
  else character

/-- What a string literal stands for from inside it, and what follows it. -/
def unescape : List Char → List Char × List Char
  | [] => ([], [])
  | character :: text =>
      if character = Char.ofNat 0x22 then ([], text)
      else if character = Char.ofNat 0x5C then
        match text with
        | 'u' :: _ :: _ :: high :: low :: text =>
            let (value, rest) := unescape text
            (Char.ofNat (hexValue high * 16 + hexValue low) :: value, rest)
        | next :: text =>
            let (value, rest) := unescape text
            (unescapeCharacter next :: value, rest)
        | [] => ([], [])
      else
        let (value, rest) := unescape text
        (character :: value, rest)

theorem unescape_plain {character : Char} (text : List Char)
    (notQuote : character ≠ Char.ofNat 0x22)
    (notEscape : character ≠ Char.ofNat 0x5C) :
    unescape (character :: text) =
      (character :: (unescape text).1, (unescape text).2) := by
  rw [unescape.eq_def]
  dsimp only
  rw [if_neg notQuote, if_neg notEscape]

theorem unescape_escaped {next : Char} (text : List Char) (other : next ≠ 'u') :
    unescape (Char.ofNat 0x5C :: next :: text) =
      (unescapeCharacter next :: (unescape text).1, (unescape text).2) := by
  rw [unescape.eq_def]
  dsimp only
  rw [if_neg (by decide), if_pos rfl]
  split
  · rename_i same
    cases same
    exact (other rfl).elim
  · rename_i same
    cases same
    rfl
  · rename_i same
    cases same

theorem unescape_control {value : Nat} (text : List Char)
    (small : value < 0x20) :
    unescape (Char.ofNat 0x5C :: 'u' :: '0' :: '0' ::
        hexDigit (value / 16) :: hexDigit (value % 16) :: text) =
      (Char.ofNat value :: (unescape text).1, (unescape text).2) := by
  have digits : ∀ value : Fin 0x20,
      hexValue (hexDigit (value / 16)) * 16 + hexValue (hexDigit (value % 16)) =
        value := by decide
  have same := digits ⟨value, small⟩
  dsimp only at same
  rw [unescape.eq_def]
  dsimp only
  rw [if_neg (by decide), if_pos rfl]
  change (Char.ofNat (hexValue (hexDigit (value / 16)) * 16 +
    hexValue (hexDigit (value % 16))) :: (unescape text).1,
      (unescape text).2) = _
  rw [same]

theorem unescape_escape (character : Char) (text : List Char) :
    unescape (escape character ++ text) =
      (character :: (unescape text).1, (unescape text).2) := by
  unfold escape
  split
  case isTrue same =>
    rw [same]
    exact unescape_escaped text (by decide)
  split
  case isTrue same =>
    rw [same]
    exact unescape_escaped text (by decide)
  split
  case isTrue same =>
    rw [same]
    exact unescape_escaped text (by decide)
  split
  case isTrue same =>
    rw [same]
    exact unescape_escaped text (by decide)
  split
  case isTrue same =>
    rw [same]
    exact unescape_escaped text (by decide)
  split
  case isTrue same =>
    rw [same]
    exact unescape_escaped text (by decide)
  split
  case isTrue same =>
    rw [same]
    exact unescape_escaped text (by decide)
  split
  case isTrue small =>
    rw [← Char.ofNat_toNat character]
    have read := unescape_control text small
    simpa [Char.ofNat_toNat] using read
  case isFalse =>
    exact unescape_plain text ‹_› ‹_›

theorem unescape_string (text rest : List Char) :
    unescape (text.flatMap escape ++ Char.ofNat 0x22 :: rest) =
      (text, rest) := by
  induction text with
  | nil =>
      rw [List.flatMap_nil, List.nil_append, unescape.eq_def]
      dsimp only
      rw [if_pos rfl]
  | cons character text induction =>
      rw [List.flatMap_cons, List.append_assoc, unescape_escape, induction]

theorem ofDigits_natural (value : Nat) :
    Nat.ofDigitChars 10 (natural value) 0 = value :=
  Nat.ofDigitChars_ten_toDigits

end Foundation.Json
