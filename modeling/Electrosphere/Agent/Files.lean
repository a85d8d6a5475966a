import Electrosphere.Agent.Executions
import Electrosphere.Foundation.Base64
import Electrosphere.Foundation.Json
import Mathlib.Data.List.Lex

/-!
# Answers of the guest's file service

The types that the file requests of the guest agent share, the answer
`FileResponse` as the agent serialises it, and the lines of a text.
-/

namespace Electrosphere.Agent

open Foundation

/-- A Rust `String`. -/
abbrev Text := List Char

def maxReadResponseBytes : Nat := 512 * 1024

def maxSearchResponseBytes : Nat := 1500000

def maxCrossLineBytes : Nat := 16 * 1024 * 1024

structure FileFailure where
  code : Option String
  message : String
  /-- `FailureDetails::current_digest`. -/
  currentDigest : Option Text := none
  deriving DecidableEq

namespace FileFailure

def coded (code message : String) : FileFailure := { code := some code, message }

def backend (message : String) : FileFailure := { code := none, message }

def stale (currentDigest : Text) : FileFailure :=
  { code := some "INVALID_EDIT", message := "File digest changed"
    currentDigest := some currentDigest }

end FileFailure

abbrev FileResult := Except FileFailure

/-- The bytes of a path, by which paths are sorted. -/
def byteOrder (path : Text) : List Nat := (Utf8.encode path).map UInt8.toNat

/-! ## Answers -/

structure Entry where
  path : Text
  kind : Text
  size : Option Nat
  modifiedAt : Option Nat
  deriving DecidableEq

structure GrepMatch where
  path : Text
  line : Nat
  text : Text
  contextBefore : Option (List Text)
  contextAfter : Option (List Text)
  deriving DecidableEq

structure StatResult where
  kind : Text
  size : Nat
  mode : Nat
  modifiedAt : Nat
  deriving DecidableEq

structure FileResponse where
  lines : Option (List Text) := none
  entries : Option (List Entry) := none
  grepMatches : Option (List GrepMatch) := none
  statResult : Option StatResult := none
  totalMatches : Option Nat := none
  nextOffset : Option Nat := none
  skippedFiles : Option Nat := none
  isDirectory : Option Bool := none
  data : Option Text := none
  size : Option Nat := none
  digest : Option Text := none
  eof : Option Bool := none
  truncated : Option Bool := none
  nextCursor : Option Text := none
  linesBefore : Option Nat := none
  linesAfter : Option Nat := none

/-! ## Serialised answers -/

/-- A field that is left out when it is absent. -/
def optional {α : Type} (name : String) (encode : α → List Char) :
    Option α → List (String × List Char)
  | none => []
  | some value => [(name, encode value)]

def texts (values : List Text) : List Char :=
  Json.array (values.map Json.string)

def Entry.encode (entry : Entry) : List Char :=
  Json.object
    ([("path", Json.string entry.path), ("type", Json.string entry.kind)] ++
      optional "size" Json.natural entry.size ++
      optional "modifiedAt" Json.natural entry.modifiedAt)

def GrepMatch.encode (value : GrepMatch) : List Char :=
  Json.object
    ([("path", Json.string value.path), ("line", Json.natural value.line),
        ("text", Json.string value.text)] ++
      optional "contextBefore" texts value.contextBefore ++
      optional "contextAfter" texts value.contextAfter)

def StatResult.encode (value : StatResult) : List Char :=
  Json.object
    [("type", Json.string value.kind), ("size", Json.natural value.size),
      ("mode", Json.natural value.mode),
      ("modifiedAt", Json.natural value.modifiedAt)]

namespace FileResponse

def fields (response : FileResponse) : List (String × List Char) :=
  optional "lines" texts response.lines ++
    optional "entries" (fun entries => Json.array (entries.map Entry.encode))
      response.entries ++
    optional "matches"
      (fun values => Json.array (values.map GrepMatch.encode))
      response.grepMatches ++
    optional "statResult" StatResult.encode response.statResult ++
    optional "totalMatches" Json.natural response.totalMatches ++
    optional "nextOffset" Json.natural response.nextOffset ++
    optional "skippedFiles" Json.natural response.skippedFiles ++
    optional "isDirectory" Json.boolean response.isDirectory ++
    optional "data" Json.string response.data ++
    optional "size" Json.natural response.size ++
    optional "digest" Json.string response.digest ++
    optional "eof" Json.boolean response.eof ++
    optional "truncated" Json.boolean response.truncated ++
    optional "nextCursor" Json.string response.nextCursor ++
    optional "linesBefore" Json.natural response.linesBefore ++
    optional "linesAfter" Json.natural response.linesAfter

/-- The length of `serde_json::to_vec`. -/
def encodedSize (response : FileResponse) : Nat :=
  Json.size (Json.object response.fields)

end FileResponse

/-! ## Cursors -/

structure ReadCursor where
  nextLine : Nat
  deriving DecidableEq

def ReadCursor.encode (cursor : ReadCursor) : List Char :=
  Json.object [("nextLine", Json.natural cursor.nextLine)]

structure DirectoryCursor where
  path : Text
  deriving DecidableEq

def DirectoryCursor.encode (cursor : DirectoryCursor) : List Char :=
  Json.object [("path", Json.string cursor.path)]

structure GrepCursor where
  path : Text
  byteOffset : Nat
  deriving DecidableEq

def GrepCursor.encode (cursor : GrepCursor) : List Char :=
  Json.object
    [("path", Json.string cursor.path),
      ("byteOffset", Json.natural cursor.byteOffset)]

def encodeCursor (value : List Char) : Text :=
  Base64.encode (Utf8.encode value)

/-- What deserialising a cursor yields.  More texts than those that
`encodeCursor` writes may be accepted. -/
structure CursorReader {α : Type} (encode : α → List Char) where
  read : Text → Option α
  read_encode : ∀ value, read (encodeCursor (encode value)) = some value

def CursorReader.decodeCursor {α : Type} {encode : α → List Char}
    (reader : CursorReader encode) (cursor : Text) : FileResult α :=
  match reader.read cursor with
  | some value => .ok value
  | none => .error (.coded "INVALID_ARGUMENT" "Cursor is invalid")

theorem CursorReader.decodeCursor_encode {α : Type} {encode : α → List Char}
    (reader : CursorReader encode) (value : α) :
    reader.decodeCursor (encodeCursor (encode value)) = .ok value := by
  rw [decodeCursor, reader.read_encode]

/-- The reader that accepts only what `encodeCursor` writes. -/
def CursorReader.canonical {α : Type} (encode : α → List Char)
    (parse : List Char → α) (parse_encode : ∀ value, parse (encode value) = value) :
    CursorReader encode where
  read cursor :=
    let value := parse (Utf8.decodeLossy (Base64.decode cursor))
    if encodeCursor (encode value) = cursor then some value else none
  read_encode value := by
    simp [encodeCursor, Base64.decode_encode, parse_encode]

/-- The text of an object up to the value of its first field. -/
def header (name : String) : List Char :=
  Char.ofNat 0x7B :: (Json.string name.toList ++ [':'])

theorem drop_header {name : String} {count : Nat}
    (length : (header name).length = count) (rest : List Char) :
    (header name ++ rest).drop count = rest :=
  List.drop_left' length

def ReadCursor.parse (text : List Char) : ReadCursor :=
  { nextLine := Nat.ofDigitChars 10 (text.drop 12).dropLast 0 }

theorem ReadCursor.parse_encode (value : ReadCursor) :
    parse value.encode = value := by
  have text : value.encode = header "nextLine" ++
      (Json.natural value.nextLine ++ [Char.ofNat 0x7D]) := by
    simp [encode, header, Json.object, Json.separated, Json.field]
  rw [parse, text, drop_header (by decide), List.dropLast_concat,
    Json.ofDigits_natural]

def DirectoryCursor.parse (text : List Char) : DirectoryCursor :=
  { path := (Json.unescape (text.drop 9)).1 }

theorem DirectoryCursor.parse_encode (value : DirectoryCursor) :
    parse value.encode = value := by
  have text : value.encode = header "path" ++ (Char.ofNat 0x22 ::
      (value.path.flatMap Json.escape ++ Char.ofNat 0x22 ::
        [Char.ofNat 0x7D])) := by
    simp [encode, header, Json.object, Json.separated, Json.field,
      Json.string]
  rw [parse, ← List.drop_drop (i := 1) (j := 8), text,
    drop_header (by decide), List.drop_succ_cons, List.drop_zero,
    Json.unescape_string]

def GrepCursor.parse (text : List Char) : GrepCursor :=
  let (path, rest) := Json.unescape (text.drop 9)
  { path, byteOffset := Nat.ofDigitChars 10 (rest.drop 14).dropLast 0 }

theorem GrepCursor.parse_encode (value : GrepCursor) :
    parse value.encode = value := by
  have text : value.encode = header "path" ++ (Char.ofNat 0x22 ::
      (value.path.flatMap Json.escape ++ Char.ofNat 0x22 ::
        ((',' :: (Json.string "byteOffset".toList ++ [':'])) ++
          (Json.natural value.byteOffset ++ [Char.ofNat 0x7D])))) := by
    simp [encode, header, Json.object, Json.separated, Json.field,
      Json.string]
  have separator :
      (',' :: (Json.string "byteOffset".toList ++ [':'])).length = 14 := by
    decide
  rw [parse, ← List.drop_drop (i := 1) (j := 8), text,
    drop_header (by decide), List.drop_succ_cons, List.drop_zero,
    Json.unescape_string]
  dsimp only
  rw [List.drop_left' separator, List.dropLast_concat, Json.ofDigits_natural]

def ReadCursor.reader : CursorReader ReadCursor.encode :=
  .canonical _ parse parse_encode

def DirectoryCursor.reader : CursorReader DirectoryCursor.encode :=
  .canonical _ parse parse_encode

def GrepCursor.reader : CursorReader GrepCursor.encode :=
  .canonical _ parse parse_encode

/-! ## Text -/

/-- `String::from_utf8`. -/
def fromUtf8 (bytes : Bytes) : Option Text :=
  if Utf8.encode (Utf8.decodeLossy bytes) = bytes then
    some (Utf8.decodeLossy bytes)
  else none

theorem fromUtf8_encode (text : Text) :
    fromUtf8 (Utf8.encode text) = some text := by
  rw [fromUtf8, Utf8.decodeLossy_encode, if_pos rfl]

/-! ### Lines -/

/-- The parts of a list up to and with each separator. -/
def splitInclusive {α : Type} [DecidableEq α] (separator : α) :
    List α → List (List α)
  | [] => []
  | item :: items =>
      if item = separator then [item] :: splitInclusive separator items
      else
        match splitInclusive separator items with
        | [] => [[item]]
        | line :: lines => (item :: line) :: lines

theorem splitInclusive_ne_nil {α : Type} [DecidableEq α] (separator item : α)
    (items : List α) : splitInclusive separator (item :: items) ≠ [] := by
  rw [splitInclusive]
  split
  · exact List.cons_ne_nil _ _
  · split <;> exact List.cons_ne_nil _ _

theorem splitInclusive_append {α : Type} [DecidableEq α] {separator : α}
    {first : List α} (nonempty : first ≠ []) (inside : separator ∉ first)
    (items : List α) :
    splitInclusive separator (first ++ items) =
      match splitInclusive separator items with
      | [] => [first]
      | line :: lines => (first ++ line) :: lines := by
  induction first with
  | nil => exact (nonempty rfl).elim
  | cons item first induction =>
      have other : item ≠ separator := by
        intro same
        exact inside (same ▸ List.mem_cons_self)
      rw [List.cons_append, splitInclusive, if_neg other]
      cases first with
      | nil => rfl
      | cons next first =>
          rw [induction (List.cons_ne_nil _ _)
            (fun member => inside (List.mem_cons_of_mem _ member))]
          cases splitInclusive separator items <;> rfl

/-- A line that ends in the separator is split off. -/
theorem splitInclusive_line {α : Type} [DecidableEq α] {separator : α}
    {first : List α} (inside : separator ∉ first) (items : List α) :
    splitInclusive separator (first ++ separator :: items) =
      (first ++ [separator]) :: splitInclusive separator items := by
  induction first with
  | nil =>
      rw [List.nil_append, splitInclusive, if_pos rfl]
      rfl
  | cons item first induction =>
      have other : item ≠ separator := by
        intro same
        exact inside (same ▸ List.mem_cons_self)
      rw [List.cons_append, splitInclusive, if_neg other,
        induction (fun member => inside (List.mem_cons_of_mem _ member))]
      rfl

theorem flatten_splitInclusive {α : Type} [DecidableEq α] (separator : α)
    (items : List α) : (splitInclusive separator items).flatten = items := by
  induction items with
  | nil => rfl
  | cons item items induction =>
      rw [splitInclusive]
      split
      case isTrue => rw [List.flatten_cons, induction, List.singleton_append]
      case isFalse =>
        cases lines : splitInclusive separator items with
        | nil =>
            rw [lines] at induction
            rw [← induction]
            rfl
        | cons line lines' =>
            rw [lines] at induction
            rw [← induction]
            rfl

theorem length_splitInclusive_le {α : Type} [DecidableEq α] (separator : α)
    (items : List α) :
    (splitInclusive separator items).length ≤ items.length := by
  induction items with
  | nil => exact Nat.le_refl _
  | cons item items induction =>
      rw [splitInclusive, List.length_cons]
      split
      case isTrue =>
        rw [List.length_cons]
        exact Nat.succ_le_succ induction
      case isFalse =>
        cases lines : splitInclusive separator items with
        | nil => exact Nat.succ_le_succ (Nat.zero_le _)
        | cons line later =>
            rw [lines, List.length_cons] at induction
            rw [List.length_cons]
            omega

def newline : Char := Char.ofNat 0x0A

/-- The lines of a text, each with its line feed. -/
def Text.lines (text : Text) : List Text := splitInclusive newline text

/-- The lines of a file, each with its line feed. -/
def byteLines (bytes : Bytes) : List Bytes := splitInclusive 0x0A bytes

theorem newline_not_mem {character : Char} (other : character ≠ newline) :
    (0x0A : UInt8) ∉ String.utf8EncodeChar character := by
  intro member
  apply other
  have isEncoded := Utf8.encoded character
  generalize String.utf8EncodeChar character = bytes at member isEncoded
  cases isEncoded with
  | @one a _ isValue =>
      cases List.mem_singleton.mp member
      exact Char.toNat_inj.mp isValue
  | two first _ second =>
      simp only [List.mem_cons, List.not_mem_nil, or_false] at member
      rcases member with rfl | rfl
      · exact absurd first (by decide)
      · exact absurd second (by decide)
  | three first _ second _ third =>
      simp only [List.mem_cons, List.not_mem_nil, or_false] at member
      rcases member with rfl | rfl | rfl
      · exact absurd first (by decide)
      · split at second <;> exact absurd second (by decide)
      · exact absurd third (by decide)
  | four first _ second _ third _ fourth =>
      simp only [List.mem_cons, List.not_mem_nil, or_false] at member
      rcases member with rfl | rfl | rfl | rfl
      · exact absurd first (by decide)
      · split at second <;> exact absurd second (by decide)
      · exact absurd third (by decide)
      · exact absurd fourth (by decide)

/-- The lines of the bytes of a text are the bytes of its lines. -/
theorem byteLines_encode (text : Text) :
    byteLines (Utf8.encode text) = (Text.lines text).map Utf8.encode := by
  induction text with
  | nil => rfl
  | cons character text induction =>
      rw [Utf8.encode_cons, byteLines]
      by_cases isNewline : character = newline
      · rw [isNewline, Text.lines, splitInclusive, if_pos rfl]
        change splitInclusive 0x0A (0x0A :: Utf8.encode text) = _
        rw [splitInclusive, if_pos rfl]
        exact congrArg ([0x0A] :: ·) induction
      · have nonempty : String.utf8EncodeChar character ≠ [] := by
          intro none
          have isEncoded := Utf8.encoded character
          rw [none] at isEncoded
          cases isEncoded
        rw [splitInclusive_append nonempty (newline_not_mem isNewline),
          Text.lines, splitInclusive, if_neg isNewline]
        rw [byteLines, Text.lines] at induction
        rw [induction]
        cases splitInclusive newline text with
        | nil => simp
        | cons line lines => simp

end Electrosphere.Agent
