import Electrosphere.Agent.FileGrep
import Electrosphere.Agent.FileRead
import Mathlib.Data.Prod.Lex

/-!
# `file_glob` of the guest agent

The entries that the walk of the workspace yields and that a pattern matches
are sorted, those up to the cursor are left out, and the rest is returned as
far as the answer has room.  The walk and the pattern engine are part of the
service.
-/

namespace Electrosphere.Agent

open Foundation

structure GlobCursor where
  sort : Text
  path : Text
  modifiedAt : Option UInt64
  deriving DecidableEq

def encodeTime : Option UInt64 → List Char
  | none => "null".toList
  | some time => Json.natural time.toNat

def GlobCursor.encode (cursor : GlobCursor) : List Char :=
  Json.object
    [("sort", Json.string cursor.sort), ("path", Json.string cursor.path),
      ("modifiedAt", encodeTime cursor.modifiedAt)]

/-- What the walk yields, with its name below the root.  There is no kind
where `symlink_metadata` fails or finds something else. -/
structure GlobItem where
  name : Bytes
  kind : Option Text
  size : Nat
  modifiedAt : UInt64

structure GlobRequest where
  patterns : List Text
  limit : Nat
  cursor : Option Text
  gitignore : Bool
  hidden : Bool
  sort : Text

structure GlobService where
  /-- `GlobBuilder::build`. -/
  buildGlob : Text → FileResult Unit
  /-- `GlobSetBuilder::build`, and whether the set matches a path. -/
  buildGlobSet : List Text → FileResult (Text → Bool)
  walk : Bool → Bool → List GlobItem
  globCursor : CursorReader GlobCursor.encode

/-! ## Cursors -/

def parseTime (text : List Char) : Option UInt64 :=
  if text = "null".toList then none
  else some (UInt64.ofNat (Nat.ofDigitChars 10 text 0))

theorem parseTime_encodeTime (time : Option UInt64) :
    parseTime (encodeTime time) = time := by
  cases time with
  | none => rfl
  | some time =>
      have digits : Json.natural time.toNat ≠ "null".toList := by
        intro same
        have member : 'n' ∈ Nat.toDigits 10 time.toNat := by
          change 'n' ∈ Json.natural time.toNat
          rw [same]
          decide
        have isDigit := Nat.isDigit_of_mem_toDigits (by decide) (by decide)
          member
        exact absurd isDigit (by decide)
      rw [encodeTime, parseTime, if_neg digits, Json.ofDigits_natural,
        UInt64.ofNat_toNat]

def GlobCursor.parse (text : List Char) : GlobCursor :=
  let (sort, rest) := Json.unescape (text.drop 9)
  let (path, rest) := Json.unescape (rest.drop 9)
  { sort, path, modifiedAt := parseTime (rest.drop 14).dropLast }

theorem GlobCursor.parse_encode (value : GlobCursor) :
    parse value.encode = value := by
  have text : value.encode = header "sort" ++ (Char.ofNat 0x22 ::
      (value.sort.flatMap Json.escape ++ Char.ofNat 0x22 ::
        ((',' :: (Json.string "path".toList ++ [':', Char.ofNat 0x22])) ++
          (value.path.flatMap Json.escape ++ Char.ofNat 0x22 ::
            ((',' :: (Json.string "modifiedAt".toList ++ [':'])) ++
              (encodeTime value.modifiedAt ++ [Char.ofNat 0x7D])))))) := by
    simp [encode, header, Json.object, Json.separated, Json.field,
      Json.string]
  have first : (',' :: (Json.string "path".toList ++
      [':', Char.ofNat 0x22])).length = 9 := by
    decide
  have second :
      (',' :: (Json.string "modifiedAt".toList ++ [':'])).length = 14 := by
    decide
  rw [parse, ← List.drop_drop (i := 1) (j := 8), text,
    drop_header (by decide), List.drop_succ_cons, List.drop_zero,
    Json.unescape_string]
  dsimp only
  rw [List.drop_left' first, Json.unescape_string]
  dsimp only
  rw [List.drop_left' second, List.dropLast_concat, parseTime_encodeTime]

def GlobCursor.reader : CursorReader GlobCursor.encode :=
  .canonical _ parse parse_encode

/-! ## Requests -/

def validatePattern (pattern : Text) : FileResult Unit :=
  if pattern = [] ∨ pattern.head? = some '/' ∨
      pattern.contains (Char.ofNat 0) then
    .error (.coded "PATH_OUTSIDE_WORKSPACE"
      "Pattern must be workspace-relative")
  else if (pattern.splitOn '/').any fun component =>
      component == [] || component == ['.'] || component == ['.', '.'] then
    .error (.coded "PATH_OUTSIDE_WORKSPACE"
      "Pattern contains an unsafe component")
  else .ok ()

def byName : Text := "name".toList

def byModified : Text := "modified".toList

/-! ## Entries -/

/-- `to_string_lossy` with slashes for backslashes. -/
def GlobItem.path (item : GlobItem) : Text :=
  (Utf8.decodeLossy item.name).map fun character =>
    if character = Char.ofNat 0x5C then '/' else character

/-- The entry of what the walk yields, if the patterns match it. -/
def GlobItem.entry (isMatch : Text → Bool) (item : GlobItem) : Option Entry :=
  match item.kind with
  | none => none
  | some kind =>
      let directory := decide (kind = directoryKind)
      if isMatch item.path || directory && isMatch (item.path ++ ['/']) then
        some
          { path := if directory then item.path ++ ['/'] else item.path
            kind
            size := if kind = fileKind then some item.size else none
            modifiedAt := some item.modifiedAt.toNat }
      else none

def Entry.time (entry : Entry) : Nat := entry.modifiedAt.getD 0

/-- The newest first, those of one time by their paths. -/
def byTime (left right : Entry) : Prop :=
  right.time < left.time ∨
    right.time = left.time ∧ byteOrder left.path ≤ byteOrder right.path

instance decidableByTime : DecidableRel byTime := fun left right =>
  inferInstanceAs (Decidable (right.time < left.time ∨
    right.time = left.time ∧ byteOrder left.path ≤ byteOrder right.path))

def sortEntries (sort : Text) (entries : List Entry) : List Entry :=
  if sort = byModified then entries.insertionSort byTime
  else entries.insertionSort byPath

/-- The closure `after_cursor`. -/
def afterCursor (sort : Text) (cursor : Option GlobCursor) (entry : Entry) :
    Bool :=
  match cursor with
  | none => true
  | some value =>
      if sort = byName then
        decide (byteOrder value.path < byteOrder entry.path)
      else
        let time := (value.modifiedAt.map UInt64.toNat).getD 0
        decide (entry.time < time ∨
          entry.time = time ∧ byteOrder value.path < byteOrder entry.path)

/-- The loop of `file_glob` over the entries after the cursor. -/
def globEntries (limit : Nat) (entries : List Entry) :
    List Entry → List Entry × Bool
  | [] => (entries, false)
  | entry :: remaining =>
      if limit ≤ entries.length then (entries, true)
      else
        let response : FileResponse :=
          { entries := some (entries ++ [entry]), truncated := some false }
        if maxSearchResponseBytes < response.encodedSize then (entries, true)
        else globEntries limit (entries ++ [entry]) remaining

def Entry.globCursor (sort : Text) (entry : Entry) : GlobCursor :=
  { sort, path := entry.path, modifiedAt := entry.modifiedAt.map UInt64.ofNat }

def GlobService.fileGlob (service : GlobService) (request : GlobRequest) :
    FileResult FileResponse :=
  if request.patterns = [] ∨ request.limit = 0 ∨ 10000 < request.limit then
    .error (.coded "INVALID_ARGUMENT" "Glob request is invalid")
  else do
    request.patterns.forM fun pattern => do
      validatePattern pattern
      service.buildGlob pattern
    let isMatch ← service.buildGlobSet request.patterns
    let cursor ← request.cursor.mapM service.globCursor.decodeCursor
    if cursor.any fun value => decide (value.sort ≠ request.sort) then
      .error (.coded "INVALID_ARGUMENT"
        "Glob cursor sort does not match request")
    else if request.sort ≠ byName ∧ request.sort ≠ byModified then
      .error (.coded "INVALID_ARGUMENT" "Glob sort is invalid")
    else
      let all := sortEntries request.sort
        ((service.walk request.gitignore request.hidden).filterMap
          (GlobItem.entry isMatch))
      let remaining := all.filter (afterCursor request.sort cursor)
      let (entries, truncated) := globEntries request.limit [] remaining
      let truncated := truncated || decide (entries.length < remaining.length)
      .ok
        { entries := some entries
          truncated := some truncated
          nextCursor :=
            if truncated then
              entries.getLast?.map fun entry =>
                encodeCursor (GlobCursor.encode
                  (entry.globCursor request.sort))
            else none }

end Electrosphere.Agent
