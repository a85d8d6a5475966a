import Electrosphere.Agent.Files
import Mathlib.Data.List.Infix
import Mathlib.Data.List.Sort

/-!
# `file_grep` of the guest agent

The files are scanned one after the other, and every match is offered to an
accumulator that keeps those of one answer.  The scan takes the accumulator as
a parameter.  The pattern engine, the walk of the workspace and the path globs
are part of the service.
-/

namespace Electrosphere.Agent

open Foundation

structure PatternMatcher where
  isMatch : Text → FileResult Bool
  /-- Where the matches in a text begin and end, in bytes. -/
  spans : Text → FileResult (List (Nat × Nat))

/-- A file that the walk yields, with its name below the root. -/
structure GrepFile where
  name : Bytes
  bytes : Bytes

/-- `to_string_lossy` with slashes for backslashes. -/
def GrepFile.path (file : GrepFile) : Text :=
  (Utf8.decodeLossy file.name).map fun character =>
    if character = Char.ofNat 0x5C then '/' else character

structure GrepRequest where
  pattern : Text
  paths : List Text
  limit : Nat
  cursor : Option Text
  caseSensitive : Bool
  contextBefore : Nat
  contextAfter : Nat
  gitignore : Bool

structure GrepService where
  compile : Text → Bool → FileResult PatternMatcher
  buildPathMatcher : List Text → FileResult (Option (Text → Bool))
  /-- The regular files that the walk yields, in its order. -/
  walk : Bool → List GrepFile
  grepCursor : CursorReader GrepCursor.encode

/-- A match as it is offered to the accumulator. -/
structure Found where
  path : Text
  byteOffset : Nat
  value : GrepMatch

/-! ## Lines -/

def stripSuffix (suffix : Char) (value : Text) : Option Text :=
  if value.getLast? = some suffix then some value.dropLast else none

def trimLineEnding (value : Text) : Text :=
  let line := (stripSuffix newline value).getD value
  (stripSuffix (Char.ofNat 0x0D) line).getD
    ((stripSuffix newline value).getD value)

def offsetsFrom : Nat → List Text → List (Nat × Text)
  | _, [] => []
  | offset, line :: lines =>
      (offset, trimLineEnding line) ::
        offsetsFrom (offset + (Utf8.encode line).length) lines

def lineOffsets (text : Text) : List (Nat × Text) := offsetsFrom 0 text.lines

/-! ## Files in memory -/

/-- `BTreeSet::insert`. -/
def insertIndex (value : Nat) : List Nat → List Nat
  | [] => [value]
  | index :: indexes =>
      if value < index then value :: index :: indexes
      else if value = index then index :: indexes
      else index :: insertIndex value indexes

/-- The line in which a match begins. -/
def lineIndex (lines : List (Nat × Text)) (start : Nat) : Nat :=
  (lines.takeWhile fun line => decide (line.1 ≤ start)).length - 1

def crossedLines (lines : List (Nat × Text)) (spans : List (Nat × Nat)) :
    List Nat :=
  spans.foldl
    (fun indexes span =>
      let index := lineIndex lines span.1
      if index < lines.length then insertIndex index indexes else indexes) []

def matchedLines (matcher : PatternMatcher) :
    Nat → List (Nat × Text) → FileResult (List Nat)
  | _, [] => .ok []
  | index, line :: lines => do
      let isMatch ← matcher.isMatch line.2
      let indexes ← matchedLines matcher (index + 1) lines
      .ok (if isMatch then index :: indexes else indexes)

/-- The lines of a file that the pattern matches, or in which it begins to. -/
def matchedIndexes (matcher : PatternMatcher) (crossLine : Bool) (text : Text)
    (lines : List (Nat × Text)) : FileResult (List Nat) :=
  if crossLine then (matcher.spans text).map (crossedLines lines)
  else matchedLines matcher 0 lines

def bufferMatch (path : Text) (lines : List (Nat × Text))
    (contextBefore contextAfter index : Nat) : Found :=
  let line := lines.getD index (0, [])
  let beforeStart := index - contextBefore
  let afterEnd := min (index + 1 + contextAfter) lines.length
  { path
    byteOffset := line.1
    value :=
      { path
        line := index + 1
        text := line.2
        contextBefore :=
          if 0 < contextBefore then
            some (((lines.take index).drop beforeStart).map Prod.snd)
          else none
        contextAfter :=
          if 0 < contextAfter then
            some (((lines.take afterEnd).drop (index + 1)).map Prod.snd)
          else none } }

section Scan

variable {σ : Type} (add : σ → Found → σ)

def scanBuffer (path : Text) (bytes : Bytes) (matcher : PatternMatcher)
    (crossLine : Bool) (contextBefore contextAfter : Nat) (accumulator : σ) :
    FileResult σ :=
  match fromUtf8 bytes with
  | none =>
      .error (.coded "INVALID_ARGUMENT"
        ("Grep file is not UTF-8: " ++ String.ofList path))
  | some text => do
      let lines := lineOffsets text
      let matched ← matchedIndexes matcher crossLine text lines
      .ok ((matched.map
        (bufferMatch path lines contextBefore contextAfter)).foldl add
          accumulator)

/-! ## Files read line by line -/

structure PendingStreamMatch where
  found : Found
  remainingAfter : Nat

/-- The context after a match grows by one line. -/
def PendingStreamMatch.push (pending : PendingStreamMatch) (text : Text) :
    PendingStreamMatch :=
  if 0 < pending.remainingAfter then
    { found :=
        { pending.found with
          value :=
            { pending.found.value with
              contextAfter :=
                some (pending.found.value.contextAfter.getD [] ++ [text]) } }
      remainingAfter := pending.remainingAfter - 1 }
  else pending

/-- The matches at the front that wait for no more context. -/
def flushReady : σ → List PendingStreamMatch → σ × List PendingStreamMatch
  | accumulator, [] => (accumulator, [])
  | accumulator, ready :: pending =>
      if ready.remainingAfter = 0 then
        flushReady (add accumulator ready.found) pending
      else (accumulator, ready :: pending)

def streamMatch (path : Text) (contextBefore contextAfter : Nat)
    (lineNumber byteOffset : Nat) (before : List Text) (text : Text) : Found :=
  { path
    byteOffset
    value :=
      { path
        line := lineNumber
        text
        contextBefore := if 0 < contextBefore then some before else none
        contextAfter := if 0 < contextAfter then some [] else none } }

def scanStream (path : Text) (matcher : PatternMatcher)
    (contextBefore contextAfter : Nat) : Nat → Nat → List Text →
      List PendingStreamMatch → σ → List Bytes → FileResult σ
  | _, _, _, pending, accumulator, [] =>
      .ok ((pending.map PendingStreamMatch.found).foldl add accumulator)
  | lineNumber, byteOffset, before, pending, accumulator, line :: lines =>
      match fromUtf8 line with
      | none =>
          .error (.backend ("Read grep file " ++ String.ofList path ++
            ": stream did not contain valid UTF-8"))
      | some content => do
          let text := trimLineEnding content
          let (accumulator, pending) :=
            flushReady add accumulator
              (pending.map fun value => value.push text)
          let isMatch ← matcher.isMatch text
          let found := streamMatch path contextBefore contextAfter
            (lineNumber + 1) byteOffset before text
          let before' := before ++ [text]
          let before' := before'.drop (before'.length - contextBefore)
          let byteOffset := byteOffset + line.length
          if isMatch then
            if contextAfter = 0 then
              scanStream path matcher contextBefore contextAfter
                (lineNumber + 1) byteOffset before' pending
                (add accumulator found) lines
            else
              scanStream path matcher contextBefore contextAfter
                (lineNumber + 1) byteOffset before'
                (pending ++ [{ found, remainingAfter := contextAfter }])
                accumulator lines
          else
            scanStream path matcher contextBefore contextAfter
              (lineNumber + 1) byteOffset before' pending accumulator lines

/-! ## All files -/

def scanFile (matcher : PatternMatcher) (crossLine : Bool)
    (contextBefore contextAfter : Nat) (file : GrepFile) (accumulator : σ) :
    FileResult σ :=
  if file.bytes.length ≤ maxCrossLineBytes then
    scanBuffer add file.path file.bytes matcher crossLine contextBefore
      contextAfter accumulator
  else
    scanStream add file.path matcher contextBefore contextAfter 0 0 [] []
      accumulator (byteLines file.bytes)

/-- What the files yield, and how many of them are skipped. -/
def scanFiles (matcher : PatternMatcher) (crossLine : Bool)
    (contextBefore contextAfter : Nat) :
    σ → Nat → List GrepFile → FileResult (σ × Nat)
  | accumulator, skipped, [] => .ok (accumulator, skipped)
  | accumulator, skipped, file :: files =>
      if crossLine && decide (maxCrossLineBytes < file.bytes.length) then
        scanFiles matcher crossLine contextBefore contextAfter accumulator
          (skipped + 1) files
      else do
        let accumulator ←
          scanFile add matcher crossLine contextBefore contextAfter file
            accumulator
        scanFiles matcher crossLine contextBefore contextAfter accumulator
          skipped files

end Scan

/-! ## The accumulator -/

structure GrepAccumulator where
  limit : Nat
  cursor : Option GrepCursor
  grepMatches : List GrepMatch := []
  totalMatches : Nat := 0
  truncated : Bool := false
  lastSaved : Option GrepCursor := none

/-- The match stands at the cursor or before it. -/
def GrepCursor.covers (cursor : GrepCursor) (found : Found) : Bool :=
  if byteOrder found.path < byteOrder cursor.path then true
  else if byteOrder found.path = byteOrder cursor.path then
    decide (found.byteOffset ≤ cursor.byteOffset)
  else false

/-- The answer that is tried for its size. -/
def grepCandidate (totalMatches : Nat) (values : List GrepMatch) :
    FileResponse :=
  { grepMatches := some values
    totalMatches := some totalMatches
    skippedFiles := some 0
    truncated := some false }

def GrepAccumulator.add (accumulator : GrepAccumulator) (found : Found) :
    GrepAccumulator :=
  let accumulator :=
    { accumulator with totalMatches := accumulator.totalMatches + 1 }
  if accumulator.cursor.any fun cursor => cursor.covers found then accumulator
  else if accumulator.limit ≤ accumulator.grepMatches.length then
    { accumulator with truncated := true }
  else if maxSearchResponseBytes <
      (grepCandidate accumulator.totalMatches
        (accumulator.grepMatches ++ [found.value])).encodedSize then
    { accumulator with truncated := true }
  else
    { accumulator with
      grepMatches := accumulator.grepMatches ++ [found.value]
      lastSaved :=
        some { path := found.path, byteOffset := found.byteOffset } }

/-! ## The request -/

def crossesLines (pattern : Text) : Bool :=
  pattern.contains newline ||
    decide ([Char.ofNat 0x5C, 'n'] <:+: pattern)

def byFilePath (left right : GrepFile) : Prop :=
  byteOrder left.path ≤ byteOrder right.path

instance decidableByFilePath : DecidableRel byFilePath := fun left right =>
  inferInstanceAs (Decidable (byteOrder left.path ≤ byteOrder right.path))

def GrepService.fileGrep (service : GrepService) (request : GrepRequest) :
    FileResult FileResponse :=
  if request.limit = 0 ∨ 10000 < request.limit ∨
      10 < request.contextBefore ∨ 10 < request.contextAfter then
    .error (.coded "INVALID_ARGUMENT" "Grep request is invalid")
  else do
    let matcher ← service.compile request.pattern request.caseSensitive
    let pathMatcher ← service.buildPathMatcher request.paths
    let cursor ← request.cursor.mapM service.grepCursor.decodeCursor
    let files := (service.walk request.gitignore).filter fun file =>
      pathMatcher.all fun isMatch => isMatch file.path
    let (accumulator, skipped) ←
      scanFiles GrepAccumulator.add matcher (crossesLines request.pattern)
        request.contextBefore request.contextAfter
        { limit := request.limit, cursor } 0
        (files.insertionSort byFilePath)
    .ok
      { grepMatches := some accumulator.grepMatches
        totalMatches := some accumulator.totalMatches
        skippedFiles := some skipped
        truncated := some accumulator.truncated
        nextCursor :=
          if accumulator.truncated then
            accumulator.lastSaved.map fun cursor =>
              encodeCursor cursor.encode
          else none }

end Electrosphere.Agent
