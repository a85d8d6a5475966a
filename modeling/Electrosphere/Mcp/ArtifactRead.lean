import Electrosphere.Foundation.Utf8Fatal
import Electrosphere.Mcp.ReadResult
import Electrosphere.Storage.Artifacts

/-!
# The tool `read` and what counts as text

A file of the workspace and an artifact are looked at before they are read: a
prefix that is no UTF-8 text makes them binary.  The lines of an artifact come
from a stream of chunks, decoded one after another; the chunks are an argument
of the model.
-/

namespace Electrosphere

open Foundation Agent

def maxTextResponseBytes : Nat := 512 * 1024

/-- The length of the prefix that is looked at. -/
def prefixLimit : Nat := 8192

/-! ## The kind of a file -/

def looksBinary (bytes : Bytes) : Bool :=
  bytes.contains 0 || (Utf8.decodeFatal bytes).isNone

def binaryExtensions : List String :=
  ["bin", "png", "jpg", "jpeg", "gif", "webp", "pdf", "zip", "gz", "tgz",
    "wasm", "sqlite", "db"]

def hasSuffix (path : Text) (suffix : String) : Bool :=
  suffix.toList.isSuffixOf path

def mediaTypeForPath (path : Text) (binary : Bool) : String :=
  if binary || binaryExtensions.any (fun name =>
      hasSuffix (path.map Char.toLower) ("." ++ name)) then
    "application/octet-stream"
  else if hasSuffix path ".json" then "application/json"
  else if hasSuffix path ".html" then "text/html"
  else if hasSuffix path ".css" then "text/css"
  else if hasSuffix path ".js" || hasSuffix path ".mjs" ||
      hasSuffix path ".cjs" then
    "text/javascript"
  else if hasSuffix path ".ts" || hasSuffix path ".tsx" then
    "text/typescript"
  else "text/plain"

def isTextMediaType (mediaType : String) : Bool :=
  "text/".toList.isPrefixOf mediaType.toList ||
    mediaType == "application/json" ||
    mediaType == "application/javascript" ||
    mediaType == "application/xml"

/-! ## Decoding a stream -/

def byteOrderMark : Char := Char.ofNat 0xFEFF

/-- A fatal `TextDecoder` between two chunks. -/
structure TextDecoder where
  utf8 : Utf8.Decoder := {}
  bomSeen : Bool := false

namespace TextDecoder

/-- A byte-order mark is left out where the text begins. -/
def output (bomSeen : Bool) : Text → Text × Bool
  | [] => ([], bomSeen)
  | character :: text =>
      if bomSeen = false ∧ character = byteOrderMark then (text, true)
      else (character :: text, true)

/-- `decode` with `stream` set. -/
def decode (decoder : TextDecoder) (bytes : Bytes) :
    Option (Text × TextDecoder) :=
  match decoder.utf8.decode bytes with
  | none => none
  | some (decoded, utf8) =>
      let (text, bomSeen) := output decoder.bomSeen decoded
      some (text, { utf8, bomSeen })

/-- `decode` without an argument, at the end of the stream. -/
def finish (decoder : TextDecoder) : Option Text :=
  if decoder.utf8.owed = 0 then some [] else none

end TextDecoder

/-! ## Lines of a stream -/

/-- What `streamArtifactLines` computes from its arguments before it reads.
There is no maximum when ranges are given. -/
structure LineSelection where
  startLine : Nat
  ranges : Option (List (Nat × Nat))
  maximumLines : Option Nat

def selectedLine (line startLine : Nat) (ranges : Option (List (Nat × Nat))) :
    Bool :=
  if line < startLine then false
  else ranges.all fun ranges => covers ranges line

structure LineStream where
  lines : List Text := []
  lineNumber : Nat := 0
  nextLine : Option Nat := none

namespace LineSelection

def isFull (selection : LineSelection) (lines : List Text) : Bool :=
  selection.maximumLines.any fun maximum => decide (maximum ≤ lines.length)

/-- Whether to go on, and the state after one line. -/
def accept (selection : LineSelection) (stream : LineStream) (line : Text) :
    Bool × LineStream :=
  let lineNumber := stream.lineNumber + 1
  if selectedLine lineNumber selection.startLine selection.ranges = false then
    (true, { stream with lineNumber })
  else if selection.isFull stream.lines ||
      decide (maxTextResponseBytes <
        Json.size (texts (stream.lines ++ [line]))) then
    (false,
      { stream with
        lineNumber, nextLine := stream.nextLine.or (some lineNumber) })
  else (true, { stream with lineNumber, lines := stream.lines ++ [line] })

/-- The inner loop, which has read past the characters `pending`.  It yields
what is pending, unless it leaves the outer loop. -/
def drain (selection : LineSelection) (pending : Text) (stream : LineStream) :
    Text → Option Text × LineStream
  | [] => (some pending, stream)
  | character :: rest =>
      if character = newline then
        match selection.accept stream (pending ++ [character]) with
        | (true, stream) => selection.drain [] stream rest
        | (false, stream) => (none, stream)
      else selection.drain (pending ++ [character]) stream rest

/-- The outer loop and what follows it; `none` when the stream is binary. -/
def readChunks (selection : LineSelection) (decoder : TextDecoder)
    (pending : Text) (stream : LineStream) : List Bytes → Option LineStream
  | [] =>
      match decoder.finish with
      | none => none
      | some rest =>
          if pending ++ rest = [] then some stream
          else some (selection.accept stream (pending ++ rest)).2
  | chunk :: chunks =>
      match decoder.decode chunk with
      | none => none
      | some (decoded, decoder) =>
          match selection.drain [] stream (pending ++ decoded) with
          | (some pending, stream) =>
              selection.readChunks decoder pending stream chunks
          | (none, stream) => some stream

end LineSelection

structure StreamLinesResult where
  lines : List Text
  startLine : Nat
  nextLine : Option Nat
  deriving DecidableEq

def byStart (left right : Nat × Nat) : Prop := left.1 ≤ right.1

instance decidableByStart : DecidableRel byStart := fun left right =>
  inferInstanceAs (Decidable (left.1 ≤ right.1))

def ReadArguments.sortedRanges (args : ReadArguments) :
    Option (List (Nat × Nat)) :=
  args.ranges.map fun ranges => ranges.insertionSort byStart

def lineSelection (cursorLine : Text → Option Nat) (args : ReadArguments) :
    LineSelection :=
  { startLine := startLine cursorLine { args with ranges := args.sortedRanges }
    ranges := args.sortedRanges
    maximumLines :=
      if args.sortedRanges.isSome then none else some (args.limit.getD 200) }

/-- `streamArtifactLines`, given the chunks of the stream that it opens. -/
def streamArtifactLines (cursorLine : Text → Option Nat) (chunks : List Bytes)
    (args : ReadArguments) : Except Thrown (Option StreamLinesResult) :=
  if args.ranges.isSome && (args.offset.isSome || args.limit.isSome) then
    .error (.coded .invalidArgument
      "ranges cannot be combined with offset or limit")
  else if args.sortedRanges.any fun ranges =>
      ranges.any fun range => decide (range.2 < range.1) then
    .error (.coded .invalidArgument "Line range is invalid")
  else
    let selection := lineSelection cursorLine args
    .ok ((selection.readChunks {} [] {} chunks).map fun stream =>
      { lines := stream.lines
        startLine := selection.startLine
        nextLine := stream.nextLine })

/-! ## Results -/

/-- The result for an artifact, without `content` when it counts as binary. -/
structure ArtifactReadResult where
  artifact : ArtifactRef
  truncated : Bool := false
  nextOffset : Option Nat := none
  nextCursor : Option Text := none
  content : Option ReadContent := none

def lineCursor (line : Nat) : Text :=
  encodeCursor (ReadCursor.encode { nextLine := line })

/-- The end of `readArtifact`, if its loops end within the fuel. -/
def artifactText (fuel : Nat) (artifact : ArtifactRef)
    (text : StreamLinesResult) (args : ReadArguments) :
    Option ArtifactReadResult :=
  let common : ArtifactReadResult :=
    { artifact
      truncated := text.nextLine.isSome
      nextCursor := text.nextLine.map lineCursor }
  match args.ranges with
  | some ranges =>
      (lineNumbersLoop ranges fuel text.startLine text.lines).map fun lines =>
        { common with content := some (.lines lines) }
  | none =>
      some
        { common with
          nextOffset := text.nextLine
          content := some (.content text.lines.flatten text.startLine) }

/-- How JavaScript reads the member `nextLine` of a cursor, if it is a natural
number; `JSON.parse` is exact up to `Number.MAX_SAFE_INTEGER`. -/
structure LineCursorReader where
  read : Text → Option Nat
  read_encode : ∀ line ≤ maxSafeInteger, read (lineCursor line) = some line

def LineCursorReader.cursorLine (reader : LineCursorReader) (cursor : Text) :
    Option Nat :=
  (reader.read cursor).filter fun line =>
    decide (line ≤ maxSafeInteger) && decide (0 < line)

/-- `readArtifact` without `raw`.  The chunks are those of the stream that
`streamArtifactLines` opens. -/
def readArtifact (storage : ArtifactStorage) (cursorLine : Text → Option Nat)
    (fuel : Nat) (threadId : ThreadId) (digest : Digest)
    (chunks : List Bytes) (args : ReadArguments) :
    Except Thrown (Option ArtifactReadResult) := do
  let artifact ← storage.resolve storage threadId digest
  if isTextMediaType artifact.mediaType = false then .ok (some { artifact })
  else
    let opened ← storage.openArtifact storage storage threadId digest
      (some { offset := 0, limit := min prefixLimit artifact.sizeBytes })
    let prefixBytes ← opened.bytes
    if looksBinary prefixBytes then .ok (some { artifact })
    else
      match ← streamArtifactLines cursorLine chunks args with
      | none => .ok (some { artifact })
      | some text => .ok (artifactText fuel artifact text args)

inductive ReadToolResult where
  | workspace (result : WorkspaceReadResult)
  /-- The file as an artifact. -/
  | exported (path : Text) (artifact : ArtifactRef)

/-- `handleRead` without `raw` for a path of the workspace, normalised.
`exportArtifact` is `exportWorkspaceArtifact` for this path; `fileStat` and
`fileReadBytes` find what `openExisting` finds. -/
def handleRead (service : FileService) (cursorLine : Text → Option Nat)
    (exportArtifact : String → Except Thrown ArtifactRef) (fuel : Nat)
    (path : Text) (args : ReadArguments) :
    Except Thrown (Option ReadToolResult) := do
  match ← requireOk (service.openExisting path) with
  | .directory _ =>
      let result ← readWorkspaceText service cursorLine fuel path
        { path := args.path, limit := args.limit, cursor := args.cursor }
      .ok (result.map .workspace)
  | .other =>
      .error (.coded .invalidArgument "Unsupported workspace entry type")
  | .file size bytes =>
      let prefixBytes := bytes.take (max 1 (min prefixLimit size))
      let mediaType := mediaTypeForPath path (looksBinary prefixBytes)
      if isTextMediaType mediaType then
        let result ← readWorkspaceText service cursorLine fuel path args
        .ok (result.map .workspace)
      else
        let artifact ← exportArtifact mediaType
        .ok (some (.exported path artifact))

end Electrosphere
