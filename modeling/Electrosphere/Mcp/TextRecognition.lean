import Electrosphere.Foundation.Utf8Split
import Electrosphere.Mcp.ArtifactLines
import Electrosphere.Storage.ArtifactLifetime

/-!
# Texts that count as binary

The prefix that is looked at is cut at a fixed length.  A text is recognised,
as a file and as an artifact, exactly when this does not cut a character in
two.
-/

namespace Electrosphere

open Foundation Foundation.Paging Agent

/-- The byte after the prefix does not continue a character. -/
def WholePrefix (text : Text) : Prop :=
  ∀ byte ∈ (Utf8.encode text)[prefixLimit]?, ¬Utf8.Continues byte

/-! ## The prefix -/

theorem looksBinary_prefix {text : Text} (plain : Char.ofNat 0 ∉ text)
    (count : Nat) :
    looksBinary ((Utf8.encode text).take count) = false ↔
      ∀ byte ∈ (Utf8.encode text)[count]?, ¬Utf8.Continues byte := by
  have noNul : ((Utf8.encode text).take count).contains 0 = false := by
    rw [List.contains_eq_mem, decide_eq_false_iff_not]
    intro member
    apply plain
    exact (Utf8.mem_encode_single 0 (by decide)).mp (List.mem_of_mem_take member)
  rw [looksBinary, noNul, Bool.false_or, Option.isNone_eq_false_iff]
  cases isByte : (Utf8.encode text)[count]? with
  | none =>
      have short := List.getElem?_eq_none_iff.mp isByte
      rw [List.take_of_length_le short, Utf8.decodeFatal_encode]
      simp
  | some byte =>
      rw [Utf8.decodeFatal_take_iff text isByte]
      simp

theorem looksBinary_encode {text : Text} (plain : Char.ofNat 0 ∉ text) :
    looksBinary (Utf8.encode text) = false := by
  have whole := looksBinary_prefix plain (Utf8.encode text).length
  rw [List.take_length] at whole
  rw [whole, List.getElem?_length]
  simp

/-- The prefix of an empty file is empty. -/
theorem take_first (bytes : Bytes) :
    bytes.take (max 1 (min prefixLimit bytes.length)) =
      bytes.take prefixLimit := by
  rw [List.take_eq_take_iff, prefixLimit]
  omega

/-! ## Files of the workspace -/

/-- A file of the workspace with this text and the name of a text. -/
structure WorkspaceText (service : FileService) (path text : Text) : Prop where
  opened : service.openExisting path =
    .ok (.file (Utf8.encode text).length (Utf8.encode text))
  named : isTextMediaType (mediaTypeForPath path false) = true

theorem mediaTypeForPath_binary (path : Text) :
    isTextMediaType (mediaTypeForPath path true) = false := by
  rw [mediaTypeForPath, Bool.true_or, if_pos rfl]
  decide

theorem WorkspaceText.handleRead {service : FileService} {path text : Text}
    (isText : WorkspaceText service path text)
    (cursorLine : Text → Option Nat)
    (exportArtifact : String → Except Thrown ArtifactRef) (fuel : Nat)
    (args : ReadArguments) :
    handleRead service cursorLine exportArtifact fuel path args =
      if looksBinary ((Utf8.encode text).take prefixLimit) then
        (exportArtifact (mediaTypeForPath path true)).map fun artifact =>
          some (.exported path artifact)
      else
        (readWorkspaceText service cursorLine fuel path args).map
          (Option.map .workspace) := by
  rw [Electrosphere.handleRead, isText.opened]
  change (if isTextMediaType (mediaTypeForPath path (looksBinary
    ((Utf8.encode text).take _))) then _ else _) = _
  rw [take_first]
  cases looksBinary ((Utf8.encode text).take prefixLimit) with
  | true =>
      rw [mediaTypeForPath_binary, if_neg Bool.false_ne_true, if_pos rfl]
      cases exportArtifact (mediaTypeForPath path true) <;> rfl
  | false =>
      rw [isText.named, if_pos rfl, if_neg Bool.false_ne_true]
      cases readWorkspaceText service cursorLine fuel path args <;> rfl

/-! ## Artifacts -/

/-- An artifact that the thread may read, with this text and the media type
of a text. -/
structure StoredText (storage : ArtifactStorage) (threadId : ThreadId)
    (digest : Digest) (artifact : ArtifactRef) (text : Text) : Prop where
  resolved : storage.resolve storage threadId digest = .ok artifact
  stored : ∃ content, storage.files.lookup artifact.path = some content ∧
    content.bytes = Utf8.encode text
  typed : isTextMediaType artifact.mediaType = true

namespace StoredText

variable {storage : ArtifactStorage} {threadId : ThreadId} {digest : Digest}
  {artifact : ArtifactRef} {text : Text}

theorem sizeBytes
    (isText : StoredText storage threadId digest artifact text) :
    artifact.sizeBytes = (Utf8.encode text).length := by
  obtain ⟨content, isContent, isBytes⟩ := isText.stored
  have resolved := isText.resolved
  unfold ArtifactStorage.resolve ArtifactStorage.statArtifact at resolved
  split at resolved
  case h_1 => cases resolved
  case h_2 row _ =>
    split at resolved
    case h_1 => cases resolved
    case h_2 other isOther =>
      split at resolved
      case isTrue size =>
        cases resolved
        cases isContent.symm.trans isOther
        rw [← isBytes]
        exact size.symm
      case isFalse => cases resolved

theorem openPrefix
    (isText : StoredText storage threadId digest artifact text) :
    ∃ opened, storage.openArtifact storage storage threadId digest
        (some { offset := 0, limit := min prefixLimit artifact.sizeBytes }) =
          .ok opened ∧
      opened.bytes = .ok ((Utf8.encode text).take prefixLimit) := by
  obtain ⟨content, isContent, isBytes⟩ := isText.stored
  have size := isText.sizeBytes
  rw [ArtifactStorage.openArtifact, isText.resolved]
  dsimp only [Option.map_some, Option.getD_some]
  rw [if_neg, isContent]
  · refine ⟨_, rfl, ?_⟩
    dsimp only
    rw [ArtifactStorage.readStream_eq, isBytes, Int.toNat_zero,
      List.drop_zero]
    · apply congrArg
      rw [List.take_eq_take_iff, size]
      omega
    · rw [isBytes, size]
      omega
  · simp [prefixLimit, maxSafeInteger]

theorem readArtifact
    (isText : StoredText storage threadId digest artifact text)
    (cursorLine : Text → Option Nat) (fuel : Nat) {args : ReadArguments}
    {result : StreamLinesResult} {chunks : List Bytes}
    (isResult : streamArtifactLines cursorLine chunks args =
      .ok (some result)) :
    readArtifact storage cursorLine fuel threadId digest chunks args =
      .ok (if looksBinary ((Utf8.encode text).take prefixLimit) then
        some { artifact }
      else artifactText fuel artifact result args) := by
  obtain ⟨opened, isOpened, isBytes⟩ := isText.openPrefix
  rw [Electrosphere.readArtifact, isText.resolved]
  change (if isTextMediaType artifact.mediaType = false then _ else _) = _
  rw [if_neg (by simp [isText.typed]), isOpened]
  change (opened.bytes >>= _) = _
  rw [isBytes]
  change (if looksBinary _ then _ else streamArtifactLines _ _ _ >>= _) = _
  rw [isResult]
  split <;> rfl

end StoredText

/-- The numbers of lines that are covered by ranges are found. -/
theorem lineNumbersLoop_ends (ranges : List (Nat × Nat)) (current : Nat)
    {items : List NumberedLine}
    (ascending : items.Pairwise fun earlier later => earlier.2 < later.2)
    (covered : ∀ line ∈ items, covers ranges line.2 = true ∧ current ≤ line.2) :
    ∃ fuel entries,
      lineNumbersLoop ranges fuel current (items.map Prod.fst) =
        some entries := by
  induction items generalizing current with
  | nil => exact ⟨0, [], rfl⟩
  | cons line items induction =>
      obtain ⟨isCovered, upTo⟩ := covered line List.mem_cons_self
      obtain ⟨first, ascending⟩ := List.pairwise_cons.mp ascending
      have later : ∀ next ≤ line.2, ∃ fuel entries,
          lineNumbersLoop ranges fuel (next + 1) (items.map Prod.fst) =
            some entries := by
        intro next before
        apply induction _ ascending
        intro other member
        have after := first other member
        exact ⟨(covered other (List.mem_cons_of_mem _ member)).1, by omega⟩
      -- The loop advances to the number of this line at the latest.
      obtain ⟨steps, isSteps⟩ := Nat.exists_eq_add_of_le upTo
      clear covered upTo
      induction steps generalizing current with
      | zero =>
          obtain ⟨fuel, entries, ends⟩ := later line.2 (Nat.le_refl _)
          have same : covers ranges current = true := by
            rw [isSteps] at isCovered
            exact isCovered
          refine ⟨fuel + 1, { line := current, text := line.1 } :: entries, ?_⟩
          rw [List.map_cons, lineNumbersLoop, if_pos same,
            show current + 1 = line.2 + 1 by omega, ends]
          rfl
      | succ steps closer =>
          by_cases isHere : covers ranges current = true
          · obtain ⟨fuel, entries, ends⟩ := later current (by omega)
            refine ⟨fuel + 1,
              { line := current, text := line.1 } :: entries, ?_⟩
            rw [List.map_cons, lineNumbersLoop, if_pos isHere, ends]
            rfl
          · obtain ⟨fuel, entries, ends⟩ := @closer (current + 1) (by omega)
            refine ⟨fuel + 1, entries, ?_⟩
            rw [List.map_cons] at ends ⊢
            rw [lineNumbersLoop, if_neg isHere]
            exact ends

theorem artifactText_ends {args : ReadArguments} {page : List NumberedLine}
    (cursorLine : Text → Option Nat) (artifact : ArtifactRef) (text : Text)
    (isPrefix : page <+: args.selected cursorLine text) :
    ∃ fuel result, artifactText fuel artifact
        (streamResult cursorLine args (args.selected cursorLine text) page)
          args = some result := by
  cases isRanges : args.ranges with
  | none =>
      exact ⟨0, _, by rw [artifactText, isRanges]⟩
  | some ranges =>
      have ascending := ((numberedLines_ascending text).sublist
        List.filter_sublist).sublist isPrefix.sublist
      obtain ⟨fuel, entries, ends⟩ := lineNumbersLoop_ends ranges
        (args.firstLine cursorLine) ascending (by
          intro line member
          have chosen := (List.mem_filter.mp (isPrefix.subset member)).2
          rw [Bool.and_eq_true, decide_eq_true_eq, ReadArguments.wants,
            isRanges] at chosen
          exact ⟨chosen.2, chosen.1⟩)
      have isText : (lineNumbersLoop ranges fuel
          (streamResult cursorLine args (args.selected cursorLine text)
            page).startLine (page.map Prod.fst)).isSome = true :=
        Option.isSome_of_eq_some ends
      rw [← Option.isSome_map] at isText
      obtain ⟨result, isResult⟩ := Option.isSome_iff_exists.mp isText
      refine ⟨fuel, result, ?_⟩
      rw [artifactText, isRanges]
      exact isResult

theorem content_of_artifactText {fuel : Nat} {artifact : ArtifactRef}
    {text : StreamLinesResult} {args : ReadArguments}
    {result : ArtifactReadResult}
    (isResult : artifactText fuel artifact text args = some result) :
    result.content ≠ none := by
  unfold artifactText at isResult
  split at isResult
  case h_1 =>
    obtain ⟨lines, _, rfl⟩ := Option.map_eq_some_iff.mp isResult
    exact Option.some_ne_none _
  case h_2 =>
    cases isResult
    exact Option.some_ne_none _

/-! ## The tool -/

/-- The tool returns what reading the lines of the file returns. -/
def ReadsFile (service : FileService) (cursorLine : Text → Option Nat)
    (exportArtifact : String → Except Thrown ArtifactRef) (path : Text)
    (args : ReadArguments) : Prop :=
  ∃ fuel result,
    readWorkspaceText service cursorLine fuel path args = .ok (some result) ∧
      handleRead service cursorLine exportArtifact fuel path args =
        .ok (some (.workspace result))

/-- The tool returns the lines of the stream. -/
def ReadsArtifact (storage : ArtifactStorage) (cursorLine : Text → Option Nat)
    (threadId : ThreadId) (digest : Digest) (chunks : List Bytes)
    (args : ReadArguments) : Prop :=
  ∃ fuel artifact lines result,
    streamArtifactLines cursorLine chunks args = .ok (some lines) ∧
      artifactText fuel artifact lines args = some result ∧
      readArtifact storage cursorLine fuel threadId digest chunks args =
        .ok (some result)

theorem readsFile_iff {service : FileService} {path text : Text}
    {cursorLine : Text → Option Nat} {args : ReadArguments}
    (plain : Char.ofNat 0 ∉ text) (isText : WorkspaceText service path text)
    (exportArtifact : String → Except Thrown ArtifactRef)
    (reads : ∃ fuel result,
      readWorkspaceText service cursorLine fuel path args =
        .ok (some result)) :
    ReadsFile service cursorLine exportArtifact path args ↔
      WholePrefix text := by
  unfold WholePrefix
  rw [← looksBinary_prefix plain]
  constructor
  · rintro ⟨fuel, result, -, handled⟩
    rw [isText.handleRead] at handled
    cases binary : looksBinary ((Utf8.encode text).take prefixLimit) with
    | false => rfl
    | true =>
        rw [binary, if_pos rfl] at handled
        cases exported : exportArtifact (mediaTypeForPath path true) with
        | error thrown =>
            rw [exported] at handled
            cases handled
        | ok artifact =>
            rw [exported] at handled
            cases handled
  · intro binary
    obtain ⟨fuel, result, isResult⟩ := reads
    refine ⟨fuel, result, isResult, ?_⟩
    rw [isText.handleRead, binary, if_neg Bool.false_ne_true, isResult]
    rfl

theorem readsArtifact_iff {storage : ArtifactStorage} {threadId : ThreadId}
    {digest : Digest} {artifact : ArtifactRef} {text : Text}
    {chunks : List Bytes} {args : ReadArguments}
    (plain : Char.ofNat 0 ∉ text)
    (isText : StoredText storage threadId digest artifact text)
    (cursorLine : Text → Option Nat) (accepted : args.Accepted)
    (isStream : chunks.flatten = Utf8.encode text) :
    ReadsArtifact storage cursorLine threadId digest chunks args ↔
      WholePrefix text := by
  have streamed := streamArtifactLines_eq cursorLine accepted isStream
  unfold WholePrefix
  rw [← looksBinary_prefix plain]
  constructor
  · rintro ⟨fuel, other, lines, result, -, isResult, isRead⟩
    rw [isText.readArtifact cursorLine fuel streamed] at isRead
    cases binary : looksBinary ((Utf8.encode text).take prefixLimit) with
    | false => rfl
    | true =>
        rw [binary, if_pos rfl] at isRead
        cases isRead
        exact absurd rfl (content_of_artifactText isResult)
  · intro binary
    obtain ⟨fuel, result, isResult⟩ :=
      artifactText_ends cursorLine artifact (withoutMark text)
        ⟨_, (fill_append args.room [] _).trans (List.nil_append _)⟩
    refine ⟨fuel, artifact, _, result, streamed, isResult, ?_⟩
    rw [isText.readArtifact cursorLine fuel streamed, binary,
      if_neg Bool.false_ne_true, isResult]

/-- A text is recognised by its prefix, as a file and as an artifact, exactly
when the cut does not fall inside a character. -/
theorem text_recognised_iff {text : Text} (plain : Char.ofNat 0 ∉ text) :
    (looksBinary ((Utf8.encode text).take prefixLimit) =
        looksBinary (Utf8.encode text) ↔ WholePrefix text) ∧
    (∀ service cursorLine exportArtifact path args,
      WorkspaceText service path text →
      (∃ fuel result, readWorkspaceText service cursorLine fuel path args =
        .ok (some result)) →
      (ReadsFile service cursorLine exportArtifact path args ↔
        WholePrefix text)) ∧
    (∀ storage cursorLine threadId digest artifact chunks args,
      StoredText storage threadId digest artifact text →
      chunks.flatten = Utf8.encode text → args.Accepted →
      (ReadsArtifact storage cursorLine threadId digest chunks args ↔
        WholePrefix text)) := by
  refine ⟨?_, ?_, ?_⟩
  · rw [looksBinary_encode plain]
    exact looksBinary_prefix plain prefixLimit
  · intro service cursorLine exportArtifact path args isText reads
    exact readsFile_iff plain isText exportArtifact reads
  · intro storage cursorLine threadId digest artifact chunks args isText
      isStream accepted
    exact readsArtifact_iff plain isText cursorLine accepted isStream

/-! ## Two texts -/

private def notePath : Text := "notes.txt".toList

/-- A service whose workspace holds one file with this digest. -/
private def noteFile (digest : Digest) (text : Text) : FileService where
  openExisting path :=
    if path = notePath then
      .ok (.file (Utf8.encode text).length (Utf8.encode text))
    else .error (.coded "FILE_NOT_FOUND" "Open workspace path")
  sha256 _ := digest
  readCursor := ReadCursor.reader
  directoryCursor := DirectoryCursor.reader

private def noteRef (digest : Digest) (text : Text) : ArtifactRef :=
  { digest
    path := "notes"
    sizeBytes := (Utf8.encode text).length
    mediaType := "text/plain" }

/-- A storage that holds one artifact. -/
private def noteStorage (digest : Digest) (content : ArtifactContent) :
    ArtifactStorage :=
  { files := AList.insert "notes" content ∅
    artifacts := AList.insert digest
      { kind := "tool"
        path := "notes"
        sizeBytes := content.bytes.length
        metadataJson := { mediaType := "text/plain" } } ∅
    grants := AList.insert ("thread", digest) () ∅ }

private theorem workspaceText_note (digest : Digest) (text : Text) :
    WorkspaceText (noteFile digest text) notePath text :=
  { opened := by
      dsimp only [noteFile]
      rw [if_pos rfl]
    named := by decide }

private theorem storedText_note (digest : Digest) {text : Text}
    {content : ArtifactContent} (isBytes : content.bytes = Utf8.encode text) :
    StoredText (noteStorage digest content) "thread" digest
      (noteRef digest text) text := by
  have granted : (noteStorage digest content).granted "thread" digest =
      true := by
    rw [ArtifactStorage.granted, noteStorage, AList.lookup_insert]
    rfl
  refine
    { resolved := ?_
      stored := ⟨content, AList.lookup_insert _, isBytes⟩
      typed := show isTextMediaType "text/plain" = true by decide }
  rw [ArtifactStorage.resolve, ArtifactStorage.getGrantedArtifact,
    if_pos granted, noteStorage, AList.lookup_insert]
  change ArtifactStorage.statArtifact _ _ _ = _
  rw [ArtifactStorage.statArtifact, AList.lookup_insert]
  dsimp only
  rw [if_pos rfl, isBytes]
  rfl

private def firstLineOnly : ReadArguments :=
  { path := notePath, ranges := some [(1, 1)] }

private theorem firstLineOnly_accepted : firstLineOnly.Accepted :=
  { apart := .inr ⟨rfl, rfl⟩
    upward := by
      rintro ranges ⟨⟩
      decide
    limit := by decide }

private theorem encode_replicate (count : Nat) :
    Utf8.encode (List.replicate count 'a') = List.replicate count 0x61 := by
  induction count with
  | zero => rfl
  | succ count induction =>
      rw [List.replicate_succ, Utf8.encode_cons, induction]
      rfl

/-- The prefix ends between the last two letters, each of two bytes. -/
private def wholeLetters : Text :=
  ['a', newline] ++
    (List.replicate 8188 'a' ++ [Char.ofNat 0xE9, Char.ofNat 0xE9])

private def wholeDigest : Digest where
  hex := "34b808ab271f67a126448fffaedf47fd632f19ad4a5d7751c95321e1209fa5cf"
  isHex := by decide

private theorem encode_wholeLetters :
    Utf8.encode wholeLetters =
      [0x61, 0x0A] ++
        (List.replicate 8188 0x61 ++ [0xC3, 0xA9, 0xC3, 0xA9]) := by
  rw [wholeLetters, Utf8.encode_append, Utf8.encode_append, encode_replicate]
  rfl

private theorem length_wholeLetters :
    (Utf8.encode wholeLetters).length = 8194 := by
  rw [encode_wholeLetters, List.length_append, List.length_append,
    List.length_replicate]
  rfl

private theorem wholeLetters_plain : Char.ofNat 0 ∉ wholeLetters := by
  intro member
  rcases List.mem_append.mp member with member | member
  · exact absurd member (by decide)
  · rcases List.mem_append.mp member with member | member
    · exact absurd (List.eq_of_mem_replicate member) (by decide)
    · exact absurd member (by decide)

private theorem wholePrefix_wholeLetters : WholePrefix wholeLetters := by
  have after : (Utf8.encode wholeLetters)[prefixLimit]? = some 0xC3 := by
    rw [encode_wholeLetters, List.getElem?_append_right (by decide),
      List.getElem?_append_right]
    · rw [List.length_replicate]
      rfl
    · rw [List.length_replicate]
      decide
  intro byte isByte
  rw [after] at isByte
  cases isByte
  rintro ⟨-, below⟩
  exact absurd below (by decide)

private theorem requestedLines_wholeLetters :
    requestedLines [(1, 1)] wholeLetters = [(['a', newline], 1)] := by
  have isLines : Text.lines wholeLetters =
      ['a', newline] :: Text.lines (List.replicate 8188 'a' ++
        [Char.ofNat 0xE9, Char.ofNat 0xE9]) := by
    have first : newline ∉ ['a'] := by decide
    exact splitInclusive_line first _
  rw [requestedLines, numberedLines, isLines, List.zipIdx_cons,
    List.filter_cons_of_pos (by decide), List.cons_inj_right,
    List.filter_eq_nil_iff]
  rintro ⟨line, number⟩ member covered
  have later := (List.mem_zipIdx_iff_le_and_getElem?_sub.mp member).1
  simp only [covers, List.any_cons, List.any_nil, Bool.or_false,
    decide_eq_true_eq] at covered
  omega

private theorem rangeRead_wholeLetters :
    RangeRead (noteFile wholeDigest wholeLetters) notePath [(1, 1)]
      wholeLetters :=
  { isPath := by decide
    opened := (workspaceText_note wholeDigest wholeLetters).opened
    upward := by decide
    counted := by
      rw [length_wholeLetters]
      decide
    width := by
      intro _
      change wholeDigest.hex.toList.length = 64
      decide
    fits := by
      rw [requestedLines_wholeLetters, length_wholeLetters]
      decide }

private def wholeContent : ArtifactContent :=
  { bytes := Utf8.encode wholeLetters
    counted := by
      rw [length_wholeLetters]
      decide }

/-- A text that is longer than the prefix, which is cut between letters. -/
theorem text_recognised_iff_whole :
    prefixLimit < (Utf8.encode wholeLetters).length ∧
      ReadsFile (noteFile wholeDigest wholeLetters) guestCursors.cursorLine
        (fun _ => .ok (noteRef wholeDigest wholeLetters)) notePath
        firstLineOnly ∧
      ReadsArtifact (noteStorage wholeDigest wholeContent)
        guestCursors.cursorLine "thread" wholeDigest
        [Utf8.encode wholeLetters] firstLineOnly := by
  have recognised := text_recognised_iff wholeLetters_plain
  have isRead := @RangeRead.readWorkspaceText _ guestCursors.cursorLine _ _ _
    rangeRead_wholeLetters 1 1 1 [] rfl
  rw [requestedLines_wholeLetters] at isRead
  refine ⟨?_, ?_, ?_⟩
  · rw [length_wholeLetters]
    decide
  · apply (recognised.2.1 _ _ _ _ _
      (workspaceText_note wholeDigest wholeLetters) _).mpr
      wholePrefix_wholeLetters
    exact ⟨1, _, isRead⟩
  · exact (recognised.2.2 _ _ _ _ _ _ _ (storedText_note wholeDigest rfl)
      (List.append_nil _) firstLineOnly_accepted).mpr wholePrefix_wholeLetters

/-- The prefix ends inside the last letter. -/
private def cutLetter : Text :=
  List.replicate 8191 'a' ++ [Char.ofNat 0xE9]

private theorem encode_cutLetter :
    Utf8.encode cutLetter = List.replicate 8191 0x61 ++ [0xC3, 0xA9] := by
  rw [cutLetter, Utf8.encode_append, encode_replicate]
  rfl

private theorem cutLetter_plain : Char.ofNat 0 ∉ cutLetter := by
  intro member
  rcases List.mem_append.mp member with member | member
  · exact absurd (List.eq_of_mem_replicate member) (by decide)
  · exact absurd (List.mem_singleton.mp member) (by decide)

private theorem cutLetter_binary :
    looksBinary ((Utf8.encode cutLetter).take prefixLimit) = true := by
  rw [← Bool.not_eq_false, looksBinary_prefix cutLetter_plain]
  intro whole
  apply whole 0xA9
  · rw [encode_cutLetter, prefixLimit, List.getElem?_append_right]
    · rw [List.length_replicate]
      rfl
    · rw [List.length_replicate]
      decide
  · exact ⟨by decide, by decide⟩

private def cutDigest : Digest where
  hex := "270098c7daaf49db7300d5d03ef353dc8a57eeeeaedc2768879b0b76fe85040f"
  isHex := by decide

private def cutContent : ArtifactContent :=
  { bytes := Utf8.encode cutLetter
    counted := by
      rw [encode_cutLetter, List.length_append, List.length_replicate]
      decide }

/-- A text of 8193 bytes whose last letter has two of them counts as binary,
both as a file and as an artifact. -/
theorem text_not_recognised :
    looksBinary (Utf8.encode cutLetter) = false ∧
      WorkspaceText (noteFile cutDigest cutLetter) notePath cutLetter ∧
      handleRead (noteFile cutDigest cutLetter) guestCursors.cursorLine
          (fun _ => .ok (noteRef cutDigest cutLetter)) 1 notePath firstLineOnly =
        .ok (some (.exported notePath (noteRef cutDigest cutLetter))) ∧
      StoredText (noteStorage cutDigest cutContent) "thread" cutDigest
          (noteRef cutDigest cutLetter) cutLetter ∧
      readArtifact (noteStorage cutDigest cutContent) guestCursors.cursorLine 1 "thread"
          cutDigest [Utf8.encode cutLetter] firstLineOnly =
        .ok (some { artifact := noteRef cutDigest cutLetter }) := by
  have isFile := workspaceText_note cutDigest cutLetter
  have isStored : StoredText (noteStorage cutDigest cutContent) "thread" cutDigest
      (noteRef cutDigest cutLetter) cutLetter := storedText_note cutDigest rfl
  refine ⟨looksBinary_encode cutLetter_plain, isFile, ?_, isStored, ?_⟩
  · rw [isFile.handleRead, if_pos cutLetter_binary]
    rfl
  · rw [isStored.readArtifact _ _ (streamArtifactLines_eq _
      firstLineOnly_accepted (List.append_nil _)), if_pos cutLetter_binary]

end Electrosphere
