import Electrosphere.Agent.ReadPaging
import Electrosphere.Mcp.ArtifactRead
import Electrosphere.Mcp.RangeReads

/-!
# The lines of a stream

However its bytes are cut into chunks, the lines of a text are accepted one
after another until one is refused.  What is returned is the longest prefix of
the selected lines that fits, and the cursor names the line after it.
-/

namespace Electrosphere

open Foundation Foundation.Paging Agent

/-! ## From chunks to lines -/

namespace LineSelection

variable {selection : LineSelection}

/-- The lines are accepted until one is refused. -/
def consume (selection : LineSelection) (stream : LineStream) :
    List Text → LineStream
  | [] => stream
  | line :: lines =>
      match selection.accept stream line with
      | (true, stream) => selection.consume stream lines
      | (false, stream) => stream

/-- What becomes of the text that follows, after the inner loop. -/
def resume (selection : LineSelection) :
    Option Text × LineStream → Text → LineStream
  | (some pending, stream), more =>
      selection.consume stream (Text.lines (pending ++ more))
  | (none, stream), _ => stream

theorem newline_not_mem_drain {pending rest : Text}
    {stream after : LineStream} {text : Text} (inside : newline ∉ pending)
    (isDrained : selection.drain pending stream text = (some rest, after)) :
    newline ∉ rest := by
  induction text generalizing pending stream with
  | nil =>
      rw [drain] at isDrained
      cases isDrained
      exact inside
  | cons character text induction =>
      rw [drain] at isDrained
      split at isDrained
      case isTrue =>
        split at isDrained
        case h_1 => exact induction (List.not_mem_nil) isDrained
        case h_2 => cases isDrained
      case isFalse other =>
        apply induction _ isDrained
        intro member
        rcases List.mem_append.mp member with member | member
        · exact inside member
        · exact other (List.mem_singleton.mp member).symm

theorem lines_append_newline {pending : Text} (inside : newline ∉ pending)
    (rest : Text) :
    Text.lines (pending ++ newline :: rest) =
      (pending ++ [newline]) :: Text.lines rest :=
  splitInclusive_line inside rest

theorem consume_append_drain (selection : LineSelection) {pending : Text}
    (stream : LineStream)
    (inside : newline ∉ pending) (text more : Text) :
    selection.consume stream (Text.lines (pending ++ (text ++ more))) =
      selection.resume (selection.drain pending stream text) more := by
  induction text generalizing pending stream with
  | nil =>
      rw [drain, List.nil_append]
      rfl
  | cons character text induction =>
      rw [drain, List.cons_append]
      by_cases ends : character = newline
      · rw [if_pos ends, ends, lines_append_newline inside, consume]
        cases selection.accept stream (pending ++ [newline]) with
        | mk goesOn stream =>
            cases goesOn with
            | true => exact induction stream List.not_mem_nil
            | false => rfl
      · rw [if_neg ends, ← List.singleton_append, ← List.append_assoc]
        apply induction
        intro member
        rcases List.mem_append.mp member with member | member
        · exact inside member
        · exact ends (List.mem_singleton.mp member).symm

/-- What is pending at the end is a last line, unless it is empty. -/
theorem consume_pending {pending : Text} (stream : LineStream)
    (inside : newline ∉ pending) (nonempty : pending ≠ []) :
    selection.consume stream (Text.lines pending) =
      (selection.accept stream pending).2 := by
  have single : Text.lines pending = [pending] := by
    have line := splitInclusive_append nonempty inside []
    rw [List.append_nil] at line
    exact line
  rw [single, consume]
  cases selection.accept stream pending with
  | mk goesOn stream => cases goesOn <;> rfl

end LineSelection

/-! ## Decoding chunk by chunk -/

namespace TextDecoder

theorem output_append (bomSeen : Bool) (text more : Text) :
    (output bomSeen (text ++ more)).1 =
      (output bomSeen text).1 ++ (output (output bomSeen text).2 more).1 := by
  have seen : (output true more).1 = more := by
    cases more with
    | nil => rfl
    | cons character more =>
        rw [output, if_neg (fun both => Bool.noConfusion both.1)]
  cases text with
  | nil => rfl
  | cons character text =>
      rw [List.cons_append, output, output]
      split
      · rw [seen]
      · rw [seen, List.cons_append]

end TextDecoder

/-- What a decoder makes of a text. -/
def withoutMark (text : Text) : Text := (TextDecoder.output false text).1

theorem withoutMark_eq {text : Text}
    (unmarked : text.head? ≠ some byteOrderMark) : withoutMark text = text := by
  cases text with
  | nil => rfl
  | cons character text =>
      rw [withoutMark, TextDecoder.output, if_neg]
      intro both
      exact unmarked (congrArg some both.2)

theorem LineSelection.readChunks_eq (selection : LineSelection)
    (decoder : TextDecoder) {pending : Text} (stream : LineStream)
    {chunks : List Bytes} (inside : newline ∉ pending)
    (wellFormed : decoder.utf8.wellFormed chunks.flatten = true)
    (ends : (decoder.utf8.run chunks.flatten).2.owed = 0) :
    selection.readChunks decoder pending stream chunks =
      some (selection.consume stream
        (Text.lines (pending ++ (TextDecoder.output decoder.bomSeen
          (decoder.utf8.run chunks.flatten).1).1))) := by
  induction chunks generalizing decoder pending stream with
  | nil =>
      change decoder.utf8.owed = 0 at ends
      rw [readChunks, TextDecoder.finish, if_pos ends]
      dsimp only [List.flatten_nil, Utf8.Decoder.run, TextDecoder.output]
      rw [List.append_nil]
      by_cases isEmpty : pending = []
      · rw [if_pos isEmpty, isEmpty]
        rfl
      · rw [if_neg isEmpty, consume_pending stream inside isEmpty]
  | cons chunk chunks induction =>
      rw [List.flatten_cons] at wellFormed ends ⊢
      rw [Utf8.Decoder.run_append] at ends ⊢
      obtain ⟨decoded, wellFormed⟩ := Utf8.decode_chunk wellFormed
      have parts := selection.consume_append_drain stream
        (List.not_mem_nil (a := newline))
        (pending ++ (TextDecoder.output decoder.bomSeen
          (decoder.utf8.run chunk).1).1)
        (TextDecoder.output (TextDecoder.output decoder.bomSeen
            (decoder.utf8.run chunk).1).2
          ((decoder.utf8.run chunk).2.run chunks.flatten).1).1
      rw [List.nil_append, List.append_assoc] at parts
      rw [readChunks, TextDecoder.decode, decoded, TextDecoder.output_append,
        parts]
      dsimp only
      cases isDrained : selection.drain [] stream
          (pending ++ (TextDecoder.output decoder.bomSeen
            (decoder.utf8.run chunk).1).1) with
      | mk rest after =>
          cases rest with
          | none => rfl
          | some rest =>
              exact induction _ after
                (newline_not_mem_drain List.not_mem_nil isDrained)
                wellFormed ends

/-! ## From lines to pages -/

namespace ReadArguments

def maximumLines (args : ReadArguments) : Option Nat :=
  if args.ranges.isSome then none else some (args.limit.getD 200)

/-- The line that the stream is read from. -/
def firstLine (cursorLine : Text → Option Nat) (args : ReadArguments) : Nat :=
  startLine cursorLine { args with ranges := args.sortedRanges }

def wants (args : ReadArguments) (number : Nat) : Bool :=
  args.ranges.all fun ranges => covers ranges number

/-- The lines that the arguments ask for. -/
def selected (cursorLine : Text → Option Nat) (args : ReadArguments)
    (text : Text) : List NumberedLine :=
  (numberedLines text).filter fun line =>
    decide (args.firstLine cursorLine ≤ line.2) && args.wants line.2

/-- The limits of one answer. -/
def fits (args : ReadArguments) (page : List NumberedLine) : Prop :=
  page = [] ∨ (∀ maximum ∈ args.maximumLines, page.length ≤ maximum) ∧
    Json.size (texts (page.map Prod.fst)) ≤ maxTextResponseBytes

/-- Whether an answer has room for one more line. -/
def room (args : ReadArguments) (page : List NumberedLine)
    (line : NumberedLine) : Bool :=
  args.maximumLines.all (fun maximum => decide (page.length < maximum)) &&
    decide (Json.size (texts (page.map Prod.fst ++ [line.1])) ≤
      maxTextResponseBytes)

variable {args : ReadArguments}

theorem fits_of_append (page : List NumberedLine) (line : NumberedLine)
    (fits : args.fits (page ++ [line])) : args.fits page := by
  rcases fits with isEmpty | ⟨few, small⟩
  · exact absurd isEmpty (List.concat_ne_nil line page)
  · right
    constructor
    · intro maximum isMaximum
      have atMost := few maximum isMaximum
      rw [List.length_append] at atMost
      exact Nat.le_of_add_right_le atMost
    · have less := Json.size_array_append
        ((page.map Prod.fst).map Json.string)
        (([line].map Prod.fst).map Json.string)
      rw [← List.map_append, ← List.map_append] at less
      exact Nat.le_trans less small

theorem room_iff (page : List NumberedLine) (line : NumberedLine) :
    args.room page line = true ↔ args.fits (page ++ [line]) := by
  rw [room, Bool.and_eq_true, decide_eq_true_iff, fits,
    or_iff_right (List.concat_ne_nil line page), List.map_append,
    List.map_singleton, List.length_append, List.length_singleton]
  apply and_congr _ Iff.rfl
  cases args.maximumLines with
  | none => exact iff_of_true rfl (by rintro _ ⟨⟩)
  | some maximum =>
      rw [Option.all_some, decide_eq_true_iff, Nat.lt_iff_add_one_le]
      constructor
      · rintro few _ ⟨⟩
        exact few
      · intro few
        exact few maximum rfl

end ReadArguments

section Selection

variable {cursorLine : Text → Option Nat} {args : ReadArguments}

theorem selectedLine_eq (number : Nat) :
    selectedLine number (lineSelection cursorLine args).startLine
        (lineSelection cursorLine args).ranges =
      (decide (args.firstLine cursorLine ≤ number) && args.wants number) := by
  have same : (args.sortedRanges.all fun ranges => covers ranges number) =
      args.wants number := by
    rw [ReadArguments.sortedRanges, ReadArguments.wants]
    cases args.ranges with
    | none => rfl
    | some ranges => exact (List.perm_insertionSort byStart ranges).any_eq
  change (if number < args.firstLine cursorLine then _
    else args.sortedRanges.all _) = _
  rw [same]
  by_cases before : number < args.firstLine cursorLine
  · rw [if_pos before, decide_eq_false (Nat.not_le_of_lt before),
      Bool.false_and]
  · rw [if_neg before, decide_eq_true (Nat.le_of_not_lt before),
      Bool.true_and]

theorem room_eq (page : List NumberedLine) (line : Text) (number : Nat) :
    ((lineSelection cursorLine args).isFull (page.map Prod.fst) ||
        decide (maxTextResponseBytes <
          Json.size (texts (page.map Prod.fst ++ [line])))) =
      !args.room page (line, number) := by
  have maximum : (lineSelection cursorLine args).maximumLines =
      args.maximumLines := by
    unfold lineSelection ReadArguments.maximumLines ReadArguments.sortedRanges
    rw [Option.isSome_map]
  rw [LineSelection.isFull, maximum, ReadArguments.room, Bool.not_and,
    List.length_map]
  apply congrArg₂ (· || ·)
  · cases args.maximumLines with
    | none => rfl
    | some maximum =>
        rw [Option.any_some, Option.all_some, ← decide_not]
        exact decide_eq_decide.mpr Nat.not_lt.symm
  · rw [← decide_not]
    exact decide_eq_decide.mpr Nat.not_le.symm

/-- The state in which a page has been collected. -/
def LineStream.Holds (stream : LineStream) (page : List NumberedLine) : Prop :=
  stream.lines = page.map Prod.fst ∧ stream.nextLine = none

theorem consume_eq_fill (cursorLine : Text → Option Nat)
    (args : ReadArguments) {stream : LineStream} {page : List NumberedLine}
    (holds : stream.Holds page) (lines : List Text) :
    ∃ last, (lineSelection cursorLine args).consume stream lines = last ∧
      last.lines = (fill args.room page
        ((lines.zipIdx (stream.lineNumber + 1)).filter fun line =>
          decide (args.firstLine cursorLine ≤ line.2) &&
            args.wants line.2)).1.map
          Prod.fst ∧
      last.nextLine = (fill args.room page
        ((lines.zipIdx (stream.lineNumber + 1)).filter fun line =>
          decide (args.firstLine cursorLine ≤ line.2) &&
            args.wants line.2)).2.head?.map
          Prod.snd := by
  refine ⟨_, rfl, ?_⟩
  induction lines generalizing stream page with
  | nil => exact holds
  | cons line lines induction =>
      obtain ⟨isLines, noNext⟩ := holds
      rw [List.zipIdx_cons, List.filter_cons, LineSelection.consume,
        LineSelection.accept]
      dsimp only
      rw [selectedLine_eq, isLines, room_eq page line (stream.lineNumber + 1)]
      by_cases taken : (decide (args.firstLine cursorLine ≤
          stream.lineNumber + 1) && args.wants (stream.lineNumber + 1)) = true
      · rw [if_neg (by simp [taken]), if_pos taken, fill]
        by_cases room : args.room page (line, stream.lineNumber + 1) = true
        · rw [if_neg (by simp [room]), if_pos room]
          apply induction
          exact ⟨by simp, noNext⟩
        · rw [if_pos (by simp [room]), if_neg room]
          exact ⟨rfl, by simp [noNext]⟩
      · rw [if_pos (by simpa using taken), if_neg taken]
        exact induction ⟨rfl, noNext⟩

end Selection

/-! ## One call -/

/-- The arguments pass the checks of the tool. -/
structure ReadArguments.Accepted (args : ReadArguments) : Prop where
  apart : args.ranges = none ∨ args.offset = none ∧ args.limit = none
  upward : ∀ ranges ∈ args.ranges, ∀ range ∈ ranges, range.1 ≤ range.2
  limit : args.limit ≠ some 0

/-- A text that can be read in full. -/
structure StreamedText (text : Text) : Prop where
  unmarked : text.head? ≠ some byteOrderMark
  counted : (Utf8.encode text).length ≤ maxSafeInteger
  short : ∀ line ∈ text.lines,
    Json.size (texts [line]) ≤ maxTextResponseBytes

/-- What one call returns: the lines on the page and the first one left out. -/
def streamResult (cursorLine : Text → Option Nat) (args : ReadArguments)
    (items page : List NumberedLine) : StreamLinesResult :=
  { lines := page.map Prod.fst
    startLine := args.firstLine cursorLine
    nextLine := (items.drop page.length).head?.map Prod.snd }

theorem streamArtifactLines_eq {args : ReadArguments} {text : Text}
    {chunks : List Bytes} (cursorLine : Text → Option Nat)
    (accepted : args.Accepted) (isText : chunks.flatten = Utf8.encode text) :
    streamArtifactLines cursorLine chunks args =
      .ok (some (streamResult cursorLine args
        (args.selected cursorLine (withoutMark text))
        (fill args.room []
          (args.selected cursorLine (withoutMark text))).1)) := by
  have combined : (args.ranges.isSome &&
      (args.offset.isSome || args.limit.isSome)) = false := by
    rcases accepted.apart with none | ⟨noOffset, noLimit⟩
    · rw [none]
      rfl
    · rw [noOffset, noLimit]
      exact Bool.and_false _
  have valid : (args.sortedRanges.any fun ranges =>
      ranges.any fun range => decide (range.2 < range.1)) = false := by
    rw [ReadArguments.sortedRanges]
    cases isRanges : args.ranges with
    | none => rfl
    | some ranges =>
        rw [Option.map_some, Option.any_some, List.any_eq_false]
        intro range member
        have sorted := (List.mem_insertionSort byStart).mp member
        have ordered := accepted.upward ranges isRanges range sorted
        simpa using ordered
  have decoded : Utf8.Decoder.run {} chunks.flatten = (text, {}) := by
    rw [isText, Utf8.run_encode]
  have read := (lineSelection cursorLine args).readChunks_eq
    {} {} List.not_mem_nil
    (by rw [isText]; exact Utf8.wellFormed_encode text)
    (by change (Utf8.Decoder.run {} chunks.flatten).2.owed = 0; rw [decoded])
  change _ = some (LineSelection.consume _ _ (Text.lines ([] ++
    (TextDecoder.output false (Utf8.Decoder.run {} chunks.flatten).1).1)))
      at read
  have empty : LineStream.Holds {} [] := ⟨rfl, rfl⟩
  obtain ⟨last, isLast, lines, nextLine⟩ :=
    consume_eq_fill cursorLine args empty (withoutMark text).lines
  rw [decoded, List.nil_append] at read
  change _ = some (LineSelection.consume _ _ (withoutMark text).lines) at read
  rw [isLast] at read
  rw [streamArtifactLines, if_neg (by simp [combined]),
    if_neg (by simp [valid])]
  dsimp only
  rw [read, streamResult, drop_fill, Option.map_some, lines, nextLine]
  rfl

theorem StreamedText.result {args : ReadArguments} {text : Text}
    {chunks : List Bytes} (streamed : StreamedText text)
    (cursorLine : Text → Option Nat) (accepted : args.Accepted)
    (isText : chunks.flatten = Utf8.encode text) :
    streamArtifactLines cursorLine chunks args =
      .ok (some (streamResult cursorLine args (args.selected cursorLine text)
        (fill args.room [] (args.selected cursorLine text)).1)) := by
  have read := streamArtifactLines_eq cursorLine accepted isText
  rw [withoutMark_eq streamed.unmarked] at read
  exact read

/-! ## Following the cursors -/

theorem length_lines_le (text : Text) :
    text.lines.length ≤ (Utf8.encode text).length := by
  have letters : text.length ≤ (Utf8.encode text).length := by
    induction text with
    | nil => exact Nat.zero_le _
    | cons character text induction =>
        have some := List.length_pos_iff.mpr (Utf8.encoded_ne_nil character)
        rw [Utf8.encode_cons, List.length_append, List.length_cons]
        omega
  exact Nat.le_trans (length_splitInclusive_le newline text) letters

theorem number_of_mem {text : Text} {line : NumberedLine}
    (member : line ∈ numberedLines text) :
    0 < line.2 ∧ line.2 ≤ (Utf8.encode text).length := by
  have atLeast := List.le_snd_of_mem_zipIdx member
  have atMost := List.snd_lt_add_of_mem_zipIdx member
  have few := length_lines_le text
  omega

theorem lineCursor_ne_nil (line : Nat) : lineCursor line ≠ [] := by
  intro isEmpty
  have decoded := Base64.decode_encode
    (Utf8.encode (ReadCursor.encode { nextLine := line }))
  change Base64.decode (lineCursor line) = _ at decoded
  rw [isEmpty] at decoded
  have text := congrArg Utf8.decodeLossy decoded
  rw [Utf8.decodeLossy_encode] at text
  cases text

/-- The same arguments with the cursor of a line. -/
def ReadArguments.goOn (args : ReadArguments) (line : Nat) : ReadArguments :=
  { args with cursor := some (lineCursor line) }

theorem LineCursorReader.cursorLine_lineCursor (reader : LineCursorReader)
    {line : Nat} (positive : 0 < line) (safe : line ≤ maxSafeInteger) :
    reader.cursorLine (lineCursor line) = some line := by
  rw [cursorLine, reader.read_encode line safe, Option.filter_some,
    decide_eq_true safe, decide_eq_true positive]
  rfl

theorem LineCursorReader.firstLine_goOn (reader : LineCursorReader)
    (args : ReadArguments) {line : Nat} (positive : 0 < line)
    (safe : line ≤ maxSafeInteger) :
    (args.goOn line).firstLine reader.cursorLine = line := by
  have isCursor : truthy (some (lineCursor line)) = some (lineCursor line) := by
    rw [truthy, Option.filter_some, if_pos]
    simp [lineCursor_ne_nil]
  rw [ReadArguments.firstLine, startLine]
  change (((truthy (some (lineCursor line))).bind _).or _ |>.or _).getD 1 = _
  rw [isCursor, Option.bind_some,
    reader.cursorLine_lineCursor positive safe]
  rfl

/-- The calls that follow the cursors.  Each call opens a stream of its own,
cut into chunks of its own. -/
inductive StreamReading (cursorLine : Text → Option Nat)
    (chunks : ReadArguments → List Bytes) :
    ReadArguments → List StreamLinesResult → Prop where
  | last {args : ReadArguments} {result : StreamLinesResult} :
      streamArtifactLines cursorLine (chunks args) args =
        .ok (some result) →
      result.nextLine = none →
      StreamReading cursorLine chunks args [result]
  | more {args : ReadArguments} {result : StreamLinesResult} {line : Nat}
      {results : List StreamLinesResult} :
      streamArtifactLines cursorLine (chunks args) args =
        .ok (some result) →
      result.nextLine = some line →
      StreamReading cursorLine chunks (args.goOn line) results →
      StreamReading cursorLine chunks args (result :: results)

section Reading

variable {reader : LineCursorReader} {args : ReadArguments} {text : Text}

theorem ReadArguments.Accepted.goOn (accepted : args.Accepted) (line : Nat) :
    (args.goOn line).Accepted :=
  { apart := accepted.apart
    upward := accepted.upward
    limit := accepted.limit }

theorem ReadArguments.Accepted.alone (accepted : args.Accepted)
    (streamed : StreamedText text) (cursorLine : Text → Option Nat) :
    Alone args.room (args.selected cursorLine text) := by
  intro line member
  have isLine : line ∈ numberedLines text := (List.mem_filter.mp member).1
  have small := streamed.short line.1 (List.fst_mem_of_mem_zipIdx isLine)
  rw [ReadArguments.room_iff]
  right
  constructor
  · intro maximum isMaximum
    have positive : maximum ≠ 0 := by
      intro isZero
      rw [isZero] at isMaximum
      unfold ReadArguments.maximumLines at isMaximum
      split at isMaximum
      case isTrue => cases isMaximum
      case isFalse =>
        have isLimit := Option.some.inj isMaximum
        cases limit : args.limit with
        | none =>
            rw [limit] at isLimit
            cases isLimit
        | some value =>
            rw [limit, Option.getD_some] at isLimit
            exact accepted.limit (limit.trans (congrArg some isLimit))
    exact Nat.pos_of_ne_zero positive
  · exact small

/-- The lines after a page are what its cursor asks for. -/
theorem selected_goOn {rest : List NumberedLine} (streamed : StreamedText text)
    (isNext : fromRefused args.room (args.selected reader.cursorLine text) =
      some rest) :
    ∃ line, (streamResult reader.cursorLine args
          (args.selected reader.cursorLine text)
          (fill args.room []
            (args.selected reader.cursorLine text)).1).nextLine = some line ∧
      (args.goOn line).selected reader.cursorLine text = rest := by
  obtain ⟨stops, nonempty⟩ := fromRefused_eq isNext
  have whole := fill_append args.room [] (args.selected reader.cursorLine text)
  rw [stops, List.nil_append] at whole
  cases rest with
  | nil => exact (nonempty rfl).elim
  | cons line later =>
      obtain ⟨_, isRest⟩ := @chosen_from args.wants _ _ _ _ _ whole.symm
      have member : line ∈ args.selected reader.cursorLine text := by
        rw [← whole]
        simp
      obtain ⟨positive, counted⟩ :=
        number_of_mem (List.mem_filter.mp member).1
      refine ⟨line.2, ?_, ?_⟩
      · rw [streamResult, drop_fill, stops]
        rfl
      · rw [ReadArguments.selected, reader.firstLine_goOn args positive
          (Nat.le_trans counted streamed.counted)]
        exact isRest

theorem StreamReading.of_filled {chunks : ReadArguments → List Bytes}
    {items : List NumberedLine} {pages : List (List NumberedLine)}
    (whole : ∀ args, (chunks args).flatten = Utf8.encode text)
    (streamed : StreamedText text) (accepted : args.Accepted)
    (filled : Filled args.room items pages)
    (isItems : args.selected reader.cursorLine text = items) :
    ∃ results, StreamReading reader.cursorLine chunks args results ∧
      results.flatMap StreamLinesResult.lines =
        pages.flatten.map Prod.fst := by
  generalize isRoom : args.room = room at filled
  induction filled generalizing args with
  | @last items isLast =>
      subst isItems
      subst isRoom
      refine ⟨_, .last (streamed.result reader.cursorLine accepted
        (whole args)) ?_, ?_⟩
      · rw [streamResult, drop_fill, fromRefused_eq_none.mp isLast]
        rfl
      · simp [streamResult]
  | @more items rest pages isNext _ induction =>
      subst isItems
      subst isRoom
      obtain ⟨line, named, isRest⟩ := selected_goOn streamed isNext
      obtain ⟨results, reading, returned⟩ :=
        induction (accepted.goOn line) isRest rfl
      refine ⟨_, .more (streamed.result reader.cursorLine accepted
        (whole args)) named reading, ?_⟩
      rw [List.flatMap_cons, returned, List.flatten_cons, List.map_append]
      rfl

end Reading

instance totalByStart : Std.Total byStart where
  total left right := Nat.le_total left.1 right.1

instance transByStart : IsTrans (Nat × Nat) byStart where
  trans _ _ _ first second := Nat.le_trans first second

/-- The stream is read from where the first range begins. -/
theorem firstLine_le (cursorLine : Text → Option Nat) {args : ReadArguments}
    {ranges : List (Nat × Nat)} (noCursor : args.cursor = none)
    (isRanges : args.ranges = some ranges) {range : Nat × Nat}
    (member : range ∈ ranges) : args.firstLine cursorLine ≤ range.1 := by
  have sorted := List.pairwise_insertionSort byStart ranges
  have inSorted := (List.mem_insertionSort byStart).mpr member
  rw [ReadArguments.firstLine, startLine, ReadArguments.sortedRanges,
    noCursor, isRanges]
  dsimp only [truthy, Option.filter_none, Option.bind_none, Option.none_or,
    Option.map_some, Option.bind_some]
  cases isSorted : ranges.insertionSort byStart with
  | nil =>
      rw [isSorted] at inSorted
      cases inSorted
  | cons first rest =>
      rw [isSorted] at sorted inSorted
      rcases List.mem_cons.mp inSorted with rfl | later
      · exact Nat.le_refl _
      · exact (List.pairwise_cons.mp sorted).1 range later

theorem selected_ranges {cursorLine : Text → Option Nat} {args : ReadArguments}
    {ranges : List (Nat × Nat)} (noCursor : args.cursor = none)
    (isRanges : args.ranges = some ranges) (text : Text) :
    args.selected cursorLine text = requestedLines ranges text := by
  rw [ReadArguments.selected, requestedLines]
  apply List.filter_congr
  intro line _
  rw [ReadArguments.wants, isRanges, Option.all_some]
  cases covered : covers ranges line.2 with
  | false => exact Bool.and_false _
  | true =>
      obtain ⟨range, member, inside⟩ := List.any_eq_true.mp covered
      have from' := firstLine_le cursorLine noCursor isRanges
        member
      rw [Bool.and_true]
      exact decide_eq_true
        (Nat.le_trans from' (of_decide_eq_true inside).1)

/-- A call returns the longest prefix of the selected lines that fits and
names the first one left out, however the bytes are cut into chunks.
Following the cursors returns every selected line once. -/
structure StreamPages (cursorLine : Text → Option Nat) (args : ReadArguments)
    (text : Text) : Prop where
  page : ∃ page,
    LongestPrefix args.fits (args.selected cursorLine text) page ∧
    ∀ chunks : List Bytes, chunks.flatten = Utf8.encode text →
      streamArtifactLines cursorLine chunks args =
        .ok (some (streamResult cursorLine args
          (args.selected cursorLine text) page))
  whole : ∀ chunks : ReadArguments → List Bytes,
    (∀ next, (chunks next).flatten = Utf8.encode text) →
    ∃ results, StreamReading cursorLine chunks args results ∧
      results.flatMap StreamLinesResult.lines =
        (args.selected cursorLine text).map Prod.fst
  requested : args.cursor = none → ∀ ranges, args.ranges = some ranges →
    args.selected cursorLine text = requestedLines ranges text

theorem streamArtifactLines_pages (reader : LineCursorReader)
    {args : ReadArguments} {text : Text} (streamed : StreamedText text)
    (accepted : args.Accepted) : StreamPages reader.cursorLine args text := by
  constructor
  · refine ⟨_, fill_longest _ (.inl rfl) ReadArguments.fits_of_append
      ReadArguments.room_iff, ?_⟩
    intro chunks isText
    exact streamed.result reader.cursorLine accepted isText
  · intro chunks whole
    obtain ⟨pages, filled⟩ := Filled.exists _
      (accepted.alone streamed reader.cursorLine) (Nat.le_refl _)
    obtain ⟨results, reading, returned⟩ :=
      StreamReading.of_filled whole streamed accepted filled rfl
    refine ⟨results, reading, ?_⟩
    rw [returned, filled.flatten_eq]
  · intro noCursor ranges isRanges
    exact selected_ranges noCursor isRanges text

/-- The reader of the guest, which knows the same cursors. -/
def guestCursors : LineCursorReader where
  read cursor := (ReadCursor.reader.read cursor).map ReadCursor.nextLine
  read_encode line _ := by
    rw [lineCursor, ReadCursor.reader.read_encode]
    rfl

private def twoScripts : Text :=
  [Char.ofNat 0xE9, Char.ofNat 0x0D, newline, Char.ofNat 0x4E2D]

/-- Two lines, read one at a time. -/
theorem streamArtifactLines_pages_two_scripts :
    StreamPages guestCursors.cursorLine { path := [], limit := some 1 }
      twoScripts :=
  streamArtifactLines_pages guestCursors
    { unmarked := by decide
      counted := by decide
      short := by decide }
    { apart := .inl rfl
      upward := by rintro ranges ⟨⟩
      limit := by decide }

end Electrosphere
