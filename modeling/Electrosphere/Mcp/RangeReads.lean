import Electrosphere.Agent.ReadPaging
import Electrosphere.Mcp.ReadResult

/-!
# Reading ranges of lines

The guest sorts the ranges and returns the lines in ascending order.  The
daemon numbers them from the start of the first range of the unsorted list.
The numbers are right, and are found at all, when this range begins first or
no line is returned.
-/

namespace Electrosphere

open Foundation Foundation.Paging Agent

/-- The lines that the ranges ask for. -/
def requestedLines (ranges : List (Nat × Nat)) (text : Text) :
    List NumberedLine :=
  (numberedLines text).filter fun line => covers ranges line.2

def NumberedLine.entry (line : NumberedLine) : LineEntry :=
  { line := line.2, text := line.1 }

/-! ## The numbers -/

theorem lineNumbersLoop_nil (ranges : List (Nat × Nat)) (fuel current : Nat) :
    lineNumbersLoop ranges fuel current [] = some [] := by
  cases fuel <;> rfl

/-- No number comes before the one that the loop begins with. -/
theorem le_of_mem_lineNumbersLoop {ranges : List (Nat × Nat)}
    {fuel current : Nat} {lines : List Text} {entries : List LineEntry}
    (isResult : lineNumbersLoop ranges fuel current lines = some entries) :
    ∀ entry ∈ entries, current ≤ entry.line := by
  induction fuel generalizing current lines entries with
  | zero =>
      cases lines with
      | nil =>
          cases isResult
          simp
      | cons text lines => cases isResult
  | succ fuel induction =>
      cases lines with
      | nil =>
          cases isResult
          simp
      | cons text lines =>
          rw [lineNumbersLoop] at isResult
          split at isResult
          case isTrue =>
            obtain ⟨later, isLater, rfl⟩ := Option.map_eq_some_iff.mp isResult
            intro entry member
            rcases List.mem_cons.mp member with rfl | member
            · exact Nat.le_refl _
            · exact Nat.le_of_succ_le (induction isLater entry member)
          case isFalse =>
            intro entry member
            exact Nat.le_of_succ_le (induction isResult entry member)

/-- Without ranges the loop does not end. -/
theorem lineNumbersLoop_no_ranges (fuel current : Nat) (text : Text)
    (lines : List Text) :
    lineNumbersLoop [] fuel current (text :: lines) = none := by
  induction fuel generalizing current with
  | zero => rfl
  | succ fuel induction =>
      rw [lineNumbersLoop, if_neg (by simp [covers])]
      exact induction (current + 1)

/-- From the line where the file goes on, the loop finds the numbers of the
requested lines. -/
theorem lineNumbersLoop_requested (ranges : List (Nat × Nat))
    (current : Nat) (rest : List Text) :
    lineNumbersLoop ranges rest.length current
        (((rest.zipIdx current).filter fun line => covers ranges line.2).map
          Prod.fst) =
      some (((rest.zipIdx current).filter fun line =>
        covers ranges line.2).map NumberedLine.entry) := by
  induction rest generalizing current with
  | nil => rfl
  | cons line rest induction =>
      have later := induction (current + 1)
      rw [List.zipIdx_cons, List.filter_cons, List.length_cons]
      by_cases covered : covers ranges current = true
      · rw [if_pos covered, List.map_cons, List.map_cons, lineNumbersLoop,
          if_pos covered, later]
        rfl
      · rw [if_neg covered]
        cases isRest : ((rest.zipIdx (current + 1)).filter fun line =>
            covers ranges line.2) with
        | nil => exact lineNumbersLoop_nil _ _ _
        | cons next more =>
            rw [isRest, List.map_cons] at later
            rw [List.map_cons, lineNumbersLoop, if_neg covered]
            exact later

theorem covers_eq_false {ranges : List (Nat × Nat)} {number first : Nat}
    (least : ∀ range ∈ ranges, first ≤ range.1) (before : number < first) :
    covers ranges number = false := by
  rw [covers, List.any_eq_false]
  intro range member
  have atLeast := least range member
  simp
  omega

/-- Nothing is requested before the least start. -/
theorem requested_from {ranges : List (Nat × Nat)} {first number : Nat}
    {lines : List Text} (upTo : number ≤ first)
    (least : ∀ range ∈ ranges, first ≤ range.1) :
    ((lines.zipIdx number).filter fun line => covers ranges line.2) =
      ((lines.drop (first - number)).zipIdx first).filter fun line =>
        covers ranges line.2 := by
  induction lines generalizing number with
  | nil => rw [List.drop_nil, List.zipIdx_nil, List.zipIdx_nil]
  | cons line lines induction =>
      by_cases isFirst : number = first
      · rw [isFirst, Nat.sub_self, List.drop_zero]
      · have before : number < first := Nat.lt_of_le_of_ne upTo isFirst
        have steps : first - number = (first - (number + 1)) + 1 := by omega
        rw [List.zipIdx_cons, List.filter_cons,
          if_neg (by simp [covers_eq_false least before]), steps,
          List.drop_succ_cons]
        exact induction before

/-- The lines of the ranges, numbered from the least start. -/
theorem lineNumbersLoop_least {ranges : List (Nat × Nat)} {first : Nat}
    (text : Text) (positive : 1 ≤ first)
    (least : ∀ range ∈ ranges, first ≤ range.1) :
    ∃ fuel, lineNumbersLoop ranges fuel first
        ((requestedLines ranges text).map Prod.fst) =
      some ((requestedLines ranges text).map NumberedLine.entry) := by
  have same : requestedLines ranges text =
      ((text.lines.drop (first - 1)).zipIdx first).filter fun line =>
        covers ranges line.2 := requested_from positive least
  rw [same]
  exact ⟨_, lineNumbersLoop_requested ranges first _⟩

/-! ## What the guest returns -/

theorem length_le_size_texts (lines : List Text) :
    lines.length ≤ Json.size (texts lines) := by
  rw [texts, Json.size_array]
  cases lines with
  | nil => exact Nat.zero_le _
  | cons line lines =>
      rw [List.map_cons, Json.size_separated_cons, List.length_cons]
      have counted : ∀ values : List Text, values.length ≤
          ((values.map Json.string).map fun next =>
            Json.size next + 1).sum := by
        intro values
        induction values with
        | nil => exact Nat.zero_le _
        | cons value values induction =>
            rw [List.length_cons, List.map_cons, List.map_cons, List.sum_cons]
            omega
      have enough := counted lines
      omega

/-- Lines that fit in one answer are all returned. -/
theorem fill_of_fits {maximum size : Nat} {items : List NumberedLine}
    (few : items.length ≤ maximum)
    (fits : linesFit size (items.map Prod.fst)) :
    fill (hasRoom maximum size) [] items = (items, []) := by
  have isLongest := fill_longest items
    (show pageFits maximum size [] from .inl rfl) pageFits_of_append
    hasRoom_iff
  have whole := fill_append (hasRoom maximum size) [] items
  rw [List.nil_append] at whole
  have same : (fill (hasRoom maximum size) [] items).1 = items := by
    apply List.IsPrefix.eq_of_length isLongest.isPrefix
    apply Nat.le_antisymm isLongest.isPrefix.length_le
    exact isLongest.longest items List.prefix_rfl (.inr ⟨few, fits⟩)
  have rest : (fill (hasRoom maximum size) [] items).2 = [] := by
    have lengths := congrArg List.length whole
    rw [List.length_append, same] at lengths
    exact List.length_eq_zero_iff.mp (by omega)
  exact Prod.ext same rest

/-- No line is returned when none fits alone. -/
theorem select_eq_nil_iff {maximum size : Nat} {items : List NumberedLine}
    (positive : 0 < maximum) :
    select (hasRoom maximum size) [] items = [] ↔
      ∀ line ∈ items, ¬linesFit size [line.1] := by
  rw [select_eq_self_iff]
  simp [hasRoom, positive]

theorem selectedLines_sorted {ranges : List (Nat × Nat)} {first : Nat}
    (text : Text) (nonempty : ranges ≠ [])
    (least : ∀ range ∈ ranges, first ≤ range.1) :
    selectedLines (ranges.insertionSort byRange) first (numberedLines text) =
      requestedLines ranges text := by
  have permuted := List.perm_insertionSort byRange ranges
  have full : (ranges.insertionSort byRange).isEmpty = false := by
    rw [List.isEmpty_eq_false_iff]
    intro none
    rw [none] at permuted
    exact nonempty permuted.symm.eq_nil
  rw [selectedLines, requestedLines]
  apply List.filter_congr
  intro line _
  have same : covers (ranges.insertionSort byRange) line.2 =
      covers ranges line.2 := permuted.any_eq
  rw [selects, full, if_neg (by decide), same]
  by_cases before : line.2 < first
  · rw [covers_eq_false least before, Bool.and_false]
  · rw [decide_eq_true (Nat.le_of_not_lt before), Bool.true_and]

/-! ## What the daemon accepts -/

/-- An answer with lines, with or without a line to go on from. -/
def textAnswer (lines : List Text) (size : Nat) (digest : Text)
    (nextOffset : Option Nat) (truncated : Bool) : FileResponse :=
  { lines := some lines
    size := some size
    digest := some digest
    nextOffset
    truncated := some truncated }

theorem responseBytes_textAnswer_le (lines : List Text) (size : Nat)
    (digest : Text) (nextOffset : Option Nat) (truncated : Bool) :
    responseBytes (textAnswer lines size digest nextOffset truncated) ≤
      (readCandidate size lines).encodedSize + 12 * digest.length +
        (nextOffset.map fun line =>
          Json.size (Json.natural line)).getD 0 + 64 := by
  have okName : Json.size (Json.string "ok".toList) = 4 := by decide
  have linesName : Json.size (Json.string "lines".toList) = 7 := by decide
  have nextName : Json.size (Json.string "nextOffset".toList) = 12 := by
    decide
  have sizeName : Json.size (Json.string "size".toList) = 6 := by decide
  have digestName : Json.size (Json.string "digest".toList) = 8 := by decide
  have truncatedName : Json.size (Json.string "truncated".toList) = 11 := by
    decide
  have isTrue : Json.size (Json.boolean true) = 4 := by decide
  have flag : Json.size (Json.boolean truncated) ≤ 5 := by
    cases truncated <;> decide
  have digits := Json.size_string_le digest
  rw [encodedSize_readCandidate]
  cases nextOffset with
  | none =>
      have fields : (textAnswer lines size digest none truncated).fields =
          [("lines", texts lines), ("size", Json.natural size),
            ("digest", Json.string digest),
            ("truncated", Json.boolean truncated)] := rfl
      rw [responseBytes, fields, Json.size_object]
      simp only [List.map_cons, List.map_nil, Json.size_separated_cons,
        Json.size_field, List.sum_cons, List.sum_nil, okName, linesName,
        sizeName, digestName, truncatedName, isTrue, Option.map_none,
        Option.getD_none]
      omega
  | some line =>
      have fields :
          (textAnswer lines size digest (some line) truncated).fields =
            [("lines", texts lines), ("nextOffset", Json.natural line),
              ("size", Json.natural size), ("digest", Json.string digest),
              ("truncated", Json.boolean truncated)] := rfl
      rw [responseBytes, fields, Json.size_object]
      simp only [List.map_cons, List.map_nil, Json.size_separated_cons,
        Json.size_field, List.sum_cons, List.sum_nil, okName, linesName,
        nextName, sizeName, digestName, truncatedName, isTrue,
        Option.map_some, Option.getD_some]
      omega

theorem isDigest_text {digest : Digest}
    (width : digest.hex.toList.length = 64) :
    isDigest digest.text.toList = true := by
  have parts : digest.text.toList =
      "sha256:".toList ++ digest.hex.toList := by
    rw [Digest.text, String.toList_append]
  have seven : "sha256:".toList.length = 7 := by decide
  rw [isDigest, parts, List.take_left' seven, List.drop_left' seven]
  simp only [width, decide_true, Bool.and_true, beq_self_eq_true,
    Bool.true_and]
  exact digest.isHex

theorem length_text {digest : Digest}
    (width : digest.hex.toList.length = 64) :
    digest.text.toList.length = 71 := by
  have seven : "sha256:".toList.length = 7 := by decide
  rw [Digest.text, String.toList_append, List.length_append, seven, width]

theorem guard_textAnswer {lines : List Text} {size : Nat} {digest : Digest}
    {nextOffset : Option Nat} {truncated : Bool}
    (fits : linesFit size lines) (width : digest.hex.toList.length = 64)
    (next : nextOffset = none ∨ nextOffset = some 1) :
    guardEncodedResponse
        (textAnswer lines size digest.text.toList nextOffset truncated)
          "file read" = .ok () := by
  have bound := responseBytes_textAnswer_le lines size digest.text.toList
    nextOffset truncated
  have one : Json.size (Json.natural 1) = 1 := by decide
  have small : (nextOffset.map fun line =>
      Json.size (Json.natural line)).getD 0 ≤ 1 := by
    rcases next with rfl | rfl
    · exact Nat.zero_le _
    · rw [Option.map_some, Option.getD_some, one]
  rw [length_text width] at bound
  rw [linesFit, maxReadResponseBytes] at fits
  rw [guardEncodedResponse, maxEncodedResponseBytes, if_neg]
  omega

theorem truthy_text {digest : Digest}
    (width : digest.hex.toList.length = 64) :
    truthy (some digest.text.toList) = some digest.text.toList := by
  have length := length_text width
  cases isText : digest.text.toList with
  | nil =>
      rw [isText] at length
      cases length
  | cons letter letters => rfl

theorem fileReadResult_textAnswer {path : Text} {lines : List Text}
    {size : Nat} {digest : Digest} {nextOffset : Option Nat}
    {truncated : Bool} (counted : size ≤ maxSafeInteger)
    (width : digest.hex.toList.length = 64)
    (next : nextOffset = none ∨ nextOffset = some 1) :
    fileReadResult path
        (textAnswer lines size digest.text.toList nextOffset truncated) =
      .ok
        { path
          lines := some lines
          entries := none
          isDirectory := false
          size := some size
          digest := some digest.text.toList
          nextOffset
          truncated
          nextCursor := none } := by
  have isSize : whenPresent (some size) (requireNumber · "file read") =
      .ok (some size) := by
    rw [whenPresent, requireNumber, if_pos counted]
    rfl
  have isDigest : whenPresent (truthy (some digest.text.toList))
      (requireDigest · "file read") = .ok (some digest.text.toList) := by
    rw [truthy_text width, whenPresent, requireDigest,
      if_pos (isDigest_text width)]
    rfl
  have isNext : whenPresent nextOffset (requireNumber · "file read") =
      .ok nextOffset := by
    rcases next with rfl | rfl
    · rfl
    · rw [whenPresent, requireNumber, if_pos (by decide)]
      rfl
  simp only [fileReadResult, textAnswer, Option.getD_none, Bool.false_and,
    Bool.not_false, Bool.true_and, Option.isNone_some, Bool.or_false,
    truthy_text width, isSize, isNext]
  rw [truthy_text width] at isDigest
  rw [isDigest]
  rfl

/-- An answer whose lines fit passes the checks of the daemon. -/
theorem read_textAnswer (path : Text) (truncated : Bool)
    {lines : List Text} {size : Nat} {digest : Digest}
    {nextOffset : Option Nat} (fits : linesFit size lines) (counted : size ≤ maxSafeInteger)
    (width : digest.hex.toList.length = 64)
    (next : nextOffset = none ∨ nextOffset = some 1) :
    AgentFileClient.read path
        (.ok (textAnswer lines size digest.text.toList nextOffset
          truncated)) =
      .ok
        { path
          lines := some lines
          entries := none
          isDirectory := false
          size := some size
          digest := some digest.text.toList
          nextOffset
          truncated
          nextCursor := none } := by
  rw [AgentFileClient.read, requireOk]
  dsimp only
  rw [guard_textAnswer fits width next]
  exact fileReadResult_textAnswer counted width next

/-- What the daemon hands on has the lines of the answer. -/
theorem lines_of_read {path : Text} {response : FileResponse}
    {result : FileReadResult}
    (isRead : AgentFileClient.read path (.ok response) = .ok result) :
    result.lines = response.lines ∧
      result.isDirectory = response.isDirectory.getD false := by
  rw [AgentFileClient.read, requireOk] at isRead
  dsimp only at isRead
  split at isRead
  case h_1 => cases isRead
  case h_2 =>
    rw [fileReadResult] at isRead
    split at isRead
    case isTrue => cases isRead
    case isFalse =>
      split at isRead
      case isTrue => cases isRead
      case isFalse =>
        cases isSize : whenPresent response.size
            (requireNumber · "file read") with
        | error =>
            rw [isSize] at isRead
            cases isRead
        | ok size =>
            cases isDigest : whenPresent (truthy response.digest)
                (requireDigest · "file read") with
            | error =>
                rw [isSize, isDigest] at isRead
                cases isRead
            | ok digest =>
                cases isNext : whenPresent response.nextOffset
                    (requireNumber · "file read") with
                | error =>
                    rw [isSize, isDigest, isNext] at isRead
                    cases isRead
                | ok next =>
                    rw [isSize, isDigest, isNext] at isRead
                    cases isRead
                    exact ⟨rfl, rfl⟩

/-! ## The tool -/

/-- A text file of the workspace whose requested lines fit in one answer.  The
size is a number that JavaScript represents, and digests have 64 digits. -/
structure RangeRead (service : FileService) (path : Text)
    (ranges : List (Nat × Nat)) (text : Text) : Prop where
  isPath : validateRelative path true = .ok ()
  opened : service.openExisting path =
    .ok (.file (Utf8.encode text).length (Utf8.encode text))
  upward : ∀ range ∈ ranges, 1 ≤ range.1 ∧ range.1 ≤ range.2
  counted : (Utf8.encode text).length ≤ maxSafeInteger
  width : ∀ bytes, (service.sha256 bytes).hex.toList.length = 64
  fits : linesFit (Utf8.encode text).length
    ((requestedLines ranges text).map Prod.fst)

/-- The tool has a result, and it holds the requested lines of the file, each
once and under its number. -/
def ReadsRanges (service : FileService) (cursorLine : Text → Option Nat)
    (path : Text) (ranges : List (Nat × Nat)) (text : Text) : Prop :=
  ∃ fuel result,
    readWorkspaceText service cursorLine fuel path
        { path, ranges := some ranges } = .ok (some result) ∧
      result.content =
        .lines ((requestedLines ranges text).map NumberedLine.entry)

section Served

variable {service : FileService} {cursorLine : Text → Option Nat}
  {path : Text} {ranges : List (Nat × Nat)} {text : Text}

/-- The first line that the guest looks at. -/
def leastStart (ranges : List (Nat × Nat)) : Nat :=
  firstLine (ranges.insertionSort byRange) none none

theorem leastStart_le (nonempty : ranges ≠ []) :
    (∃ range ∈ ranges, leastStart ranges = range.1) ∧
      ∀ range ∈ ranges, leastStart ranges ≤ range.1 := by
  have permuted := List.perm_insertionSort byRange ranges
  have sorted := List.pairwise_insertionSort byRange ranges
  rw [leastStart, firstLine]
  cases isSorted : ranges.insertionSort byRange with
  | nil =>
      rw [isSorted] at permuted
      exact (nonempty permuted.symm.eq_nil).elim
  | cons head rest =>
      rw [isSorted] at permuted sorted
      obtain ⟨least, -⟩ := List.pairwise_cons.mp sorted
      refine ⟨⟨head, permuted.mem_iff.mp List.mem_cons_self, rfl⟩, ?_⟩
      intro range member
      change head.1 ≤ range.1
      rcases List.mem_cons.mp (permuted.mem_iff.mpr member) with rfl | later
      · exact Nat.le_refl _
      · have before := least range later
        unfold byRange at before
        omega

theorem RangeRead.readable (rangeRead : RangeRead service path ranges text) :
    Readable service { path, ranges := some ranges } text
      (leastStart ranges) := by
  refine
    { path := rangeRead.isPath
      apart := .inr ⟨rfl, rfl⟩
      opened := rangeRead.opened
      ranges := rangeRead.upward
      limit := by simp
      start := ⟨none, rfl, rfl⟩
      positive := ?_ }
  by_cases nonempty : ranges = []
  · subst nonempty
    decide
  · obtain ⟨range, member, isLeast⟩ := (leastStart_le nonempty).1
    rw [isLeast]
    exact (rangeRead.upward range member).1

theorem sorted_ne_nil (nonempty : ranges ≠ []) :
    (ranges.insertionSort byRange).isEmpty = false := by
  have permuted := List.perm_insertionSort byRange ranges
  rw [List.isEmpty_eq_false_iff]
  intro none
  rw [none] at permuted
  exact nonempty permuted.symm.eq_nil

theorem maximum_of_ranges (nonempty : ranges ≠ []) :
    ReadRequest.maximum { path, ranges := some ranges } = usizeMax := by
  have full := sorted_ne_nil nonempty
  rw [ReadRequest.maximum, maximumLines]
  change (if (ranges.insertionSort byRange).isEmpty = true then _ else _) = _
  rw [full, if_neg (by decide)]

/-- With ranges, the guest returns the requested lines. -/
theorem RangeRead.answer (rangeRead : RangeRead service path ranges text)
    (nonempty : ranges ≠ []) :
    service.fileRead { path, ranges := some ranges } =
      .ok (textAnswer ((requestedLines ranges text).map Prod.fst)
        (Utf8.encode text).length
        (service.sha256 (Utf8.encode text)).text.toList none false) := by
  have few : (requestedLines ranges text).length ≤ usizeMax := by
    have fits := rangeRead.fits
    have lengths := length_le_size_texts
      ((requestedLines ranges text).map Prod.fst)
    rw [linesFit, encodedSize_readCandidate, maxReadResponseBytes] at fits
    rw [List.length_map] at lengths
    unfold usizeMax
    omega
  have filled := fill_of_fits few rangeRead.fits
  have noGap : NoGap (hasRoom usizeMax (Utf8.encode text).length)
      (requestedLines ranges text) := noGap_of_stops (by rw [filled])
  have selected := noGap_iff_select_eq_fill.mp noGap
  rw [filled] at selected
  have lines : selectedLines
      (ReadRequest.sortedRanges { path, ranges := some ranges })
        (leastStart ranges) (numberedLines text) =
      requestedLines ranges text :=
    selectedLines_sorted text nonempty (leastStart_le nonempty).2
  have full : (ReadRequest.sortedRanges
      { path, ranges := some ranges }).isEmpty = false :=
    sorted_ne_nil nonempty
  rw [fileRead_eq rangeRead.readable, lines, readAnswer,
    maximum_of_ranges nonempty, nextLine, filled, selected, full]
  rfl

/-- The daemon numbers the lines from the start of the first range. -/
theorem RangeRead.readWorkspaceText
    (rangeRead : RangeRead service path ranges text) (fuel first last : Nat)
    (rest : List (Nat × Nat)) (isRanges : ranges = (first, last) :: rest) :
    readWorkspaceText service cursorLine fuel path
        { path, ranges := some ranges } =
      .ok ((lineNumbersLoop ranges fuel first
        ((requestedLines ranges text).map Prod.fst)).map fun lines =>
          { path
            size := some (Utf8.encode text).length
            digest :=
              some (service.sha256 (Utf8.encode text)).text.toList
            truncated := false
            mediaType := some "text/plain"
            nextOffset := none
            nextCursor := none
            content := .lines lines }) := by
  have nonempty : ranges ≠ [] := by simp [isRanges]
  have accepted := read_textAnswer path false rangeRead.fits
    rangeRead.counted (rangeRead.width (Utf8.encode text)) (.inl rfl)
  have answered := rangeRead.answer nonempty
  subst isRanges
  change (AgentFileClient.read path (service.fileRead
    { path, ranges := some ((first, last) :: rest) }) >>= _) = _
  rw [answered, accepted]
  rfl

/-- The line with a number is in the file. -/
theorem mem_requestedLines {number : Nat} (positive : 1 ≤ number)
    (inside : number ≤ text.lines.length)
    (covered : covers ranges number = true) :
    ∃ line, (line, number) ∈ requestedLines ranges text := by
  have isLine : text.lines[number - 1]? = some (text.lines[number - 1]) :=
    List.getElem?_eq_getElem (by omega)
  exact ⟨_, List.mem_filter.mpr
    ⟨List.mem_zipIdx_iff_le_and_getElem?_sub.mpr ⟨positive, isLine⟩,
      covered⟩⟩

theorem requestedLines_eq_nil
    (beyond : ∀ range ∈ ranges, text.lines.length < range.1) :
    requestedLines ranges text = [] := by
  rw [requestedLines, List.filter_eq_nil_iff]
  intro line member covered
  rw [numberedLines, List.mem_zipIdx_iff_le_and_getElem?_sub] at member
  obtain ⟨inside, -⟩ := List.getElem?_eq_some_iff.mp member.2
  obtain ⟨range, isRange, covers'⟩ := List.any_eq_true.mp covered
  have after := beyond range isRange
  have from' := (of_decide_eq_true covers').1
  omega

theorem readsRanges_iff_of_ranges
    (rangeRead : RangeRead service path ranges text) (first last : Nat)
    (rest : List (Nat × Nat)) (isRanges : ranges = (first, last) :: rest) :
    ReadsRanges service cursorLine path ranges text ↔
      (∀ range ∈ ranges, text.lines.length < range.1) ∨
        ∀ range ∈ ranges, first ≤ range.1 := by
  have positive : 1 ≤ first :=
    (rangeRead.upward (first, last) (by simp [isRanges])).1
  constructor
  · rintro ⟨fuel, result, isRead, isContent⟩
    by_contra neither
    push Not at neither
    obtain ⟨⟨reached, isReached, reaches⟩, earlier, isEarlier, before⟩ :=
      neither
    -- Some line before the first range exists and is requested.
    have requested : ∃ range ∈ ranges,
        range.1 < first ∧ range.1 ≤ text.lines.length := by
      by_cases inside : earlier.1 ≤ text.lines.length
      · exact ⟨earlier, isEarlier, before, inside⟩
      · exact ⟨reached, isReached, by omega, reaches⟩
    obtain ⟨range, member, isBefore, inside⟩ := requested
    obtain ⟨fromOne, upward⟩ := rangeRead.upward range member
    have covered : covers ranges range.1 = true := by
      rw [covers, List.any_eq_true]
      exact ⟨range, member, decide_eq_true ⟨Nat.le_refl _, upward⟩⟩
    obtain ⟨line, isRequested⟩ :=
      mem_requestedLines fromOne inside covered
    rw [rangeRead.readWorkspaceText fuel first last rest isRanges] at isRead
    obtain ⟨entries, isEntries, isResult⟩ :=
      Option.map_eq_some_iff.mp (Except.ok.inj isRead)
    rw [← isResult] at isContent
    have same : entries = (requestedLines ranges text).map
        NumberedLine.entry := by
      injection isContent
    have numbered := le_of_mem_lineNumbersLoop isEntries
      (NumberedLine.entry (line, range.1)) (by
        rw [same]
        exact List.mem_map_of_mem isRequested)
    change first ≤ range.1 at numbered
    omega
  · intro either
    have found : ∃ fuel, lineNumbersLoop ranges fuel first
        ((requestedLines ranges text).map Prod.fst) =
          some ((requestedLines ranges text).map NumberedLine.entry) := by
      rcases either with beyond | least
      · rw [requestedLines_eq_nil beyond]
        exact ⟨0, rfl⟩
      · exact lineNumbersLoop_least text positive least
    obtain ⟨fuel, isFound⟩ := found
    have isRead := @RangeRead.readWorkspaceText service cursorLine path ranges
      text rangeRead fuel first last rest isRanges
    rw [isFound] at isRead
    exact ⟨fuel, _, isRead, rfl⟩

/-! ### No ranges -/

theorem selectedLines_all :
    selectedLines [] 1 (numberedLines text) = numberedLines text := by
  rw [selectedLines, List.filter_eq_self]
  intro line member
  rw [numberedLines, List.mem_zipIdx_iff_le_and_getElem?_sub] at member
  simp [selects, member.1]

/-- With an empty list the guest reads the file from its beginning. -/
theorem RangeRead.answer_empty (rangeRead : RangeRead service path [] text) :
    service.fileRead { path, ranges := some [] } =
      .ok (textAnswer
        ((select (hasRoom 200 (Utf8.encode text).length) []
          (numberedLines text)).map Prod.fst)
        (Utf8.encode text).length
        (service.sha256 (Utf8.encode text)).text.toList
        (nextLine 200 (Utf8.encode text).length (numberedLines text))
        (nextLine 200 (Utf8.encode text).length
          (numberedLines text)).isSome) := by
  have lines : selectedLines
      (ReadRequest.sortedRanges { path, ranges := some [] })
        (leastStart []) (numberedLines text) = numberedLines text :=
    selectedLines_all
  rw [fileRead_eq rangeRead.readable, lines]
  rfl

theorem nextLine_of_none_fit {size : Nat}
    (none : ∀ line ∈ numberedLines text, ¬linesFit size [line.1]) :
    nextLine 200 size (numberedLines text) = Option.none ∨
      nextLine 200 size (numberedLines text) = some 1 := by
  rw [nextLine]
  cases isLines : text.lines with
  | nil =>
      left
      rw [numberedLines, isLines]
      rfl
  | cons line rest =>
      right
      have first : numberedLines text = (line, 1) :: rest.zipIdx 2 := by
        rw [numberedLines, isLines]
        rfl
      have refused : hasRoom 200 size [] (line, 1) ≠ true := by
        have large := none (line, 1) (by simp [first])
        simp [hasRoom, large]
      rw [first, fill, if_neg refused]
      rfl

/-- The daemon does not end when the guest returns lines for no ranges. -/
theorem workspaceReadResult_no_ranges (cursorLine : Text → Option Nat)
    (path : Text) (fuel : Nat) {result : FileReadResult} {line : Text}
    {lines : List Text} (isText : result.isDirectory = false)
    (isLines : result.lines = some (line :: lines)) :
    workspaceReadResult cursorLine fuel path result
      { path, ranges := some [] } = none := by
  rw [workspaceReadResult, isText, if_neg (by decide), isLines]
  change (lineNumbersLoop [] fuel _ (line :: lines)).map _ = none
  rw [lineNumbersLoop_no_ranges]
  rfl

theorem readsRanges_iff_of_empty
    (rangeRead : RangeRead service path [] text) :
    ReadsRanges service cursorLine path [] text ↔
      ∀ line ∈ text.lines, ¬linesFit (Utf8.encode text).length [line] := by
  have alone : (∀ line ∈ text.lines,
      ¬linesFit (Utf8.encode text).length [line]) ↔
        ∀ line ∈ numberedLines text,
          ¬linesFit (Utf8.encode text).length [line.1] := by
    have lines : text.lines = (numberedLines text).map Prod.fst := by
      rw [numberedLines, List.zipIdx_map_fst]
    rw [lines, List.forall_mem_map]
  rw [alone]
  have nothing : requestedLines [] text = [] := by
    rw [requestedLines, List.filter_eq_nil_iff]
    simp [covers]
  have answered := rangeRead.answer_empty
  constructor
  · rintro ⟨fuel, result, isRead, -⟩
    rw [← select_eq_nil_iff (show 0 < 200 by decide)]
    by_contra returned
    obtain ⟨line, rest, isReturned⟩ := List.exists_cons_of_ne_nil returned
    rw [isReturned] at answered
    change (AgentFileClient.read path (service.fileRead
      { path, ranges := some [] }) >>= _) = _ at isRead
    rw [answered] at isRead
    cases accepted : AgentFileClient.read path
        (.ok (textAnswer ((line :: rest).map Prod.fst)
          (Utf8.encode text).length
          (service.sha256 (Utf8.encode text)).text.toList
          (nextLine 200 (Utf8.encode text).length (numberedLines text))
          (nextLine 200 (Utf8.encode text).length
            (numberedLines text)).isSome)) with
    | error =>
        rw [accepted] at isRead
        cases isRead
    | ok handed =>
        rw [accepted] at isRead
        obtain ⟨isLines, isText⟩ := lines_of_read accepted
        have stuck := workspaceReadResult_no_ranges cursorLine path fuel
          isText isLines
        change Except.ok (workspaceReadResult cursorLine fuel path handed
          { path, ranges := some [] }) = _ at isRead
        rw [stuck] at isRead
        cases isRead
  · intro none
    have returned := (select_eq_nil_iff (show 0 < 200 by decide)).mpr none
    have fits := rangeRead.fits
    rw [nothing] at fits
    rw [returned] at answered
    have accepted := read_textAnswer path
      (nextLine 200 (Utf8.encode text).length (numberedLines text)).isSome
      fits rangeRead.counted (rangeRead.width (Utf8.encode text))
      (nextLine_of_none_fit none)
    rw [List.map_nil] at accepted answered
    refine ⟨0, ?_, ?_, ?_⟩
    rotate_left
    · change (AgentFileClient.read path (service.fileRead
        { path, ranges := some [] }) >>= _) = _
      rw [answered, accepted]
      rfl
    · rw [nothing]
      rfl

/-- When the numbers are right: with an empty list, if no line of the file
fits in an answer; otherwise, if the file ends before every range or the first
range of the list begins first. -/
def Numbered (ranges : List (Nat × Nat)) (text : Text) : Prop :=
  match ranges with
  | [] => ∀ line ∈ text.lines, ¬linesFit (Utf8.encode text).length [line]
  | range :: rest =>
      (∀ other ∈ range :: rest, text.lines.length < other.1) ∨
        ∀ other ∈ range :: rest, range.1 ≤ other.1

/-- The tool returns the requested lines under their numbers exactly then. -/
theorem readsRanges_iff (rangeRead : RangeRead service path ranges text) :
    ReadsRanges service cursorLine path ranges text ↔
      Numbered ranges text := by
  cases ranges with
  | nil => exact readsRanges_iff_of_empty rangeRead
  | cons range rest =>
      exact readsRanges_iff_of_ranges rangeRead range.1 range.2 rest rfl

end Served

private def pairText : Text := ['a', newline, 'c', newline]

private def pairDigest : Digest where
  hex := "b72cf6d7918130f75347ff0f8b6e9fde004ee6d7fc26af90a349707207f72750"
  isHex := by decide

private def pairFile : FileService where
  openExisting path :=
    if path = ['f'] then
      .ok (.file (Utf8.encode pairText).length (Utf8.encode pairText))
    else .error (.coded "FILE_NOT_FOUND" "Open workspace path")
  sha256 _ := pairDigest
  readCursor := ReadCursor.reader
  directoryCursor := DirectoryCursor.reader

private theorem pairFile_read {ranges : List (Nat × Nat)}
    (upward : ∀ range ∈ ranges, 1 ≤ range.1 ∧ range.1 ≤ range.2)
    (fits : linesFit (Utf8.encode pairText).length
      ((requestedLines ranges pairText).map Prod.fst)) :
    RangeRead pairFile ['f'] ranges pairText :=
  { isPath := by decide
    opened := rfl
    upward
    counted := by decide
    width := by
      intro _
      change pairDigest.hex.toList.length = 64
      decide
    fits }

/-- The first and the second line of a file of two lines. -/
theorem readsRanges_iff_in_order :
    ReadsRanges pairFile (fun _ => none) ['f'] [(1, 1), (2, 2)] pairText ↔
      Numbered [(1, 1), (2, 2)] pairText :=
  readsRanges_iff (pairFile_read (by decide) (by decide))

/-- The same lines asked for in the other order are not numbered, and no
result is found for the empty list. -/
theorem ranges_not_numbered :
    RangeRead pairFile ['f'] [(2, 2), (1, 1)] pairText ∧
      ¬ReadsRanges pairFile (fun _ => none) ['f'] [(2, 2), (1, 1)]
        pairText ∧
      RangeRead pairFile ['f'] [] pairText ∧
      ¬ReadsRanges pairFile (fun _ => none) ['f'] [] pairText := by
  have swapped : RangeRead pairFile ['f'] [(2, 2), (1, 1)] pairText :=
    pairFile_read (by decide) (by decide)
  have empty : RangeRead pairFile ['f'] [] pairText :=
    pairFile_read (by decide) (by decide)
  refine ⟨swapped, ?_, empty, ?_⟩
  · rw [readsRanges_iff_of_ranges swapped 2 2 [(1, 1)] rfl]
    decide
  · rw [readsRanges_iff_of_empty empty]
    decide

end Electrosphere
