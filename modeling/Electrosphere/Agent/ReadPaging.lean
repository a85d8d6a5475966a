import Electrosphere.Agent.FileRead
import Electrosphere.Foundation.Paging

/-!
# Reading a text page by page

`file_read` passes over a line that its answer has no room for and goes on
with later lines.  It returns the longest prefix of the selected lines, and
reading on returns every line once, exactly when no later line has room.
-/

namespace Electrosphere.Agent

open Foundation Foundation.Paging

/-- A line and its number. -/
abbrev NumberedLine := Text × Nat

def numberedLines (text : Text) : List NumberedLine := text.lines.zipIdx 1

/-- The selected lines from the first one on. -/
def selectedLines (ranges : List (Nat × Nat)) (first : Nat)
    (lines : List NumberedLine) : List NumberedLine :=
  lines.filter fun line =>
    decide (first ≤ line.2) && selects ranges line.2

def linesFit (size : Nat) (lines : List Text) : Prop :=
  (readCandidate size lines).encodedSize ≤ maxReadResponseBytes

instance decidableLinesFit (size : Nat) (lines : List Text) :
    Decidable (linesFit size lines) :=
  inferInstanceAs
    (Decidable ((readCandidate size lines).encodedSize ≤ maxReadResponseBytes))

/-- The limits of one answer. -/
def pageFits (maximum size : Nat) (page : List NumberedLine) : Prop :=
  page = [] ∨ page.length ≤ maximum ∧ linesFit size (page.map Prod.fst)

/-- Whether an answer has room for one more line. -/
def hasRoom (maximum size : Nat) (page : List NumberedLine)
    (line : NumberedLine) : Bool :=
  decide (page.length < maximum) &&
    decide (linesFit size (page.map Prod.fst ++ [line.1]))

/-! ## The size of an answer -/

theorem encodedSize_readCandidate (size : Nat) (lines : List Text) :
    (readCandidate size lines).encodedSize =
      Json.size (texts lines) + Json.size (Json.natural size) + 36 := by
  have fields : (readCandidate size lines).fields =
      [("lines", texts lines), ("size", Json.natural size),
        ("truncated", Json.boolean false)] := rfl
  have linesName : Json.size (Json.string "lines".toList) = 7 := by decide
  have sizeName : Json.size (Json.string "size".toList) = 6 := by decide
  have truncatedName : Json.size (Json.string "truncated".toList) = 11 := by
    decide
  have isFalse : Json.size (Json.boolean false) = 5 := by decide
  rw [FileResponse.encodedSize, fields, Json.size_object]
  simp only [List.map_cons, List.map_nil, Json.size_separated_cons,
    Json.size_field, List.sum_cons, List.sum_nil, linesName, sizeName,
    truncatedName, isFalse]
  omega

theorem linesFit_of_append {size : Nat} {lines more : List Text}
    (fits : linesFit size (lines ++ more)) : linesFit size lines := by
  unfold linesFit at fits ⊢
  rw [encodedSize_readCandidate] at fits ⊢
  have less := Json.size_array_append (lines.map Json.string)
    (more.map Json.string)
  rw [← List.map_append] at less
  change Json.size (texts lines) ≤ Json.size (texts (lines ++ more)) at less
  omega

/-! ## One answer -/

theorem readLines_eq (ranges : List (Nat × Nat)) (first maximum size number : Nat)
    (page : List NumberedLine) (nextLine : Option Nat) (lines : List Text) :
    readLines ranges first maximum size number (page.map Prod.fst) nextLine
        (lines.map Utf8.encode) =
      .ok
        ((select (hasRoom maximum size) page
            (selectedLines ranges first (lines.zipIdx (number + 1)))).map
          Prod.fst,
        nextLine.or
          ((fill (hasRoom maximum size) page
            (selectedLines ranges first (lines.zipIdx (number + 1)))).2.head?.map
              Prod.snd)) := by
  induction lines generalizing number page nextLine with
  | nil =>
      rw [List.map_nil, readLines, selectedLines, List.zipIdx_nil,
        List.filter_nil, select, fill, List.head?_nil, Option.map_none,
        Option.or_none]
  | cons line lines induction =>
      rw [List.map_cons, readLines, List.zipIdx_cons, selectedLines,
        List.filter_cons]
      by_cases before : number + 1 < first
      · rw [if_pos before, induction, if_neg (by simp; omega)]
        rfl
      by_cases selected : selects ranges (number + 1) = false
      · rw [if_neg before, if_pos selected, induction,
          if_neg (by simp [selected])]
        rfl
      have taken : (decide (first ≤ number + 1) &&
          selects ranges (number + 1)) = true := by
        rw [Bool.not_eq_false] at selected
        rw [selected, Bool.and_true]
        exact decide_eq_true (Nat.le_of_not_lt before)
      rw [if_neg before, if_neg selected, if_pos taken, select, fill]
      have sameLines : page.map Prod.fst ++ [line] =
          (page ++ [(line, number + 1)]).map Prod.fst := by simp
      by_cases room : hasRoom maximum size page (line, number + 1) = true
      · have isRoom := room
        simp only [hasRoom, Bool.and_eq_true, decide_eq_true_eq] at isRoom
        rw [List.length_map, if_neg (by omega), fromUtf8_encode]
        dsimp only
        rw [if_neg (Nat.not_lt_of_le isRoom.2), sameLines, induction,
          if_pos room, if_pos room]
        rfl
      · have passedOver : ∀ next : Option Nat,
            (nextLine.or (some (number + 1))).or next =
              nextLine.or (some (number + 1)) := by
          intro next
          cases nextLine <;> rfl
        rw [if_neg room, if_neg room, List.length_map]
        by_cases full : maximum ≤ page.length
        · rw [if_pos full, induction, passedOver]
          rfl
        · have large : ¬linesFit size (page.map Prod.fst ++ [line]) := by
            intro fits
            apply room
            simp only [hasRoom, Bool.and_eq_true, decide_eq_true_eq]
            exact ⟨by omega, fits⟩
          rw [if_neg full, fromUtf8_encode]
          dsimp only
          rw [if_pos (Nat.lt_of_not_le large), induction, passedOver]
          rfl

/-! ## Requests -/

namespace ReadRequest

def sortedRanges (request : ReadRequest) : List (Nat × Nat) :=
  (request.ranges.getD []).insertionSort byRange

def maximum (request : ReadRequest) : Nat :=
  maximumLines request.sortedRanges request.limit

/-- The request for what an answer names as its continuation. -/
def follow (request : ReadRequest) (response : FileResponse) :
    Option ReadRequest :=
  match response.nextOffset, response.nextCursor with
  | some line, _ =>
      some { request with ranges := none, offset := some line, cursor := none }
  | none, some cursor => some { request with cursor := some cursor }
  | none, none => none

end ReadRequest

/-- The request is valid and reads this text from the line `first` on. -/
structure Readable (service : FileService) (request : ReadRequest)
    (text : Text) (first : Nat) : Prop where
  path : validateRelative request.path true = .ok ()
  apart : request.ranges = none ∨
    request.offset = none ∧ request.limit = none
  opened : service.openExisting request.path =
    .ok (.file (Utf8.encode text).length (Utf8.encode text))
  ranges : ∀ range ∈ request.ranges.getD [], 1 ≤ range.1 ∧ range.1 ≤ range.2
  limit : request.limit ≠ some 0
  start : ∃ cursor,
    request.cursor.mapM service.readCursor.decodeCursor = .ok cursor ∧
      firstLine request.sortedRanges request.offset
        (cursor.map ReadCursor.nextLine) = first
  positive : 0 < first

/-- The first selected line that the longest prefix leaves out. -/
def nextLine (maximum size : Nat) (items : List NumberedLine) : Option Nat :=
  (fill (hasRoom maximum size) [] items).2.head?.map Prod.snd

def readAnswer (service : FileService) (request : ReadRequest) (text : Text)
    (items : List NumberedLine) : FileResponse :=
  let bytes := Utf8.encode text
  let next := nextLine request.maximum bytes.length items
  { lines := some
      ((select (hasRoom request.maximum bytes.length) [] items).map Prod.fst)
    size := some bytes.length
    digest := some (service.sha256 bytes).text.toList
    nextOffset := if request.sortedRanges.isEmpty then next else none
    truncated := some next.isSome
    nextCursor :=
      if request.sortedRanges.isEmpty then none
      else
        next.map fun value =>
          encodeCursor (ReadCursor.encode { nextLine := value }) }

theorem maximum_ne_zero {request : ReadRequest}
    (limit : request.limit ≠ some 0) : request.maximum ≠ 0 := by
  unfold ReadRequest.maximum maximumLines
  split
  case isTrue =>
    cases isLimit : request.limit with
    | none => simp
    | some limit' =>
        intro isZero
        rw [isLimit] at limit
        exact limit (congrArg some isZero)
  case isFalse => decide

theorem fileRead_eq {service : FileService} {request : ReadRequest}
    {text : Text} {first : Nat} (readable : Readable service request text first) :
    service.fileRead request =
      .ok (readAnswer service request text
        (selectedLines request.sortedRanges first (numberedLines text))) := by
  obtain ⟨path, apart, opened, ranges, limit, ⟨cursor, decoded, start⟩,
    positive⟩ := readable
  have combined : (request.ranges.isSome &&
      (request.offset.isSome || request.limit.isSome)) = false := by
    rcases apart with none | ⟨noOffset, noLimit⟩
    · rw [none]
      rfl
    · rw [noOffset, noLimit]
      exact Bool.and_false _
  have valid : ((request.ranges.getD []).any fun range =>
      decide (range.1 = 0) || decide (range.2 < range.1)) = false := by
    rw [List.any_eq_false]
    intro range member
    obtain ⟨fromOne, upward⟩ := ranges range member
    simp
    omega
  have lines := readLines_eq request.sortedRanges first request.maximum
    (Utf8.encode text).length 0 [] none text.lines
  rw [← byteLines_encode, List.map_nil] at lines
  rw [FileService.fileRead, path]
  change (if _ then _ else _) = _
  rw [if_neg (by simp [combined]), opened]
  change service.readText _ _ _ = _
  rw [FileService.readText]
  dsimp only
  rw [if_neg (by simp [valid]), decoded]
  change (if firstLine request.sortedRanges _ _ = 0 then _
    else if request.maximum = 0 then _ else _) = _
  rw [start, if_neg (Nat.ne_of_gt positive), if_neg (maximum_ne_zero limit)]
  change (readLines request.sortedRanges
    (firstLine request.sortedRanges request.offset
      (cursor.map ReadCursor.nextLine)) request.maximum _ 0 [] none _ >>=
        _) = _
  rw [start, lines]
  change (if _ ≠ _ then _ else _) = _
  rw [if_neg (by simp)]
  rfl

/-! ## The next request -/

theorem numberedLines_ascending (text : Text) :
    (numberedLines text).Pairwise fun earlier later => earlier.2 < later.2 := by
  have numbers : ((numberedLines text).map Prod.snd).Pairwise (· < ·) := by
    rw [numberedLines, List.zipIdx_map_snd]
    exact List.pairwise_lt_range'
  exact List.pairwise_map.mp numbers

/-- What is chosen from the first line left out on. -/
theorem chosen_from {chosen : Nat → Bool} {first : Nat} {text : Text}
    {taken later : List NumberedLine} {line : NumberedLine}
    (isChosen : ((numberedLines text).filter fun line =>
        decide (first ≤ line.2) && chosen line.2) = taken ++ line :: later) :
    first ≤ line.2 ∧
      ((numberedLines text).filter fun other =>
        decide (line.2 ≤ other.2) && chosen other.2) = line :: later := by
  have ascending := (numberedLines_ascending text).sublist
    (List.filter_sublist (p := fun line =>
      decide (first ≤ line.2) && chosen line.2))
  have from' : first ≤ line.2 := by
    have member : line ∈ (numberedLines text).filter fun line =>
        decide (first ≤ line.2) && chosen line.2 := by
      rw [isChosen]
      simp
    have selected := (List.mem_filter.mp member).2
    rw [Bool.and_eq_true, decide_eq_true_eq] at selected
    exact selected.1
  refine ⟨from', ?_⟩
  have narrower : ((numberedLines text).filter fun other =>
        decide (line.2 ≤ other.2) && chosen other.2) =
      ((numberedLines text).filter fun other =>
        decide (first ≤ other.2) && chosen other.2).filter
          fun other => decide (line.2 ≤ other.2) := by
    rw [List.filter_filter]
    apply List.filter_congr
    intro other _
    by_cases inside : line.2 ≤ other.2
    · have upTo : first ≤ other.2 := Nat.le_trans from' inside
      simp [inside, upTo]
    · simp [inside]
  rw [isChosen] at ascending
  obtain ⟨_, rest, across⟩ := List.pairwise_append.mp ascending
  have before : taken.filter (fun other => decide (line.2 ≤ other.2)) = [] := by
    rw [List.filter_eq_nil_iff]
    intro other member isLater
    have less := across other member line List.mem_cons_self
    have atLeast := of_decide_eq_true isLater
    omega
  have after : (line :: later).filter (fun other => decide (line.2 ≤ other.2)) =
      line :: later := by
    rw [List.filter_eq_self]
    intro other member
    apply decide_eq_true
    rcases List.mem_cons.mp member with rfl | member
    · exact Nat.le_refl _
    · exact Nat.le_of_lt ((List.pairwise_cons.mp rest).1 other member)
  rw [narrower, isChosen, List.filter_append, before, after,
    List.nil_append]

/-- What is selected from the first line left out on. -/
theorem selectedLines_from {ranges : List (Nat × Nat)} {first : Nat}
    {text : Text} {taken later : List NumberedLine} {line : NumberedLine}
    (isSelected : selectedLines ranges first (numberedLines text) =
      taken ++ line :: later) :
    first ≤ line.2 ∧
      selectedLines ranges line.2 (numberedLines text) = line :: later :=
  chosen_from isSelected

theorem sortedRanges_eq_nil {request : ReadRequest}
    (isEmpty : request.sortedRanges.isEmpty = true) :
    request.ranges.getD [] = [] := by
  have none := List.isEmpty_iff.mp isEmpty
  have same := (List.perm_insertionSort byRange (request.ranges.getD [])).length_eq
  change request.sortedRanges.length = _ at same
  rw [none] at same
  exact List.length_eq_zero_iff.mp same.symm

/-- Following an answer reads on from the line that it names. -/
theorem Readable.follow {service : FileService} {request : ReadRequest}
    {text : Text} {first line : Nat} {items : List NumberedLine}
    (readable : Readable service request text first)
    (isNext : nextLine request.maximum (Utf8.encode text).length items =
      some line) (positive : 0 < line) :
    ∃ next, request.follow (readAnswer service request text items) =
        some next ∧
      Readable service next text line ∧
      next.sortedRanges = request.sortedRanges ∧
      next.maximum = request.maximum := by
  by_cases isEmpty : request.sortedRanges.isEmpty = true
  · have noRanges := sortedRanges_eq_nil isEmpty
    have sorted : request.sortedRanges = [] := List.isEmpty_iff.mp isEmpty
    refine ⟨{ request with ranges := none, offset := some line,
                           cursor := none }, ?_, ?_, ?_, ?_⟩
    · rw [ReadRequest.follow, readAnswer]
      dsimp only
      rw [isNext, if_pos isEmpty, if_pos isEmpty]
    · exact
        { path := readable.path
          apart := .inl rfl
          opened := readable.opened
          ranges := by simp
          limit := readable.limit
          start := ⟨none, rfl, rfl⟩
          positive }
    · exact sorted.symm
    · rw [ReadRequest.maximum, ReadRequest.maximum, sorted]
      rfl
  · refine ⟨{ request with cursor := some (encodeCursor
        (ReadCursor.encode { nextLine := line })) }, ?_, ?_, rfl, rfl⟩
    · rw [ReadRequest.follow, readAnswer]
      dsimp only
      rw [isNext, if_neg isEmpty, if_neg isEmpty]
      rfl
    · exact
        { path := readable.path
          apart := readable.apart
          opened := readable.opened
          ranges := readable.ranges
          limit := readable.limit
          start := by
            refine ⟨some { nextLine := line }, ?_, rfl⟩
            change (service.readCursor.decodeCursor _ >>= _) = _
            rw [CursorReader.decodeCursor_encode]
            rfl
          positive }

theorem follow_eq_none {service : FileService} {request : ReadRequest}
    {text : Text} {items : List NumberedLine}
    (isLast : nextLine request.maximum (Utf8.encode text).length items =
      none) :
    request.follow (readAnswer service request text items) = none := by
  rw [ReadRequest.follow, readAnswer]
  dsimp only
  rw [isLast]
  split <;> simp_all

/-! ## Page after page -/

/-- The answers read one after the other until none names a continuation. -/
inductive Reading (service : FileService) :
    ReadRequest → List FileResponse → Prop where
  | last {request : ReadRequest} {response : FileResponse} :
      service.fileRead request = .ok response →
      request.follow response = none → Reading service request [response]
  | more {request next : ReadRequest} {response : FileResponse}
      {responses : List FileResponse} :
      service.fileRead request = .ok response →
      request.follow response = some next →
      Reading service next responses →
      Reading service request (response :: responses)

def returnedLines (responses : List FileResponse) : List Text :=
  responses.flatMap fun response => response.lines.getD []

/-- The line that an answer names as its continuation. -/
def Names (request : ReadRequest) (response : FileResponse)
    (next : Option Nat) : Prop :=
  response.truncated = some next.isSome ∧
    if request.sortedRanges.isEmpty then
      response.nextOffset = next ∧ response.nextCursor = none
    else
      response.nextOffset = none ∧
        response.nextCursor = next.map fun value =>
          encodeCursor (ReadCursor.encode { nextLine := value })

/-- One answer returns the longest prefix of the selected lines that fits and
names the next one, and reading on returns every selected line once. -/
structure GapFree (service : FileService) (request : ReadRequest)
    (items : List NumberedLine) (size : Nat) : Prop where
  page : ∃ response page, service.fileRead request = .ok response ∧
    LongestPrefix (pageFits request.maximum size) items page ∧
    response.lines = some (page.map Prod.fst) ∧
    Names request response ((items.drop page.length).head?.map Prod.snd)
  whole : ∃ responses, Reading service request responses ∧
    returnedLines responses = items.map Prod.fst

theorem pageFits_of_append {maximum size : Nat} (page : List NumberedLine)
    (line : NumberedLine) (fits : pageFits maximum size (page ++ [line])) :
    pageFits maximum size page := by
  rcases fits with isEmpty | ⟨few, fits⟩
  · exact absurd isEmpty (List.concat_ne_nil line page)
  · right
    rw [List.length_append] at few
    rw [List.map_append] at fits
    exact ⟨Nat.le_of_add_right_le few, linesFit_of_append fits⟩

theorem hasRoom_iff {maximum size : Nat} (page : List NumberedLine)
    (line : NumberedLine) :
    hasRoom maximum size page line = true ↔
      pageFits maximum size (page ++ [line]) := by
  rw [hasRoom, Bool.and_eq_true, decide_eq_true_iff, decide_eq_true_iff,
    pageFits, or_iff_right (List.concat_ne_nil line page), List.length_append,
    List.map_append, List.length_singleton, Nat.lt_iff_add_one_le,
    List.map_singleton]

section Served

variable {service : FileService} {request : ReadRequest} {text : Text}
  {first : Nat}

def servedLines (request : ReadRequest) (first : Nat) (text : Text) :
    List NumberedLine :=
  selectedLines request.sortedRanges first (numberedLines text)

/-- Whether an answer to this request has room for one more line. -/
def ReadRequest.room (request : ReadRequest) (text : Text) :
    List NumberedLine → NumberedLine → Bool :=
  hasRoom request.maximum (Utf8.encode text).length

/-- What is left to be read after an answer, as a request. -/
theorem Readable.next (readable : Readable service request text first)
    {rest : List NumberedLine}
    (isNext : fromRefused (request.room text)
      (servedLines request first text) = some rest) :
    ∃ next line, request.follow (readAnswer service request text
        (servedLines request first text)) = some next ∧
      Readable service next text line ∧ servedLines next line text = rest ∧
      next.room text = request.room text := by
  obtain ⟨stops, nonempty⟩ := fromRefused_eq isNext
  have whole := fill_append (request.room text) []
    (servedLines request first text)
  rw [stops, List.nil_append] at whole
  cases rest with
  | nil => exact (nonempty rfl).elim
  | cons line later =>
      obtain ⟨from', isRest⟩ := selectedLines_from whole.symm
      have named : nextLine request.maximum (Utf8.encode text).length
          (servedLines request first text) = some line.2 := by
        rw [nextLine]
        change ((fill (request.room text) [] _).2.head?.map _) = _
        rw [stops]
        rfl
      obtain ⟨next, follows, readable', sameRanges, sameMaximum⟩ :=
        readable.follow named (Nat.lt_of_lt_of_le readable.positive from')
      refine ⟨next, line.2, follows, readable', ?_, ?_⟩
      · rw [servedLines, sameRanges]
        exact isRest
      · rw [ReadRequest.room, sameMaximum]
        rfl

theorem Readable.last (service : FileService) (isLast : fromRefused (request.room text)
      (servedLines request first text) = none) :
    request.follow (readAnswer service request text
      (servedLines request first text)) = none := by
  apply follow_eq_none
  have stops := fromRefused_eq_none.mp isLast
  rw [nextLine]
  change ((fill (request.room text) [] _).2.head?.map _) = _
  rw [stops]
  rfl

theorem Readable.reading {items : List NumberedLine}
    {pages : List (List NumberedLine)}
    (readable : Readable service request text first)
    (isPages : Pages (request.room text) (fromRefused (request.room text))
      items pages) (isItems : servedLines request first text = items) :
    ∃ responses, Reading service request responses ∧
      returnedLines responses = pages.flatten.map Prod.fst := by
  generalize isRoom : request.room text = room at isPages
  induction isPages generalizing request first with
  | @last items isLast =>
      subst isItems
      subst isRoom
      refine ⟨_, .last (fileRead_eq readable) (Readable.last service isLast), ?_⟩
      simp [returnedLines, readAnswer, servedLines, ReadRequest.room]
  | @more items rest pages isNext _ induction =>
      subst isItems
      subst isRoom
      obtain ⟨next, line, follows, readable', isRest, sameRoom⟩ :=
        readable.next isNext
      obtain ⟨responses, reading, returned⟩ :=
        induction readable' isRest sameRoom
      refine ⟨_, .more (fileRead_eq readable) follows reading, ?_⟩
      rw [returnedLines] at returned
      rw [returnedLines, List.flatMap_cons, returned, List.flatten_cons,
        List.map_append]
      rfl

theorem Readable.pages {responses : List FileResponse}
    (readable : Readable service request text first)
    (reading : Reading service request responses) :
    ∃ pages, Pages (request.room text) (fromRefused (request.room text))
        (servedLines request first text) pages ∧
      returnedLines responses = pages.flatten.map Prod.fst := by
  induction reading generalizing first with
  | @last request response isResponse ends =>
      cases isNext : fromRefused (request.room text)
          (servedLines request first text) with
      | some rest =>
          obtain ⟨next, line, follows, -⟩ := readable.next isNext
          rw [fileRead_eq readable] at isResponse
          cases isResponse
          rw [servedLines] at follows
          rw [follows] at ends
          cases ends
      | none =>
          rw [fileRead_eq readable] at isResponse
          cases isResponse
          refine ⟨_, .last isNext, ?_⟩
          simp [returnedLines, readAnswer, servedLines, ReadRequest.room]
  | @more request next response responses isResponse follows reading
      induction =>
      rw [fileRead_eq readable] at isResponse
      cases isResponse
      cases isNext : fromRefused (request.room text)
          (servedLines request first text) with
      | none =>
          have ends := Readable.last service isNext
          rw [servedLines, follows] at ends
          cases ends
      | some rest =>
          obtain ⟨next', line, follows', readable', isRest, sameRoom⟩ :=
            readable.next isNext
          rw [servedLines, follows] at follows'
          cases follows'
          obtain ⟨pages, isPages, returned⟩ := induction readable'
          rw [isRest, sameRoom] at isPages
          refine ⟨_, .more isNext isPages, ?_⟩
          rw [returnedLines] at returned
          rw [returnedLines, List.flatMap_cons, returned, List.flatten_cons,
            List.map_append]
          rfl

theorem GapFree.noGap
    (readable : Readable service request text first)
    (gapFree : GapFree service request (servedLines request first text)
      (Utf8.encode text).length) :
    ∀ start, Visits (fromRefused (request.room text))
        (servedLines request first text) start →
      NoGap (request.room text) start := by
  obtain ⟨responses, reading, returned⟩ := gapFree.whole
  obtain ⟨pages, isPages, returned'⟩ := readable.pages reading
  apply isPages.noGap
  have lengths := congrArg List.length (returned'.symm.trans returned)
  rw [List.length_map, List.length_map] at lengths
  exact Nat.le_of_eq lengths

/-- Reading is free of gaps exactly when no answer on the way has room for a
line after one that it has no room for. -/
theorem read_gapFree_iff
    (readable : Readable service request text first)
    (alone : Alone (request.room text) (servedLines request first text)) :
    GapFree service request (servedLines request first text)
        (Utf8.encode text).length ↔
      ∀ start, Visits (fromRefused (request.room text))
          (servedLines request first text) start →
        NoGap (request.room text) start := by
  constructor
  · exact GapFree.noGap readable
  · intro every
    have isFill := noGap_iff_select_eq_fill.mp (every _ .here)
    have progress : ∀ items rest, Alone (request.room text) items →
        fromRefused (request.room text) items = some rest →
        Alone (request.room text) rest ∧ rest.length < items.length :=
      fromRefused_progress
    constructor
    · refine ⟨_, _, fileRead_eq readable,
        fill_longest _ (.inl rfl) pageFits_of_append hasRoom_iff, ?_, ?_⟩
      · exact congrArg (fun page => some (List.map Prod.fst page)) isFill
      · rw [drop_fill]
        unfold Names readAnswer
        split
        case isTrue =>
          exact ⟨rfl, rfl, rfl⟩
        case isFalse =>
          exact ⟨rfl, rfl, rfl⟩
    · obtain ⟨pages, isPages, -⟩ :=
        Pages.exists progress _ alone (Nat.le_refl _)
      obtain ⟨responses, reading, returned⟩ := readable.reading isPages rfl
      refine ⟨responses, reading, ?_⟩
      rw [returned, isPages.flatten_eq every]

end Served

/-! ## Two runs -/

/-- A service whose workspace is one file with this text. -/
private def servedFile (text : Text) (digest : Digest) : FileService where
  openExisting path :=
    if path = ['f'] then
      .ok (.file (Utf8.encode text).length (Utf8.encode text))
    else .error (.coded "FILE_NOT_FOUND" "Open workspace path")
  sha256 _ := digest
  readCursor := ReadCursor.reader
  directoryCursor := DirectoryCursor.reader

private theorem servedFile_readable (text : Text) (digest : Digest)
    (limit : Option Nat) (positive : limit ≠ some 0) :
    Readable (servedFile text digest) { path := ['f'], limit } text 1 :=
  { path := by
      change validateRelative ['f'] true = .ok ()
      decide
    apart := .inl rfl
    opened := rfl
    ranges := by simp
    limit := positive
    start := ⟨none, rfl, rfl⟩
    positive := by decide }

private def twoLines : Text := ['a', newline, 'b', newline]

/-- Two lines, read one at a time. -/
theorem read_gapFree_iff_two_lines :
    GapFree (servedFile twoLines .ofTwoLines)
        { path := ['f'], limit := some 1 }
        (servedLines { path := ['f'], limit := some 1 } 1 twoLines)
        (Utf8.encode twoLines).length ↔
      ∀ start, Visits
          (fromRefused
            (ReadRequest.room { path := ['f'], limit := some 1 } twoLines))
          (servedLines { path := ['f'], limit := some 1 } 1 twoLines) start →
        NoGap (ReadRequest.room { path := ['f'], limit := some 1 } twoLines)
          start :=
  read_gapFree_iff
    (servedFile_readable twoLines .ofTwoLines (some 1) (by decide))
    (by
      have lines : servedLines { path := ['f'], limit := some 1 } 1 twoLines =
          [(['a', newline], 1), (['b', newline], 2)] := by decide
      rw [lines]
      intro line member
      simp only [List.mem_cons, List.not_mem_nil, or_false] at member
      rcases member with rfl | rfl <;> decide)

private def longLine (character : Char) : Text :=
  List.replicate 400000 character ++ [newline]

private def crowded : Text := longLine 'a' ++ longLine 'b' ++ ['c', newline]

private def crowdedDigest : Digest where
  hex := "ce5462f6d07cbaa528279e0e59d9e28573c003954511280f8d4a0d46d7ac606f"
  isHex := by decide

private theorem crowded_lines :
    numberedLines crowded =
      [(longLine 'a', 1), (longLine 'b', 2), (['c', newline], 3)] := by
  have plain : ∀ character : Char, character ≠ newline →
      newline ∉ List.replicate 400000 character := by
    intro character other member
    exact other (List.eq_of_mem_replicate member).symm
  have first : Text.lines crowded =
      [longLine 'a', longLine 'b', ['c', newline]] := by
    rw [crowded, longLine, longLine, Text.lines]
    simp only [List.append_assoc, List.cons_append, List.nil_append]
    rw [splitInclusive_line (plain 'a' (by decide)),
      splitInclusive_line (plain 'b' (by decide))]
    rfl
  rw [numberedLines, first]
  rfl

private theorem crowded_size : (Utf8.encode crowded).length = 800004 := by
  change Json.size crowded = 800004
  have a : Json.size ['a'] = 1 := by decide
  have b : Json.size ['b'] = 1 := by decide
  have line : Json.size [newline] = 1 := by decide
  have last : Json.size ['c', newline] = 2 := by decide
  rw [crowded, longLine, longLine, Json.size_append, Json.size_append,
    Json.size_append, Json.size_append, Json.size_replicate,
    Json.size_replicate, a, b, line, last]

private theorem size_longLine {character : Char}
    (plain : Json.size (Json.escape character) = 1) :
    Json.size (Json.string (longLine character)) = 400004 := by
  have line : Json.size (Json.string [newline]) = 4 := by decide
  rw [longLine, Json.size_string_replicate _ plain, line]

private theorem hasRoom_crowded (page : List NumberedLine)
    (line : NumberedLine) :
    hasRoom 200 800004 page line = true ↔
      page.length < 200 ∧
        Json.size (texts (page.map Prod.fst ++ [line.1])) ≤ 524246 := by
  have digits : Json.size (Json.natural 800004) = 6 := by decide
  rw [hasRoom, Bool.and_eq_true, decide_eq_true_eq, decide_eq_true_eq,
    linesFit, encodedSize_readCandidate, digits, maxReadResponseBytes]
  omega

private theorem size_texts_two (first second : Text) :
    Json.size (texts [first, second]) =
      Json.size (Json.string first) + Json.size (Json.string second) + 3 := by
  rw [texts, List.map_cons, List.map_singleton, Json.size_array,
    Json.size_separated_cons, List.map_singleton, List.sum_singleton]
  omega

private theorem third_line_fits {a b c : NumberedLine}
    (sizeA : Json.size (Json.string a.1) = 400004)
    (sizeB : Json.size (Json.string b.1) = 400004)
    (sizeC : Json.size (Json.string c.1) = 5) :
    Alone (hasRoom 200 800004) [a, b, c] ∧
      ¬NoGap (hasRoom 200 800004) [a, b, c] := by
  have alone : Alone (hasRoom 200 800004) [a, b, c] := by
    intro line member
    rw [hasRoom_crowded, texts, List.map_nil, List.nil_append,
      List.map_singleton, Json.size_array, Json.size_separated_cons,
      List.map_nil, List.sum_nil, List.length_nil]
    simp only [List.mem_cons, List.not_mem_nil, or_false] at member
    rcases member with rfl | rfl | rfl
    · omega
    · omega
    · omega
  refine ⟨alone, not_noGap_of_passed_over ?_ ?_ ?_⟩
  · exact alone a List.mem_cons_self
  · rw [ne_eq, hasRoom_crowded, List.map_singleton, List.singleton_append,
      size_texts_two, sizeA, sizeB]
    omega
  · rw [hasRoom_crowded, List.map_singleton, List.singleton_append,
      size_texts_two, sizeA, sizeC, List.length_singleton]
    omega

/-- The second of three lines does not fit after the first, the third one
does: it is returned before the second, and a second time after it. -/
theorem long_line_passed_over :
    Readable (servedFile crowded crowdedDigest) { path := ['f'] } crowded 1 ∧
      Alone (ReadRequest.room { path := ['f'] } crowded)
        (servedLines { path := ['f'] } 1 crowded) ∧
      ¬GapFree (servedFile crowded crowdedDigest) { path := ['f'] }
        (servedLines { path := ['f'] } 1 crowded)
        (Utf8.encode crowded).length := by
  have readable := servedFile_readable crowded crowdedDigest none (by simp)
  have lines : servedLines { path := ['f'] } 1 crowded =
      [(longLine 'a', 1), (longLine 'b', 2), (['c', newline], 3)] := by
    rw [servedLines, crowded_lines]
    rfl
  have room : ReadRequest.room { path := ['f'] } crowded =
      hasRoom 200 800004 := by
    rw [ReadRequest.room, crowded_size]
    rfl
  obtain ⟨alone, gap⟩ := @third_line_fits (longLine 'a', 1) (longLine 'b', 2)
    (['c', newline], 3) (size_longLine (by decide))
    (size_longLine (by decide)) (by decide)
  refine ⟨readable, ?_, ?_⟩
  · rw [lines, room]
    exact alone
  · intro gapFree
    have noGap := GapFree.noGap readable gapFree _ .here
    rw [lines, room] at noGap
    exact gap noGap

end Electrosphere.Agent
