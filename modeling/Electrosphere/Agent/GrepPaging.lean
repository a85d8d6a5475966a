import Electrosphere.Agent.GrepOrder

/-!
# Searching page by page

The accumulator passes over a match that its answer has no room for and goes
on with later ones, and the cursor of the answer is the last match that was
saved.  What is passed over before a saved match is lost.
-/

namespace Electrosphere.Agent

open Foundation Foundation.Paging

/-- A match with the number of matches up to it. -/
abbrev CountedMatch := Found × Nat

def CountedMatch.value (item : CountedMatch) : GrepMatch := item.1.value

def CountedMatch.position (item : CountedMatch) : List Nat ×ₗ Nat :=
  Agent.position item.1

def matchesFit (total : Nat) (values : List GrepMatch) : Prop :=
  (grepCandidate total values).encodedSize ≤ maxSearchResponseBytes

instance decidableMatchesFit (total : Nat) (values : List GrepMatch) :
    Decidable (matchesFit total values) :=
  inferInstanceAs
    (Decidable ((grepCandidate total values).encodedSize ≤
      maxSearchResponseBytes))

/-- Whether an answer has room for one more match. -/
def hasSpace (limit : Nat) (page : List CountedMatch) (item : CountedMatch) :
    Bool :=
  decide (page.length < limit) &&
    decide (matchesFit item.2 (page.map CountedMatch.value ++ [item.value]))

/-- The matches past a cursor. -/
def beyond (cursor : Option GrepCursor) (items : List CountedMatch) :
    List CountedMatch :=
  items.filter fun item => !cursor.any fun cursor => cursor.covers item.1

/-! ## One answer -/

def Found.cursor (found : Found) : GrepCursor :=
  { path := found.path, byteOffset := found.byteOffset }

def saved (limit : Nat) (cursor : Option GrepCursor)
    (page : List CountedMatch) (number : Nat) (truncated : Bool) :
    GrepAccumulator :=
  { limit
    cursor
    grepMatches := page.map CountedMatch.value
    totalMatches := number
    truncated
    lastSaved := page.getLast?.map fun item => item.1.cursor }

theorem foldl_add (limit : Nat) (cursor : Option GrepCursor)
    (page : List CountedMatch) (number : Nat) (truncated : Bool)
    (found : List Found) :
    found.foldl GrepAccumulator.add (saved limit cursor page number truncated) =
      saved limit cursor
        (select (hasSpace limit) page
          (beyond cursor (found.zipIdx (number + 1))))
        (number + found.length)
        (truncated || !(fill (hasSpace limit) page
          (beyond cursor (found.zipIdx (number + 1)))).2.isEmpty) := by
  induction found generalizing page number truncated with
  | nil => simp [beyond, select, fill]
  | cons next found induction =>
      have counts : number + (found.length + 1) =
          number + 1 + found.length := by omega
      rw [List.foldl_cons, List.zipIdx_cons, beyond, List.filter_cons,
        List.length_cons, counts]
      by_cases covered : (cursor.any fun cursor => cursor.covers next) = true
      · have unchanged :
            (saved limit cursor page number truncated).add next =
              saved limit cursor page (number + 1) truncated := by
          rw [GrepAccumulator.add]
          exact if_pos covered
        rw [unchanged, induction, if_neg (by simp [covered])]
        rfl
      · rw [if_pos (by simp [covered]), select, fill]
        by_cases room : hasSpace limit page (next, number + 1) = true
        · have isRoom := room
          simp only [hasSpace, Bool.and_eq_true, decide_eq_true_eq] at isRoom
          have taken :
              (saved limit cursor page number truncated).add next =
                saved limit cursor (page ++ [(next, number + 1)])
                  (number + 1) truncated := by
            have few : ¬limit ≤ (page.map CountedMatch.value).length := by
              rw [List.length_map]
              exact Nat.not_le_of_lt isRoom.1
            refine (if_neg covered).trans ((if_neg few).trans
              ((if_neg (Nat.not_lt_of_le isRoom.2)).trans ?_))
            simp [saved, CountedMatch.value, Found.cursor]
          rw [taken, induction, if_pos room, if_pos room]
          rfl
        · have refused :
              (saved limit cursor page number truncated).add next =
                saved limit cursor page (number + 1) true := by
            refine (if_neg covered).trans ?_
            by_cases few : limit ≤ (page.map CountedMatch.value).length
            · exact if_pos few
            · refine (if_neg few).trans (if_pos ?_)
              apply Nat.lt_of_not_le
              intro fits
              apply room
              rw [List.length_map] at few
              simp only [hasSpace, Bool.and_eq_true, decide_eq_true_eq]
              exact ⟨Nat.lt_of_not_le few, fits⟩
          rw [refused, induction, if_neg room, if_neg room]
          simp [beyond]

/-- All matches of a request, and the files skipped. -/
def GrepService.allMatches (service : GrepService) (request : GrepRequest) :
    FileResult (List Found × Nat) := do
  let matcher ← service.compile request.pattern request.caseSensitive
  let pathMatcher ← service.buildPathMatcher request.paths
  let files := (service.walk request.gitignore).filter fun file =>
    pathMatcher.all fun isMatch => isMatch file.path
  scanFiles collect matcher (crossesLines request.pattern)
    request.contextBefore request.contextAfter [] 0
    (files.insertionSort byFilePath)

/-- The request is valid, and its scan yields these matches. -/
structure Greppable (service : GrepService) (request : GrepRequest)
    (full : List Found) (skipped : Nat) (cursor : Option GrepCursor) :
    Prop where
  limit : 1 ≤ request.limit ∧ request.limit ≤ 10000
  context : request.contextBefore ≤ 10 ∧ request.contextAfter ≤ 10
  decoded :
    request.cursor.mapM service.grepCursor.decodeCursor = .ok cursor
  scanned : service.allMatches request = .ok (full, skipped)

/-- The matches that a request with this cursor goes through. -/
def soughtMatches (cursor : Option GrepCursor) (full : List Found) :
    List CountedMatch :=
  beyond cursor (full.zipIdx 1)

def grepAnswer (request : GrepRequest) (full : List Found) (skipped : Nat)
    (items : List CountedMatch) : FileResponse :=
  let page := select (hasSpace request.limit) [] items
  let truncated := !(fill (hasSpace request.limit) [] items).2.isEmpty
  { grepMatches := some (page.map CountedMatch.value)
    totalMatches := some full.length
    skippedFiles := some skipped
    truncated := some truncated
    nextCursor :=
      if truncated then
        page.getLast?.map fun item => encodeCursor item.1.cursor.encode
      else none }

theorem fileGrep_eq {service : GrepService} {request : GrepRequest}
    {full : List Found} {skipped : Nat} {cursor : Option GrepCursor}
    (greppable : Greppable service request full skipped cursor) :
    service.fileGrep request =
      .ok (grepAnswer request full skipped (soughtMatches cursor full)) := by
  obtain ⟨limit, context, decoded, scanned⟩ := greppable
  rw [GrepService.allMatches] at scanned
  cases isMatcher : service.compile request.pattern request.caseSensitive with
  | error =>
      rw [isMatcher] at scanned
      cases scanned
  | ok matcher =>
      cases isGlobs : service.buildPathMatcher request.paths with
      | error =>
          rw [isMatcher, isGlobs] at scanned
          cases scanned
      | ok pathMatcher =>
          rw [isMatcher, isGlobs] at scanned
          have offered := scanFiles_collect GrepAccumulator.add
            (saved request.limit cursor [] 0 false) matcher
            (crossesLines request.pattern) request.contextBefore
            request.contextAfter [] 0
            (((service.walk request.gitignore).filter fun file =>
              pathMatcher.all fun isMatch => isMatch file.path).insertionSort
                byFilePath)
          change scanFiles collect _ _ _ _ _ _ _ = _ at scanned
          rw [scanned, List.foldl_nil] at offered
          rw [GrepService.fileGrep, if_neg (by omega), isMatcher, isGlobs,
            decoded]
          change (scanFiles GrepAccumulator.add matcher
            (crossesLines request.pattern) request.contextBefore
            request.contextAfter (saved request.limit cursor [] 0 false) 0 _
              >>= _) = _
          rw [offered]
          change Except.ok _ = Except.ok _
          congr 1
          dsimp only
          rw [foldl_add]
          simp [saved, grepAnswer, soughtMatches]
          rfl

/-! ## The next request -/

/-- The same search with the cursor of an answer, until one is not
truncated. -/
def GrepRequest.follow (request : GrepRequest) (response : FileResponse) :
    Option GrepRequest :=
  if response.truncated = some true then
    some { request with cursor := response.nextCursor }
  else none

theorem covers_iff (cursor : GrepCursor) (found : Found) :
    cursor.covers found = true ↔
      position found ≤ toLex (byteOrder cursor.path, cursor.byteOffset) := by
  rw [position, Prod.Lex.toLex_le_toLex, GrepCursor.covers]
  split
  case isTrue before => simp [before]
  case isFalse notBefore =>
    split
    case isTrue same => simp [same]
    case isFalse other => simp [notBefore, other]

theorem beyond_cursor (cursor : Option GrepCursor) (full : List Found)
    {last : CountedMatch} (member : last ∈ soughtMatches cursor full) :
    soughtMatches (some last.1.cursor) full =
      past CountedMatch.position last.position (soughtMatches cursor full) := by
  have isPast := (List.mem_filter.mp member).2
  rw [soughtMatches, soughtMatches, past, beyond, beyond, List.filter_filter]
  apply List.filter_congr
  intro item _
  have byLast := covers_iff last.1.cursor item.1
  change _ ↔ CountedMatch.position item ≤ CountedMatch.position last at byLast
  rw [Option.any_some]
  cases cursor with
  | none =>
      rw [Option.any_none, Bool.not_false, Bool.and_true, Bool.eq_iff_iff,
        Bool.not_eq_true', ← Bool.not_eq_true, byLast, not_le,
        decide_eq_true_eq]
  | some cursor =>
      have byCursor := covers_iff cursor item.1
      have ofLast := covers_iff cursor last.1
      rw [Option.any_some] at isPast ⊢
      rw [Bool.eq_iff_iff]
      simp only [Bool.not_eq_true', Bool.and_eq_true, decide_eq_true_eq]
      rw [← Bool.not_eq_true, ← Bool.not_eq_true, byLast, byCursor]
      rw [Bool.not_eq_true', ← Bool.not_eq_true, ofLast] at isPast
      rw [not_le, not_le]
      rw [not_le] at isPast
      constructor
      · intro later
        exact ⟨later, lt_trans isPast later⟩
      · exact And.left

section Searched

variable {service : GrepService} {request : GrepRequest}
  {full : List Found} {skipped : Nat} {cursor : Option GrepCursor}

theorem follow_last (isLast : afterLast (hasSpace request.limit)
      CountedMatch.position (soughtMatches cursor full) = none) :
    request.follow (grepAnswer request full skipped
      (soughtMatches cursor full)) = none := by
  have stops := afterLast_eq_none.mp isLast
  simp [GrepRequest.follow, grepAnswer, stops]

theorem Greppable.next
    (greppable : Greppable service request full skipped cursor)
    (alone : Alone (hasSpace request.limit) (soughtMatches cursor full))
    {rest : List CountedMatch}
    (isNext : afterLast (hasSpace request.limit) CountedMatch.position
      (soughtMatches cursor full) = some rest) :
    ∃ next cursor', request.follow (grepAnswer request full skipped
        (soughtMatches cursor full)) = some next ∧
      Greppable service next full skipped cursor' ∧
      soughtMatches cursor' full = rest ∧ next.limit = request.limit := by
  obtain ⟨last, isLast, isRest⟩ := afterLast_eq alone isNext
  have isMore : (fill (hasSpace request.limit) []
      (soughtMatches cursor full)).2 ≠ [] := by
    intro stops
    rw [afterLast_eq_none.mpr stops] at isNext
    cases isNext
  have member : last ∈ soughtMatches cursor full := by
    obtain ⟨taken, isTaken, within⟩ := select_sublist
      (hasSpace request.limit) [] (soughtMatches cursor full)
    rw [isTaken, List.nil_append] at isLast
    exact within.subset (List.mem_of_getLast? isLast)
  refine ⟨{ request with
    cursor := some (encodeCursor last.1.cursor.encode) },
      some last.1.cursor, ?_, ?_, ?_, rfl⟩
  · simp [GrepRequest.follow, grepAnswer, isMore, isLast]
  · exact
      { limit := greppable.limit
        context := greppable.context
        decoded := by
          change (service.grepCursor.decodeCursor _ >>= _) = _
          rw [CursorReader.decodeCursor_encode]
          rfl
        scanned := greppable.scanned }
  · rw [isRest]
    exact beyond_cursor cursor full member

/-! ## Page after page -/

/-- The answers read one after the other until one is not truncated. -/
inductive Grepping (service : GrepService) :
    GrepRequest → List FileResponse → Prop where
  | last {request : GrepRequest} {response : FileResponse} :
      service.fileGrep request = .ok response →
      request.follow response = none → Grepping service request [response]
  | more {request next : GrepRequest} {response : FileResponse}
      {responses : List FileResponse} :
      service.fileGrep request = .ok response →
      request.follow response = some next →
      Grepping service next responses →
      Grepping service request (response :: responses)

def returnedMatches (responses : List FileResponse) : List GrepMatch :=
  responses.flatMap fun response => response.grepMatches.getD []

/-- One answer returns a run of the matches after the cursor and is truncated
if more follow it, and searching on returns every match once. -/
structure LosesNothing (service : GrepService) (request : GrepRequest)
    (items : List CountedMatch) : Prop where
  run : ∃ response run rest, service.fileGrep request = .ok response ∧
    items = run ++ rest ∧
    response.grepMatches = some (run.map CountedMatch.value) ∧
    response.truncated = some !rest.isEmpty
  whole : ∃ responses, Grepping service request responses ∧
    returnedMatches responses = items.map CountedMatch.value

theorem returned_last (request : GrepRequest) (full : List Found)
    (skipped : Nat) (items : List CountedMatch) :
    returnedMatches [grepAnswer request full skipped items] =
      [select (hasSpace request.limit) [] items].flatten.map
        CountedMatch.value := by
  simp [returnedMatches, grepAnswer]

theorem returned_cons (request : GrepRequest) (full : List Found)
    (skipped : Nat) (items : List CountedMatch)
    {responses : List FileResponse} {pages : List (List CountedMatch)}
    (returned : returnedMatches responses =
      pages.flatten.map CountedMatch.value) :
    returnedMatches (grepAnswer request full skipped items :: responses) =
      (select (hasSpace request.limit) [] items :: pages).flatten.map
        CountedMatch.value := by
  rw [returnedMatches] at returned
  rw [returnedMatches, List.flatMap_cons, returned, List.flatten_cons,
    List.map_append]
  rfl

theorem Greppable.grepping {items : List CountedMatch}
    {pages : List (List CountedMatch)}
    (greppable : Greppable service request full skipped cursor)
    (alone : Alone (hasSpace request.limit) items)
    (isPages : Pages (hasSpace request.limit)
      (afterLast (hasSpace request.limit) CountedMatch.position) items pages)
    (isItems : soughtMatches cursor full = items) :
    ∃ responses, Grepping service request responses ∧
      returnedMatches responses = pages.flatten.map CountedMatch.value := by
  generalize isLimit : request.limit = limit at isPages alone
  induction isPages generalizing request cursor with
  | @last items isLast =>
      subst isItems
      subst isLimit
      refine ⟨_, .last (fileGrep_eq greppable) (follow_last isLast), ?_⟩
      exact returned_last request full skipped _
  | @more items rest pages isNext _ induction =>
      subst isItems
      subst isLimit
      obtain ⟨next, cursor', follows, greppable', isRest, sameLimit⟩ :=
        greppable.next alone isNext
      obtain ⟨responses, grepping, returned⟩ := induction greppable' isRest
        sameLimit (afterLast_progress _ _ alone isNext).1
      exact ⟨_, .more (fileGrep_eq greppable) follows grepping,
        returned_cons request full skipped _ returned⟩

theorem Greppable.pages {responses : List FileResponse}
    (greppable : Greppable service request full skipped cursor)
    (alone : Alone (hasSpace request.limit) (soughtMatches cursor full))
    (grepping : Grepping service request responses) :
    ∃ pages, Pages (hasSpace request.limit)
        (afterLast (hasSpace request.limit) CountedMatch.position)
        (soughtMatches cursor full) pages ∧
      returnedMatches responses = pages.flatten.map CountedMatch.value := by
  induction grepping generalizing cursor with
  | @last request response isResponse ends =>
      rw [fileGrep_eq greppable] at isResponse
      cases isResponse
      cases isNext : afterLast (hasSpace request.limit) CountedMatch.position
          (soughtMatches cursor full) with
      | some rest =>
          obtain ⟨next, cursor', follows, -⟩ := greppable.next alone isNext
          rw [follows] at ends
          cases ends
      | none =>
          exact ⟨_, .last isNext, returned_last request full skipped _⟩
  | @more request next response responses isResponse follows grepping
      induction =>
      rw [fileGrep_eq greppable] at isResponse
      cases isResponse
      cases isNext : afterLast (hasSpace request.limit) CountedMatch.position
          (soughtMatches cursor full) with
      | none =>
          rw [follow_last isNext] at follows
          cases follows
      | some rest =>
          obtain ⟨next', cursor', follows', greppable', isRest, sameLimit⟩ :=
            greppable.next alone isNext
          rw [follows] at follows'
          cases follows'
          have alone' := (afterLast_progress _ _ alone isNext).1
          obtain ⟨pages, isPages, returned⟩ := induction greppable'
            (by rw [isRest, sameLimit]; exact alone')
          rw [isRest, sameLimit] at isPages
          exact ⟨_, .more isNext isPages,
            returned_cons request full skipped _ returned⟩

theorem nodup_sorted {files : List GrepFile} {keeps : GrepFile → Bool}
    (distinct : (files.map GrepFile.path).Nodup) :
    (((files.filter keeps).insertionSort byFilePath).map
      GrepFile.path).Nodup := by
  have permuted := (List.perm_insertionSort byFilePath
    (files.filter keeps)).map GrepFile.path
  rw [permuted.nodup_iff]
  exact distinct.sublist (List.filter_sublist.map GrepFile.path)

theorem Greppable.ordered
    (greppable : Greppable service request full skipped cursor)
    (distinct :
      ((service.walk request.gitignore).map GrepFile.path).Nodup) :
    Ordered CountedMatch.position (soughtMatches cursor full) := by
  have scanned := greppable.scanned
  rw [GrepService.allMatches] at scanned
  have ordered : Ordered position full := by
    cases isMatcher : service.compile request.pattern
        request.caseSensitive with
    | error =>
        rw [isMatcher] at scanned
        cases scanned
    | ok matcher =>
        cases isGlobs : service.buildPathMatcher request.paths with
        | error =>
            rw [isMatcher, isGlobs] at scanned
            cases scanned
        | ok pathMatcher =>
            rw [isMatcher, isGlobs] at scanned
            obtain ⟨more, isFull, ordered, -⟩ :=
              scanFiles_ordered (List.pairwise_insertionSort byFilePath _)
                (nodup_sorted distinct) scanned
            rw [isFull]
            exact ordered
  have counted : Ordered CountedMatch.position (full.zipIdx 1) := by
    have pairs : ((full.zipIdx 1).map Prod.fst).Pairwise
        fun earlier later => position earlier ≤ position later := by
      rw [List.zipIdx_map_fst]
      exact ordered
    rw [List.pairwise_map] at pairs
    exact pairs
  exact counted.sublist List.filter_sublist

theorem LosesNothing.noGap
    (greppable : Greppable service request full skipped cursor)
    (alone : Alone (hasSpace request.limit) (soughtMatches cursor full))
    (distinct : ((service.walk request.gitignore).map GrepFile.path).Nodup)
    (losesNothing : LosesNothing service request
      (soughtMatches cursor full)) :
    ∀ start, Visits (fromRefused (hasSpace request.limit))
        (soughtMatches cursor full) start →
      NoGap (hasSpace request.limit) start ∧
        Separates (hasSpace request.limit) CountedMatch.position start := by
  obtain ⟨responses, grepping, returned⟩ := losesNothing.whole
  obtain ⟨pages, isPages, returned'⟩ := greppable.pages alone grepping
  apply isPages.noGap_afterLast alone (greppable.ordered distinct)
  have lengths := congrArg List.length (returned'.symm.trans returned)
  rw [List.length_map, List.length_map] at lengths
  exact Nat.le_of_eq lengths.symm

/-- Searching loses nothing if no answer on the way has room for a match after
one that it has no room for, and the position of its last match separates what
it returns from what comes later; where no two files share a path, it loses
nothing only then. -/
theorem grep_losesNothing_iff
    (greppable : Greppable service request full skipped cursor)
    (alone : Alone (hasSpace request.limit) (soughtMatches cursor full)) :
    ((∀ start, Visits (fromRefused (hasSpace request.limit))
          (soughtMatches cursor full) start →
        NoGap (hasSpace request.limit) start ∧
          Separates (hasSpace request.limit) CountedMatch.position start) →
      LosesNothing service request (soughtMatches cursor full)) ∧
    (((service.walk request.gitignore).map GrepFile.path).Nodup →
      LosesNothing service request (soughtMatches cursor full) →
      ∀ start, Visits (fromRefused (hasSpace request.limit))
          (soughtMatches cursor full) start →
        NoGap (hasSpace request.limit) start ∧
          Separates (hasSpace request.limit) CountedMatch.position start) := by
  constructor
  · intro every
    have isFill := noGap_iff_select_eq_fill.mp (every _ .here).1
    have progress : ∀ items rest, Alone (hasSpace request.limit) items →
        afterLast (hasSpace request.limit) CountedMatch.position items =
          some rest →
        Alone (hasSpace request.limit) rest ∧ rest.length < items.length :=
      afterLast_progress
    constructor
    · refine ⟨_, _, _, fileGrep_eq greppable,
        (fill_append (hasSpace request.limit) [] _).symm, ?_, rfl⟩
      exact congrArg (fun page => some (page.map CountedMatch.value)) isFill
    · obtain ⟨pages, isPages, -⟩ :=
        Pages.exists progress _ alone (Nat.le_refl _)
      obtain ⟨responses, grepping, returned⟩ :=
        greppable.grepping alone isPages rfl
      refine ⟨responses, grepping, ?_⟩
      rw [returned, isPages.flatten_eq_afterLast alone every]
  · intro distinct losesNothing
    exact losesNothing.noGap greppable alone distinct

end Searched

/-! ## Two searches -/

/-- The engine for the pattern `a`, on texts without other than ASCII. -/
private def letterMatcher : PatternMatcher where
  isMatch text := .ok (text.contains 'a')
  spans text := .ok
    ((text.zipIdx.filter fun place => place.1 == 'a').map fun place =>
      (place.2, place.2 + 1))

/-- A workspace with one file, searched for the letter `a`. -/
private def searchedFile (text : Text) : GrepService where
  compile pattern _ :=
    if pattern = ['a'] then .ok letterMatcher
    else .error (.backend "Pattern is not modelled")
  buildPathMatcher _ := .ok none
  walk _ := [{ name := [0x66], bytes := Utf8.encode text }]
  grepCursor := GrepCursor.reader

private def letterRequest (limit : Nat) : GrepRequest where
  pattern := ['a']
  paths := []
  limit
  cursor := none
  caseSensitive := true
  contextBefore := 0
  contextAfter := 0
  gitignore := true

private def letterMatch (line byteOffset : Nat) (text : Text) : Found where
  path := ['f']
  byteOffset
  value :=
    { path := ['f'], line, text, contextBefore := none, contextAfter := none }

theorem trimLineEnding_line {line : Text}
    (noReturn : line.getLast? ≠ some (Char.ofNat 0x0D)) :
    trimLineEnding (line ++ [newline]) = line := by
  have ended : stripSuffix newline (line ++ [newline]) = some line := by
    simp [stripSuffix]
  have kept : stripSuffix (Char.ofNat 0x0D) line = none := if_neg noReturn
  rw [trimLineEnding, ended]
  dsimp only [Option.getD_some]
  rw [kept]
  rfl

/-- Two lines and a line `a`, which all match. -/
private theorem three_matches {long : Text} (limit : Nat)
    (plain : newline ∉ long)
    (noReturn : long.getLast? ≠ some (Char.ofNat 0x0D))
    (hit : long.contains 'a' = true)
    (small : (Utf8.encode (long ++ newline :: (long ++ newline ::
      ['a', newline]))).length ≤ maxCrossLineBytes) :
    (searchedFile (long ++ newline :: (long ++ newline ::
        ['a', newline]))).allMatches (letterRequest limit) =
      .ok
        ([letterMatch 1 0 long,
          letterMatch 2 (Utf8.encode (long ++ [newline])).length long,
          letterMatch 3
            ((Utf8.encode (long ++ [newline])).length +
              (Utf8.encode (long ++ [newline])).length) ['a']], 0) := by
  have lines : lineOffsets (long ++ newline :: (long ++ newline ::
      ['a', newline])) =
        [(0, long), ((Utf8.encode (long ++ [newline])).length, long),
          ((Utf8.encode (long ++ [newline])).length +
            (Utf8.encode (long ++ [newline])).length, ['a'])] := by
    have last : splitInclusive newline ['a', newline] = [['a', newline]] := by
      decide
    have trimmed : trimLineEnding ['a', newline] = ['a'] := by decide
    rw [lineOffsets, Text.lines, splitInclusive_line plain,
      splitInclusive_line plain, last]
    simp only [offsetsFrom, trimLineEnding_line noReturn, trimmed,
      Nat.zero_add]
  generalize isText : long ++ newline :: (long ++ newline :: ['a', newline]) =
    text at lines small
  have matched : matchedIndexes letterMatcher false text (lineOffsets text) =
      .ok [0, 1, 2] := by
    have isLetter : letterMatcher.isMatch ['a'] = .ok true := by decide
    have isLong : letterMatcher.isMatch long = .ok true :=
      congrArg Except.ok hit
    rw [matchedIndexes, if_neg (by decide), lines]
    simp only [matchedLines, isLong, isLetter]
    rfl
  have scanned : scanBuffer collect ['f'] (Utf8.encode text) letterMatcher
      false 0 0 [] =
        .ok
          [letterMatch 1 0 long,
            letterMatch 2 (Utf8.encode (long ++ [newline])).length long,
            letterMatch 3
              ((Utf8.encode (long ++ [newline])).length +
                (Utf8.encode (long ++ [newline])).length) ['a']] := by
    rw [scanBuffer, fromUtf8_encode]
    dsimp only
    rw [matched, lines]
    rfl
  have file : scanFile collect letterMatcher false 0 0
      { name := [0x66], bytes := Utf8.encode text } [] =
        scanBuffer collect ['f'] (Utf8.encode text) letterMatcher false 0 0
          [] := by
    rw [scanFile, if_pos small]
    rfl
  change (scanFile collect letterMatcher false 0 0 _ [] >>= fun found =>
    scanFiles collect letterMatcher false 0 0 found 0 []) = _
  rw [file, scanned]
  rfl

private theorem letter_greppable {long : Text} (limit : Nat)
    (positive : 1 ≤ limit) (few : limit ≤ 10000) (plain : newline ∉ long)
    (noReturn : long.getLast? ≠ some (Char.ofNat 0x0D))
    (hit : long.contains 'a' = true)
    (small : (Utf8.encode (long ++ newline :: (long ++ newline ::
      ['a', newline]))).length ≤ maxCrossLineBytes) :
    Greppable
      (searchedFile (long ++ newline :: (long ++ newline :: ['a', newline])))
      (letterRequest limit)
      [letterMatch 1 0 long,
        letterMatch 2 (Utf8.encode (long ++ [newline])).length long,
        letterMatch 3
          ((Utf8.encode (long ++ [newline])).length +
            (Utf8.encode (long ++ [newline])).length) ['a']] 0 none :=
  { limit := ⟨positive, few⟩
    context := ⟨Nat.zero_le _, Nat.zero_le _⟩
    decoded := rfl
    scanned := three_matches limit plain noReturn hit small }

theorem encodedSize_grepCandidate (total : Nat) (values : List GrepMatch) :
    (grepCandidate total values).encodedSize =
      Json.size (Json.array (values.map GrepMatch.encode)) +
        Json.size (Json.natural total) + 63 := by
  have fields : (grepCandidate total values).fields =
      [("matches", Json.array (values.map GrepMatch.encode)),
        ("totalMatches", Json.natural total),
        ("skippedFiles", Json.natural 0),
        ("truncated", Json.boolean false)] := rfl
  have matchesName : Json.size (Json.string "matches".toList) = 9 := by decide
  have totalName : Json.size (Json.string "totalMatches".toList) = 14 := by
    decide
  have skippedName : Json.size (Json.string "skippedFiles".toList) = 14 := by
    decide
  have truncatedName : Json.size (Json.string "truncated".toList) = 11 := by
    decide
  have zero : Json.size (Json.natural 0) = 1 := by decide
  have isFalse : Json.size (Json.boolean false) = 5 := by decide
  rw [FileResponse.encodedSize, fields, Json.size_object]
  simp only [List.map_cons, List.map_nil, Json.size_separated_cons,
    Json.size_field, List.sum_cons, List.sum_nil, matchesName, totalName,
    skippedName, truncatedName, zero, isFalse]
  omega

private theorem size_letterMatch (line byteOffset : Nat) (text : Text) :
    Json.size (letterMatch line byteOffset text).value.encode =
      Json.size (Json.string text) + Json.size (Json.natural line) + 28 := by
  have fields : (letterMatch line byteOffset text).value.encode =
      Json.object [("path", Json.string ['f']), ("line", Json.natural line),
        ("text", Json.string text)] := rfl
  have pathName : Json.size (Json.string "path".toList) = 6 := by decide
  have lineName : Json.size (Json.string "line".toList) = 6 := by decide
  have textName : Json.size (Json.string "text".toList) = 6 := by decide
  have path : Json.size (Json.string ['f']) = 3 := by decide
  rw [fields, Json.size_object]
  simp only [List.map_cons, List.map_nil, Json.size_separated_cons,
    Json.size_field, List.sum_cons, List.sum_nil, pathName, lineName,
    textName, path]
  omega

/-- Three matching lines, one in each answer. -/
theorem grep_losesNothing_iff_three_lines :
    ((∀ start, Visits (fromRefused (hasSpace 1))
          (soughtMatches none
            [letterMatch 1 0 ['a'], letterMatch 2 2 ['a'],
              letterMatch 3 4 ['a']]) start →
        NoGap (hasSpace 1) start ∧
          Separates (hasSpace 1) CountedMatch.position start) →
      LosesNothing
        (searchedFile ['a', newline, 'a', newline, 'a', newline])
        (letterRequest 1)
        (soughtMatches none
          [letterMatch 1 0 ['a'], letterMatch 2 2 ['a'],
            letterMatch 3 4 ['a']])) ∧
    ((((searchedFile ['a', newline, 'a', newline, 'a', newline]).walk
          true).map GrepFile.path).Nodup →
      LosesNothing
        (searchedFile ['a', newline, 'a', newline, 'a', newline])
        (letterRequest 1)
        (soughtMatches none
          [letterMatch 1 0 ['a'], letterMatch 2 2 ['a'],
            letterMatch 3 4 ['a']]) →
      ∀ start, Visits (fromRefused (hasSpace 1))
          (soughtMatches none
            [letterMatch 1 0 ['a'], letterMatch 2 2 ['a'],
              letterMatch 3 4 ['a']]) start →
        NoGap (hasSpace 1) start ∧
          Separates (hasSpace 1) CountedMatch.position start) := by
  have greppable : Greppable
      (searchedFile ['a', newline, 'a', newline, 'a', newline])
      (letterRequest 1)
      [letterMatch 1 0 ['a'], letterMatch 2 2 ['a'], letterMatch 3 4 ['a']] 0
      none :=
    @letter_greppable ['a'] 1 (by decide) (by decide) (by decide) (by decide)
      (by decide) (by decide)
  refine grep_losesNothing_iff greppable ?_
  intro item member
  have items : soughtMatches none
      [letterMatch 1 0 ['a'], letterMatch 2 2 ['a'], letterMatch 3 4 ['a']] =
        [(letterMatch 1 0 ['a'], 1), (letterMatch 2 2 ['a'], 2),
          (letterMatch 3 4 ['a'], 3)] := rfl
  rw [items] at member
  simp only [List.mem_cons, List.not_mem_nil, or_false] at member
  rcases member with rfl | rfl | rfl <;> decide

private def longMatch : Text := List.replicate 1000000 'a'

private theorem size_longMatch :
    Json.size (Json.string longMatch) = 1000002 := by
  have quotes : Json.size (Json.string []) = 2 := by decide
  have sized := Json.size_string_replicate 1000000
    (show Json.size (Json.escape 'a') = 1 by decide) []
  rw [List.append_nil, quotes] at sized
  exact sized

private theorem hasSpace_iff (limit : Nat) (page : List CountedMatch)
    (item : CountedMatch) :
    hasSpace limit page item = true ↔ page.length < limit ∧
      Json.size (Json.array
        ((page.map CountedMatch.value ++ [item.value]).map
          GrepMatch.encode)) + Json.size (Json.natural item.2) ≤ 1499937 := by
  rw [hasSpace, Bool.and_eq_true, decide_eq_true_eq, decide_eq_true_eq,
    matchesFit, encodedSize_grepCandidate, maxSearchResponseBytes]
  omega

private theorem size_array_two (first second : List Char) :
    Json.size (Json.array [first, second]) =
      Json.size first + Json.size second + 3 := by
  rw [Json.size_array, Json.size_separated_cons, List.map_singleton,
    List.sum_singleton]
  omega

private def longText : Text :=
  longMatch ++ newline :: (longMatch ++ newline :: ['a', newline])

private theorem encode_longLine :
    (Utf8.encode (longMatch ++ [newline])).length = 1000001 := by
  have letter : Json.size ['a'] = 1 := by decide
  have line : Json.size [newline] = 1 := by decide
  change Json.size (longMatch ++ [newline]) = 1000001
  rw [longMatch, Json.size_append, Json.size_replicate, letter, line]

private theorem longText_small :
    (Utf8.encode longText).length ≤ maxCrossLineBytes := by
  have letter : Json.size ['a'] = 1 := by decide
  have line : Json.size [newline] = 1 := by decide
  have last : Json.size ['a', newline] = 2 := by decide
  change Json.size longText ≤ _
  rw [longText, longMatch, Json.size_append, Json.size_cons newline,
    Json.size_append, Json.size_cons newline ['a', newline],
    Json.size_replicate, letter, line, last, maxCrossLineBytes]
  decide

private def longMatches : List Found :=
  [letterMatch 1 0 longMatch, letterMatch 2 1000001 longMatch,
    letterMatch 3 2000002 ['a']]

private theorem longText_greppable :
    Greppable (searchedFile longText) (letterRequest 1000) longMatches 0
      none := by
  have plain : newline ∉ longMatch := by
    intro member
    exact absurd (List.eq_of_mem_replicate member) (by decide)
  have last : longMatch.getLast? = some 'a' := by
    rw [longMatch, List.getLast?_replicate, if_neg (by decide)]
  have hit : longMatch.contains 'a' = true := by
    rw [List.contains_iff_mem]
    exact List.mem_of_getLast? last
  have greppable := letter_greppable 1000 (by decide) (by decide) plain
    (by rw [last]; decide) hit longText_small
  rw [encode_longLine] at greppable
  exact greppable

private theorem longMatches_sizes (line byteOffset : Nat)
    (oneDigit : Json.size (Json.natural line) = 1) :
    Json.size (letterMatch line byteOffset longMatch).value.encode =
      1000031 := by
  rw [size_letterMatch, size_longMatch, oneDigit]

private theorem third_fits {first second third : CountedMatch}
    (ofFirst : Json.size first.value.encode = 1000031)
    (ofSecond : Json.size second.value.encode = 1000031)
    (ofThird : Json.size third.value.encode = 32)
    (one : Json.size (Json.natural first.2) = 1)
    (two : Json.size (Json.natural second.2) = 1)
    (three : Json.size (Json.natural third.2) = 1) :
    Alone (hasSpace 1000) [first, second, third] ∧
      ¬NoGap (hasSpace 1000) [first, second, third] := by
  have alone : Alone (hasSpace 1000) [first, second, third] := by
    intro item member
    rw [hasSpace_iff, List.map_nil, List.nil_append, List.map_singleton,
      Json.size_array, Json.size_separated_cons, List.map_nil, List.sum_nil,
      List.length_nil]
    simp only [List.mem_cons, List.not_mem_nil, or_false] at member
    rcases member with rfl | rfl | rfl
    · omega
    · omega
    · omega
  refine ⟨alone, not_noGap_of_passed_over ?_ ?_ ?_⟩
  · exact alone first List.mem_cons_self
  · rw [ne_eq, hasSpace_iff, List.map_singleton, List.singleton_append,
      List.map_cons, List.map_singleton, size_array_two, ofFirst, ofSecond]
    omega
  · rw [hasSpace_iff, List.map_singleton, List.singleton_append,
      List.map_cons, List.map_singleton, size_array_two, ofFirst, ofThird,
      three, List.length_singleton]
    omega

/-- The second match does not fit after the first, the third one does: it is
returned, and the second is never. -/
theorem large_match_passed_over :
    Greppable (searchedFile longText) (letterRequest 1000) longMatches 0
        none ∧
      Alone (hasSpace 1000) (soughtMatches none longMatches) ∧
      ¬LosesNothing (searchedFile longText) (letterRequest 1000)
        (soughtMatches none longMatches) := by
  obtain ⟨alone, gap⟩ := @third_fits (letterMatch 1 0 longMatch, 1)
    (letterMatch 2 1000001 longMatch, 2) (letterMatch 3 2000002 ['a'], 3)
    (longMatches_sizes 1 0 (by decide))
    (longMatches_sizes 2 1000001 (by decide)) (by decide) (by decide)
    (by decide) (by decide)
  refine ⟨longText_greppable, alone, ?_⟩
  intro losesNothing
  exact gap (losesNothing.noGap longText_greppable alone
    (List.nodup_singleton _) _ .here).1

end Electrosphere.Agent
