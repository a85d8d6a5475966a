import Electrosphere.Agent.FileGlob
import Electrosphere.Agent.GrepOrder
import Electrosphere.Foundation.Paging

/-!
# Listings page by page

A directory is listed in the order of its paths, a search by paths or with the
newest entries first.  An answer holds the entries after its cursor as far as
there is room, and following the cursors returns every entry once.
-/

namespace Electrosphere.Agent

open Foundation Foundation.Paging

/-! ## The order -/

/-- The position of an entry in a listing. -/
abbrev Rank := ℕᵒᵈ ×ₗ List ℕ

def Entry.rank (sort : Text) (entry : Entry) : Rank :=
  toLex (OrderDual.toDual (if sort = byName then 0 else entry.time),
    byteOrder entry.path)

def GlobCursor.rank (sort : Text) (cursor : GlobCursor) : Rank :=
  toLex (OrderDual.toDual (if sort = byName then 0
    else (cursor.modifiedAt.map UInt64.toNat).getD 0), byteOrder cursor.path)

def DirectoryCursor.rank (cursor : DirectoryCursor) : Rank :=
  toLex (OrderDual.toDual 0, byteOrder cursor.path)

theorem rank_le_iff {left right : ℕ} {first second : List ℕ} :
    (toLex (OrderDual.toDual left, first) : Rank) ≤
        toLex (OrderDual.toDual right, second) ↔
      right < left ∨ right = left ∧ first ≤ second := by
  rw [Prod.Lex.toLex_le_toLex]
  simp only [OrderDual.toDual_lt_toDual, OrderDual.toDual_inj, eq_comm]

theorem rank_lt_iff {left right : ℕ} {first second : List ℕ} :
    (toLex (OrderDual.toDual left, first) : Rank) <
        toLex (OrderDual.toDual right, second) ↔
      right < left ∨ right = left ∧ first < second := by
  rw [Prod.Lex.toLex_lt_toLex]
  simp only [OrderDual.toDual_lt_toDual, OrderDual.toDual_inj, eq_comm]

theorem byPath_iff (left right : Entry) :
    byPath left right ↔ left.rank byName ≤ right.rank byName := by
  rw [Entry.rank, Entry.rank, if_pos rfl, if_pos rfl, rank_le_iff, byPath]
  simp

theorem byTime_iff (left right : Entry) :
    byTime left right ↔ left.rank byModified ≤ right.rank byModified := by
  have other : byModified ≠ byName := by decide
  rw [Entry.rank, Entry.rank, if_neg other, if_neg other, rank_le_iff, byTime]

instance totalByPath : Std.Total byPath where
  total left right := by
    rw [byPath_iff, byPath_iff]
    exact le_total _ _

instance transByPath : IsTrans Entry byPath where
  trans left middle right first second := by
    rw [byPath_iff] at first second ⊢
    exact le_trans first second

instance totalByTime : Std.Total byTime where
  total left right := by
    rw [byTime_iff, byTime_iff]
    exact le_total _ _

instance transByTime : IsTrans Entry byTime where
  trans left middle right first second := by
    rw [byTime_iff] at first second ⊢
    exact le_trans first second

/-- The two orders that a request may ask for. -/
def ValidSort (sort : Text) : Prop := sort = byName ∨ sort = byModified

theorem sortEntries_perm (sort : Text) (entries : List Entry) :
    (sortEntries sort entries).Perm entries := by
  rw [sortEntries]
  split
  · exact List.perm_insertionSort byTime entries
  · exact List.perm_insertionSort byPath entries

theorem sortEntries_ordered {sort : Text} (valid : ValidSort sort)
    (entries : List Entry) :
    Ordered (Entry.rank sort) (sortEntries sort entries) := by
  rcases valid with rfl | rfl
  · rw [sortEntries, if_neg (by decide)]
    apply (List.pairwise_insertionSort byPath entries).imp
    intro left right before
    exact (byPath_iff left right).mp before
  · rw [sortEntries, if_pos rfl]
    apply (List.pairwise_insertionSort byTime entries).imp
    intro left right before
    exact (byTime_iff left right).mp before

/-- Distinct paths have distinct positions. -/
theorem ascending_of_nodup {sort : Text} {entries : List Entry}
    (ordered : Ordered (Entry.rank sort) entries)
    (distinct : (entries.map Entry.path).Nodup) :
    Ascending (Entry.rank sort) entries := by
  have apart : entries.Pairwise fun left right => left.path ≠ right.path :=
    List.pairwise_map.mp distinct
  apply (ordered.and apart).imp
  rintro left right ⟨before, other⟩
  apply lt_of_le_of_ne before
  intro same
  apply other
  apply byteOrder_injective
  exact congrArg (fun rank : Rank => (ofLex rank).2) same

/-! ## One answer -/

/-- The answer that is tried for its size. -/
def listingCandidate (isDirectory : Option Bool) (entries : List Entry) :
    FileResponse :=
  { entries := some entries, isDirectory, truncated := some false }

/-- Whether an answer has room for one more entry. -/
def entryRoom (limit maximum : Nat) (isDirectory : Option Bool)
    (page : List Entry) (entry : Entry) : Bool :=
  decide (page.length < limit) &&
    decide ((listingCandidate isDirectory (page ++ [entry])).encodedSize ≤
      maximum)

section Room

variable {limit maximum : Nat} {isDirectory : Option Bool} {page : List Entry}
  {entry : Entry}

theorem entryRoom_full (full : limit ≤ page.length) :
    ¬entryRoom limit maximum isDirectory page entry = true := by
  rw [entryRoom, decide_eq_false (Nat.not_lt_of_le full), Bool.false_and]
  exact Bool.false_ne_true

theorem entryRoom_large (large : maximum <
      (listingCandidate isDirectory (page ++ [entry])).encodedSize) :
    ¬entryRoom limit maximum isDirectory page entry = true := by
  rw [entryRoom, decide_eq_false (Nat.not_le_of_lt large), Bool.and_false]
  exact Bool.false_ne_true

theorem entryRoom_small (few : ¬limit ≤ page.length) (small : ¬maximum <
      (listingCandidate isDirectory (page ++ [entry])).encodedSize) :
    entryRoom limit maximum isDirectory page entry = true := by
  rw [entryRoom, decide_eq_true (Nat.lt_of_not_le few),
    decide_eq_true (Nat.le_of_not_lt small)]
  rfl

end Room

theorem readEntries_eq (limit : Nat) (entries remaining : List Entry) :
    readEntries limit entries remaining =
      (fill (entryRoom limit maxReadResponseBytes (some true)) entries
        remaining).1 := by
  induction remaining generalizing entries with
  | nil => rfl
  | cons entry remaining induction =>
      rw [readEntries, fill]
      by_cases full : limit ≤ entries.length
      · rw [if_pos full, if_neg (entryRoom_full full)]
      · rw [if_neg full]
        dsimp only
        split
        case isTrue large => rw [if_neg (entryRoom_large large)]
        case isFalse small =>
          rw [if_pos (entryRoom_small full small)]
          exact induction (entries ++ [entry])

theorem globEntries_eq (limit : Nat) (entries remaining : List Entry) :
    globEntries limit entries remaining =
      ((fill (entryRoom limit maxSearchResponseBytes none) entries
          remaining).1,
        decide ((fill (entryRoom limit maxSearchResponseBytes none) entries
          remaining).2 ≠ [])) := by
  induction remaining generalizing entries with
  | nil => rfl
  | cons entry remaining induction =>
      rw [globEntries, fill]
      by_cases full : limit ≤ entries.length
      · rw [if_pos full, if_neg (entryRoom_full full)]
        simp
      · rw [if_neg full]
        dsimp only
        split
        case isTrue large =>
          rw [if_neg (entryRoom_large large)]
          simp
        case isFalse small =>
          rw [if_pos (entryRoom_small full small)]
          exact induction (entries ++ [entry])

/-- The entries of a page are fewer than those there are exactly if some are
left. -/
theorem length_fill_lt_iff {room : List Entry → Entry → Bool}
    (remaining : List Entry) :
    (fill room [] remaining).1.length < remaining.length ↔
      (fill room [] remaining).2 ≠ [] := by
  have lengths := congrArg List.length (fill_append room [] remaining)
  rw [List.nil_append, List.length_append] at lengths
  rw [← List.length_pos_iff]
  omega

def listAnswer (room : List Entry → Entry → Bool) (cursorOf : Entry → Text)
    (isDirectory : Option Bool) (remaining : List Entry) : FileResponse :=
  let truncated := decide ((fill room [] remaining).2 ≠ [])
  { entries := some (fill room [] remaining).1
    isDirectory
    truncated := some truncated
    nextCursor :=
      if truncated then (fill room [] remaining).1.getLast?.map cursorOf
      else none }

/-! ## Following the cursors -/

/-- A call as a function of its cursor, for a list of entries: the answer
holds those after the cursor. -/
structure Listing (call : Option Text → FileResult FileResponse)
    (decode : Text → FileResult Rank) (room : List Entry → Entry → Bool)
    (cursorOf : Entry → Text) (isDirectory : Option Bool) (sort : Text)
    (all : List Entry) : Prop where
  ordered : Ordered (Entry.rank sort) all
  decoded : ∀ entry ∈ all, decode (cursorOf entry) = .ok (entry.rank sort)
  answers : ∀ (cursor : Option Text) (rank : Option Rank),
    cursor.mapM decode = .ok rank →
    call cursor = .ok (listAnswer room cursorOf isDirectory
      (pastCursor (Entry.rank sort) rank all))

inductive Following (call : Option Text → FileResult FileResponse) :
    Option Text → List FileResponse → Prop where
  | last {cursor : Option Text} {response : FileResponse} :
      call cursor = .ok response → response.nextCursor = none →
      Following call cursor [response]
  | more {cursor : Option Text} {response : FileResponse} {next : Text}
      {responses : List FileResponse} :
      call cursor = .ok response → response.nextCursor = some next →
      Following call (some next) responses →
      Following call cursor (response :: responses)

def returnedEntries (responses : List FileResponse) : List Entry :=
  responses.flatMap fun response => response.entries.getD []

/-- Each call returns a run of the entries that begins just after its cursor
and says whether entries remain.  Following the cursors returns every entry
once and in order. -/
structure ListsAll (call : Option Text → FileResult FileResponse)
    (decode : Text → FileResult Rank) (sort : Text)
    (entries all : List Entry) : Prop where
  same : all.Perm entries
  sorted : Ascending (Entry.rank sort) all
  run : ∀ (cursor : Option Text) (rank : Option Rank),
    cursor.mapM decode = .ok rank →
    ∃ response page rest, call cursor = .ok response ∧
      response.entries = some page ∧
      pastCursor (Entry.rank sort) rank all = page ++ rest ∧
      (∃ before, all = before ++ (page ++ rest)) ∧
      response.truncated = some (decide (rest ≠ [])) ∧
      response.nextCursor.isSome = decide (rest ≠ [])
  whole : ∃ responses, Following call none responses ∧
    returnedEntries responses = all

namespace Listing

variable {call : Option Text → FileResult FileResponse}
  {decode : Text → FileResult Rank} {room : List Entry → Entry → Bool}
  {cursorOf : Entry → Text} {isDirectory : Option Bool} {sort : Text}
  {all : List Entry}

/-- A page that stops has taken an entry. -/
theorem last_of_stops {remaining rest : List Entry}
    (alone : Alone room remaining)
    (isNext : fromRefused room remaining = some rest) :
    ∃ last, (fill room [] remaining).1.getLast? = some last := by
  have less := (fromRefused_progress remaining rest alone isNext).2
  have whole := congrArg List.length (fill_append room [] remaining)
  rw [(fromRefused_eq isNext).1, List.nil_append, List.length_append] at whole
  have nonempty : (fill room [] remaining).1 ≠ [] := by
    intro none
    rw [none] at whole
    simp at whole
    omega
  exact ⟨_, List.getLast?_eq_some_getLast nonempty⟩

theorem following
    (listing : Listing call decode room cursorOf isDirectory sort all)
    (ascending : Ascending (Entry.rank sort) all) (alone : Alone room all)
    {pages : List (List Entry)} {before remaining : List Entry}
    {cursor : Option Text} {rank : Option Rank}
    (filled : Filled room remaining pages)
    (isAll : all = before ++ remaining)
    (decoded : cursor.mapM decode = .ok rank)
    (isRemaining : pastCursor (Entry.rank sort) rank all = remaining) :
    ∃ responses, Following call cursor responses ∧
      returnedEntries responses = pages.flatten := by
  induction filled generalizing before cursor rank with
  | @last remaining isLast =>
      have answer := listing.answers cursor rank decoded
      rw [isRemaining] at answer
      refine ⟨_, .last answer ?_, ?_⟩
      · rw [listAnswer, fromRefused_eq_none.mp isLast]
        rfl
      · simp [returnedEntries, listAnswer]
  | @more remaining rest pages isNext _ induction =>
      have answer := listing.answers cursor rank decoded
      rw [isRemaining] at answer
      have aloneHere : Alone room remaining := by
        intro entry member
        exact alone entry (isAll ▸ List.mem_append_right before member)
      obtain ⟨last, isLast⟩ := last_of_stops aloneHere isNext
      obtain ⟨stops, nonempty⟩ := fromRefused_eq isNext
      have whole := fill_append room [] remaining
      rw [stops, List.nil_append] at whole
      have isAll' : all =
          before ++ ((fill room [] remaining).1 ++ rest) := by
        rw [whole]
        exact isAll
      have isEntry : last ∈ all := by
        rw [isAll']
        exact List.mem_append_right _
          (List.mem_append_left _ (List.mem_of_getLast? isLast))
      have next : (some (cursorOf last)).mapM decode =
          .ok (some (last.rank sort)) := by
        rw [Option.mapM_some, listing.decoded last isEntry]
        rfl
      obtain ⟨responses, following, returned⟩ :=
        @induction (before ++ (fill room [] remaining).1)
          (some (cursorOf last)) (some (last.rank sort))
          (by rw [List.append_assoc]; exact isAll') next
          (ascending.past_of_suffix isAll' isLast)
      refine ⟨_, .more answer ?_ following, ?_⟩
      · rw [listAnswer, stops, isLast]
        simp [nonempty]
      · rw [returnedEntries] at returned
        rw [returnedEntries, List.flatMap_cons, returned, List.flatten_cons]
        rfl

theorem listsAll {entries : List Entry}
    (listing : Listing call decode room cursorOf isDirectory sort all)
    (same : all.Perm entries) (distinct : (entries.map Entry.path).Nodup)
    (alone : Alone room all) : ListsAll call decode sort entries all := by
  have ascending : Ascending (Entry.rank sort) all :=
    ascending_of_nodup listing.ordered
      ((same.map Entry.path).nodup_iff.mpr distinct)
  constructor
  · exact same
  · exact ascending
  · intro cursor rank decoded
    obtain ⟨before, isAll⟩ := listing.ordered.pastCursor_suffix rank
    have whole := fill_append room []
      (pastCursor (Entry.rank sort) rank all)
    rw [List.nil_append] at whole
    refine ⟨_, _, _, listing.answers cursor rank decoded, rfl, whole.symm,
      ⟨before, by rw [whole]; exact isAll⟩, rfl, ?_⟩
    cases isNext : fromRefused room
        (pastCursor (Entry.rank sort) rank all) with
    | none =>
        rw [listAnswer, fromRefused_eq_none.mp isNext]
        rfl
    | some rest =>
        have aloneHere : Alone room
            (pastCursor (Entry.rank sort) rank all) := by
          intro entry member
          apply alone entry
          rw [isAll]
          exact List.mem_append_right before member
        obtain ⟨last, isLast⟩ := last_of_stops aloneHere isNext
        obtain ⟨stops, nonempty⟩ := fromRefused_eq isNext
        rw [listAnswer, stops, isLast]
        simp [nonempty]
  · obtain ⟨pages, filled⟩ := Filled.exists _ alone (Nat.le_refl _)
    have begins : (none : Option Text).mapM decode = .ok none := rfl
    obtain ⟨responses, following, returned⟩ :=
      listing.following ascending alone filled (List.nil_append all).symm
        begins rfl
    refine ⟨responses, following, ?_⟩
    rw [returned, filled.flatten_eq]

end Listing

/-! ## Directories -/

def directoryEntries (path : Text) (items : List DirectoryItem) : List Entry :=
  (items.map (DirectoryItem.entry path)).insertionSort byPath

def Entry.directoryCursor (entry : Entry) : Text :=
  encodeCursor (DirectoryCursor.encode { path := entry.path })

def FileService.directoryRank (service : FileService) (cursor : Text) :
    FileResult Rank :=
  (service.directoryCursor.decodeCursor cursor).map DirectoryCursor.rank

/-- A directory that can be read with this limit. -/
structure DirectoryListing (service : FileService) (path : Text)
    (items : List DirectoryItem) (limit : Option Nat) : Prop where
  valid : validateRelative path true = .ok ()
  opened : service.openExisting path = .ok (.directory items)
  limit : 1 ≤ limit.getD 1000 ∧ limit.getD 1000 ≤ 10000

theorem pastCursor_directory (cursor : Option DirectoryCursor)
    (entries : List Entry) :
    (entries.filter fun entry => cursor.all fun value =>
        decide (byteOrder value.path < byteOrder entry.path)) =
      pastCursor (Entry.rank byName) (cursor.map DirectoryCursor.rank)
        entries := by
  cases cursor with
  | none => exact List.filter_true entries
  | some value =>
      rw [Option.map_some, pastCursor, past]
      apply List.filter_congr
      intro entry _
      rw [Option.all_some, DirectoryCursor.rank, Entry.rank, if_pos rfl]
      apply decide_eq_decide.mpr
      rw [rank_lt_iff]
      simp

/-- Decoding the cursor of a call, where there is one. -/
theorem mapM_map {α β : Type} {decode : Text → FileResult α} {f : α → β}
    {cursor : Option Text} {result : Option β}
    (decoded : cursor.mapM (fun text => (decode text).map f) = .ok result) :
    ∃ value, cursor.mapM decode = .ok value ∧ value.map f = result := by
  cases cursor with
  | none =>
      cases decoded
      exact ⟨none, rfl, rfl⟩
  | some text =>
      rw [Option.mapM_some] at decoded ⊢
      cases isValue : decode text with
      | error failure =>
          rw [isValue] at decoded
          cases decoded
      | ok value =>
          rw [isValue] at decoded
          cases decoded
          exact ⟨some value, rfl, rfl⟩

theorem DirectoryListing.listing {service : FileService} {path : Text}
    {items : List DirectoryItem} {limit : Option Nat}
    (reads : DirectoryListing service path items limit) :
    Listing (fun cursor => service.fileRead { path, limit, cursor })
      service.directoryRank
      (entryRoom (limit.getD 1000) maxReadResponseBytes (some true))
      Entry.directoryCursor (some true) byName
      (directoryEntries path items) := by
  constructor
  · exact sortEntries_ordered (.inl rfl) _
  · intro entry _
    rw [FileService.directoryRank, Entry.directoryCursor,
      CursorReader.decodeCursor_encode]
    exact congrArg Except.ok (by rw [Entry.rank, if_pos rfl]; rfl)
  · intro cursor rank decoded
    obtain ⟨value, isValue, isRank⟩ := mapM_map decoded
    have limited : ¬(limit.getD 1000 = 0 ∨ 10000 < limit.getD 1000) := by
      have bounds := reads.limit
      omega
    dsimp only [FileService.fileRead]
    rw [reads.valid, reads.opened]
    change service.readDirectory path items (limit.getD 1000) cursor = _
    rw [FileService.readDirectory, if_neg limited, isValue]
    change Except.ok _ = _
    rw [pastCursor_directory, isRank, readEntries_eq,
      decide_eq_decide.mpr (length_fill_lt_iff _)]
    rfl

/-! ## Searches -/

def GlobService.matching (service : GlobService) (request : GlobRequest)
    (isMatch : Text → Bool) : List Entry :=
  (service.walk request.gitignore request.hidden).filterMap
    (GlobItem.entry isMatch)

def GlobService.globEntries (service : GlobService) (request : GlobRequest)
    (isMatch : Text → Bool) : List Entry :=
  sortEntries request.sort (service.matching request isMatch)

/-- What the request makes of a cursor. -/
def GlobService.globRank (service : GlobService) (sort cursor : Text) :
    FileResult Rank := do
  let value ← service.globCursor.decodeCursor cursor
  if value.sort ≠ sort then
    .error (.coded "INVALID_ARGUMENT"
      "Glob cursor sort does not match request")
  else .ok (value.rank sort)

/-- A request that the guest accepts. -/
structure GlobListing (service : GlobService) (request : GlobRequest)
    (isMatch : Text → Bool) : Prop where
  patterns : request.patterns ≠ []
  checked : (request.patterns.forM fun pattern => do
    validatePattern pattern
    service.buildGlob pattern) = .ok ()
  built : service.buildGlobSet request.patterns = .ok isMatch
  sort : ValidSort request.sort
  limit : 1 ≤ request.limit ∧ request.limit ≤ 10000

theorem pastCursor_glob {sort : Text} (cursor : Option GlobCursor)
    (entries : List Entry) :
    entries.filter (afterCursor sort cursor) =
      pastCursor (Entry.rank sort) (cursor.map (GlobCursor.rank sort))
        entries := by
  cases cursor with
  | none => exact List.filter_true entries
  | some value =>
      rw [Option.map_some, pastCursor, past]
      apply List.filter_congr
      intro entry _
      rw [afterCursor, GlobCursor.rank, Entry.rank]
      by_cases named : sort = byName
      · rw [if_pos named, if_pos named, if_pos named]
        apply decide_eq_decide.mpr
        rw [rank_lt_iff]
        simp
      · rw [if_neg named, if_neg named, if_neg named]
        apply decide_eq_decide.mpr
        rw [rank_lt_iff]

/-- The time of an entry that a search returns fits in a cursor. -/
theorem globCursor_rank {isMatch : Text → Bool} {item : GlobItem}
    {entry : Entry} (isEntry : item.entry isMatch = some entry)
    (sort : Text) : (entry.globCursor sort).rank sort = entry.rank sort := by
  unfold GlobItem.entry at isEntry
  split at isEntry
  case h_1 => cases isEntry
  case h_2 =>
    dsimp only at isEntry
    split at isEntry
    case isTrue =>
      cases isEntry
      rw [GlobCursor.rank, Entry.rank, Entry.globCursor, Entry.time]
      simp
    case isFalse => cases isEntry

theorem mapM_globRank {service : GlobService} {sort : Text}
    {cursor : Option Text} {rank : Option Rank}
    (decoded : cursor.mapM (service.globRank sort) = .ok rank) :
    ∃ value, cursor.mapM service.globCursor.decodeCursor = .ok value ∧
      value.any (fun value => decide (value.sort ≠ sort)) = false ∧
      value.map (GlobCursor.rank sort) = rank := by
  cases cursor with
  | none =>
      cases decoded
      exact ⟨none, rfl, rfl, rfl⟩
  | some text =>
      rw [Option.mapM_some] at decoded ⊢
      rw [GlobService.globRank] at decoded
      cases isValue : service.globCursor.decodeCursor text with
      | error failure =>
          rw [isValue] at decoded
          cases decoded
      | ok value =>
          rw [isValue] at decoded
          by_cases same : value.sort = sort
          · dsimp only [Bind.bind, Except.bind] at decoded
            rw [if_neg (not_not.mpr same)] at decoded
            cases decoded
            refine ⟨some value, rfl, ?_, rfl⟩
            exact decide_eq_false (not_not.mpr same)
          · dsimp only [Bind.bind, Except.bind] at decoded
            rw [if_pos same] at decoded
            cases decoded

theorem GlobListing.listing {service : GlobService} {request : GlobRequest}
    {isMatch : Text → Bool} (searches : GlobListing service request isMatch) :
    Listing (fun cursor => service.fileGlob { request with cursor })
      (service.globRank request.sort)
      (entryRoom request.limit maxSearchResponseBytes none)
      (fun entry => encodeCursor
        (GlobCursor.encode (entry.globCursor request.sort))) none request.sort
      (service.globEntries request isMatch) := by
  constructor
  · exact sortEntries_ordered searches.sort _
  · intro entry member
    obtain ⟨item, _, isEntry⟩ := List.mem_filterMap.mp
      ((sortEntries_perm request.sort _).mem_iff.mp member)
    rw [GlobService.globRank, CursorReader.decodeCursor_encode]
    change (if request.sort ≠ request.sort then _ else _) = _
    rw [if_neg (fun other => other rfl), globCursor_rank isEntry]
  · intro cursor rank decoded
    obtain ⟨value, isValue, sameSort, isRank⟩ := mapM_globRank decoded
    have admitted : ¬(request.patterns = [] ∨ request.limit = 0 ∨
        10000 < request.limit) := by
      have bounds := searches.limit
      rintro (none | none | large)
      · exact searches.patterns none
      · omega
      · omega
    have known : ¬(request.sort ≠ byName ∧ request.sort ≠ byModified) := by
      rintro ⟨notName, notModified⟩
      rcases searches.sort with isName | isModified
      · exact notName isName
      · exact notModified isModified
    rw [GlobService.fileGlob, if_neg admitted]
    dsimp only
    rw [searches.checked]
    change (service.buildGlobSet request.patterns >>= _) = _
    rw [searches.built]
    change (Option.mapM service.globCursor.decodeCursor cursor >>= _) = _
    rw [isValue]
    change (if value.any (fun value => decide (value.sort ≠ request.sort)) =
      true then _ else if request.sort ≠ byName ∧ request.sort ≠ byModified
      then _ else _) = _
    rw [sameSort, if_neg Bool.false_ne_true, if_neg known, pastCursor_glob,
      isRank, globEntries_eq]
    dsimp only
    rw [decide_eq_decide.mpr (length_fill_lt_iff _), Bool.or_self]
    rfl

/-! ## All listings -/

theorem alone_of_small {limit maximum : Nat} {isDirectory : Option Bool}
    {entries all : List Entry} (same : all.Perm entries) (positive : 1 ≤ limit)
    (small : ∀ entry ∈ entries,
      (listingCandidate isDirectory [entry]).encodedSize ≤ maximum) :
    Alone (entryRoom limit maximum isDirectory) all := by
  intro entry member
  apply entryRoom_small (Nat.not_le_of_lt positive)
  exact Nat.not_lt_of_le (small entry (same.mem_iff.mp member))

/-- The entries of a listing have distinct paths, and an answer has room for
each of them alone. -/
structure Returnable (maximum : Nat) (isDirectory : Option Bool)
    (entries : List Entry) : Prop where
  distinct : (entries.map Entry.path).Nodup
  small : ∀ entry ∈ entries,
    (listingCandidate isDirectory [entry]).encodedSize ≤ maximum

/-- Directories and searches in either order are listed completely. -/
theorem listings_complete :
    (∀ service path items limit,
      DirectoryListing service path items limit →
      Returnable maxReadResponseBytes (some true)
        (items.map (DirectoryItem.entry path)) →
      ListsAll (fun cursor => service.fileRead { path, limit, cursor })
        service.directoryRank byName (items.map (DirectoryItem.entry path))
        (directoryEntries path items)) ∧
    (∀ service request isMatch, GlobListing service request isMatch →
      Returnable maxSearchResponseBytes none
        (service.matching request isMatch) →
      ListsAll (fun cursor => service.fileGlob { request with cursor })
        (service.globRank request.sort) request.sort
        (service.matching request isMatch)
        (service.globEntries request isMatch)) := by
  constructor
  · intro service path items limit reads returnable
    have same := List.perm_insertionSort byPath
      (items.map (DirectoryItem.entry path))
    exact reads.listing.listsAll same returnable.distinct
      (alone_of_small same reads.limit.1 returnable.small)
  · intro service request isMatch searches returnable
    have same := sortEntries_perm request.sort
      (service.matching request isMatch)
    exact searches.listing.listsAll same returnable.distinct
      (alone_of_small same searches.limit.1 returnable.small)

private def twoEntries : FileService where
  openExisting _ := .ok (.directory
    [{ name := [0x62], kind := fileKind, size := 1, modifiedAt := 5 },
      { name := [0x61], kind := directoryKind, size := 0, modifiedAt := 7 }])
  sha256 _ := { hex := "", isHex := by decide }
  readCursor := ReadCursor.reader
  directoryCursor := DirectoryCursor.reader

private def twoFound : GlobService where
  buildGlob _ := .ok ()
  buildGlobSet _ := .ok fun _ => true
  walk _ _ :=
    [{ name := [0x62], kind := some fileKind, size := 1, modifiedAt := 5 },
      { name := [0x61], kind := some directoryKind, size := 0, modifiedAt := 7 }]
  globCursor := GlobCursor.reader

private def newestFirst : GlobRequest where
  patterns := ["*".toList]
  limit := 1
  cursor := none
  gitignore := true
  hidden := false
  sort := byModified

/-- Two entries, one on each page. -/
theorem listings_complete_two :
    ListsAll (fun cursor =>
        twoEntries.fileRead { path := [], limit := some 1, cursor })
      twoEntries.directoryRank byName
      [{ path := ['b'], kind := fileKind, size := some 1, modifiedAt := some 5 },
        { path := ['a', '/'], kind := directoryKind, size := none,
          modifiedAt := some 7 }]
      [{ path := ['a', '/'], kind := directoryKind, size := none,
         modifiedAt := some 7 },
        { path := ['b'], kind := fileKind, size := some 1,
          modifiedAt := some 5 }] ∧
    ListsAll (fun cursor => twoFound.fileGlob { newestFirst with cursor })
      (twoFound.globRank byModified) byModified
      (twoFound.matching newestFirst fun _ => true)
      (twoFound.globEntries newestFirst fun _ => true) := by
  constructor
  · exact listings_complete.1 twoEntries [] _ (some 1)
      { valid := rfl
        opened := rfl
        limit := by decide }
      { distinct := by decide
        small := by decide }
  · exact listings_complete.2 twoFound newestFirst _
      { patterns := by decide
        checked := rfl
        built := rfl
        sort := .inr rfl
        limit := by decide }
      { distinct := by decide
        small := by decide }

end Electrosphere.Agent
