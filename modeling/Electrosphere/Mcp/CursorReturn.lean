import Electrosphere.Agent.GrepPaging
import Electrosphere.Agent.ListingPages
import Electrosphere.Mcp.RangeReads

/-!
# Cursors that come back

The guest writes the position that it stopped at into a cursor, and the tools
accept cursors up to a fixed length.  A cursor comes back exactly when the text
of its position is short enough.
-/

namespace Electrosphere

open Foundation Foundation.Paging Agent

/-! ## The schema of a cursor -/

/-- The `max` of `cursor` in the schemas of the tools. -/
def maxCursorLength : Nat := 1024

/-- The `length` of a JavaScript string. -/
def stringLength (text : Text) : Nat :=
  (text.map fun character => if character.toNat < 0x10000 then 1 else 2).sum

def acceptsCursor (cursor : Text) : Bool :=
  decide (stringLength cursor ≤ maxCursorLength)

/-- The longest position that makes an accepted cursor, in bytes. -/
def maxPositionSize : Nat := 768

theorem stringLength_of_ascii {text : Text}
    (ascii : ∀ character ∈ text, character.toNat < 0x80) :
    stringLength text = text.length := by
  rw [stringLength]
  induction text with
  | nil => rfl
  | cons character text induction =>
      have first := ascii character List.mem_cons_self
      have later := induction fun next member =>
        ascii next (List.mem_cons_of_mem _ member)
      rw [List.map_cons, List.sum_cons, later, if_pos (by omega),
        List.length_cons]
      omega

theorem acceptsCursor_iff (position : List Char) :
    acceptsCursor (encodeCursor position) = true ↔
      Json.size position ≤ maxPositionSize := by
  have length : stringLength (encodeCursor position) =
      (4 * Json.size position + 2) / 3 := by
    rw [encodeCursor, stringLength_of_ascii
      fun _ member => Base64.ascii_of_mem_encode member, Base64.length_encode]
    rfl
  rw [acceptsCursor, decide_eq_true_iff, length, maxCursorLength,
    maxPositionSize]
  omega

/-- The positions whose cursors the tools accept. -/
def ShortPosition (position : List Char) : Prop :=
  Json.size position ≤ maxPositionSize

instance decidableShortPosition (position : List Char) :
    Decidable (ShortPosition position) :=
  inferInstanceAs (Decidable (Json.size position ≤ maxPositionSize))

/-- The tool accepts the cursor, and the guest finds the position in it. -/
structure ComesBack {γ : Type} (decode : Text → FileResult γ) (position : γ)
    (cursor : Text) : Prop where
  accepted : acceptsCursor cursor = true
  decoded : decode cursor = .ok position

theorem comesBack_of_short {γ : Type} {encode : γ → List Char}
    (reader : CursorReader encode) {position : γ}
    (short : ShortPosition (encode position)) :
    ComesBack reader.decodeCursor position (encodeCursor (encode position)) :=
  { accepted := (acceptsCursor_iff _).mpr short
    decoded := reader.decodeCursor_encode position }

/-- The calls that some requests make of their cursors. -/
abbrev Calls (ρ : Type) := ρ → Option Text → FileResult FileResponse

/-- Every cursor that an answer to an accepted cursor carries comes back. -/
def HandsBack {ρ γ : Type} (calls : Calls ρ) {encode : γ → List Char}
    (reader : CursorReader encode) : Prop :=
  ∀ request cursor response next,
    (∀ text ∈ cursor, acceptsCursor text = true) →
    calls request cursor = .ok response → response.nextCursor = some next →
    ∃ position, next = encodeCursor (encode position) ∧
      ComesBack reader.decodeCursor position next

theorem handsBack_of_short {ρ γ : Type} {calls : Calls ρ}
    {encode : γ → List Char} (reader : CursorReader encode)
    (short : ∀ request cursor response next,
      calls request cursor = .ok response → response.nextCursor = some next →
      ∃ position, next = encodeCursor (encode position) ∧
        ShortPosition (encode position)) : HandsBack calls reader := by
  intro request cursor response next _ answered isNext
  obtain ⟨position, isCursor, isShort⟩ :=
    short request cursor response next answered isNext
  refine ⟨position, isCursor, ?_⟩
  rw [isCursor]
  exact comesBack_of_short reader isShort

/-! ## Lines of a file -/

/-- The calls that read one path. -/
def Agent.FileService.reads (service : FileService) (path : Text) :
    Calls ReadRequest :=
  fun request cursor => service.fileRead { request with path, cursor }

theorem readLines_next {ranges : List (Nat × Nat)}
    {first maximum size number : Nat} {returned : List Text}
    {nextLine : Option Nat} {lines : List Bytes}
    {result : List Text × Option Nat}
    (isResult : readLines ranges first maximum size number returned nextLine
      lines = .ok result)
    (before : ∀ line ∈ nextLine, line ≤ number) :
    ∀ line ∈ result.2, line ≤ number + lines.length := by
  induction lines generalizing number returned nextLine with
  | nil =>
      cases isResult
      exact before
  | cons buffer lines induction =>
      have moved : ∀ line ∈ nextLine, line ≤ number + 1 := by
        intro line isLine
        exact Nat.le_succ_of_le (before line isLine)
      have named : ∀ line ∈ nextLine.or (some (number + 1)),
          line ≤ number + 1 := by
        intro line isLine
        cases nextLine with
        | none =>
            cases isLine
            exact Nat.le_refl _
        | some earlier => exact moved line isLine
      have shift : number + (buffer :: lines).length =
          number + 1 + lines.length := by
        rw [List.length_cons]
        omega
      rw [shift]
      rw [readLines] at isResult
      split at isResult
      case isTrue => exact induction isResult moved
      case isFalse =>
        split at isResult
        case isTrue => exact induction isResult moved
        case isFalse =>
          split at isResult
          case isTrue => exact induction isResult named
          case isFalse =>
            split at isResult
            case h_1 => cases isResult
            case h_2 line _ =>
              split at isResult
              case isTrue => exact induction isResult named
              case isFalse => exact induction isResult moved

theorem readText_cursor {service : FileService} {request : ReadRequest}
    {size : Nat} {bytes : Bytes} {response : FileResponse} {next : Text}
    (answered : service.readText request size bytes = .ok response)
    (isNext : response.nextCursor = some next) :
    ∃ line, line ≤ bytes.length ∧
      next = encodeCursor (ReadCursor.encode { nextLine := line }) := by
  rw [FileService.readText] at answered
  dsimp only at answered
  split at answered
  case isTrue => cases answered
  case isFalse =>
    cases decoded : request.cursor.mapM service.readCursor.decodeCursor with
    | error failure =>
        rw [decoded] at answered
        cases answered
    | ok cursor =>
        rw [decoded] at answered
        dsimp only [Bind.bind, Except.bind] at answered
        split at answered
        case isTrue => cases answered
        case isFalse =>
          split at answered
          case isTrue => cases answered
          case isFalse =>
            split at answered
            case h_1 => cases answered
            case h_2 result isResult =>
              split at answered
              case isTrue => cases answered
              case isFalse =>
                cases answered
                have bound := readLines_next isResult (by rintro _ ⟨⟩)
                have few := length_splitInclusive_le 0x0A bytes
                dsimp only at isNext
                split at isNext
                case isTrue => cases isNext
                case isFalse =>
                  obtain ⟨line, isLine, rfl⟩ := Option.map_eq_some_iff.mp isNext
                  have within := bound line isLine
                  refine ⟨line, ?_, rfl⟩
                  rw [Nat.zero_add] at within
                  exact Nat.le_trans within few

/-- What a call that is answered has passed. -/
theorem fileRead_node {service : FileService} {request : ReadRequest}
    {node : Node} {response : FileResponse}
    (answered : service.fileRead request = .ok response)
    (opened : service.openExisting request.path = .ok node) :
    validateRelative request.path true = .ok () ∧
      ((∃ size bytes, node = .file size bytes ∧
          service.readText request size bytes = .ok response) ∨
        ∃ items, node = .directory items ∧ request.ranges = none ∧
          request.offset = none ∧
          service.readDirectory request.path items
            (request.limit.getD 1000) request.cursor = .ok response) := by
  rw [FileService.fileRead] at answered
  cases valid : validateRelative request.path true with
  | error failure =>
      rw [valid] at answered
      cases answered
  | ok =>
      rw [valid] at answered
      dsimp only [Bind.bind, Except.bind] at answered
      refine ⟨rfl, ?_⟩
      split at answered
      case isTrue => cases answered
      case isFalse =>
        rw [opened] at answered
        cases node with
        | other => cases answered
        | file size bytes => exact .inl ⟨size, bytes, rfl, answered⟩
        | directory items =>
            dsimp only at answered
            split at answered
            case isTrue => cases answered
            case isFalse plain =>
              rw [Bool.or_eq_true, not_or] at plain
              have ranges := Option.not_isSome_iff_eq_none.mp plain.1
              have offset := Option.not_isSome_iff_eq_none.mp plain.2
              exact .inr ⟨items, rfl, ranges, offset, answered⟩

theorem fileRead_file {service : FileService} {request : ReadRequest}
    {size : Nat} {bytes : Bytes} {response : FileResponse} {next : Text}
    (answered : service.fileRead request = .ok response)
    (opened : service.openExisting request.path = .ok (.file size bytes))
    (isNext : response.nextCursor = some next) :
    ∃ line, line ≤ bytes.length ∧
      next = encodeCursor (ReadCursor.encode { nextLine := line }) := by
  obtain ⟨-, read | listed⟩ := fileRead_node answered opened
  · obtain ⟨_, _, isFile, answered⟩ := read
    cases isFile
    exact readText_cursor answered isNext
  · obtain ⟨_, isFile, -⟩ := listed
    cases isFile

/-- The position of a line takes few bytes. -/
theorem lineCursor_short {line : Nat} (small : line ≤ usizeMax) :
    ShortPosition (ReadCursor.encode { nextLine := line }) := by
  have digits : Json.size (Json.natural line) ≤ 4 * 20 := by
    apply Json.size_natural_le (by decide)
    rw [usizeMax] at small
    omega
  have name : Json.size (Json.string "nextLine".toList) = 10 := by decide
  have whole := Json.size_object_le [("nextLine", Json.natural line)]
  rw [List.map_singleton, List.sum_singleton, Json.fieldSize] at whole
  dsimp only at whole
  rw [ShortPosition, ReadCursor.encode, maxPositionSize]
  dsimp only
  omega

theorem file_handsBack {service : FileService} {path : Text} {size : Nat}
    {bytes : Bytes} (opened : service.openExisting path = .ok (.file size bytes))
    (small : bytes.length ≤ usizeMax) :
    HandsBack (service.reads path) service.readCursor := by
  apply handsBack_of_short
  intro request cursor response next answered isNext
  obtain ⟨line, within, isCursor⟩ := fileRead_file answered opened isNext
  exact ⟨_, isCursor, lineCursor_short (Nat.le_trans within small)⟩

/-! ## Listings -/

namespace Agent.Listing

variable {call : Option Text → FileResult FileResponse}
  {decode : Text → FileResult Rank} {room : List Entry → Entry → Bool}
  {cursorOf : Entry → Text} {isDirectory : Option Bool} {sort : Text}
  {all : List Entry}

/-- A cursor stands for an entry that another one comes after. -/
theorem next_of_call
    (listing : Listing call decode room cursorOf isDirectory sort all)
    {cursor : Option Text} {rank : Option Rank} {response : FileResponse}
    {next : Text} (decoded : cursor.mapM decode = .ok rank)
    (answered : call cursor = .ok response)
    (isNext : response.nextCursor = some next) :
    ∃ last ∈ all.dropLast, next = cursorOf last := by
  obtain ⟨before, isAll⟩ := listing.ordered.pastCursor_suffix rank
  rw [listing.answers cursor rank decoded] at answered
  cases answered
  generalize pastCursor (Entry.rank sort) rank all = remaining at isAll isNext
  have whole := fill_append room [] remaining
  rw [List.nil_append] at whole
  dsimp only [listAnswer] at isNext
  split at isNext
  case isFalse => cases isNext
  case isTrue cut =>
    have isMore := of_decide_eq_true cut
    obtain ⟨last, isLast, isCursor⟩ := Option.map_eq_some_iff.mp isNext
    obtain ⟨page, isPage⟩ := List.getLast?_eq_some_iff.mp isLast
    refine ⟨last, ?_, isCursor.symm⟩
    rw [isAll, ← whole, isPage, List.append_assoc, ← List.append_assoc,
      List.dropLast_append_of_ne_nil (by simp), List.singleton_append,
      List.dropLast_cons_of_ne_nil isMore]
    exact List.mem_append_right _ List.mem_cons_self

/-- A page of one entry, of more. -/
theorem first_of_call {maximum : Nat} {cursor : Option Text}
    {rank : Option Rank} {entry : Entry} {rest : List Entry}
    (listing : Listing call decode (entryRoom 1 maximum isDirectory) cursorOf
      isDirectory sort all)
    (alone : Alone (entryRoom 1 maximum isDirectory) all)
    (decoded : cursor.mapM decode = .ok rank)
    (isRemaining : pastCursor (Entry.rank sort) rank all = entry :: rest)
    (isMore : rest ≠ []) :
    ∃ response, call cursor = .ok response ∧
      response.nextCursor = some (cursorOf entry) := by
  have isEntry : entry ∈ all := by
    apply (pastCursor_sublist (Entry.rank sort) rank all).subset
    rw [isRemaining]
    exact List.mem_cons_self
  have page : fill (entryRoom 1 maximum isDirectory) [] (entry :: rest) =
      ([entry], rest) := by
    rw [fill, if_pos (alone entry isEntry)]
    cases rest with
    | nil => rfl
    | cons next rest =>
        rw [fill, if_neg (entryRoom_full (Nat.le_refl 1))]
        rfl
  refine ⟨_, listing.answers cursor rank decoded, ?_⟩
  rw [listAnswer, isRemaining, page]
  dsimp only
  rw [if_pos (decide_eq_true isMore)]
  rfl

/-- If every cursor on the way from entry to entry is accepted, so are those
of all entries but the last. -/
theorem accepts_of_back {maximum : Nat}
    (listing : Listing call decode (entryRoom 1 maximum isDirectory) cursorOf
      isDirectory sort all)
    (alone : Alone (entryRoom 1 maximum isDirectory) all)
    (tied : ∀ entry ∈ all, ∀ other ∈ all,
      entry.rank sort = other.rank sort → cursorOf entry = cursorOf other)
    (back : ∀ cursor response next,
      (∀ text ∈ cursor, acceptsCursor text = true) →
      call cursor = .ok response → response.nextCursor = some next →
      acceptsCursor next = true) :
    ∀ entry ∈ all.dropLast, acceptsCursor (cursorOf entry) = true := by
  apply listing.ordered.dropLast_induction fun entry =>
    acceptsCursor (cursorOf entry) = true
  · intro entry isEntry other isOther same accepted
    rw [← tied entry isEntry other isOther same]
    exact accepted
  · intro entry rest isAll isMore
    obtain ⟨response, answered, isNext⟩ :=
      @first_of_call _ _ _ _ _ _ _ none none entry rest listing alone rfl
        isAll isMore
    exact back none response _ (by simp) answered isNext
  · intro entry isEntry accepted later rest isRest isMore
    have decoded : (some (cursorOf entry)).mapM decode =
        .ok (some (entry.rank sort)) := by
      rw [Option.mapM_some, listing.decoded entry isEntry]
      rfl
    obtain ⟨response, answered, isNext⟩ :=
      listing.first_of_call alone decoded isRest isMore
    refine back _ response _ ?_ answered isNext
    intro text isText
    cases isText
    exact accepted

end Agent.Listing

/-! ## Entries within the limits of the kernel -/

/-- The bytes of the longest path. -/
def maxPathBytes : Nat := 4096

def kinds : List Text := [fileKind, directoryKind, "symlink".toList]

/-- The bytes of the path of a directory's entry. -/
def Agent.DirectoryItem.pathBytes (directory : Text) (item : DirectoryItem) :
    Bytes :=
  if directory = [] then item.name
  else Utf8.encode directory ++ 0x2F :: item.name

structure Agent.DirectoryItem.WithinLimits (directory : Text)
    (item : DirectoryItem) : Prop where
  path : (item.pathBytes directory).length ≤ maxPathBytes
  kind : item.kind ∈ kinds
  size : item.size < 2 ^ 64
  modifiedAt : item.modifiedAt < 2 ^ 64

/-- What bounds an entry's share of an answer. -/
structure Agent.Entry.Bounded (entry : Entry) : Prop where
  path : entry.path.length ≤ maxPathBytes + 1
  kind : entry.kind ∈ kinds
  size : ∀ size ∈ entry.size, size < 2 ^ 64
  modifiedAt : ∀ time ∈ entry.modifiedAt, time < 2 ^ 64

theorem fieldSize_optional_le {name : String} {value : Option Nat}
    (small : ∀ number ∈ value, number < 2 ^ 64)
    (short : Json.size (Json.string name.toList) ≤ 20) :
    ((optional name Json.natural value).map Json.fieldSize).sum ≤ 102 := by
  cases value with
  | none => exact Nat.zero_le _
  | some number =>
      have below := small number rfl
      have digits : Json.size (Json.natural number) ≤ 4 * 20 := by
        apply Json.size_natural_le (by decide)
        omega
      change (List.map Json.fieldSize [(name, Json.natural number)]).sum ≤ 102
      rw [List.map_singleton, List.sum_singleton, Json.fieldSize]
      dsimp only
      omega

theorem Agent.Entry.Bounded.encode_le {entry : Entry}
    (bounded : entry.Bounded) : Json.size entry.encode ≤ 60000 := by
  have path := Json.size_string_le entry.path
  have few := bounded.path
  have kind : Json.size (Json.string entry.kind) ≤ 20 := by
    have each : ∀ kind ∈ kinds, Json.size (Json.string kind) ≤ 20 := by decide
    exact each entry.kind bounded.kind
  have size := @fieldSize_optional_le "size" _ bounded.size (by decide)
  have time := @fieldSize_optional_le "modifiedAt" _ bounded.modifiedAt
    (by decide)
  have pathName : Json.size (Json.string "path".toList) = 6 := by decide
  have kindName : Json.size (Json.string "type".toList) = 6 := by decide
  apply Nat.le_trans (Json.size_object_le _)
  rw [List.map_append, List.map_append, List.sum_append, List.sum_append,
    List.map_cons, List.map_singleton, List.sum_cons, List.sum_singleton,
    Json.fieldSize, Json.fieldSize]
  dsimp only
  rw [maxPathBytes] at few
  omega

/-- An answer has room for one such entry. -/
theorem Agent.Entry.Bounded.candidate_le {entry : Entry}
    (bounded : entry.Bounded) (isDirectory : Option Bool) :
    (listingCandidate isDirectory [entry]).encodedSize ≤ 70000 := by
  have entries := bounded.encode_le
  have array : Json.size (Json.array [entry.encode]) ≤ 60002 := by
    rw [Json.size_array, Json.size_separated_cons, List.map_nil, List.sum_nil]
    exact Nat.add_le_add_right entries 2
  have entriesName : Json.size (Json.string "entries".toList) = 9 := by decide
  have truncated : Json.fieldSize ("truncated", Json.boolean false) = 18 := by
    decide
  have directory : ((optional "isDirectory" Json.boolean
      isDirectory).map Json.fieldSize).sum ≤ 100 := by
    rcases isDirectory with _ | _ | _ <;> decide
  have fields : (listingCandidate isDirectory [entry]).fields =
      ("entries", Json.array [entry.encode]) ::
        (optional "isDirectory" Json.boolean isDirectory ++
          [("truncated", Json.boolean false)]) := by
    simp [FileResponse.fields, listingCandidate, optional]
  rw [FileResponse.encodedSize, fields]
  apply Nat.le_trans (Json.size_object_le _)
  rw [List.map_cons, List.map_append, List.sum_cons, List.sum_append,
    List.map_singleton, List.sum_singleton, truncated, Json.fieldSize]
  dsimp only
  omega

theorem Agent.DirectoryItem.WithinLimits.bounded {directory : Text}
    {item : DirectoryItem} (within : item.WithinLimits directory) :
    (item.entry directory).Bounded := by
  constructor
  · have name := Utf8.length_decodeLossy_le item.name
    have parent := Utf8.length_le_encode directory
    have few := within.path
    rw [DirectoryItem.pathBytes] at few
    have relative : (if directory = [] then Utf8.decodeLossy item.name
        else directory ++ '/' :: Utf8.decodeLossy item.name).length ≤
          maxPathBytes := by
      split
      case isTrue isRoot =>
        rw [if_pos isRoot] at few
        exact Nat.le_trans name few
      case isFalse inside =>
        rw [if_neg inside, List.length_append, List.length_cons] at few
        rw [List.length_append, List.length_cons]
        omega
    dsimp only [DirectoryItem.entry]
    split
    case isTrue =>
      rw [List.length_append]
      exact Nat.add_le_add_right relative 1
    case isFalse => exact Nat.le_succ_of_le relative
  · exact within.kind
  · intro size isSize
    dsimp only [DirectoryItem.entry] at isSize
    split at isSize
    case isTrue =>
      cases isSize
      exact within.size
    case isFalse => cases isSize
  · intro time isTime
    cases isTime
    exact within.modifiedAt

/-! ## Directories -/

theorem readDirectory_accepted {service : FileService} {path : Text}
    {items : List DirectoryItem} {limit : Nat} {cursor : Option Text}
    {response : FileResponse}
    (answered : service.readDirectory path items limit cursor = .ok response) :
    (1 ≤ limit ∧ limit ≤ 10000) ∧
      ∃ rank, cursor.mapM service.directoryRank = .ok rank := by
  rw [FileService.readDirectory] at answered
  split at answered
  case isTrue => cases answered
  case isFalse limited =>
    refine ⟨by omega, ?_⟩
    cases cursor with
    | none => exact ⟨none, rfl⟩
    | some text =>
        rw [Option.mapM_some] at answered ⊢
        rw [FileService.directoryRank]
        cases decoded : service.directoryCursor.decodeCursor text with
        | error failure =>
            rw [decoded] at answered
            cases answered
        | ok value => exact ⟨_, rfl⟩

theorem directory_handsBack_iff {service : FileService} {path : Text}
    {items : List DirectoryItem} (valid : validateRelative path true = .ok ())
    (opened : service.openExisting path = .ok (.directory items))
    (within : ∀ item ∈ items, item.WithinLimits path) :
    HandsBack (service.reads path) service.directoryCursor ↔
      ∀ entry ∈ (directoryEntries path items).dropLast,
        ShortPosition (DirectoryCursor.encode { path := entry.path }) := by
  have same := List.perm_insertionSort byPath
    (items.map (DirectoryItem.entry path))
  constructor
  · intro back entry member
    have reads : DirectoryListing service path items (some 1) :=
      { valid, opened, limit := by decide }
    have alone : Alone (entryRoom 1 maxReadResponseBytes (some true))
        (directoryEntries path items) := by
      apply alone_of_small same (Nat.le_refl 1)
      intro entry isEntry
      obtain ⟨item, isItem, rfl⟩ := List.mem_map.mp isEntry
      have small := (within item isItem).bounded.candidate_le (some true)
      exact Nat.le_trans small (by decide)
    apply (acceptsCursor_iff _).mp
    refine reads.listing.accepts_of_back alone ?_ ?_ entry member
    · intro entry _ other _ sameRank
      rw [Entry.directoryCursor, Entry.directoryCursor, byteOrder_injective
        (congrArg (fun rank : Rank => (ofLex rank).2) sameRank)]
    · intro cursor response next isAccepted answered isNext
      obtain ⟨_, -, comesBack⟩ := back { path, limit := some 1 } cursor
        response next isAccepted answered isNext
      exact comesBack.accepted
  · intro short
    apply handsBack_of_short
    intro request cursor response next answered isNext
    obtain ⟨-, read | listed⟩ := fileRead_node answered opened
    · obtain ⟨_, _, isDirectory, -⟩ := read
      cases isDirectory
    · obtain ⟨_, isDirectory, ranges, offset, listed⟩ := listed
      cases isDirectory
      obtain ⟨limited, rank, decoded⟩ := readDirectory_accepted listed
      have reads : DirectoryListing service path items request.limit :=
        { valid, opened, limit := limited }
      have plain : service.fileRead
          { path, limit := request.limit, cursor } = .ok response := by
        rw [FileService.reads] at answered
        cases request
        cases ranges
        cases offset
        exact answered
      obtain ⟨last, isLast, rfl⟩ :=
        reads.listing.next_of_call decoded plain isNext
      exact ⟨_, rfl, short last isLast⟩

/-! ## Searches for paths -/

/-- The calls of one search, with any limit. -/
def Agent.GlobService.globs (service : GlobService) (request : GlobRequest) :
    Calls Nat :=
  fun limit cursor => service.fileGlob { request with limit, cursor }

structure Agent.GlobItem.WithinLimits (item : GlobItem) : Prop where
  path : item.name.length ≤ maxPathBytes
  kind : ∀ kind ∈ item.kind, kind ∈ kinds
  size : item.size < 2 ^ 64

theorem Agent.GlobItem.WithinLimits.bounded {isMatch : Text → Bool}
    {item : GlobItem} {entry : Entry} (within : item.WithinLimits)
    (isEntry : item.entry isMatch = some entry) : entry.Bounded := by
  have few : item.path.length ≤ maxPathBytes := by
    rw [GlobItem.path, List.length_map]
    exact Nat.le_trans (Utf8.length_decodeLossy_le _) within.path
  unfold GlobItem.entry at isEntry
  split at isEntry
  case h_1 => cases isEntry
  case h_2 kind isKind =>
    dsimp only at isEntry
    split at isEntry
    case isFalse => cases isEntry
    case isTrue =>
      cases isEntry
      constructor
      · dsimp only
        split
        case isTrue =>
          rw [List.length_append]
          exact Nat.add_le_add_right few 1
        case isFalse => exact Nat.le_succ_of_le few
      · exact within.kind kind isKind
      · intro size isSize
        dsimp only at isSize
        split at isSize
        case isTrue =>
          cases isSize
          exact within.size
        case isFalse => cases isSize
      · intro time isTime
        cases isTime
        exact UInt64.toNat_lt item.modifiedAt

theorem mapM_globRank_of_same {service : GlobService} {sort : Text}
    {cursor : Option Text} {value : Option GlobCursor}
    (decoded : cursor.mapM service.globCursor.decodeCursor = .ok value)
    (same : ∀ cursor ∈ value, cursor.sort = sort) :
    cursor.mapM (service.globRank sort) =
      .ok (value.map (GlobCursor.rank sort)) := by
  cases cursor with
  | none =>
      cases decoded
      rfl
  | some text =>
      rw [Option.mapM_some] at decoded ⊢
      rw [GlobService.globRank]
      cases isValue : service.globCursor.decodeCursor text with
      | error failure =>
          rw [isValue] at decoded
          cases decoded
      | ok cursor =>
          rw [isValue] at decoded
          cases decoded
          dsimp only [Bind.bind, Except.bind]
          rw [if_neg (not_not.mpr (same cursor rfl))]
          rfl

/-- What a search that is answered has passed. -/
theorem fileGlob_accepted {service : GlobService} {request : GlobRequest}
    {response : FileResponse}
    (answered : service.fileGlob request = .ok response) :
    ∃ isMatch rank, GlobListing service request isMatch ∧
      request.cursor.mapM (service.globRank request.sort) = .ok rank := by
  rw [GlobService.fileGlob] at answered
  split at answered
  case isTrue => cases answered
  case isFalse admitted =>
    rw [not_or, not_or] at admitted
    dsimp only at answered
    cases checked : (request.patterns.forM fun pattern => do
        validatePattern pattern
        service.buildGlob pattern) with
    | error failure =>
        rw [checked] at answered
        cases answered
    | ok =>
        rw [checked] at answered
        cases built : service.buildGlobSet request.patterns with
        | error failure =>
            change (service.buildGlobSet request.patterns >>= _) = _
              at answered
            rw [built] at answered
            cases answered
        | ok isMatch =>
            change (service.buildGlobSet request.patterns >>= _) = _
              at answered
            rw [built] at answered
            change (Option.mapM service.globCursor.decodeCursor request.cursor
              >>= _) = _ at answered
            cases decoded : request.cursor.mapM
                service.globCursor.decodeCursor with
            | error failure =>
                rw [decoded] at answered
                cases answered
            | ok value =>
                rw [decoded] at answered
                dsimp only [Bind.bind, Except.bind] at answered
                split at answered
                case isTrue => cases answered
                case isFalse sameSort =>
                  split at answered
                  case isTrue => cases answered
                  case isFalse known =>
                    have same : ∀ cursor ∈ value,
                        cursor.sort = request.sort := by
                      intro cursor isCursor
                      cases isCursor
                      simpa using sameSort
                    refine ⟨isMatch, _, ?_,
                      mapM_globRank_of_same decoded same⟩
                    constructor
                    · exact admitted.1
                    · exact checked
                    · exact built
                    · rw [ValidSort]
                      by_contra neither
                      exact known (not_or.mp neither)
                    · omega

theorem glob_handsBack_of_short {service : GlobService}
    {request : GlobRequest}
    (short : ∀ isMatch,
      service.buildGlobSet request.patterns = .ok isMatch →
      ∀ entry ∈ (service.globEntries request isMatch).dropLast,
        ShortPosition (GlobCursor.encode (entry.globCursor request.sort))) :
    HandsBack (service.globs request) service.globCursor := by
  apply handsBack_of_short
  intro limit cursor response next answered isNext
  obtain ⟨isMatch, rank, searches, decoded⟩ :=
    @fileGlob_accepted service { request with limit, cursor } _ answered
  obtain ⟨last, isLast, rfl⟩ :=
    searches.listing.next_of_call decoded answered isNext
  exact ⟨_, rfl, short isMatch searches.built last isLast⟩

/-- The position of an entry is that of its path and, where the newest come
first, its time. -/
theorem globCursor_of_rank {service : GlobService} {request : GlobRequest}
    {isMatch : Text → Bool} (oneTime : request.sort = byName →
      ∀ entry ∈ service.globEntries request isMatch,
        ∀ other ∈ service.globEntries request isMatch,
        entry.path = other.path → entry.modifiedAt = other.modifiedAt)
    {entry other : Entry}
    (isEntry : entry ∈ service.globEntries request isMatch)
    (isOther : other ∈ service.globEntries request isMatch)
    (same : entry.rank request.sort = other.rank request.sort) :
    entry.globCursor request.sort = other.globCursor request.sort := by
  have path : entry.path = other.path := byteOrder_injective
    (congrArg (fun rank : Rank => (ofLex rank).2) same)
  have time : entry.modifiedAt = other.modifiedAt := by
    by_cases named : request.sort = byName
    · exact oneTime named entry isEntry other isOther path
    · have present : ∀ entry ∈ service.globEntries request isMatch,
          entry.modifiedAt = some entry.time := by
        intro entry member
        obtain ⟨item, -, isEntry⟩ := List.mem_filterMap.mp
          ((sortEntries_perm request.sort _).mem_iff.mp member)
        unfold GlobItem.entry at isEntry
        split at isEntry
        case h_1 => cases isEntry
        case h_2 =>
          dsimp only at isEntry
          split at isEntry
          case isFalse => cases isEntry
          case isTrue =>
            cases isEntry
            rfl
      have times := congrArg
        (fun rank : Rank => OrderDual.ofDual (ofLex rank).1) same
      dsimp only [Entry.rank] at times
      rw [if_neg named, if_neg named] at times
      rw [present entry isEntry, present other isOther]
      exact congrArg some times
  rw [Entry.globCursor, Entry.globCursor, path, time]

theorem short_of_glob_handsBack {service : GlobService}
    {request : GlobRequest} {isMatch : Text → Bool}
    (searches : GlobListing service { request with limit := 1 } isMatch)
    (within : ∀ item ∈ service.walk request.gitignore request.hidden,
      item.WithinLimits)
    (oneTime : request.sort = byName →
      ∀ entry ∈ service.globEntries request isMatch,
        ∀ other ∈ service.globEntries request isMatch,
        entry.path = other.path → entry.modifiedAt = other.modifiedAt)
    (back : HandsBack (service.globs request) service.globCursor) :
    ∀ entry ∈ (service.globEntries request isMatch).dropLast,
      ShortPosition (GlobCursor.encode (entry.globCursor request.sort)) := by
  intro entry member
  have alone : Alone (entryRoom 1 maxSearchResponseBytes none)
      (service.globEntries request isMatch) := by
    apply alone_of_small (sortEntries_perm request.sort _) (Nat.le_refl 1)
    intro entry isEntry
    obtain ⟨item, isItem, isMatching⟩ := List.mem_filterMap.mp isEntry
    have small := ((within item isItem).bounded isMatching).candidate_le none
    exact Nat.le_trans small (by decide)
  apply (acceptsCursor_iff _).mp
  refine searches.listing.accepts_of_back alone ?_ ?_ entry member
  · intro entry isEntry other isOther sameRank
    have sameCursor := globCursor_of_rank oneTime isEntry isOther sameRank
    exact congrArg (fun cursor => encodeCursor (GlobCursor.encode cursor))
      sameCursor
  · intro cursor response next isAccepted answered isNext
    obtain ⟨_, -, comesBack⟩ := back 1 cursor response next isAccepted answered
      isNext
    exact comesBack.accepted

/-! ## Searches for a pattern -/

/-- The calls of one search, with any limit. -/
def Agent.GrepService.greps (service : GrepService) (request : GrepRequest) :
    Calls Nat :=
  fun limit cursor => service.fileGrep { request with limit, cursor }

/-- What a search that is answered has passed. -/
theorem fileGrep_greppable {service : GrepService} {request : GrepRequest}
    {response : FileResponse}
    (answered : service.fileGrep request = .ok response) :
    ∃ full skipped cursor,
      Greppable service request full skipped cursor := by
  rw [GrepService.fileGrep] at answered
  split at answered
  case isTrue => cases answered
  case isFalse admitted =>
    cases isMatcher : service.compile request.pattern
        request.caseSensitive with
    | error =>
        rw [isMatcher] at answered
        cases answered
    | ok matcher =>
        cases isGlobs : service.buildPathMatcher request.paths with
        | error =>
            rw [isMatcher, isGlobs] at answered
            cases answered
        | ok pathMatcher =>
            cases decoded : request.cursor.mapM
                service.grepCursor.decodeCursor with
            | error =>
                rw [isMatcher, isGlobs, decoded] at answered
                cases answered
            | ok cursor =>
                have offered := scanFiles_collect GrepAccumulator.add
                  { limit := request.limit, cursor } matcher
                  (crossesLines request.pattern) request.contextBefore
                  request.contextAfter [] 0
                  (((service.walk request.gitignore).filter fun file =>
                    pathMatcher.all fun isMatch =>
                      isMatch file.path).insertionSort byFilePath)
                rw [isMatcher, isGlobs, decoded] at answered
                change (scanFiles GrepAccumulator.add matcher
                  (crossesLines request.pattern) request.contextBefore
                  request.contextAfter { limit := request.limit, cursor } 0 _
                    >>= _) = _ at answered
                rw [List.foldl_nil] at offered
                rw [offered] at answered
                cases scanned : service.allMatches request with
                | error failure =>
                    rw [GrepService.allMatches, isMatcher, isGlobs] at scanned
                    change scanFiles collect _ _ _ _ _ _ _ = _ at scanned
                    rw [scanned] at answered
                    cases answered
                | ok result =>
                    refine ⟨result.1, result.2, cursor, ?_⟩
                    constructor
                    · omega
                    · omega
                    · exact decoded
                    · exact scanned

theorem hasSpace_sized : Sized hasSpace := by
  constructor
  · intro page item room
    rw [hasSpace, Bool.and_eq_true, decide_eq_true_iff] at room
    exact List.length_eq_zero_iff.mp (Nat.lt_one_iff.mp room.1)
  · intro limit page item room
    have fits := (Bool.and_eq_true_iff.mp room).2
    rw [decide_eq_true_iff, matchesFit, encodedSize_grepCandidate] at fits
    rw [hasSpace, Bool.and_eq_true, decide_eq_true_iff, decide_eq_true_iff,
      matchesFit, encodedSize_grepCandidate]
    refine ⟨Nat.one_pos, ?_⟩
    have single : Json.size (Json.array [item.value.encode]) ≤
        Json.size (Json.array ((page.map CountedMatch.value ++
          [item.value]).map GrepMatch.encode)) := by
      rw [List.map_append, List.map_singleton, Json.size_array,
        Json.size_array]
      cases page.map CountedMatch.value with
      | nil => exact Nat.le_refl _
      | cons value values =>
          rw [List.map_cons, List.cons_append, Json.size_separated_cons,
            Json.size_separated_cons, List.map_append, List.sum_append]
          simp only [List.map_nil, List.sum_nil, List.map_cons, List.sum_cons]
          omega
    rw [List.map_nil, List.nil_append, List.map_singleton]
    omega

section Grep

variable {service : GrepService} {request : GrepRequest}
  {full : List Found} {skipped : Nat} {cursor : Option GrepCursor}

theorem sought_none : soughtMatches none full = full.zipIdx 1 := by
  rw [soughtMatches, beyond]
  exact List.filter_true _

/-- A cursor leaves what is past its position. -/
theorem sought_eq_pastCursor (cursor : Option GrepCursor) :
    soughtMatches cursor full =
      pastCursor CountedMatch.position
        (cursor.map fun place => toLex (byteOrder place.path, place.byteOffset))
        (full.zipIdx 1) := by
  cases cursor with
  | none => exact sought_none
  | some place =>
      rw [soughtMatches, beyond, Option.map_some, pastCursor, past]
      apply List.filter_congr
      intro item _
      have covered := covers_iff place item.1
      rw [Option.any_some, Bool.eq_iff_iff, Bool.not_eq_true',
        ← Bool.not_eq_true, covered, not_le, decide_eq_true_eq]
      rfl

/-- Where two matches have one position, they have one cursor. -/
theorem cursor_of_position {item other : CountedMatch}
    (same : item.position = other.position) :
    item.1.cursor = other.1.cursor := by
  have path := byteOrder_injective
    (congrArg (fun position : List ℕ ×ₗ ℕ => (ofLex position).1) same)
  have offset :=
    congrArg (fun position : List ℕ ×ₗ ℕ => (ofLex position).2) same
  rw [Found.cursor, Found.cursor, path]
  exact congrArg (GrepCursor.mk other.1.path) offset

/-- The answer to a request that is cut after a match. -/
theorem Agent.Greppable.cut {item : CountedMatch}
    (greppable : Greppable service request full skipped cursor)
    (cut : CutAfter (hasSpace request.limit) (soughtMatches cursor full)
      item) :
    ∃ response, service.fileGrep request = .ok response ∧
      response.nextCursor = some (encodeCursor item.1.cursor.encode) := by
  refine ⟨_, fileGrep_eq greppable, ?_⟩
  rw [grepAnswer, cut.last]
  dsimp only
  rw [if_pos (by simpa using cut.more)]
  rfl

/-- The cursor of an answer is the position of the match it is cut after. -/
theorem fileGrep_next {response : FileResponse} {next : Text}
    (answered : service.fileGrep request = .ok response)
    (isNext : response.nextCursor = some next) :
    ∃ full skipped cursor item,
      Greppable service request full skipped cursor ∧
      CutAfter (hasSpace request.limit) (soughtMatches cursor full) item ∧
      next = encodeCursor item.1.cursor.encode := by
  obtain ⟨full, skipped, cursor, greppable⟩ := fileGrep_greppable answered
  rw [fileGrep_eq greppable] at answered
  cases answered
  dsimp only [grepAnswer] at isNext
  split at isNext
  case isFalse => cases isNext
  case isTrue cut =>
    obtain ⟨last, isLast, isCursor⟩ := Option.map_eq_some_iff.mp isNext
    exact ⟨full, skipped, cursor, last, greppable,
      { more := by simpa using cut, last := isLast }, isCursor.symm⟩

/-- The match that an answer is cut after is one of the matches. -/
theorem mem_of_cutAfter {limit : Nat} {item : CountedMatch}
    (cut : CutAfter (hasSpace limit) (soughtMatches cursor full) item) :
    item ∈ full.zipIdx 1 :=
  List.mem_of_mem_filter cut.mem

theorem grep_handsBack_of_short
    (short : ∀ full skipped,
      service.allMatches request = .ok (full, skipped) →
      ∀ found ∈ full, ShortPosition found.cursor.encode) :
    HandsBack (service.greps request) service.grepCursor := by
  apply handsBack_of_short
  intro limit cursor response next answered isNext
  obtain ⟨full, skipped, _, item, greppable, cut, isCursor⟩ :=
    @fileGrep_next service { request with limit, cursor } _ _ answered isNext
  have member := List.mem_map_of_mem (f := Prod.fst) (mem_of_cutAfter cut)
  rw [List.zipIdx_map_fst] at member
  exact ⟨_, isCursor, short full skipped greppable.scanned item.1 member⟩

/-- Every match that an answer can be cut after has a short position. -/
def ShortWhereCut (full : List Found) : Prop :=
  ∀ limit cursor item, 1 ≤ limit ∧ limit ≤ 10000 →
    CutAfter (hasSpace limit) (soughtMatches cursor full) item →
    ShortPosition item.1.cursor.encode

theorem grep_handsBack_iff_cut
    (scanned : service.allMatches request = .ok (full, skipped))
    (context : request.contextBefore ≤ 10 ∧ request.contextAfter ≤ 10)
    (distinct : ((service.walk request.gitignore).map GrepFile.path).Nodup) :
    HandsBack (service.greps request) service.grepCursor ↔
      ShortWhereCut full := by
  have greppable : ∀ limit, 1 ≤ limit ∧ limit ≤ 10000 →
      ∀ (text : Option Text) cursor,
      text.mapM service.grepCursor.decodeCursor = .ok cursor →
      Greppable service { request with limit, cursor := text } full skipped
        cursor :=
    fun limit allowed text cursor decoded =>
      { limit := allowed, context, decoded, scanned }
  constructor
  · intro back limit cursor item allowed cut
    have first := greppable 1 (by decide) none none rfl
    have ordered := first.ordered distinct
    rw [sought_none] at ordered
    let holds (position : List ℕ ×ₗ ℕ) : Prop :=
      ∀ item ∈ full.zipIdx 1, CountedMatch.position item = position →
        ShortPosition item.1.cursor.encode
    -- A request with an accepted cursor is answered with an accepted cursor.
    have answers : ∀ limit, 1 ≤ limit ∧ limit ≤ 10000 →
        ∀ (text : Option Text) cursor,
        (∀ cursor ∈ text, acceptsCursor cursor = true) →
        text.mapM service.grepCursor.decodeCursor = .ok cursor →
        ∀ item, CutAfter (hasSpace limit) (soughtMatches cursor full) item →
          holds (CountedMatch.position item) := by
      intro limit allowed text cursor isAccepted decoded item cut other _ same
      obtain ⟨response, answered, isNext⟩ :=
        (greppable limit allowed text cursor decoded).cut cut
      obtain ⟨_, -, comesBack⟩ :=
        back limit text response _ isAccepted answered isNext
      rw [cursor_of_position same]
      exact (acceptsCursor_iff _).mp comesBack.accepted
    have member := mem_of_cutAfter cut
    rw [sought_eq_pastCursor] at cut
    suffices short : holds (CountedMatch.position item) from
      short item member rfl
    have one : 1 ≤ 1 ∧ 1 ≤ 10000 := by decide
    let permitted (limit : Nat) : Prop := 1 ≤ limit ∧ limit ≤ 10000
    have isPermitted : permitted limit := allowed
    refine ordered.cutAfter_induction hasSpace_sized one ?_ ?_ _ isPermitted
      cut
    · intro limit item allowed cut
      rw [← sought_none] at cut
      exact answers limit allowed none none (by simp) rfl item cut
    · intro before isBefore short limit item allowed cut
      have isShort := short before isBefore rfl
      have isSought := beyond_cursor none full (sought_none ▸ isBefore)
      rw [sought_none] at isSought
      apply answers limit allowed
        (some (encodeCursor before.1.cursor.encode)) (some before.1.cursor)
      · rintro _ ⟨⟩
        exact (acceptsCursor_iff _).mpr isShort
      · rw [Option.mapM_some, CursorReader.decodeCursor_encode]
        rfl
      · rw [isSought]
        exact cut
  · intro short
    apply handsBack_of_short
    intro limit cursor response next answered isNext
    obtain ⟨all, skipped', _, item, greppable, cut, isCursor⟩ :=
      @fileGrep_next service { request with limit, cursor } _ _ answered isNext
    have sameScan := scanned.symm.trans greppable.scanned
    cases sameScan
    exact ⟨_, isCursor, short limit _ item greppable.limit cut⟩

/-- No answer returns the match once it has passed over another one. -/
def NeverAfterGap (full : List Found) (item : CountedMatch) : Prop :=
  ∀ limit cursor, 1 ≤ limit ∧ limit ≤ 10000 →
    item ∈ select (hasSpace limit) [] (soughtMatches cursor full) →
    select (hasSpace limit) [] (soughtMatches cursor full) =
      soughtMatches cursor full

/-- Matches that fit in an answer have short positions, the last one only if
an answer can end in it. -/
structure ShortPositions (full : List Found) : Prop where
  before : ∀ item ∈ (full.zipIdx 1).dropLast, hasSpace 1 [] item = true →
    ShortPosition item.1.cursor.encode
  last : ∀ item ∈ (full.zipIdx 1).getLast?,
    ShortPosition item.1.cursor.encode ∨ NeverAfterGap full item

theorem nodup_counted (full : List Found) : (full.zipIdx 1).Nodup := by
  apply List.Nodup.of_map Prod.snd
  rw [List.zipIdx_map_snd]
  exact List.nodup_range'

theorem shortWhereCut_iff
    (ordered : Ordered CountedMatch.position (full.zipIdx 1)) :
    ShortWhereCut full ↔ ShortPositions full := by
  constructor
  · intro short
    constructor
    · intro item member fits
      obtain ⟨position, found, cut, same, isPlace⟩ :=
        ordered.cut_at hasSpace_sized member fits
      rw [← cursor_of_position same]
      cases position with
      | none =>
          apply short 1 none found (by decide)
          rw [sought_none]
          exact cut
      | some place =>
          obtain ⟨before, isBefore, rfl⟩ := isPlace place rfl
          apply short 1 (some before.1.cursor) found (by decide)
          rw [sought_eq_pastCursor]
          exact cut
    · intro item isLast
      by_cases isShort : ShortPosition item.1.cursor.encode
      · exact .inl isShort
      · right
        intro limit cursor allowed taken
        by_contra gap
        apply isShort
        apply short limit cursor item allowed
        obtain ⟨page, isPage, within⟩ := select_sublist (hasSpace limit) []
          (soughtMatches cursor full)
        rw [List.nil_append] at isPage
        constructor
        · intro stops
          exact gap (select_eq_all_iff.mpr stops)
        · rw [isPage] at taken ⊢
          exact getLast?_of_sublist (nodup_counted full) isLast
            (within.trans List.filter_sublist) taken
  · intro short limit cursor item allowed cut
    have member := mem_of_cutAfter cut
    obtain ⟨page, fits⟩ := cut.accepted
    have alone := hasSpace_sized.alone limit page item fits
    rcases List.eq_nil_or_concat (full.zipIdx 1) with
      nothing | ⟨init, last, isAll⟩
    · rw [nothing] at member
      cases member
    · rw [List.concat_eq_append] at isAll
      rw [isAll] at member
      rcases List.mem_append.mp member with isInit | isLast
      · apply short.before item _ alone
        rw [isAll, List.dropLast_concat]
        exact isInit
      · obtain rfl := List.mem_singleton.mp isLast
        rcases short.last item (by rw [isAll, List.getLast?_concat]; rfl)
          with isShort | never
        · exact isShort
        · have whole := never limit cursor allowed
            (List.mem_of_getLast? cut.last)
          exact absurd (select_eq_all_iff.mp whole) cut.more

/-- The cursors of a search come back exactly if the positions of its matches
are short where an answer can end in them. -/
theorem grep_handsBack_iff
    (scanned : service.allMatches request = .ok (full, skipped))
    (context : request.contextBefore ≤ 10 ∧ request.contextAfter ≤ 10)
    (distinct : ((service.walk request.gitignore).map GrepFile.path).Nodup) :
    HandsBack (service.greps request) service.grepCursor ↔
      ShortPositions full := by
  have one : 1 ≤ 1 ∧ 1 ≤ 10000 := by decide
  have greppable : Greppable service { request with limit := 1, cursor := none }
      full skipped none :=
    { limit := one, context, decoded := rfl, scanned }
  have ordered := greppable.ordered distinct
  rw [sought_none] at ordered
  exact (grep_handsBack_iff_cut scanned context distinct).trans
    (shortWhereCut_iff ordered)

end Grep

/-! ## All cursors -/

/-- The cursor of a line always comes back.  Those of a directory come back
exactly if the positions of all its entries but the last are short, and those
of a search for paths if the positions of what it finds are.  A search for a
pattern needs short positions exactly where an answer can end: in each match
that fits in an answer, and in the last one only after a gap. -/
theorem cursors_come_back_iff (files : FileService) (path : Text)
    (globs : GlobService) (glob : GlobRequest) (greps : GrepService)
    (grep : GrepRequest) :
    (∀ size bytes, files.openExisting path = .ok (.file size bytes) →
      bytes.length ≤ usizeMax →
      HandsBack (files.reads path) files.readCursor) ∧
    (∀ items, validateRelative path true = .ok () →
      files.openExisting path = .ok (.directory items) →
      (∀ item ∈ items, item.WithinLimits path) →
      (HandsBack (files.reads path) files.directoryCursor ↔
        ∀ entry ∈ (directoryEntries path items).dropLast,
          ShortPosition (DirectoryCursor.encode { path := entry.path }))) ∧
    ((∀ isMatch, globs.buildGlobSet glob.patterns = .ok isMatch →
        ∀ entry ∈ (globs.globEntries glob isMatch).dropLast,
          ShortPosition (GlobCursor.encode (entry.globCursor glob.sort))) →
      HandsBack (globs.globs glob) globs.globCursor) ∧
    (∀ isMatch, GlobListing globs { glob with limit := 1 } isMatch →
      (∀ item ∈ globs.walk glob.gitignore glob.hidden, item.WithinLimits) →
      (glob.sort = byName →
        ∀ entry ∈ globs.globEntries glob isMatch,
          ∀ other ∈ globs.globEntries glob isMatch,
          entry.path = other.path → entry.modifiedAt = other.modifiedAt) →
      HandsBack (globs.globs glob) globs.globCursor →
      ∀ entry ∈ (globs.globEntries glob isMatch).dropLast,
        ShortPosition (GlobCursor.encode (entry.globCursor glob.sort))) ∧
    ((∀ full skipped, greps.allMatches grep = .ok (full, skipped) →
        ∀ found ∈ full, ShortPosition found.cursor.encode) →
      HandsBack (greps.greps grep) greps.grepCursor) ∧
    ∀ full skipped, greps.allMatches grep = .ok (full, skipped) →
      grep.contextBefore ≤ 10 ∧ grep.contextAfter ≤ 10 →
      ((greps.walk grep.gitignore).map GrepFile.path).Nodup →
      (HandsBack (greps.greps grep) greps.grepCursor ↔
        ShortPositions full) := by
  constructor
  · intro size bytes opened small
    exact file_handsBack opened small
  constructor
  · intro items valid opened within
    exact directory_handsBack_iff valid opened within
  constructor
  · exact glob_handsBack_of_short
  constructor
  · intro isMatch searches within oneTime back
    exact short_of_glob_handsBack searches within oneTime back
  constructor
  · exact grep_handsBack_of_short
  · intro full skipped scanned context distinct
    exact grep_handsBack_iff scanned context distinct

/-! ## Two entries each -/

private def plainFile : FileService where
  openExisting _ := .ok (.file 2 [0x61, 0x0A])
  sha256 _ := .ofOneLine
  readCursor := ReadCursor.reader
  directoryCursor := DirectoryCursor.reader

private def plainItems : List DirectoryItem :=
  [{ name := [0x62], kind := fileKind, size := 1, modifiedAt := 5 },
    { name := [0x61], kind := directoryKind, size := 0, modifiedAt := 7 }]

private def plainDirectory : FileService :=
  { plainFile with openExisting _ := .ok (.directory plainItems) }

private def plainGlob : GlobService where
  buildGlob _ := .ok ()
  buildGlobSet _ := .ok fun _ => true
  walk _ _ :=
    [{ name := [0x62], kind := some fileKind, size := 1, modifiedAt := 5 },
      { name := [0x61], kind := some fileKind, size := 1, modifiedAt := 7 }]
  globCursor := GlobCursor.reader

private def plainGlobRequest : GlobRequest where
  patterns := ["*".toList]
  limit := 1
  cursor := none
  gitignore := true
  hidden := false
  sort := byModified

private def plainGrep : GrepService where
  compile _ _ := .ok { isMatch := fun _ => .ok true, spans := fun _ => .ok [] }
  buildPathMatcher _ := .ok none
  walk _ := [{ name := [0x66], bytes := [0x61, 0x0A, 0x62, 0x0A] }]
  grepCursor := GrepCursor.reader

private def plainGrepRequest : GrepRequest where
  pattern := ['.']
  paths := []
  limit := 1
  cursor := none
  caseSensitive := true
  contextBefore := 0
  contextAfter := 0
  gitignore := true

private def plainFound (line byteOffset : Nat) (text : Text) : Found where
  path := ['f']
  byteOffset
  value :=
    { path := ['f'], line, text, contextBefore := none, contextAfter := none }

/-- A file, a directory and two searches whose cursors all come back. -/
theorem cursors_come_back_iff_plain :
    HandsBack (plainFile.reads ['f']) plainFile.readCursor ∧
      HandsBack (plainDirectory.reads []) plainDirectory.directoryCursor ∧
      HandsBack (plainGlob.globs plainGlobRequest) plainGlob.globCursor ∧
      (∀ entry ∈ (plainGlob.globEntries plainGlobRequest
          fun _ => true).dropLast,
        ShortPosition (GlobCursor.encode (entry.globCursor byModified))) ∧
      HandsBack (plainGrep.greps plainGrepRequest) plainGrep.grepCursor ∧
      ShortPositions [plainFound 1 0 ['a'], plainFound 2 2 ['b']] := by
  obtain ⟨file, -⟩ := cursors_come_back_iff plainFile ['f'] plainGlob
    plainGlobRequest plainGrep plainGrepRequest
  obtain ⟨-, directory, ofGlob, glob, ofGrep, grep⟩ := cursors_come_back_iff
    plainDirectory [] plainGlob plainGlobRequest plainGrep plainGrepRequest
  have globShort : ∀ entry ∈ (plainGlob.globEntries plainGlobRequest
      fun _ => true).dropLast,
      ShortPosition (GlobCursor.encode (entry.globCursor byModified)) := by
    decide
  have globBack := ofGlob (by
    intro isMatch built
    cases built
    exact globShort)
  have scanned : plainGrep.allMatches plainGrepRequest =
      .ok ([plainFound 1 0 ['a'], plainFound 2 2 ['b']], 0) := rfl
  have grepShort : ∀ found ∈ [plainFound 1 0 ['a'], plainFound 2 2 ['b']],
      ShortPosition found.cursor.encode := by
    decide
  have grepBack := ofGrep (by
    intro full skipped isFull
    rw [scanned] at isFull
    cases isFull
    exact grepShort)
  refine ⟨file 2 _ rfl (by decide), ?_, globBack, ?_,
    grepBack, ?_⟩
  · apply (directory plainItems rfl rfl _).mpr
    · decide
    · intro item member
      have bounds : ∀ item ∈ plainItems,
          (item.pathBytes []).length ≤ maxPathBytes ∧ item.kind ∈ kinds ∧
            item.size < 2 ^ 64 ∧ item.modifiedAt < 2 ^ 64 := by
        decide
      obtain ⟨path, kind, size, modifiedAt⟩ := bounds item member
      exact { path, kind, size, modifiedAt }
  · refine glob _ ?_ ?_ ?_ globBack
    · exact
        { patterns := by decide
          checked := rfl
          built := rfl
          sort := .inr rfl
          limit := by decide }
    · intro item member
      have bounds : ∀ item ∈ plainGlob.walk true false,
          item.name.length ≤ maxPathBytes ∧
            (∀ kind ∈ item.kind, kind ∈ kinds) ∧ item.size < 2 ^ 64 := by
        decide
      obtain ⟨path, kind, size⟩ := bounds item member
      exact { path, kind, size }
    · intro named
      exact absurd named (by decide)
  · exact (grep _ _ scanned (by decide) (List.nodup_singleton _)).mp grepBack

/-! ## A deep directory -/

/-- Four names of two hundred letters. -/
private def deepPath : Text :=
  List.replicate 200 'd' ++ '/' :: (List.replicate 200 'd' ++ '/' ::
    (List.replicate 200 'd' ++ '/' :: List.replicate 200 'd'))

private def deepItems : List DirectoryItem :=
  [{ name := [0x61], kind := fileKind, size := 1, modifiedAt := 0 },
    { name := [0x62], kind := fileKind, size := 1, modifiedAt := 0 }]

private def deepService : FileService where
  openExisting _ := .ok (.directory deepItems)
  sha256 _ := emptyContractDigest
  readCursor := ReadCursor.reader
  directoryCursor := DirectoryCursor.reader

private theorem deepPath_length : deepPath.length = 803 := by
  simp only [deepPath, List.length_append, List.length_cons,
    List.length_replicate]

private theorem deepItems_within :
    ∀ item ∈ deepItems, item.WithinLimits deepPath := by
  have path : ∀ item ∈ deepItems,
      (item.pathBytes deepPath).length ≤ maxPathBytes := by
    decide +kernel
  have rest : ∀ item ∈ deepItems, item.kind ∈ kinds ∧
      item.size < 2 ^ 64 ∧ item.modifiedAt < 2 ^ 64 := by
    decide
  intro item member
  obtain ⟨kind, size, modifiedAt⟩ := rest item member
  exact { path := path item member, kind, size, modifiedAt }

/-- The first of the two entries is returned with a cursor of 1088
characters, which the tool refuses. -/
theorem cursor_of_deep_directory :
    (∀ item ∈ deepItems, item.WithinLimits deepPath) ∧
      ¬HandsBack (deepService.reads deepPath) deepService.directoryCursor := by
  refine ⟨deepItems_within, ?_⟩
  intro back
  have short := (directory_handsBack_iff (by decide +kernel) rfl
    deepItems_within).mp back
  have same : (directoryEntries deepPath deepItems).Perm
      (deepItems.map (DirectoryItem.entry deepPath)) :=
    List.perm_insertionSort byPath _
  have two : (directoryEntries deepPath deepItems).dropLast.length = 1 := by
    rw [List.length_dropLast, same.length_eq]
    rfl
  obtain ⟨entry, isEntry⟩ :=
    List.exists_mem_of_length_pos (Nat.lt_of_lt_of_eq Nat.one_pos two.symm)
  have isShort := short entry isEntry
  have long : 803 ≤ entry.path.length := by
    have member := same.mem_iff.mp (List.mem_of_mem_dropLast isEntry)
    obtain ⟨item, -, rfl⟩ := List.mem_map.mp member
    have nonempty : deepPath ≠ [] := by
      intro none
      have length := deepPath_length
      rw [none] at length
      cases length
    dsimp only [DirectoryItem.entry]
    rw [if_neg nonempty]
    split <;> simp only [List.length_append, deepPath_length] <;> omega
  have atLeast := Json.length_le_size_string entry.path
  rw [ShortPosition, DirectoryCursor.encode, Json.size_object] at isShort
  rw [List.map_singleton, Json.size_separated_cons, Json.size_field,
    maxPositionSize] at isShort
  dsimp only at isShort
  omega

end Electrosphere
