import Electrosphere.Agent.FileGrep
import Electrosphere.Foundation.Paging
import Mathlib.Data.List.GetD
import Mathlib.Data.Prod.Lex

/-!
# The order of the matches

Scanning offers the same matches to every accumulator, in the order of their
positions when no two files share a path.
-/

namespace Electrosphere.Agent

open Foundation Foundation.Paging

/-- The accumulator that keeps everything. -/
def collect (found : List Found) (next : Found) : List Found := found ++ [next]

theorem foldl_collect (found more : List Found) :
    more.foldl collect found = found ++ more := by
  induction more generalizing found with
  | nil => exact (List.append_nil found).symm
  | cons next more induction =>
      rw [List.foldl_cons, induction, collect, List.append_assoc]
      rfl

section Scan

variable {σ : Type} (add : σ → Found → σ) (start : σ)

/-! ## Every accumulator is offered the same matches -/

theorem scanBuffer_collect (path : Text) (bytes : Bytes)
    (matcher : PatternMatcher) (crossLine : Bool)
    (contextBefore contextAfter : Nat) (found : List Found) :
    scanBuffer add path bytes matcher crossLine contextBefore contextAfter
        (found.foldl add start) =
      (scanBuffer collect path bytes matcher crossLine contextBefore
        contextAfter found).map fun found => found.foldl add start := by
  unfold scanBuffer
  cases fromUtf8 bytes with
  | none => rfl
  | some text =>
      dsimp only
      cases matchedIndexes matcher crossLine text (lineOffsets text) with
      | error => rfl
      | ok matched =>
          change Except.ok _ = Except.ok _
          rw [foldl_collect]
          dsimp only
          rw [List.foldl_append]

theorem flushReady_collect (found : List Found)
    (pending : List PendingStreamMatch) :
    flushReady add (found.foldl add start) pending =
      ((flushReady collect found pending).1.foldl add start,
        (flushReady collect found pending).2) := by
  induction pending generalizing found with
  | nil => rfl
  | cons ready pending induction =>
      rw [flushReady, flushReady]
      split
      case isTrue =>
        rw [← induction, collect, List.foldl_append]
        rfl
      case isFalse => rfl

theorem scanStream_collect (path : Text) (matcher : PatternMatcher)
    (contextBefore contextAfter lineNumber byteOffset : Nat)
    (before : List Text) (pending : List PendingStreamMatch)
    (found : List Found) (lines : List Bytes) :
    scanStream add path matcher contextBefore contextAfter lineNumber
        byteOffset before pending (found.foldl add start) lines =
      (scanStream collect path matcher contextBefore contextAfter lineNumber
        byteOffset before pending found lines).map
          fun found => found.foldl add start := by
  induction lines generalizing lineNumber byteOffset before pending found with
  | nil =>
      change Except.ok _ = Except.ok _
      rw [foldl_collect]
      dsimp only
      rw [List.foldl_append]
  | cons line lines induction =>
      rw [scanStream, scanStream]
      cases fromUtf8 line with
      | none => rfl
      | some content =>
          dsimp only
          rw [flushReady_collect]
          generalize flushReady collect found
            (pending.map fun value => value.push (trimLineEnding content)) =
              flushed
          cases matcher.isMatch (trimLineEnding content) with
          | error => rfl
          | ok isMatch =>
              change (if isMatch = true then _ else _) =
                Except.map _ (if isMatch = true then _ else _)
              by_cases hit : isMatch = true
              · rw [if_pos hit, if_pos hit]
                by_cases noContext : contextAfter = 0
                · rw [if_pos noContext, if_pos noContext, ← induction,
                    collect, List.foldl_append]
                  rfl
                · rw [if_neg noContext, if_neg noContext, ← induction]
              · rw [if_neg hit, if_neg hit, ← induction]

theorem scanFile_collect (matcher : PatternMatcher) (crossLine : Bool)
    (contextBefore contextAfter : Nat) (file : GrepFile)
    (found : List Found) :
    scanFile add matcher crossLine contextBefore contextAfter file
        (found.foldl add start) =
      (scanFile collect matcher crossLine contextBefore contextAfter file
        found).map fun found => found.foldl add start := by
  unfold scanFile
  split
  · exact scanBuffer_collect add start _ _ _ _ _ _ _
  · exact scanStream_collect add start _ _ _ _ _ _ _ _ _ _

theorem scanFiles_collect (matcher : PatternMatcher) (crossLine : Bool)
    (contextBefore contextAfter : Nat) (found : List Found) (skipped : Nat)
    (files : List GrepFile) :
    scanFiles add matcher crossLine contextBefore contextAfter
        (found.foldl add start) skipped files =
      (scanFiles collect matcher crossLine contextBefore contextAfter found
        skipped files).map fun result =>
          (result.1.foldl add start, result.2) := by
  induction files generalizing found skipped with
  | nil => rfl
  | cons file files induction =>
      rw [scanFiles, scanFiles]
      split
      case isTrue => exact induction found (skipped + 1)
      case isFalse =>
        rw [scanFile_collect]
        cases scanFile collect matcher crossLine contextBefore contextAfter
            file found with
        | error => rfl
        | ok found => exact induction found skipped

end Scan

/-! ## The matches of one file -/

/-- The matches of one file, in the order of their lines. -/
structure FromFile (path : Text) (found : List Found) : Prop where
  own : ∀ next ∈ found, next.path = path
  ascending : found.Pairwise fun earlier later =>
    earlier.byteOffset ≤ later.byteOffset

theorem offsetsFrom_ascending (offset : Nat) (lines : List Text) :
    (∀ line ∈ offsetsFrom offset lines, offset ≤ line.1) ∧
      (offsetsFrom offset lines).Pairwise fun earlier later =>
        earlier.1 ≤ later.1 := by
  induction lines generalizing offset with
  | nil => exact ⟨by simp [offsetsFrom], List.Pairwise.nil⟩
  | cons line lines induction =>
      obtain ⟨bounds, ascending⟩ :=
        induction (offset + (Utf8.encode line).length)
      have below : ∀ later ∈ offsetsFrom
          (offset + (Utf8.encode line).length) lines, offset ≤ later.1 := by
        intro later member
        exact Nat.le_trans (Nat.le_add_right _ _) (bounds later member)
      rw [offsetsFrom]
      constructor
      · intro later member
        rcases List.mem_cons.mp member with rfl | member
        · exact Nat.le_refl _
        · exact below later member
      · exact List.pairwise_cons.mpr ⟨below, ascending⟩

theorem mem_insertIndex {value index : Nat} {indexes : List Nat} :
    index ∈ insertIndex value indexes ↔ index = value ∨ index ∈ indexes := by
  induction indexes with
  | nil => simp [insertIndex]
  | cons head indexes induction =>
      rw [insertIndex]
      split
      · simp
      · split
        case isTrue same => simp [same]
        case isFalse =>
          rw [List.mem_cons, induction, List.mem_cons]
          tauto

theorem insertIndex_ascending {value : Nat} {indexes : List Nat}
    (ascending : indexes.Pairwise (· < ·)) :
    (insertIndex value indexes).Pairwise (· < ·) := by
  induction indexes with
  | nil => exact List.pairwise_singleton _ _
  | cons head indexes induction =>
      obtain ⟨first, later⟩ := List.pairwise_cons.mp ascending
      rw [insertIndex]
      split
      case isTrue less =>
        refine List.pairwise_cons.mpr ⟨?_, ascending⟩
        intro index member
        rcases List.mem_cons.mp member with rfl | member
        · exact less
        · exact Nat.lt_trans less (first index member)
      case isFalse notLess =>
        split
        case isTrue => exact ascending
        case isFalse other =>
          refine List.pairwise_cons.mpr ⟨?_, induction later⟩
          intro index member
          rcases mem_insertIndex.mp member with rfl | member
          · omega
          · exact first index member

/-- Some lines of a file, by their indexes. -/
structure Indexes (count : Nat) (indexes : List Nat) : Prop where
  inside : ∀ index ∈ indexes, index < count
  ascending : indexes.Pairwise (· < ·)

theorem crossedLines_indexes (lines : List (Nat × Text))
    (spans : List (Nat × Nat)) :
    Indexes lines.length (crossedLines lines spans) := by
  unfold crossedLines
  generalize isStart : ([] : List Nat) = indexes
  have holds : Indexes lines.length indexes := by
    rw [← isStart]
    exact ⟨by simp, List.Pairwise.nil⟩
  clear isStart
  induction spans generalizing indexes with
  | nil => exact holds
  | cons span spans induction =>
      rw [List.foldl_cons]
      apply induction
      dsimp only
      split
      case isTrue inside =>
        refine ⟨?_, insertIndex_ascending holds.ascending⟩
        intro index member
        rcases mem_insertIndex.mp member with rfl | member
        · exact inside
        · exact holds.inside index member
      case isFalse => exact holds

theorem matchedLines_bounds {matcher : PatternMatcher} {index : Nat}
    {lines : List (Nat × Text)} {indexes : List Nat}
    (isMatched : matchedLines matcher index lines = .ok indexes) :
    (∀ found ∈ indexes, index ≤ found) ∧
      Indexes (index + lines.length) indexes := by
  induction lines generalizing index indexes with
  | nil =>
      cases isMatched
      exact ⟨by simp, by simp, List.Pairwise.nil⟩
  | cons line lines induction =>
      rw [matchedLines] at isMatched
      cases hit : matcher.isMatch line.2 with
      | error =>
          rw [hit] at isMatched
          cases isMatched
      | ok isMatch =>
          cases later : matchedLines matcher (index + 1) lines with
          | error =>
              rw [hit, later] at isMatched
              cases isMatched
          | ok rest =>
              rw [hit, later] at isMatched
              obtain ⟨bounds, inside, ascending⟩ := induction later
              rw [List.length_cons]
              have inside' : ∀ found ∈ rest, found < index + (lines.length + 1) := by
                intro found member
                have below := inside found member
                omega
              cases isMatched
              split
              case isTrue =>
                refine ⟨?_, ?_, List.pairwise_cons.mpr ⟨bounds, ascending⟩⟩
                · intro found member
                  rcases List.mem_cons.mp member with rfl | member
                  · exact Nat.le_refl _
                  · exact Nat.le_of_lt (bounds found member)
                · intro found member
                  rcases List.mem_cons.mp member with rfl | member
                  · omega
                  · exact inside' found member
              case isFalse =>
                refine ⟨?_, inside', ascending⟩
                intro found member
                exact Nat.le_of_lt (bounds found member)

theorem matchedIndexes_indexes {matcher : PatternMatcher}
    {crossLine : Bool} {text : Text} {lines : List (Nat × Text)}
    {indexes : List Nat}
    (isMatched : matchedIndexes matcher crossLine text lines = .ok indexes) :
    Indexes lines.length indexes := by
  unfold matchedIndexes at isMatched
  split at isMatched
  case isTrue =>
    cases isSpans : matcher.spans text with
    | error =>
        rw [isSpans] at isMatched
        cases isMatched
    | ok spans =>
        rw [isSpans] at isMatched
        cases isMatched
        exact crossedLines_indexes lines spans
  case isFalse =>
    have holds := (matchedLines_bounds isMatched).2
    rw [Nat.zero_add] at holds
    exact holds

/-! ### In memory -/

theorem scanBuffer_fromFile {path : Text} {bytes : Bytes}
    {matcher : PatternMatcher} {crossLine : Bool}
    {contextBefore contextAfter : Nat} {found result : List Found}
    (scanned : scanBuffer collect path bytes matcher crossLine contextBefore
      contextAfter found = .ok result) :
    ∃ more, result = found ++ more ∧ FromFile path more := by
  unfold scanBuffer at scanned
  cases isText : fromUtf8 bytes with
  | none =>
      rw [isText] at scanned
      cases scanned
  | some text =>
      rw [isText] at scanned
      dsimp only at scanned
      cases isMatched : matchedIndexes matcher crossLine text
          (lineOffsets text) with
      | error =>
          rw [isMatched] at scanned
          cases scanned
      | ok indexes =>
          rw [isMatched] at scanned
          have holds := matchedIndexes_indexes isMatched
          cases scanned
          refine ⟨_, foldl_collect _ _, ?_, ?_⟩
          · intro next member
            obtain ⟨index, -, rfl⟩ := List.mem_map.mp member
            rfl
          · rw [List.pairwise_map]
            apply (List.Pairwise.and_mem.mp holds.ascending).imp
            intro earlier later both
            obtain ⟨_, inside, less⟩ := both
            have below := holds.inside later inside
            have offsets := List.pairwise_iff_getElem.mp
              (offsetsFrom_ascending 0 text.lines).2 earlier later
              (Nat.lt_trans less below) below less
            change ((lineOffsets text).getD earlier (0, [])).1 ≤
              ((lineOffsets text).getD later (0, [])).1
            rw [List.getD_eq_getElem _ _ (Nat.lt_trans less below),
              List.getD_eq_getElem _ _ below]
            exact offsets

/-! ### Line by line -/

@[simp] theorem PendingStreamMatch.push_path (pending : PendingStreamMatch)
    (text : Text) : (pending.push text).found.path = pending.found.path := by
  unfold push
  split <;> rfl

@[simp] theorem PendingStreamMatch.push_byteOffset
    (pending : PendingStreamMatch) (text : Text) :
    (pending.push text).found.byteOffset = pending.found.byteOffset := by
  unfold push
  split <;> rfl

theorem flushReady_eq (found : List Found)
    (pending : List PendingStreamMatch) :
    ∃ ready rest, flushReady collect found pending = (found ++ ready, rest) ∧
      pending.map PendingStreamMatch.found =
        ready ++ rest.map PendingStreamMatch.found := by
  induction pending generalizing found with
  | nil => exact ⟨[], [], by simp [flushReady], rfl⟩
  | cons next pending induction =>
      rw [flushReady]
      split
      case isTrue =>
        obtain ⟨ready, rest, isFlushed, isAll⟩ :=
          induction (collect found next.found)
        refine ⟨next.found :: ready, rest, ?_, ?_⟩
        · rw [isFlushed, collect, List.append_assoc]
          rfl
        · rw [List.map_cons, isAll]
          rfl
      case isFalse => exact ⟨[], next :: pending, by simp, rfl⟩

/-- The matches that wait for context: they have been found before the line
that is read next. -/
structure Waiting (path : Text) (byteOffset : Nat)
    (pending : List PendingStreamMatch) : Prop where
  own : FromFile path (pending.map PendingStreamMatch.found)
  earlier : ∀ next ∈ pending, next.found.byteOffset ≤ byteOffset

theorem FromFile.append {path : Text} {first second : List Found}
    (ofFirst : FromFile path first) (ofSecond : FromFile path second)
    (across : ∀ earlier ∈ first, ∀ later ∈ second,
      earlier.byteOffset ≤ later.byteOffset) :
    FromFile path (first ++ second) := by
  constructor
  · intro next member
    rcases List.mem_append.mp member with member | member
    · exact ofFirst.own next member
    · exact ofSecond.own next member
  · exact List.pairwise_append.mpr
      ⟨ofFirst.ascending, ofSecond.ascending, across⟩

theorem Waiting.push {path : Text} {byteOffset : Nat}
    {pending : List PendingStreamMatch}
    (waiting : Waiting path byteOffset pending) (text : Text) :
    Waiting path byteOffset (pending.map fun value => value.push text) := by
  obtain ⟨⟨own, ascending⟩, earlier⟩ := waiting
  refine ⟨⟨?_, ?_⟩, ?_⟩
  · intro next member
    simp only [List.map_map, List.mem_map, Function.comp] at member
    obtain ⟨value, member, rfl⟩ := member
    rw [PendingStreamMatch.push_path]
    exact own _ (List.mem_map_of_mem member)
  · rw [List.pairwise_map, List.pairwise_map]
    rw [List.pairwise_map] at ascending
    apply ascending.imp
    intro first second less
    rw [PendingStreamMatch.push_byteOffset, PendingStreamMatch.push_byteOffset]
    exact less
  · intro next member
    obtain ⟨value, inside, rfl⟩ := List.mem_map.mp member
    rw [PendingStreamMatch.push_byteOffset]
    exact earlier value inside

/-- The match in the line read last waits behind the others. -/
theorem Waiting.append_new {path : Text} {upTo : Nat}
    {pending : List PendingStreamMatch} (waiting : Waiting path upTo pending)
    (next : PendingStreamMatch) (atMost : next.found.byteOffset ≤ upTo)
    (own : next.found.path = path)
    (earlier : ∀ other ∈ pending,
      other.found.byteOffset ≤ next.found.byteOffset) :
    Waiting path upTo (pending ++ [next]) := by
  constructor
  · rw [List.map_append]
    apply waiting.own.append
    · refine ⟨?_, List.pairwise_singleton _ _⟩
      intro found member
      rw [List.mem_singleton.mp member]
      exact own
    · intro first member second isNext
      obtain ⟨other, inside, rfl⟩ := List.mem_map.mp member
      rw [List.mem_singleton.mp isNext]
      exact earlier other inside
  · intro other member
    rcases List.mem_append.mp member with member | member
    · exact waiting.earlier other member
    · rw [List.mem_singleton.mp member]
      exact atMost

/-- What is found from here on stands no earlier than what waits and what is
read next. -/
def NotBefore (byteOffset : Nat) (pending : List PendingStreamMatch)
    (more : List Found) : Prop :=
  ∀ bound, bound ≤ byteOffset →
    (∀ next ∈ pending, bound ≤ next.found.byteOffset) →
      ∀ next ∈ more, bound ≤ next.byteOffset

/-- What a line that is read makes of the matches that wait: some are ready, and
the rest waits on. -/
structure Flushed (path : Text) (byteOffset : Nat)
    (pending : List PendingStreamMatch) (ready : List Found)
    (rest : List PendingStreamMatch) : Prop where
  ofReady : FromFile path ready
  ofRest : FromFile path (rest.map PendingStreamMatch.found)
  across : ∀ first ∈ ready, ∀ next ∈ rest,
    first.byteOffset ≤ next.found.byteOffset
  upTo : ∀ next ∈ ready ++ rest.map PendingStreamMatch.found,
    next.byteOffset ≤ byteOffset
  below : ∀ bound, (∀ next ∈ pending, bound ≤ next.found.byteOffset) →
    ∀ next ∈ ready ++ rest.map PendingStreamMatch.found,
      bound ≤ next.byteOffset
  nothing : pending = [] → ready = [] ∧ rest = []

theorem Waiting.flush {path : Text} {byteOffset : Nat}
    {pending : List PendingStreamMatch}
    (waiting : Waiting path byteOffset pending) (text : Text)
    (found : List Found) :
    ∃ ready rest, flushReady collect found
        (pending.map fun value => value.push text) = (found ++ ready, rest) ∧
      Flushed path byteOffset pending ready rest := by
  have pushed := waiting.push text
  obtain ⟨ready, rest, isFlushed, isAll⟩ := flushReady_eq found
    (pending.map fun value => value.push text)
  refine ⟨ready, rest, isFlushed, ?_⟩
  have all := pushed.own
  rw [isAll] at all
  obtain ⟨ascendingReady, ascendingRest, across⟩ :=
    List.pairwise_append.mp all.ascending
  constructor
  · exact ⟨fun next member => all.own next (List.mem_append_left _ member),
      ascendingReady⟩
  · exact ⟨fun next member => all.own next (List.mem_append_right _ member),
      ascendingRest⟩
  · intro first member next inside
    exact across first member _ (List.mem_map_of_mem inside)
  · intro next member
    rw [← isAll] at member
    obtain ⟨value, inside, rfl⟩ := List.mem_map.mp member
    exact pushed.earlier value inside
  · intro bound isBound next member
    rw [← isAll] at member
    simp only [List.map_map, List.mem_map, Function.comp] at member
    obtain ⟨value, member, rfl⟩ := member
    rw [PendingStreamMatch.push_byteOffset]
    exact isBound value member
  · rintro rfl
    obtain ⟨isReady, isRest⟩ := List.append_eq_nil_iff.mp isAll.symm
    exact ⟨isReady, List.map_eq_nil_iff.mp isRest⟩

namespace Flushed

variable {path : Text} {byteOffset : Nat}
  {pending rest later : List PendingStreamMatch} {ready more : List Found}

theorem upTo_rest (flushed : Flushed path byteOffset pending ready rest) :
    ∀ next ∈ rest, next.found.byteOffset ≤ byteOffset := fun next member =>
  flushed.upTo next.found
    (List.mem_append_right _ (List.mem_map_of_mem member))

theorem waiting (flushed : Flushed path byteOffset pending ready rest)
    (length : Nat) : Waiting path (byteOffset + length) rest where
  own := flushed.ofRest
  earlier next member := Nat.le_trans (flushed.upTo_rest next member)
    (Nat.le_add_right _ _)

/-- What is ready comes before what is found from the next line on, where
nothing waits that this line has not found. -/
theorem append (flushed : Flushed path byteOffset pending ready rest)
    {length : Nat}
    (known : ∀ next ∈ later, next ∈ rest ∨ next.found.byteOffset = byteOffset)
    (ofMore : FromFile path more)
    (notBefore : NotBefore (byteOffset + length) later more) :
    FromFile path (ready ++ more) ∧
      NotBefore byteOffset pending (ready ++ more) := by
  have beyond : ∀ bound, bound ≤ byteOffset →
      (∀ next ∈ rest, bound ≤ next.found.byteOffset) →
      ∀ next ∈ more, bound ≤ next.byteOffset := by
    intro bound atMost isBound
    apply notBefore bound (Nat.le_trans atMost (Nat.le_add_right _ _))
    intro next member
    rcases known next member with inside | same
    · exact isBound next inside
    · rw [same]
      exact atMost
  constructor
  · apply flushed.ofReady.append ofMore
    intro first member
    exact beyond first.byteOffset
      (flushed.upTo first (List.mem_append_left _ member))
      (flushed.across first member)
  · intro bound atMost isBound next member
    have below := flushed.below bound isBound
    rcases List.mem_append.mp member with member | member
    · exact below next (List.mem_append_left _ member)
    · apply beyond bound atMost _ next member
      intro value inside
      exact below _ (List.mem_append_right _ (List.mem_map_of_mem inside))

end Flushed

/-- A match that waits for nothing comes before what is found after it. -/
theorem fromFile_cons {path : Text} {byteOffset length : Nat} {next : Found}
    {more : List Found} (own : next.path = path)
    (here : next.byteOffset = byteOffset) (ofMore : FromFile path more)
    (notBefore : NotBefore (byteOffset + length) [] more) :
    FromFile path (next :: more) ∧
      NotBefore byteOffset [] (next :: more) := by
  have later : ∀ bound ≤ byteOffset, ∀ other ∈ more,
      bound ≤ other.byteOffset := fun bound atMost =>
    notBefore bound (Nat.le_trans atMost (Nat.le_add_right _ _)) (by simp)
  refine ⟨⟨?_, List.pairwise_cons.mpr ⟨?_, ofMore.ascending⟩⟩, ?_⟩
  · intro other member
    rcases List.mem_cons.mp member with rfl | member
    · exact own
    · exact ofMore.own other member
  · exact later next.byteOffset here.le
  · intro bound atMost _ other member
    rcases List.mem_cons.mp member with rfl | member
    · rw [here]
      exact atMost
    · exact later bound atMost other member

theorem scanStream_fromFile {path : Text} {matcher : PatternMatcher}
    {contextBefore contextAfter lineNumber byteOffset : Nat}
    {before : List Text} {pending : List PendingStreamMatch}
    {found result : List Found} {lines : List Bytes}
    (waiting : Waiting path byteOffset pending)
    (immediate : contextAfter = 0 → pending = [])
    (scanned : scanStream collect path matcher contextBefore contextAfter
      lineNumber byteOffset before pending found lines = .ok result) :
    ∃ more, result = found ++ more ∧ FromFile path more ∧
      NotBefore byteOffset pending more := by
  induction lines generalizing lineNumber byteOffset before pending found with
  | nil =>
      cases scanned
      refine ⟨_, foldl_collect _ _, waiting.own, ?_⟩
      intro bound _ below next member
      obtain ⟨value, inside, rfl⟩ := List.mem_map.mp member
      exact below value inside
  | cons line lines induction =>
      rw [scanStream] at scanned
      cases isText : fromUtf8 line with
      | none =>
          rw [isText] at scanned
          cases scanned
      | some content =>
          rw [isText] at scanned
          dsimp only at scanned
          obtain ⟨ready, rest, isFlushed, flushed⟩ :=
            waiting.flush (trimLineEnding content) found
          rw [isFlushed] at scanned
          have newer := flushed.waiting line.length
          cases isHit : matcher.isMatch (trimLineEnding content) with
          | error =>
              rw [isHit] at scanned
              cases scanned
          | ok isMatch =>
              rw [isHit] at scanned
              change (if isMatch = true then _ else _) = _ at scanned
              split at scanned
              case isTrue =>
                split at scanned
                case isTrue noContext =>
                  have nothing := immediate noContext
                  obtain ⟨isReady, noRest⟩ := flushed.nothing nothing
                  subst noRest
                  obtain ⟨more, isResult, ofMore, notBefore⟩ :=
                    induction newer (fun _ => rfl) scanned
                  refine ⟨streamMatch path contextBefore contextAfter
                    (lineNumber + 1) byteOffset before
                      (trimLineEnding content) :: more, ?_, ?_⟩
                  · rw [isResult, isReady, List.append_nil, collect,
                      List.append_assoc]
                    rfl
                  · rw [nothing]
                    exact fromFile_cons rfl rfl ofMore notBefore
                case isFalse context =>
                  obtain ⟨more, isResult, ofMore, notBefore⟩ :=
                    induction (newer.append_new _ (Nat.le_add_right _ _) rfl
                      flushed.upTo_rest)
                      (fun noContext => (context noContext).elim) scanned
                  refine ⟨ready ++ more, ?_, flushed.append ?_ ofMore notBefore⟩
                  · rw [isResult, List.append_assoc]
                  · intro next member
                    rcases List.mem_append.mp member with member | member
                    · exact .inl member
                    · rw [List.mem_singleton.mp member]
                      exact .inr rfl
              case isFalse =>
                have none : contextAfter = 0 → rest = [] := fun noContext =>
                  (flushed.nothing (immediate noContext)).2
                obtain ⟨more, isResult, ofMore, notBefore⟩ :=
                  induction newer none scanned
                refine ⟨ready ++ more, ?_,
                  flushed.append (fun _ => .inl) ofMore notBefore⟩
                rw [isResult, List.append_assoc]

/-! ## The matches of all files -/

theorem scanFile_fromFile {matcher : PatternMatcher} {crossLine : Bool}
    {contextBefore contextAfter : Nat} {file : GrepFile}
    {found result : List Found}
    (scanned : scanFile collect matcher crossLine contextBefore contextAfter
      file found = .ok result) :
    ∃ more, result = found ++ more ∧ FromFile file.path more := by
  unfold scanFile at scanned
  split at scanned
  case isTrue => exact scanBuffer_fromFile scanned
  case isFalse =>
    have nothing : Waiting file.path 0 [] :=
      ⟨⟨by simp, List.Pairwise.nil⟩, by simp⟩
    obtain ⟨more, isResult, ofMore, -⟩ :=
      scanStream_fromFile nothing (fun _ => rfl) scanned
    exact ⟨more, isResult, ofMore⟩

/-- Where a match stands. -/
def position (found : Found) : List Nat ×ₗ Nat :=
  toLex (byteOrder found.path, found.byteOffset)

theorem byteOrder_injective : Function.Injective byteOrder := by
  intro first second same
  apply Utf8.encode_injective
  exact List.map_injective_iff.mpr (fun _ _ => UInt8.toNat_inj.mp) same

instance totalByFilePath : Std.Total byFilePath where
  total left right := by
    rcases le_total (byteOrder left.path) (byteOrder right.path) with le | le
    · exact .inl le
    · exact .inr le

instance transByFilePath : IsTrans GrepFile byFilePath where
  trans _ _ _ first second := le_trans first second

theorem scanFiles_ordered {matcher : PatternMatcher} {crossLine : Bool}
    {contextBefore contextAfter skipped count : Nat} {files : List GrepFile}
    {found result : List Found} (sorted : files.Pairwise byFilePath)
    (distinct : (files.map GrepFile.path).Nodup)
    (scanned : scanFiles collect matcher crossLine contextBefore contextAfter
      found skipped files = .ok (result, count)) :
    ∃ more, result = found ++ more ∧ Ordered position more ∧
      ∀ next ∈ more, ∃ file ∈ files, next.path = file.path := by
  induction files generalizing found skipped with
  | nil =>
      cases scanned
      exact ⟨[], (List.append_nil _).symm, List.Pairwise.nil, by simp⟩
  | cons file files induction =>
      obtain ⟨first, sorted⟩ := List.pairwise_cons.mp sorted
      rw [List.map_cons] at distinct
      obtain ⟨other, distinct⟩ := List.nodup_cons.mp distinct
      rw [scanFiles] at scanned
      split at scanned
      case isTrue =>
        obtain ⟨more, isResult, ordered, from'⟩ :=
          induction sorted distinct scanned
        refine ⟨more, isResult, ordered, ?_⟩
        intro next member
        obtain ⟨source, inside, same⟩ := from' next member
        exact ⟨source, List.mem_cons_of_mem _ inside, same⟩
      case isFalse =>
        cases isScanned : scanFile collect matcher crossLine contextBefore
            contextAfter file found with
        | error =>
            rw [isScanned] at scanned
            cases scanned
        | ok middle =>
            rw [isScanned] at scanned
            obtain ⟨ofFile, isMiddle, fromFile⟩ :=
              scanFile_fromFile isScanned
            obtain ⟨more, isResult, ordered, from'⟩ :=
              induction sorted distinct scanned
            refine ⟨ofFile ++ more, ?_, ?_, ?_⟩
            · rw [isResult, isMiddle, List.append_assoc]
            · apply List.pairwise_append.mpr
              refine ⟨?_, ordered, ?_⟩
              · apply (List.Pairwise.and_mem.mp fromFile.ascending).imp
                intro earlier later both
                obtain ⟨isEarlier, isLater, less⟩ := both
                have same := (fromFile.own earlier isEarlier).trans
                  (fromFile.own later isLater).symm
                apply Prod.Lex.toLex_le_toLex.mpr
                exact .inr ⟨congrArg byteOrder same, less⟩
              · intro earlier isEarlier later isLater
                obtain ⟨source, inside, same⟩ := from' later isLater
                apply Prod.Lex.toLex_le_toLex.mpr
                left
                dsimp only
                rw [fromFile.own earlier isEarlier, same]
                apply lt_of_le_of_ne (first source inside)
                intro tied
                apply other
                rw [byteOrder_injective tied]
                exact List.mem_map_of_mem inside
            · intro next member
              rcases List.mem_append.mp member with member | member
              · exact ⟨file, List.mem_cons_self, fromFile.own next member⟩
              · obtain ⟨source, inside, same⟩ := from' next member
                exact ⟨source, List.mem_cons_of_mem _ inside, same⟩

end Electrosphere.Agent
