import Electrosphere.Agent.GrepOrder

/-!
# Large files are searched as small ones

A file that is read line by line keeps the last lines before the line at hand,
and the matches whose trailing context is incomplete.  Both are what the array
of all lines read so far holds.
-/

namespace Electrosphere.Agent

open Foundation

/-- A matcher that looks at one line. -/
def lineMatcher (isMatch : Text → Bool)
    (spans : Text → FileResult (List (Nat × Nat))) : PatternMatcher where
  isMatch text := .ok (isMatch text)
  spans := spans

/-- The indexes of the lines that match. -/
def hits (isMatch : Text → Bool) : Nat → List (Nat × Text) → List Nat
  | _, [] => []
  | index, line :: lines =>
      if isMatch line.2 then index :: hits isMatch (index + 1) lines
      else hits isMatch (index + 1) lines

theorem matchedLines_lineMatcher (isMatch : Text → Bool)
    (spans : Text → FileResult (List (Nat × Nat))) (index : Nat)
    (lines : List (Nat × Text)) :
    matchedLines (lineMatcher isMatch spans) index lines =
      .ok (hits isMatch index lines) := by
  induction lines generalizing index with
  | nil => rfl
  | cons line lines induction =>
      rw [matchedLines, induction, hits]
      rfl

section Window

variable {path : Text} {contextBefore contextAfter index : Nat}
  {read more : List (Nat × Text)} {line : Nat × Text}

/-- A match whose context has been read is what it is in the whole file. -/
theorem bufferMatch_append
    (complete : index + 1 + contextAfter ≤ read.length) :
    bufferMatch path (read ++ more) contextBefore contextAfter index =
      bufferMatch path read contextBefore contextAfter index := by
  have inside : index < read.length := by omega
  have whole : index + 1 + contextAfter ≤ (read ++ more).length := by
    rw [List.length_append]
    omega
  unfold bufferMatch
  dsimp only
  rw [List.getD_append _ _ _ _ inside, Nat.min_eq_left whole,
    Nat.min_eq_left complete,
    List.take_append_of_le_length (Nat.le_of_lt inside),
    List.take_append_of_le_length complete]

/-- The match in the line read last. -/
theorem bufferMatch_last (line : Nat × Text) :
    bufferMatch path (read ++ [line]) contextBefore contextAfter read.length =
      streamMatch path contextBefore contextAfter (read.length + 1) line.1
        ((read.map Prod.snd).drop (read.length - contextBefore)) line.2 := by
  have last : min (read.length + 1 + contextAfter) (read ++ [line]).length =
      read.length + 1 := by
    rw [List.length_append, List.length_singleton]
    omega
  have whole : (read ++ [line]).take (read.length + 1) = read ++ [line] :=
    List.take_of_length_le (by simp)
  have none : (read ++ [line]).drop (read.length + 1) = [] :=
    List.drop_of_length_le (by simp)
  have isLine : (read ++ [line]).getD read.length (0, []) = line := by
    simp [List.getD]
  unfold bufferMatch streamMatch
  dsimp only
  rw [last, isLine, whole, none, List.take_left, List.map_drop]
  rfl

/-- A match that waits for the rest of its context. -/
def waitingMatch (path : Text) (read : List (Nat × Text))
    (contextBefore contextAfter index : Nat) : PendingStreamMatch where
  found := bufferMatch path read contextBefore contextAfter index
  remainingAfter := index + 1 + contextAfter - read.length

/-- One line more has been read. -/
theorem push_waitingMatch (inside : index < read.length) :
    (waitingMatch path read contextBefore contextAfter index).push line.2 =
      waitingMatch path (read ++ [line]) contextBefore contextAfter index := by
  have length : (read ++ [line]).length = read.length + 1 := by simp
  by_cases complete : index + 1 + contextAfter ≤ read.length
  · have ready : (waitingMatch path read contextBefore contextAfter
        index).remainingAfter = 0 := Nat.sub_eq_zero_of_le complete
    rw [PendingStreamMatch.push, ready, if_neg (Nat.lt_irrefl 0), waitingMatch,
      waitingMatch, bufferMatch_append complete, length]
    congr 1
    omega
  · have waits : 0 < (waitingMatch path read contextBefore contextAfter
        index).remainingAfter := by
      change 0 < index + 1 + contextAfter - read.length
      omega
    have some : 0 < contextAfter := by omega
    have before : min (index + 1 + contextAfter) read.length = read.length := by
      omega
    have after : min (index + 1 + contextAfter) (read.length + 1) =
        read.length + 1 := by omega
    have all : read.take read.length = read := List.take_length
    have all' : (read ++ [line]).take (read.length + 1) = read ++ [line] :=
      List.take_of_length_le (Nat.le_of_eq length)
    have next : index + 1 ≤ read.length := inside
    rw [PendingStreamMatch.push, if_pos waits]
    unfold waitingMatch bufferMatch
    dsimp only
    rw [length, before, after, all, all', if_pos some, if_pos some,
      List.getD_append _ _ _ _ inside,
      List.take_append_of_le_length (Nat.le_of_lt inside),
      List.drop_append_of_le_length next, List.map_append]
    congr 1

variable (path contextBefore contextAfter read)

/-- The front of the queue leaves it with its context complete. -/
theorem flushReady_waitingMatch (found : List Found) (waiting : List Nat) :
    ∃ done rest, waiting = done ++ rest ∧
      flushReady collect found
          (waiting.map (waitingMatch path read contextBefore contextAfter)) =
        (found ++
            done.map (bufferMatch path read contextBefore contextAfter),
          rest.map (waitingMatch path read contextBefore contextAfter)) ∧
      (∀ index ∈ done, index + 1 + contextAfter ≤ read.length) ∧
      ∀ index ∈ rest.head?, read.length < index + 1 + contextAfter := by
  induction waiting generalizing found with
  | nil => exact ⟨[], [], rfl, by simp [flushReady], by simp, by simp⟩
  | cons index waiting induction =>
      by_cases ready : index + 1 + contextAfter - read.length = 0
      · obtain ⟨done, rest, isWaiting, flushed, complete, waits⟩ := induction
          (found ++ [bufferMatch path read contextBefore contextAfter index])
        refine ⟨index :: done, rest, ?_, ?_, ?_, waits⟩
        · rw [isWaiting]
          rfl
        · rw [List.map_cons, flushReady]
          change (if index + 1 + contextAfter - read.length = 0 then _ else _) = _
          rw [if_pos ready]
          refine flushed.trans ?_
          rw [List.map_cons, List.append_assoc]
          rfl
        · intro other member
          cases List.mem_cons.mp member with
          | inl isIndex => omega
          | inr later => exact complete other later
      · refine ⟨[], index :: waiting, rfl, ?_, by simp, ?_⟩
        · rw [List.map_cons, flushReady]
          change (if index + 1 + contextAfter - read.length = 0 then _ else _) = _
          rw [if_neg ready, List.map_nil, List.append_nil]
        · intro other isHead
          cases isHead
          omega

end Window

/-- The last lines read, when one line more has been read. -/
theorem drop_window (read : List Text) (line : Text) (contextBefore : Nat) :
    let window := read.drop (read.length - contextBefore) ++ [line]
    window.drop (window.length - contextBefore) =
      (read ++ [line]).drop (read.length + 1 - contextBefore) := by
  have start : read.length - contextBefore ≤ read.length := Nat.sub_le _ _
  have isWindow : read.drop (read.length - contextBefore) ++ [line] =
      (read ++ [line]).drop (read.length - contextBefore) :=
    (List.drop_append_of_le_length start).symm
  dsimp only
  rw [isWindow, List.drop_drop, List.length_drop, List.length_append,
    List.length_singleton]
  congr 1
  omega

section Stream

variable (path : Text) (isMatch : Text → Bool)
  (spans : Text → FileResult (List (Nat × Nat)))
  (contextBefore contextAfter : Nat)

/-- The rest of the lines, whatever has been read. -/
theorem scanStream_rest (lines : List Text) (offset : Nat)
    (read : List (Nat × Text)) (waiting : List Nat) (found : List Found)
    (inside : ∀ index ∈ waiting, index < read.length) :
    scanStream collect path (lineMatcher isMatch spans) contextBefore
        contextAfter read.length offset
        ((read.map Prod.snd).drop (read.length - contextBefore))
        (waiting.map (waitingMatch path read contextBefore contextAfter))
        found (lines.map Utf8.encode) =
      .ok (found ++
        (waiting ++ hits isMatch read.length (offsetsFrom offset lines)).map
          (bufferMatch path (read ++ offsetsFrom offset lines) contextBefore
            contextAfter)) := by
  induction lines generalizing offset read waiting found with
  | nil =>
      rw [List.map_nil, scanStream, foldl_collect, offsetsFrom, hits,
        List.append_nil, List.append_nil, List.map_map]
      rfl
  | cons line lines induction =>
      let last := (offset, trimLineEnding line)
      have pushed : (waiting.map
            (waitingMatch path read contextBefore contextAfter)).map
              (fun value => value.push (trimLineEnding line)) =
          waiting.map
            (waitingMatch path (read ++ [last]) contextBefore contextAfter) := by
        rw [List.map_map]
        apply List.map_congr_left
        intro index member
        have pushed : (waitingMatch path read contextBefore contextAfter
            index).push last.2 = _ := push_waitingMatch (inside index member)
        exact pushed
      obtain ⟨done, rest, isWaiting, flushed, complete, waits⟩ :=
        flushReady_waitingMatch path contextBefore contextAfter (read ++ [last])
          found waiting
      have joined : ∀ more later,
          found ++ (done ++ later).map (bufferMatch path (read ++ [last] ++ more)
              contextBefore contextAfter) =
            found ++ done.map (bufferMatch path (read ++ [last]) contextBefore
              contextAfter) ++ later.map (bufferMatch path
                (read ++ [last] ++ more) contextBefore contextAfter) := by
        intro more later
        have same : done.map (bufferMatch path (read ++ [last] ++ more)
              contextBefore contextAfter) =
            done.map (bufferMatch path (read ++ [last]) contextBefore
              contextAfter) := by
          apply List.map_congr_left
          intro index member
          exact bufferMatch_append (complete index member)
        rw [List.map_append, same]
        exact (List.append_assoc _ _ _).symm
      have length : (read ++ [last]).length = read.length + 1 :=
        List.length_append
      have window := drop_window (read.map Prod.snd) last.2 contextBefore
      have grown : (read ++ [last]).map Prod.snd = read.map Prod.snd ++ [last.2] :=
        List.map_append
      rw [List.length_map, ← grown, ← length] at window
      have inside' : ∀ index ∈ rest, index < (read ++ [last]).length := by
        intro index member
        have before := inside index (isWaiting ▸ List.mem_append_right done member)
        omega
      have regroup : read ++ offsetsFrom offset (line :: lines) =
          read ++ [last] ++
            offsetsFrom (offset + (Utf8.encode line).length) lines := by
        rw [offsetsFrom, List.append_assoc]
        rfl
      rw [List.map_cons, scanStream, fromUtf8_encode]
      dsimp only
      rw [pushed, flushed, window, regroup, isWaiting]
      change (if isMatch (trimLineEnding line) = true then _ else _) = _
      by_cases hit : isMatch (trimLineEnding line) = true
      · have isHits : hits isMatch read.length
              (offsetsFrom offset (line :: lines)) =
            read.length :: hits isMatch (read ++ [last]).length
              (offsetsFrom (offset + (Utf8.encode line).length) lines) := by
          rw [offsetsFrom, hits, if_pos hit, length]
        have isFound : streamMatch path contextBefore contextAfter
              (read.length + 1) offset
              ((read.map Prod.snd).drop (read.length - contextBefore))
              (trimLineEnding line) =
            bufferMatch path (read ++ [last]) contextBefore contextAfter
              read.length := (bufferMatch_last last).symm
        rw [if_pos hit, isHits, isFound]
        by_cases noContext : contextAfter = 0
        · -- Nothing waits, and the match is handed on at once.
          have none : rest = [] := by
            cases rest with
            | nil => rfl
            | cons index rest =>
                have before := inside' index List.mem_cons_self
                have after := waits index rfl
                omega
          subst none
          have complete' : bufferMatch path (read ++ [last] ++
                offsetsFrom (offset + (Utf8.encode line).length) lines)
                contextBefore contextAfter read.length =
              bufferMatch path (read ++ [last]) contextBefore contextAfter
                read.length := bufferMatch_append (by omega)
          rw [if_pos noContext, List.append_nil, joined, List.map_cons,
            complete', ← length]
          refine (induction _ (read ++ [last]) [] _ inside').trans ?_
          rw [collect, List.append_assoc (found ++ _)]
          rfl
        · have isPending : PendingStreamMatch.mk
              (bufferMatch path (read ++ [last]) contextBefore contextAfter
                read.length) contextAfter =
              waitingMatch path (read ++ [last]) contextBefore contextAfter
                read.length := by
            rw [waitingMatch, length, Nat.add_sub_cancel_left]
          have inside'' : ∀ index ∈ rest ++ [read.length],
              index < (read ++ [last]).length := by
            intro index member
            cases List.mem_append.mp member with
            | inl earlier => exact inside' index earlier
            | inr isLast =>
                rw [List.mem_singleton.mp isLast, length]
                exact Nat.lt_succ_self _
          have later := induction (offset + (Utf8.encode line).length)
            (read ++ [last]) (rest ++ [read.length])
            (found ++ done.map (bufferMatch path (read ++ [last]) contextBefore
              contextAfter)) inside''
          have queue : (rest ++ [read.length]).map
              (waitingMatch path (read ++ [last]) contextBefore contextAfter) =
              rest.map _ ++ [_] := List.map_append
          rw [queue, List.append_assoc rest] at later
          rw [if_neg noContext, List.append_assoc done, joined, ← length,
            isPending]
          exact later
      · have isHits : hits isMatch read.length
              (offsetsFrom offset (line :: lines)) =
            hits isMatch (read ++ [last]).length
              (offsetsFrom (offset + (Utf8.encode line).length) lines) := by
          rw [offsetsFrom, hits, if_neg hit, length]
        rw [if_neg hit, isHits, List.append_assoc done, joined, ← length]
        exact induction _ (read ++ [last]) rest _ inside'

/-- Either way of scanning offers the same matches in the same order, and
leaves any accumulator as these leave it. -/
theorem scanStream_agrees (text : Text) :
    ∃ offered : List Found, ∀ (σ : Type) (add : σ → Found → σ)
      (accumulator : σ),
      scanStream add path (lineMatcher isMatch spans) contextBefore
          contextAfter 0 0 [] [] accumulator (byteLines (Utf8.encode text)) =
        .ok (offered.foldl add accumulator) ∧
      scanBuffer add path (Utf8.encode text) (lineMatcher isMatch spans) false
          contextBefore contextAfter accumulator =
        .ok (offered.foldl add accumulator) := by
  let lines := lineOffsets text
  refine ⟨(hits isMatch 0 lines).map
    (bufferMatch path lines contextBefore contextAfter), ?_⟩
  intro σ add accumulator
  constructor
  · have whole := scanStream_rest path isMatch spans contextBefore contextAfter
      text.lines 0 [] [] [] (by simp)
    have collected := scanStream_collect add accumulator path
      (lineMatcher isMatch spans) contextBefore contextAfter 0 0 [] [] []
      (text.lines.map Utf8.encode)
    rw [List.map_nil, List.drop_nil] at whole
    rw [byteLines_encode]
    exact collected.trans (congrArg (Except.map _) whole)
  · rw [scanBuffer, fromUtf8_encode]
    dsimp only
    rw [matchedIndexes, if_neg Bool.false_ne_true, matchedLines_lineMatcher]
    rfl

end Stream

end Electrosphere.Agent
