import Electrosphere.Agent.GrepOrder

/-!
# All matches of a pattern in a text

`PatternMatcher::spans` matches again from the end of each match, and one
character further on after an empty one.  The engine is given by what it finds
from an offset.
-/

namespace Electrosphere.Agent

open Foundation Foundation.Utf8

/-- What `PcreMatcher::find_from` returns. -/
structure PcreMatcher where
  findFrom : Text → Nat → FileResult (Option (Nat × Nat))

/-- How a round of the loop ends. -/
inductive SpanRound where
  /-- The subject is sliced inside a character. -/
  | panics
  | fails (failure : FileFailure)
  | breaks (last : Option (Nat × Nat))
  | continues (span : Nat × Nat) (offset : Nat)

namespace PcreMatcher

variable (matcher : PcreMatcher) (subject : Text)

/-- One round of the loop in `spans`. -/
def round (offset : Nat) : SpanRound :=
  if (encode subject).length < offset then .breaks none
  else
    match matcher.findFrom subject offset with
    | .error failure => .fails failure
    | .ok none => .breaks none
    | .ok (some (start, finish)) =>
        if offset < finish then .continues (start, finish) finish
        else if offset < (encode subject).length then
          match textFrom subject offset with
          | none => .panics
          | some rest =>
              .continues (start, finish) (offset + rest.head?.elim 1 width)
        else .breaks (some (start, finish))

variable {matcher subject}

theorem round_progress {offset next : Nat} {span : Nat × Nat}
    (isRound : matcher.round subject offset = .continues span next) :
    offset ≤ (encode subject).length ∧ offset < next := by
  unfold round at isRound
  split at isRound
  case isTrue => cases isRound
  case isFalse inside =>
    refine ⟨Nat.le_of_not_lt inside, ?_⟩
    split at isRound
    case h_1 => cases isRound
    case h_2 => cases isRound
    case h_3 start finish _ =>
      split at isRound
      case isTrue forward =>
        cases isRound
        exact forward
      case isFalse =>
        split at isRound
        case isFalse => cases isRound
        case isTrue =>
          split at isRound
          case h_1 => cases isRound
          case h_2 rest _ =>
            cases isRound
            cases rest with
            | nil => exact Nat.lt_succ_self offset
            | cons character rest =>
                exact Nat.lt_add_of_pos_right (width_pos character)

variable (matcher subject)

/-- The loop from an offset on.  Without a result it panics. -/
def spansFrom (offset : Nat) : Option (FileResult (List (Nat × Nat))) :=
  match _ : matcher.round subject offset with
  | .panics => none
  | .fails failure => some (.error failure)
  | .breaks last => some (.ok last.toList)
  | .continues span next =>
      (spansFrom next).map fun result => result.map fun spans => span :: spans
termination_by (encode subject).length + 1 - offset
decreasing_by
  have progress := round_progress ‹_›
  omega

def spans : Option (FileResult (List (Nat × Nat))) :=
  matcher.spansFrom subject 0

/-- The offsets at which a round begins. -/
inductive Uses : Nat → Prop where
  | first : Uses 0
  | next {offset next : Nat} {span : Nat × Nat} : Uses offset →
      matcher.round subject offset = .continues span next → Uses next

end PcreMatcher

/-! ## What the engine promises -/

/-- The span with the least start from an offset on. -/
structure NextSpan (ends : Nat → Option Nat) (offset start finish : Nat) :
    Prop where
  after : offset ≤ start
  isSpan : ends start = some finish
  least : ∀ other, offset ≤ other → other < start → ends other = none

theorem NextSpan.unique {ends : Nat → Option Nat}
    {offset start finish other last : Nat}
    (first : NextSpan ends offset start finish)
    (second : NextSpan ends offset other last) :
    start = other ∧ finish = last := by
  have same : start = other := by
    rcases Nat.lt_trichotomy start other with less | same | greater
    · have none := second.least start first.after less
      rw [first.isSpan] at none
      cases none
    · exact same
    · have none := first.least other second.after greater
      rw [second.isSpan] at none
      cases none
  subst same
  have isFinish := first.isSpan
  rw [second.isSpan] at isFinish
  cases isFinish
  exact ⟨rfl, rfl⟩

/-- An engine in UTF mode, for a pattern that matches from some positions up
to others. -/
structure Searches (matcher : PcreMatcher) (subject : Text)
    (ends : Nat → Option Nat) : Prop where
  aligned : ∀ start finish, ends start = some finish →
    Boundary subject start ∧ Boundary subject finish ∧ start ≤ finish
  finds : ∀ offset, Boundary subject offset →
    (∃ start finish, NextSpan ends offset start finish ∧
      matcher.findFrom subject offset = .ok (some (start, finish))) ∨
    ((∀ start, offset ≤ start → ends start = none) ∧
      matcher.findFrom subject offset = .ok none)

/-- The spans found by matching from the end of each on, and one character
further on after an empty one. -/
inductive Iterated (subject : Text) (ends : Nat → Option Nat) :
    Nat → Nat × Nat → Prop where
  | first {offset start finish : Nat} : NextSpan ends offset start finish →
      Iterated subject ends offset (start, finish)
  | nonempty {offset start finish : Nat} {span : Nat × Nat} :
      NextSpan ends offset start finish → start < finish →
      Iterated subject ends finish span → Iterated subject ends offset span
  | empty {offset start : Nat} {character : Char} {rest : Text}
      {span : Nat × Nat} : NextSpan ends offset start start →
      textFrom subject start = some (character :: rest) →
      Iterated subject ends (start + width character) span →
      Iterated subject ends offset span

/-! ## The rounds -/

namespace Searches

variable {matcher : PcreMatcher} {subject : Text} {ends : Nat → Option Nat}
  {offset : Nat}

/-- How a round goes at a boundary: nothing is found, something is found that
ends further on, or there is an empty match, in the text or at its end. -/
inductive RoundAt (subject : Text) (ends : Nat → Option Nat) (offset : Nat) :
    SpanRound → Prop where
  | nothing : (∀ start, offset ≤ start → ends start = none) →
      RoundAt subject ends offset (.breaks none)
  | forward {start finish : Nat} : NextSpan ends offset start finish →
      offset < finish →
      RoundAt subject ends offset (.continues (start, finish) finish)
  | inside {character : Char} {rest : Text} :
      NextSpan ends offset offset offset →
      textFrom subject offset = some (character :: rest) →
      RoundAt subject ends offset
        (.continues (offset, offset) (offset + width character))
  | atEnd : NextSpan ends offset offset offset →
      textFrom subject offset = some [] →
      RoundAt subject ends offset (.breaks (some (offset, offset)))

theorem round (searches : Searches matcher subject ends)
    (boundary : Boundary subject offset) :
    RoundAt subject ends offset (matcher.round subject offset) := by
  have within := boundary.le
  rw [PcreMatcher.round, if_neg (Nat.not_lt_of_le within)]
  rcases searches.finds offset boundary with found | nothing
  · obtain ⟨start, finish, next, isFound⟩ := found
    rw [isFound]
    dsimp only
    by_cases forward : offset < finish
    · rw [if_pos forward]
      exact .forward next forward
    · rw [if_neg forward]
      obtain ⟨-, -, ordered⟩ := searches.aligned start finish next.isSpan
      have after := next.after
      obtain rfl : finish = offset := by omega
      obtain rfl : start = finish := by omega
      obtain ⟨rest, isRest⟩ := boundary
      have length := length_of_textFrom isRest
      cases rest with
      | nil =>
          have isEnd : ¬start < (encode subject).length := by
            rw [encode_nil, List.length_nil] at length
            omega
          rw [if_neg isEnd]
          exact .atEnd next isRest
      | cons character rest =>
          have positive := width_pos character
          have more : start < (encode subject).length := by
            rw [length_encode_cons] at length
            omega
          rw [if_pos more, isRest]
          exact .inside next isRest
  · obtain ⟨none, isNone⟩ := nothing
    rw [isNone]
    exact .nothing none

theorem boundary_of_continues (searches : Searches matcher subject ends)
    (boundary : Boundary subject offset) {span : Nat × Nat} {next : Nat}
    (isRound : matcher.round subject offset = .continues span next) :
    Boundary subject next := by
  have shape := searches.round boundary
  rw [isRound] at shape
  cases shape with
  | forward found => exact (searches.aligned _ _ found.isSpan).2.1
  | inside _ isRest => exact ⟨_, textFrom_next isRest⟩

theorem boundary_of_uses (searches : Searches matcher subject ends)
    (uses : matcher.Uses subject offset) : Boundary subject offset := by
  induction uses with
  | first => exact boundary_zero subject
  | next _ isRound induction =>
      exact searches.boundary_of_continues induction isRound

end Searches

namespace PcreMatcher

variable {matcher : PcreMatcher} {subject : Text} {offset next : Nat}
  {span : Nat × Nat}

theorem spansFrom_of_breaks {last : Option (Nat × Nat)}
    (isRound : matcher.round subject offset = .breaks last) :
    matcher.spansFrom subject offset = some (.ok last.toList) := by
  rw [spansFrom]
  split <;> simp_all

theorem spansFrom_of_continues {spans : List (Nat × Nat)}
    (isRound : matcher.round subject offset = .continues span next)
    (later : matcher.spansFrom subject next = some (.ok spans)) :
    matcher.spansFrom subject offset = some (.ok (span :: spans)) := by
  rw [spansFrom]
  split
  case h_4 isOther =>
    rw [isRound] at isOther
    cases isOther
    rw [later]
    rfl
  all_goals simp_all

end PcreMatcher

namespace Searches

variable {matcher : PcreMatcher} {subject : Text} {ends : Nat → Option Nat}

/-- From a boundary on, the loop ends, what it finds are spans of the pattern,
and all those of the iteration are among them. -/
theorem spansFrom (searches : Searches matcher subject ends) {offset : Nat}
    (boundary : Boundary subject offset) :
    ∃ spans, matcher.spansFrom subject offset = some (.ok spans) ∧
      (∀ span ∈ spans, ends span.1 = some span.2) ∧
      ∀ span, Iterated subject ends offset span → span ∈ spans := by
  generalize isLeft : (encode subject).length + 1 - offset = left
  induction left using Nat.strong_induction_on generalizing offset with
  | _ left induction =>
      have shape := searches.round boundary
      generalize isRound : matcher.round subject offset = round at shape
      cases shape with
      | nothing none =>
          refine ⟨[], PcreMatcher.spansFrom_of_breaks isRound, by simp, ?_⟩
          intro span iterated
          have absent {start finish : Nat}
              (found : NextSpan ends offset start finish) : False := by
            have isNone := none start found.after
            rw [found.isSpan] at isNone
            cases isNone
          cases iterated with
          | first found => exact (absent found).elim
          | nonempty found => exact (absent found).elim
          | empty found => exact (absent found).elim
      | @forward start finish found forward =>
          have progress := PcreMatcher.round_progress isRound
          obtain ⟨spans, isSpans, sound, complete⟩ := induction
            ((encode subject).length + 1 - finish) (by omega)
            (searches.boundary_of_continues boundary isRound) rfl
          refine ⟨(start, finish) :: spans,
            PcreMatcher.spansFrom_of_continues isRound isSpans, ?_, ?_⟩
          · exact List.forall_mem_cons.mpr ⟨found.isSpan, sound⟩
          · intro span iterated
            cases iterated with
            | first other =>
                obtain ⟨rfl, rfl⟩ := found.unique other
                exact List.mem_cons_self
            | nonempty other _ later =>
                obtain ⟨rfl, rfl⟩ := found.unique other
                exact List.mem_cons_of_mem _ (complete span later)
            | empty other isRest later =>
                -- The empty match is found once more, from its own start on.
                obtain ⟨rfl, rfl⟩ := found.unique other
                have again : NextSpan ends finish finish finish :=
                  { after := Nat.le_refl _
                    isSpan := found.isSpan
                    least := by omega }
                exact List.mem_cons_of_mem _
                  (complete span (.empty again isRest later))
      | @inside character rest found isRest =>
          have progress := PcreMatcher.round_progress isRound
          obtain ⟨spans, isSpans, sound, complete⟩ := induction
            ((encode subject).length + 1 - (offset + width character))
            (by omega) (searches.boundary_of_continues boundary isRound) rfl
          refine ⟨(offset, offset) :: spans,
            PcreMatcher.spansFrom_of_continues isRound isSpans, ?_, ?_⟩
          · exact List.forall_mem_cons.mpr ⟨found.isSpan, sound⟩
          · intro span iterated
            cases iterated with
            | first other =>
                obtain ⟨rfl, rfl⟩ := found.unique other
                exact List.mem_cons_self
            | nonempty other some _ =>
                obtain ⟨rfl, rfl⟩ := found.unique other
                exact (Nat.lt_irrefl _ some).elim
            | empty other otherRest later =>
                obtain ⟨rfl, -⟩ := found.unique other
                rw [isRest] at otherRest
                cases otherRest
                exact List.mem_cons_of_mem _ (complete span later)
      | atEnd found isRest =>
          refine ⟨[(offset, offset)], PcreMatcher.spansFrom_of_breaks isRound,
            List.forall_mem_singleton.mpr found.isSpan, ?_⟩
          intro span iterated
          cases iterated with
          | first other =>
              obtain ⟨rfl, rfl⟩ := found.unique other
              exact List.mem_singleton_self _
          | nonempty other some _ =>
              obtain ⟨rfl, rfl⟩ := found.unique other
              exact (Nat.lt_irrefl _ some).elim
          | empty other otherRest =>
              obtain ⟨rfl, -⟩ := found.unique other
              rw [isRest] at otherRest
              cases otherRest

/-- The loop over a whole subject ends without a panic. -/
theorem spans_complete (searches : Searches matcher subject ends) :
    ∃ spans, matcher.spans subject = some (.ok spans) ∧
      (∀ offset, matcher.Uses subject offset → Boundary subject offset) ∧
      (∀ span ∈ spans, ends span.1 = some span.2) ∧
      (∀ span, Iterated subject ends 0 span → span ∈ spans) ∧
      ∀ index ∈ crossedLines (lineOffsets subject) spans,
        index < (lineOffsets subject).length := by
  obtain ⟨spans, isSpans, sound, complete⟩ :=
    searches.spansFrom (boundary_zero subject)
  refine ⟨spans, isSpans, ?_, sound, complete, ?_⟩
  · intro offset uses
    exact searches.boundary_of_uses uses
  · exact (crossedLines_indexes (lineOffsets subject) spans).inside

/-- Where a run of the letter `é` from an offset on ends. -/
private def accents (subject : Text) (start : Nat) : Option Nat :=
  (textFrom subject start).map fun rest =>
    start + (encode (rest.takeWhile (· = 'é'))).length

/-- The pattern `é*`. -/
private def accentPattern : PcreMatcher where
  findFrom subject offset :=
    .ok ((accents subject offset).map fun finish => (offset, finish))

private theorem accentPattern_searches (subject : Text) :
    Searches accentPattern subject (accents subject) := by
  constructor
  · intro start finish isSpan
    obtain ⟨rest, isRest, rfl⟩ := Option.map_eq_some_iff.mp isSpan
    obtain ⟨before, isSubject, isStart⟩ := textFrom_eq_some_iff.mp isRest
    refine ⟨⟨rest, isRest⟩, ⟨rest.dropWhile (· = 'é'), ?_⟩,
      Nat.le_add_right _ _⟩
    apply textFrom_eq_some_iff.mpr
    refine ⟨before ++ rest.takeWhile (· = 'é'), ?_, ?_⟩
    · rw [List.append_assoc, List.takeWhile_append_dropWhile, isSubject]
    · rw [encode_append, List.length_append, isStart]
  · rintro offset ⟨rest, isRest⟩
    left
    refine ⟨offset, offset + (encode (rest.takeWhile (· = 'é'))).length, ?_,
      ?_⟩
    · constructor
      · exact Nat.le_refl _
      · rw [accents, isRest, Option.map_some]
      · intro other after before
        omega
    · simp only [accentPattern, accents, isRest, Option.map_some]

/-- An empty match in front of `a`, and then one of two bytes. -/
theorem spans_complete_accents :
    ∃ spans, accentPattern.spans ['a', 'é', 'b'] = some (.ok spans) ∧
      (∀ offset, accentPattern.Uses ['a', 'é', 'b'] offset →
        Boundary ['a', 'é', 'b'] offset) ∧
      (∀ span ∈ spans, accents ['a', 'é', 'b'] span.1 = some span.2) ∧
      (0, 0) ∈ spans ∧ (1, 3) ∈ spans ∧
      ∀ index ∈ crossedLines (lineOffsets ['a', 'é', 'b']) spans,
        index < (lineOffsets ['a', 'é', 'b']).length := by
  obtain ⟨spans, isSpans, boundary, sound, complete, lines⟩ :=
    spans_complete (accentPattern_searches ['a', 'é', 'b'])
  have nextSpan : ∀ start finish,
      accents ['a', 'é', 'b'] start = some finish →
      NextSpan (accents ['a', 'é', 'b']) start start finish := by
    intro start finish isSpan
    refine ⟨Nat.le_refl _, isSpan, ?_⟩
    intro other after before
    omega
  refine ⟨spans, isSpans, boundary, sound, ?_, ?_, lines⟩
  · exact complete _ (.first (nextSpan 0 0 (by decide)))
  · apply complete
    have isRest : textFrom ['a', 'é', 'b'] 0 = some ['a', 'é', 'b'] := by
      decide
    exact .empty (nextSpan 0 0 (by decide)) isRest
      (.first (nextSpan 1 3 (by decide)))

end Searches

end Electrosphere.Agent
