import Electrosphere.Storage.Artifacts
import Mathlib.Data.List.Induction

/-!
# Frames over a socket that takes them in part

`SocketFrameWriter` queues frames and offers the first of them to the socket,
from the byte on that the socket has not taken yet.
-/

namespace Electrosphere

/-- What `socket.write` returns for so many bytes. -/
structure WriteCount (offered : Nat) where
  value : Int
  lower : -1 ≤ value
  upper : value ≤ offered

/-- The answer of a socket to each call of `write`. -/
abbrev SocketAnswers := Nat → (offered : Nat) → WriteCount offered

/-- One call of `socket.write`. -/
structure Offer where
  data : Bytes
  count : WriteCount data.length

namespace Offer

def accepted (offer : Offer) : Bytes :=
  offer.data.take offer.count.value.toNat

def Full (offer : Offer) : Prop := offer.count.value = offer.data.length

theorem Full.accepted {offer : Offer} (full : offer.Full) :
    offer.accepted = offer.data := by
  rw [Offer.accepted, full, Int.toNat_natCast, List.take_length]

end Offer

structure SocketFrameWriter where
  attached : Bool
  frames : List Bytes
  offset : Nat

namespace SocketFrameWriter

def unattached : SocketFrameWriter :=
  { attached := false, frames := [], offset := 0 }

def attach (writer : SocketFrameWriter) : SocketFrameWriter :=
  { writer with attached := true }

def clear (_ : SocketFrameWriter) : SocketFrameWriter := unattached

/-- The loop of `flush`, after so many calls of `socket.write`. -/
def flushLoop (socket : SocketAnswers) (calls : Nat) :
    List Bytes → Nat → (List Bytes × Nat) × List Offer
  | [], offset => (([], offset), [])
  | frame :: frames, offset =>
      let data := frame.drop offset
      let offer : Offer := { data, count := socket calls data.length }
      let written := offer.count.value
      if written ≤ 0 then ((frame :: frames, offset), [offer])
      else if offset + written.toNat < frame.length then
        ((frame :: frames, offset + written.toNat), [offer])
      else
        let (state, offers) := flushLoop socket (calls + 1) frames 0
        (state, offer :: offers)

def flush (socket : SocketAnswers) (calls : Nat)
    (writer : SocketFrameWriter) : SocketFrameWriter × List Offer :=
  if writer.attached then
    let ((frames, offset), offers) :=
      flushLoop socket calls writer.frames writer.offset
    ({ writer with frames, offset }, offers)
  else (writer, [])

def write (socket : SocketAnswers) (calls : Nat) (writer : SocketFrameWriter)
    (frame : Bytes) : Except String (SocketFrameWriter × List Offer) :=
  if writer.attached then
    .ok (flush socket calls { writer with frames := writer.frames ++ [frame] })
  else .error "Agent socket is unavailable"

def drain (socket : SocketAnswers) (calls : Nat)
    (writer : SocketFrameWriter) : SocketFrameWriter × List Offer :=
  flush socket calls writer

/-- The bytes that are still to be sent. -/
def remainder (writer : SocketFrameWriter) : Bytes :=
  writer.frames.flatten.drop writer.offset

end SocketFrameWriter

/-! ## Sequences of calls -/

inductive WriterCall where
  | write (frame : Bytes)
  | drain
  deriving DecidableEq

def WriterCall.frame? : WriterCall → Option Bytes
  | .write frame => some frame
  | .drain => none

/-- A writer and the calls it has made of its socket. -/
structure SocketSession where
  writer : SocketFrameWriter
  offers : List Offer

namespace SocketSession

variable (socket : SocketAnswers)

def attached : SocketSession :=
  { writer := SocketFrameWriter.unattached.attach, offers := [] }

/-- What a call does; a call that throws changes nothing. -/
def perform (session : SocketSession) (call : WriterCall) :
    SocketFrameWriter × List Offer :=
  match call with
  | .write frame =>
      match session.writer.write socket session.offers.length frame with
      | .ok result => result
      | .error _ => (session.writer, [])
  | .drain => session.writer.drain socket session.offers.length

def next (session : SocketSession) (call : WriterCall) : SocketSession :=
  { writer := (session.perform socket call).1
    offers := session.offers ++ (session.perform socket call).2 }

/-- After these calls on an attached socket. -/
def after (calls : List WriterCall) : SocketSession :=
  calls.foldl (next socket) attached

/-- What the socket has accepted. -/
def accepted (session : SocketSession) : Bytes :=
  session.offers.flatMap Offer.accepted

end SocketSession

def framesOf (calls : List WriterCall) : List Bytes :=
  calls.filterMap WriterCall.frame?

/-- After every call, what the socket has accepted and what remains are the
frames written so far; and nothing remains when the socket has accepted all
that the call offered. -/
def Intact (socket : SocketAnswers) (calls : List WriterCall) : Prop :=
  ∀ done call rest, calls = done ++ call :: rest →
    let session := SocketSession.after socket (done ++ [call])
    session.accepted ++ session.writer.remainder =
        (framesOf (done ++ [call])).flatten ∧
      ((∀ offer ∈ ((SocketSession.after socket done).perform socket call).2,
        offer.Full) → session.writer.remainder = [])

/-! ## One flush -/

namespace SocketFrameWriter

variable {socket : SocketAnswers}

/-- The position is inside the first frame. -/
def Inside (frames : List Bytes) (offset : Nat) : Prop :=
  match frames with
  | [] => offset = 0
  | frame :: _ => offset = 0 ∨ offset < frame.length

theorem inside_zero (frames : List Bytes) : Inside frames 0 := by
  cases frames with
  | nil => rfl
  | cons => exact .inl rfl

theorem flushLoop_inside {calls offset : Nat} {frames : List Bytes}
    (inside : Inside frames offset) :
    Inside (flushLoop socket calls frames offset).1.1
      (flushLoop socket calls frames offset).1.2 := by
  induction frames generalizing calls offset with
  | nil => exact inside
  | cons frame frames induction =>
      rw [flushLoop]
      dsimp only
      split
      case isTrue => exact inside
      case isFalse =>
        split
        case isTrue less => exact .inr less
        case isFalse => exact induction (inside_zero frames)

/-- Nothing is lost, repeated or moved. -/
theorem flushLoop_bytes (socket : SocketAnswers) (calls : Nat)
    {offset : Nat} {frames : List Bytes} (inside : Inside frames offset) :
    (flushLoop socket calls frames offset).2.flatMap Offer.accepted ++
        (flushLoop socket calls frames offset).1.1.flatten.drop
          (flushLoop socket calls frames offset).1.2 =
      frames.flatten.drop offset := by
  induction frames generalizing calls offset with
  | nil => rfl
  | cons frame frames induction =>
      have within : offset ≤ frame.length := by
        rcases inside with atStart | less
        · rw [atStart]
          exact Nat.zero_le _
        · exact Nat.le_of_lt less
      have rest : (frame :: frames).flatten.drop offset =
          frame.drop offset ++ frames.flatten := by
        rw [List.flatten_cons, List.drop_append_of_le_length within]
      rw [flushLoop]
      dsimp only
      split
      case isTrue nothing =>
        have none : (socket calls (frame.drop offset).length).value.toNat = 0 :=
          Int.toNat_eq_zero.mpr nothing
        simp only [List.flatMap_cons, List.flatMap_nil, Offer.accepted, none,
          List.take_zero, List.nil_append]
      case isFalse =>
        have upper := (socket calls (frame.drop offset).length).upper
        have length : (frame.drop offset).length = frame.length - offset :=
          List.length_drop
        split
        case isTrue less =>
          simp only [List.flatMap_cons, List.flatMap_nil, List.append_nil,
            Offer.accepted]
          rw [rest, ← List.drop_drop, rest, List.drop_append_of_le_length,
            ← List.append_assoc, List.take_append_drop]
          omega
        case isFalse all =>
          have whole : (frame.drop offset).take
              (socket calls (frame.drop offset).length).value.toNat =
                frame.drop offset := by
            apply List.take_of_length_le
            omega
          have later := induction (calls + 1) (inside_zero frames)
          simp only [List.flatMap_cons, Offer.accepted, whole]
          rw [List.append_assoc, later, List.drop_zero, rest]

theorem flushLoop_suffix (calls offset : Nat) (frames : List Bytes) :
    (flushLoop socket calls frames offset).1.1 <:+ frames := by
  induction frames generalizing calls offset with
  | nil => exact List.suffix_refl _
  | cons frame frames induction =>
      rw [flushLoop]
      dsimp only
      split
      case isTrue => exact List.suffix_refl _
      case isFalse =>
        split
        case isTrue => exact List.suffix_refl _
        case isFalse =>
          exact (induction (calls + 1) 0).trans (List.suffix_cons _ _)

/-- Frames of which only the last are empty. -/
def EmptyLast (frames : List Bytes) : Prop :=
  frames.Pairwise fun earlier later => earlier = [] → later = []

theorem flatten_of_empty_first {frames : List Bytes}
    (emptyLast : EmptyLast ([] :: frames)) : frames.flatten = [] := by
  apply List.flatten_eq_nil_iff.mpr
  intro frame member
  exact (List.pairwise_cons.mp emptyLast).1 frame member rfl

/-- A socket that accepts all it is offered leaves nothing behind. -/
theorem flushLoop_full {calls offset : Nat} {frames : List Bytes}
    (inside : Inside frames offset) (emptyLast : EmptyLast frames)
    (full : ∀ offer ∈ (flushLoop socket calls frames offset).2, offer.Full) :
    (flushLoop socket calls frames offset).1.1.flatten.drop
      (flushLoop socket calls frames offset).1.2 = [] := by
  induction frames generalizing calls offset with
  | nil => exact List.drop_nil
  | cons frame frames induction =>
      have upper : (socket calls (frame.drop offset).length).value =
          (frame.drop offset).length := by
        apply full { data := frame.drop offset, count := socket calls _ }
        rw [flushLoop]
        dsimp only
        split
        · exact List.mem_cons_self
        · split <;> exact List.mem_cons_self
      rw [List.length_drop] at upper
      rw [flushLoop] at full ⊢
      dsimp only at full ⊢
      split
      case isTrue nothing =>
        rw [List.length_drop] at nothing
        have isEmpty : frame = [] ∧ offset = 0 := by
          rcases inside with atStart | less
          · refine ⟨List.length_eq_zero_iff.mp ?_, atStart⟩
            omega
          · omega
        rw [isEmpty.1, isEmpty.2, List.flatten_cons, List.nil_append,
          List.drop_zero]
        apply flatten_of_empty_first
        rw [← isEmpty.1]
        exact emptyLast
      case isFalse something =>
        rw [if_neg something] at full
        rw [List.length_drop] at something
        split
        case isTrue less =>
          rw [List.length_drop] at less
          omega
        case isFalse all =>
          rw [if_neg all] at full
          apply induction (inside_zero frames)
            (List.pairwise_cons.mp emptyLast).2
          intro offer member
          exact full offer (List.mem_cons_of_mem _ member)

/-- An empty frame is offered and stays first. -/
theorem flushLoop_empty (calls : Nat) (frames : List Bytes) :
    (flushLoop socket calls ([] :: frames) 0).1 = ([] :: frames, 0) := by
  have nothing : (socket calls (List.drop 0 ([] : Bytes)).length).value ≤ 0 :=
    (socket calls (List.drop 0 ([] : Bytes)).length).upper
  rw [flushLoop]
  dsimp only
  rw [if_pos nothing]

end SocketFrameWriter

/-! ## Runs -/

namespace SocketSession

open SocketFrameWriter

variable {socket : SocketAnswers}

theorem after_concat (done : List WriterCall) (call : WriterCall) :
    after socket (done ++ [call]) = (after socket done).next socket call := by
  rw [after, List.foldl_append]
  rfl

theorem framesOf_concat (done : List WriterCall) (call : WriterCall) :
    framesOf (done ++ [call]) = framesOf done ++ call.frame?.toList := by
  rw [framesOf, List.filterMap_append]
  cases call <;> rfl

/-- A call on an attached socket flushes the queue with its frame added. -/
theorem perform_of_attached (socket : SocketAnswers)
    {session : SocketSession} (call : WriterCall)
    (isAttached : session.writer.attached = true) :
    session.perform socket call =
      ({ attached := true
         frames := (flushLoop socket session.offers.length
          (session.writer.frames ++ call.frame?.toList)
            session.writer.offset).1.1
         offset := (flushLoop socket session.offers.length
          (session.writer.frames ++ call.frame?.toList)
            session.writer.offset).1.2 },
        (flushLoop socket session.offers.length
          (session.writer.frames ++ call.frame?.toList)
            session.writer.offset).2) := by
  cases call with
  | write frame =>
      rw [perform, write, if_pos isAttached]
      dsimp only
      rw [flush, if_pos isAttached, isAttached]
      rfl
  | drain =>
      rw [perform, SocketFrameWriter.drain, flush, if_pos isAttached,
        isAttached]
      rw [WriterCall.frame?, Option.toList_none, List.append_nil]

structure Sound (session : SocketSession) (frames : List Bytes) : Prop where
  attached : session.writer.attached = true
  inside : Inside session.writer.frames session.writer.offset
  suffix : session.writer.frames <:+ frames
  bytes : session.accepted ++ session.writer.remainder = frames.flatten

theorem inside_append {frames : List Bytes} {offset : Nat}
    (inside : Inside frames offset) (more : List Bytes) :
    Inside (frames ++ more) offset := by
  cases frames with
  | nil =>
      rw [show offset = 0 from inside]
      exact inside_zero _
  | cons => exact inside

theorem drop_flatten_append {frames : List Bytes} {offset : Nat}
    (inside : Inside frames offset) (more : List Bytes) :
    (frames ++ more).flatten.drop offset =
      frames.flatten.drop offset ++ more.flatten := by
  rw [List.flatten_append, List.drop_append_of_le_length]
  cases frames with
  | nil =>
      rw [show offset = 0 from inside]
      exact Nat.zero_le _
  | cons frame frames =>
      rw [List.flatten_cons, List.length_append]
      rcases inside with atStart | less
      · omega
      · omega

theorem Sound.next {session : SocketSession} {frames : List Bytes}
    (sound : session.Sound frames) (call : WriterCall) :
    (session.next socket call).Sound (frames ++ call.frame?.toList) := by
  have result := perform_of_attached socket call sound.attached
  have inside := inside_append sound.inside call.frame?.toList
  constructor
  · rw [SocketSession.next, result]
  · rw [SocketSession.next, result]
    exact flushLoop_inside inside
  · rw [SocketSession.next, result]
    apply (flushLoop_suffix _ _ _).trans
    obtain ⟨before, same⟩ := sound.suffix
    refine ⟨before, ?_⟩
    rw [← List.append_assoc, same]
  · have bytes := flushLoop_bytes socket session.offers.length inside
    rw [drop_flatten_append sound.inside] at bytes
    have remains : session.writer.remainder ++ call.frame?.toList.flatten = _ :=
      bytes.symm
    rw [SocketSession.next, result, List.flatten_append, ← sound.bytes,
      List.append_assoc, remains]
    simp only [accepted, remainder, List.flatMap_append, List.append_assoc]

theorem sound_after (socket : SocketAnswers) (calls : List WriterCall) :
    (after socket calls).Sound (framesOf calls) := by
  induction calls using List.reverseRecOn with
  | nil => exact ⟨rfl, rfl, List.suffix_refl _, rfl⟩
  | append_singleton done call induction =>
      rw [after_concat, framesOf_concat]
      exact induction.next call

theorem remainder_of_full {done : List WriterCall} {call : WriterCall}
    (emptyLast : EmptyLast (framesOf (done ++ [call])))
    (full : ∀ offer ∈ ((after socket done).perform socket call).2,
      offer.Full) :
    (after socket (done ++ [call])).writer.remainder = [] := by
  have sound := sound_after socket done
  have result := perform_of_attached socket call sound.attached
  rw [result] at full
  rw [after_concat, SocketSession.next, result]
  apply flushLoop_full (inside_append sound.inside _) _ full
  rw [framesOf_concat] at emptyLast
  obtain ⟨before, same⟩ := sound.suffix
  rw [← same, List.append_assoc] at emptyLast
  exact (List.pairwise_append.mp emptyLast).2.1

theorem intact_of_emptyLast (socket : SocketAnswers)
    {calls : List WriterCall} (emptyLast : EmptyLast (framesOf calls)) :
    Intact socket calls := by
  intro done call rest same
  constructor
  · exact (sound_after socket _).bytes
  · intro full
    apply remainder_of_full _ full
    have split : framesOf calls =
        framesOf (done ++ [call]) ++ framesOf rest := by
      rw [same, List.append_cons]
      exact List.filterMap_append
    rw [split] at emptyLast
    exact (List.pairwise_append.mp emptyLast).1

/-! ### A socket that accepts everything -/

/-- A socket that accepts what it is offered. -/
def greedy : SocketAnswers := fun _ offered =>
  { value := offered
    lower := by omega
    upper := Int.le_refl _ }

theorem flushLoop_greedy_full (calls offset : Nat) (frames : List Bytes) :
    ∀ offer ∈ (flushLoop greedy calls frames offset).2, offer.Full := by
  induction frames generalizing calls offset with
  | nil =>
      intro offer member
      cases member
  | cons frame frames induction =>
      intro offer member
      rw [flushLoop] at member
      dsimp only at member
      split at member
      case isTrue =>
        rw [List.mem_singleton.mp member]
        rfl
      case isFalse =>
        split at member
        case isTrue =>
          rw [List.mem_singleton.mp member]
          rfl
        case isFalse =>
          rcases List.mem_cons.mp member with same | later
          · rw [same]
            rfl
          · exact induction _ _ offer later

theorem flushLoop_greedy_one (calls : Nat) {frame : Bytes}
    (nonempty : frame ≠ []) :
    (flushLoop greedy calls [frame] 0).1 = ([], 0) := by
  have positive := List.length_pos_of_ne_nil nonempty
  rw [flushLoop]
  dsimp only
  split
  case isTrue nothing =>
    have none : (frame.length : Int) ≤ 0 := nothing
    omega
  case isFalse =>
    split
    case isTrue less =>
      have shorter : 0 + frame.length < frame.length := less
      omega
    case isFalse => rfl

/-- The queue behind an empty frame. -/
def Stuck (writer : SocketFrameWriter) (frames : List Bytes) : Prop :=
  writer.offset = 0 ∧
    (writer.frames = [] ∧ [] ∉ frames ∨ ∃ more, writer.frames = [] :: more)

theorem intact_of_concat {socket : SocketAnswers} {done : List WriterCall}
    {call : WriterCall} (intact : Intact socket (done ++ [call])) :
    Intact socket done := by
  intro before middle rest same
  apply intact before middle (rest ++ [call])
  rw [same, List.append_assoc, List.cons_append]

theorem stuck_of_intact {calls : List WriterCall}
    (intact : Intact greedy calls) :
    EmptyLast (framesOf calls) ∧
      Stuck (after greedy calls).writer (framesOf calls) := by
  induction calls using List.reverseRecOn with
  | nil => exact ⟨List.Pairwise.nil, rfl, .inl ⟨rfl, List.not_mem_nil⟩⟩
  | append_singleton done call induction =>
      obtain ⟨emptyLast, atStart, queue⟩ := induction (intact_of_concat intact)
      have sound := sound_after greedy done
      have result := perform_of_attached greedy call sound.attached
      have nothing := (intact done call [] rfl).2 (by
        rw [result]
        exact flushLoop_greedy_full _ _ _)
      rw [after_concat, SocketSession.next, result, atStart] at nothing ⊢
      rw [framesOf_concat]
      cases call with
      | drain =>
          simp only [WriterCall.frame?, Option.toList_none, List.append_nil]
          refine ⟨emptyLast, ?_⟩
          rcases queue with ⟨isNil, absent⟩ | ⟨more, isStuck⟩
          · rw [isNil]
            exact ⟨rfl, .inl ⟨rfl, absent⟩⟩
          · rw [isStuck, Stuck, flushLoop_empty]
            exact ⟨rfl, .inr ⟨more, rfl⟩⟩
      | write frame =>
          simp only [WriterCall.frame?, Option.toList_some] at nothing ⊢
          rcases queue with ⟨isNil, absent⟩ | ⟨more, isStuck⟩
          · rw [isNil, List.nil_append]
            refine ⟨List.pairwise_append.mpr ⟨emptyLast,
              List.pairwise_singleton _ _, ?_⟩, ?_⟩
            · intro earlier member _ _ isEmpty
              rw [isEmpty] at member
              exact absurd member absent
            · by_cases isEmpty : frame = []
              · rw [isEmpty, Stuck, flushLoop_empty]
                exact ⟨rfl, .inr ⟨[], rfl⟩⟩
              · rw [Stuck, flushLoop_greedy_one _ isEmpty]
                refine ⟨rfl, .inl ⟨rfl, ?_⟩⟩
                intro member
                rcases List.mem_append.mp member with earlier | last
                · exact absent earlier
                · exact isEmpty (List.mem_singleton.mp last).symm
          · rw [isStuck, List.cons_append, remainder, flushLoop_empty] at nothing
            have isEmpty : frame = [] := by
              apply List.flatten_eq_nil_iff.mp nothing frame
              exact List.mem_cons_of_mem _
                (List.mem_append_right _ (List.mem_singleton_self frame))
            refine ⟨List.pairwise_append.mpr ⟨emptyLast,
              List.pairwise_singleton _ _, ?_⟩, ?_⟩
            · intro _ _ last member _
              rw [List.mem_singleton.mp member]
              exact isEmpty
            · rw [isStuck, List.cons_append, Stuck, flushLoop_empty]
              exact ⟨rfl, .inr ⟨_, rfl⟩⟩

end SocketSession

/-- No byte is lost or left behind, whatever the socket accepts, exactly when
no frame with bytes comes after an empty one. -/
theorem intact_iff (calls : List WriterCall) :
    (∀ socket, Intact socket calls) ↔
      SocketFrameWriter.EmptyLast (framesOf calls) := by
  constructor
  · intro intact
    exact (SocketSession.stuck_of_intact (intact _)).1
  · intro emptyLast socket
    exact SocketSession.intact_of_emptyLast socket emptyLast

end Electrosphere
