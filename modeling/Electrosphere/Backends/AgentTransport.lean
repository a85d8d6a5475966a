import Electrosphere.Backends.SocketFrames
import Electrosphere.Foundation.Framing
import Electrosphere.Foundation.Json
import Electrosphere.Storage.CfsExport

/-!
# The channel to the guest agent

`AgentFrameChannel` takes the answers of the guest off the bytes that come in
and hands each to the request that has waited longest.  A call of `request` is
known by its number.
-/

namespace Electrosphere

open Foundation

/-- `JSON.stringify` of a request and `JSON.parse` of an answer. -/
structure AgentJson (Request Response : Type) where
  stringify : Request → List Char
  parse : List Char → Except Thrown Response

section Frames

variable {Request Response : Type} (json : AgentJson Request Response)

def encodeAgentFrame (message : Request) : Except Thrown Bytes := do
  let payload := Utf8.encode (json.stringify message)
  let length ← Cfs.u32 payload.length
  return length ++ payload

def decodeAgentFrame (frame : Bytes) : Except Thrown Response :=
  if frame.length < 4 then .error (.plain "Agent frame is truncated")
  else if ofBigEndian (frame.take 4) ≠ frame.length - 4 then
    .error (.plain "Agent frame length mismatch")
  else json.parse (Utf8.decodeLossy (frame.drop 4))

/-- A frame begins with the length of what follows. -/
theorem four_le_length_of_encoded {message : Request} {frame : Bytes}
    (encoded : encodeAgentFrame json message = .ok frame) :
    4 ≤ frame.length := by
  unfold encodeAgentFrame Cfs.u32 at encoded
  dsimp only at encoded
  split at encoded
  case isTrue =>
    cases encoded
    rw [List.length_append, length_bigEndian]
    exact Nat.le_add_right _ _
  case isFalse => cases encoded

/-- The frames of requests arrive whole and in order: whatever the socket takes
of each offer, nothing is lost, repeated or moved, and nothing remains once
everything offered has been accepted. -/
theorem agent_frames_intact (calls : List WriterCall)
    (encoded : ∀ frame, WriterCall.write frame ∈ calls →
      ∃ message, encodeAgentFrame json message = .ok frame)
    (socket : SocketAnswers) : Intact socket calls := by
  apply (intact_iff calls).mpr
  have nonempty : ∀ frame ∈ framesOf calls, frame ≠ [] := by
    intro frame member
    obtain ⟨call, isCall, isFrame⟩ := List.mem_filterMap.mp member
    cases call with
    | drain => cases isFrame
    | write =>
        cases isFrame
        obtain ⟨message, isEncoded⟩ := encoded frame isCall
        have long := four_le_length_of_encoded json isEncoded
        rintro rfl
        cases long
  apply List.Pairwise.imp_of_mem _ (List.pairwise_of_forall fun _ _ => trivial)
  intro earlier later isEarlier _ _ isEmpty
  exact absurd isEmpty (nonempty earlier isEarlier)

end Frames

private def pollJson : AgentJson (List Char) Unit where
  stringify executionId :=
    Json.object [("type", Json.string "Poll".toList),
      ("executionId", Json.string executionId)]
  parse _ := .error (.plain "JSON Parse error")

private def pollFrame (executionId : List Char) : Bytes :=
  bigEndian 4 (Utf8.encode (pollJson.stringify executionId)).length ++
    Utf8.encode (pollJson.stringify executionId)

private theorem neg_one_le (offered : Nat) : (-1 : Int) ≤ offered := by
  omega

private theorem five_le (offered : Nat) :
    ((min 5 offered : Nat) : Int) ≤ offered := by
  omega

/-- A socket that takes five bytes of an offer, and is full for every third
one. -/
private def sparing : SocketAnswers := fun calls offered =>
  if calls % 3 = 2 then
    { value := -1, lower := Int.le_refl _, upper := neg_one_le offered }
  else
    { value := (min 5 offered : Nat), lower := neg_one_le _
      upper := five_le offered }

/-- Two polls, written while the socket takes a few bytes at a time. -/
theorem agent_frames_intact_polls :
    Intact sparing
      [.write (pollFrame ['a']), .drain, .write (pollFrame ['b', 'c']), .drain,
        .drain] := by
  apply agent_frames_intact pollJson
  intro frame member
  simp only [List.mem_cons, List.not_mem_nil, WriterCall.write.injEq, or_false,
    reduceCtorEq, false_or] at member
  rcases member with rfl | rfl
  · exact ⟨['a'], by decide⟩
  · exact ⟨['b', 'c'], by decide⟩

/-- What has become of the requests of a channel: those that wait, and the
answers and rejections of the others in the order in which they came. -/
structure Replies (Response : Type) where
  pending : List Nat := []
  closed : Bool := false
  settled : List (Nat × Except Thrown Response) := []

namespace Replies

variable {Response : Type}

def reject (error : Thrown) (waiting : List Nat) :
    List (Nat × Except Thrown Response) :=
  waiting.map fun call => (call, .error error)

/-- `fail`, and `close` but for the socket. -/
def fail (replies : Replies Response) (error : Thrown) : Replies Response :=
  if replies.closed then replies
  else
    { pending := []
      closed := true
      settled := replies.settled ++ reject error replies.pending }

end Replies

structure AgentFrameChannel (Response : Type) extends Replies Response where
  buffer : Bytes := []

namespace AgentFrameChannel

variable {Request Response ω : Type} (json : AgentJson Request Response)

def maxFrameBytes : Nat := 2 * 1024 * 1024

def exceedsLimit : Thrown := .plain "Guest agent frame exceeds limit"

def unsolicited : Thrown := .plain "Guest agent sent an unsolicited response"

def fail (channel : AgentFrameChannel Response) (error : Thrown) :
    AgentFrameChannel Response :=
  { channel with toReplies := channel.toReplies.fail error }

/-- The loop of `push`.  Every round takes four bytes at least. -/
def consume : Nat → AgentFrameChannel Response → AgentFrameChannel Response
  | 0, channel => channel
  | fuel + 1, channel =>
      if channel.buffer.length < 4 then channel
      else
        let length := ofBigEndian (channel.buffer.take 4)
        if maxFrameBytes < length then channel.fail exceedsLimit
        else if channel.buffer.length < length + 4 then channel
        else
          let frame := channel.buffer.take (length + 4)
          let channel :=
            { channel with buffer := channel.buffer.drop (length + 4) }
          match channel.pending with
          | [] => channel.fail unsolicited
          | call :: pending =>
              consume fuel
                { channel with
                  pending
                  settled :=
                    channel.settled ++ [(call, decodeAgentFrame json frame)] }

def push (channel : AgentFrameChannel Response) (chunk : Bytes) :
    AgentFrameChannel Response :=
  if channel.closed then channel
  else
    consume json (channel.buffer ++ chunk).length
      { channel with buffer := channel.buffer ++ chunk }

/-- What `request` answers when the promise it returns is rejected at once. -/
def request (writeFrame : Bytes → Except Thrown ω)
    (channel : AgentFrameChannel Response) (call : Nat) (input : Request) :
    AgentFrameChannel Response × Except Thrown ω :=
  if channel.closed then
    (channel, .error (.coded .backendError "Guest agent transport is closed"))
  else
    let pushed := { channel with pending := channel.pending ++ [call] }
    match (encodeAgentFrame json input).bind writeFrame with
    | .ok written => (pushed, .ok written)
    | .error error => ({ pushed with pending := pushed.pending.dropLast }, .error error)

end AgentFrameChannel

/-! ## Answers as items of a stream -/

/-- What the channel finds in the bytes that come in. -/
def answerFraming : Framing UInt8 (Bytes × Bytes) :=
  Framing.headed 4 (by decide) fun header =>
    if AgentFrameChannel.maxFrameBytes < ofBigEndian header then 0
    else ofBigEndian header

namespace Replies

variable {Request Response : Type} (json : AgentJson Request Response)

/-- What one frame does. -/
def receive (replies : Replies Response) (frame : Bytes × Bytes) :
    Replies Response :=
  if replies.closed then replies
  else if AgentFrameChannel.maxFrameBytes < ofBigEndian frame.1 then
    replies.fail AgentFrameChannel.exceedsLimit
  else
    match replies.pending with
    | [] => replies.fail AgentFrameChannel.unsolicited
    | call :: pending =>
        { replies with
          pending
          settled := replies.settled ++
            [(call, decodeAgentFrame json (frame.1 ++ frame.2))] }

variable {json} {replies : Replies Response}

theorem fail_of_closed (closed : replies.closed = true) (error : Thrown) :
    replies.fail error = replies := by
  rw [fail, if_pos closed]

theorem closed_fail (replies : Replies Response) (error : Thrown) :
    (replies.fail error).closed = true := by
  rw [fail]
  split
  case isTrue closed => exact closed
  case isFalse => rfl

theorem receive_of_closed (closed : replies.closed = true)
    (frame : Bytes × Bytes) : replies.receive json frame = replies := by
  rw [receive, if_pos closed]

theorem foldl_receive_of_closed (closed : replies.closed = true)
    (frames : List (Bytes × Bytes)) :
    frames.foldl (receive json) replies = replies := by
  induction frames with
  | nil => rfl
  | cons frame frames induction =>
      rw [List.foldl_cons, receive_of_closed closed, induction]

end Replies

namespace AgentFrameChannel

variable {Request Response : Type} {json : AgentJson Request Response}
  {channel : AgentFrameChannel Response}

/-- One round of the loop takes off the next frame. -/
theorem consume_succ (json : AgentJson Request Response)
    (isOpen : channel.closed = false) (fuel : Nat) :
    (answerFraming.next channel.buffer = none →
      consume json (fuel + 1) channel = channel) ∧
    ∀ frame rest, answerFraming.next channel.buffer = some (frame, rest) →
      ((channel.toReplies.receive json frame).closed = true →
        (consume json (fuel + 1) channel).toReplies =
          channel.toReplies.receive json frame) ∧
      ((channel.toReplies.receive json frame).closed = false →
        consume json (fuel + 1) channel =
          consume json fuel
            ⟨channel.toReplies.receive json frame, rest⟩) := by
  constructor
  · intro stopped
    rw [consume]
    split
    case isTrue => rfl
    case isFalse long =>
      rcases Framing.next_headed_eq_none_iff.mp stopped with short | short
      · exact absurd short long
      · split at short
        case isTrue => omega
        case isFalse within =>
          rw [if_neg within, if_pos (by omega)]
  · intro frame rest taken
    obtain ⟨same, width, length⟩ := Framing.next_headed_eq_some_iff.mp
      (show _ = some ((frame.1, frame.2), rest) from taken)
    have header : channel.buffer.take 4 = frame.1 := by
      rw [same, ← width, List.append_assoc, List.take_left]
    have long : ¬ channel.buffer.length < 4 := by
      rw [same, List.length_append, List.length_append]
      omega
    rw [consume, if_neg long, header, Replies.receive, if_neg (by simp [isOpen])]
    dsimp only
    split at length
    case isTrue exceeds =>
      rw [if_pos exceeds, if_pos exceeds]
      constructor
      · intro _
        rfl
      · intro still
        rw [Replies.closed_fail] at still
        cases still
    case isFalse within =>
      have whole : channel.buffer.take (ofBigEndian frame.1 + 4) =
          frame.1 ++ frame.2 := by
        rw [same, ← length, Nat.add_comm, ← width, ← List.length_append,
          List.take_left]
      have behind : channel.buffer.drop (ofBigEndian frame.1 + 4) = rest := by
        rw [same, ← length, Nat.add_comm, ← width, ← List.length_append,
          List.drop_left]
      have enough : ¬ channel.buffer.length < ofBigEndian frame.1 + 4 := by
        rw [same, List.length_append, List.length_append]
        omega
      rw [if_neg within, if_neg within, if_neg enough, whole, behind]
      cases channel.pending with
      | nil =>
          constructor
          · intro _
            rfl
          · intro still
            rw [Replies.closed_fail] at still
            cases still
      | cons call pending =>
          constructor
          · intro closed
            rw [isOpen] at closed
            cases closed
          · intro _
            rfl

/-- The loop deals with the frames one after the other, and while the channel
is open it keeps what is not a frame yet. -/
theorem consume_eq (json : AgentJson Request Response)
    (channel : AgentFrameChannel Response) {fuel : Nat}
    (isOpen : channel.closed = false) (enough : channel.buffer.length ≤ fuel) :
    (consume json fuel channel).toReplies =
        (answerFraming.items channel.buffer).foldl (Replies.receive json)
          channel.toReplies ∧
      ((consume json fuel channel).closed = false →
        (consume json fuel channel).buffer =
          answerFraming.remainder channel.buffer) := by
  induction fuel generalizing channel with
  | zero =>
      have none : channel.buffer = [] :=
        List.length_eq_zero_iff.mp (Nat.le_zero.mp enough)
      rw [consume, none, Framing.items_nil, Framing.remainder_nil]
      exact ⟨rfl, fun _ => rfl⟩
  | succ fuel induction =>
      have round := consume_succ json isOpen fuel
      cases next : answerFraming.next channel.buffer with
      | none =>
          rw [round.1 next, Framing.items_of_none next,
            Framing.remainder_of_none next]
          exact ⟨rfl, fun _ => rfl⟩
      | some taken =>
          obtain ⟨stops, goesOn⟩ := round.2 taken.1 taken.2 next
          rw [Framing.items_of_some next, Framing.remainder_of_some next,
            List.foldl_cons]
          cases state : (channel.toReplies.receive json taken.1).closed with
          | true =>
              rw [stops state, Replies.foldl_receive_of_closed state]
              refine ⟨rfl, fun still => ?_⟩
              rw [state] at still
              cases still
          | false =>
              rw [goesOn state]
              have shorter := answerFraming.shorter next
              exact induction ⟨_, taken.2⟩ state (by dsimp only; omega)

/-- A chunk is dealt with frame by frame. -/
theorem replies_push (channel : AgentFrameChannel Response) (chunk : Bytes) :
    (channel.push json chunk).toReplies =
      (answerFraming.items (channel.buffer ++ chunk)).foldl
        (Replies.receive json) channel.toReplies := by
  rw [push]
  split
  case isTrue closed => rw [Replies.foldl_receive_of_closed closed]
  case isFalse isOpen =>
    exact (consume_eq json { channel with buffer := channel.buffer ++ chunk }
      (Bool.eq_false_iff.mpr isOpen) (Nat.le_refl _)).1

theorem foldl_push_of_closed (closed : channel.closed = true)
    (chunks : List Bytes) : chunks.foldl (push json) channel = channel := by
  induction chunks with
  | nil => rfl
  | cons chunk chunks induction =>
      rw [List.foldl_cons, push, if_pos closed, induction]

theorem closed_of_push (chunk : Bytes)
    (isOpen : (channel.push json chunk).closed = false) :
    channel.closed = false := by
  cases state : channel.closed with
  | false => rfl
  | true =>
      rw [push, if_pos state, state] at isOpen
      cases isOpen

theorem buffer_push (chunk : Bytes)
    (isOpen : (channel.push json chunk).closed = false) :
    (channel.push json chunk).buffer =
      answerFraming.remainder (channel.buffer ++ chunk) := by
  have before := closed_of_push chunk isOpen
  rw [push, if_neg (by simp [before])] at isOpen ⊢
  exact (consume_eq json { channel with buffer := channel.buffer ++ chunk }
    before (Nat.le_refl _)).2 isOpen

/-- An open channel has dealt with all that is complete. -/
def Drained (channel : AgentFrameChannel Response) : Prop :=
  channel.closed = false → answerFraming.next channel.buffer = none

theorem drained_push (json : AgentJson Request Response)
    (channel : AgentFrameChannel Response) (chunk : Bytes) :
    (channel.push json chunk).Drained := by
  intro isOpen
  rw [buffer_push chunk isOpen]
  exact Framing.next_remainder _ _

/-- Chunks of a stream are as good as the whole of it. -/
theorem foldl_push (json : AgentJson Request Response)
    (drained : channel.Drained) (chunks : List Bytes) :
    (chunks.foldl (push json) channel).toReplies =
        (answerFraming.items (channel.buffer ++ chunks.flatten)).foldl
          (Replies.receive json) channel.toReplies ∧
      ((chunks.foldl (push json) channel).closed = false →
        (chunks.foldl (push json) channel).buffer =
          answerFraming.remainder (channel.buffer ++ chunks.flatten)) := by
  induction chunks generalizing channel with
  | nil =>
      rw [List.foldl_nil, List.flatten_nil, List.append_nil]
      cases state : channel.closed with
      | true =>
          rw [Replies.foldl_receive_of_closed state]
          exact ⟨rfl, fun still => by cases still⟩
      | false =>
          rw [Framing.items_of_none (drained state),
            Framing.remainder_of_none (drained state)]
          exact ⟨rfl, fun _ => rfl⟩
  | cons chunk chunks induction =>
      obtain ⟨replies, buffer⟩ :=
        induction (drained_push json channel chunk)
      rw [List.foldl_cons, List.flatten_cons, ← List.append_assoc,
        Framing.items_append, Framing.remainder_append _ (channel.buffer ++ chunk),
        List.foldl_append, ← replies_push]
      cases state : (channel.push json chunk).closed with
      | true =>
          rw [Replies.foldl_receive_of_closed state] at replies ⊢
          refine ⟨replies, fun still => ?_⟩
          rw [replies, state] at still
          cases still
      | false =>
          rw [← buffer_push chunk state]
          exact ⟨replies, buffer⟩

end AgentFrameChannel

end Electrosphere
