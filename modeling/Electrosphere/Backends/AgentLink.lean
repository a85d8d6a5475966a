import Electrosphere.Backends.TransportRuns

/-!
# The daemon and a guest agent

The two ends of an attach stream and all that is between them: what the socket
has taken reaches the guest in pieces, the guest answers one request after the
other, and Docker cuts its output into frames, puts others in between and hands
them to the daemon in chunks.
-/

namespace Electrosphere

open Foundation

/-- What both ends make of requests and answers.  Either side reads what the
other has written. -/
structure AgentWire (Request Response : Type) extends
    AgentJson Request Response where
  /-- `serde_json::from_slice` and `serde_json::to_vec`. -/
  fromSlice : Bytes → Option Request
  toVec : Response → Bytes
  readsRequest : ∀ request,
    fromSlice (Utf8.encode (stringify request)) = some request
  readsResponse : ∀ response,
    parse (Utf8.decodeLossy (toVec response)) = .ok response
  /-- The length of an answer fits the four bytes in front of it. -/
  bounded : ∀ response, (toVec response).length < 2 ^ 32

namespace AgentWire

variable {Request Response : Type} (wire : AgentWire Request Response)

def requestBytes (request : Request) : Bytes :=
  Utf8.encode (wire.stringify request)

def maxRequestBytes : Nat := 1024 * 1024

/-- `read_frame` on what has come in: nothing while it waits for more, and no
request when it fails. -/
def readFrame (input : Bytes) : Option (Option Request × Bytes) :=
  (takeBytes 4 input).bind fun (length, rest) =>
    if maxRequestBytes < ofBigEndian length then some (none, rest)
    else
      (takeBytes (ofBigEndian length) rest).map fun (payload, rest) =>
        (wire.fromSlice payload, rest)

/-- `write_frame`. -/
def writeFrame (response : Response) : Bytes :=
  bigEndian 4 (wire.toVec response).length ++ wire.toVec response

end AgentWire

/-- A frame of Docker. -/
def dockerHeader (stream : UInt8) (payload : Bytes) : Bytes :=
  [stream, 0, 0, 0] ++ bigEndian 4 payload.length

def dockerFrame (frame : UInt8 × Bytes) : Bytes :=
  dockerHeader frame.1 frame.2 ++ frame.2

/-- What Docker answers to the upgrade request. -/
structure AttachReply where
  header : Bytes
  whole : Framing.cut headerEnd (header ++ headerEnd) = some (header, [])

structure AgentLink (σ Request Response : Type) where
  host : DockerAgentTransport Response
  /-- The requests made, by number. -/
  inputs : List Request := []
  /-- How much of what the socket has taken has reached the guest. -/
  carried : Nat := 0
  guest : σ
  /-- What the guest has not read yet. -/
  input : Bytes := []
  running : Bool := true
  /-- What the guest has written and Docker has not taken yet. -/
  output : Bytes := []
  /-- What is on the way to the daemon. -/
  stream : Bytes

inductive LinkEvent (Request : Type) where
  | request (input : Request)
  | drain
  | fail (error : Thrown)
  | close
  /-- So many bytes reach the guest. -/
  | carry (count : Nat)
  /-- A round of the main loop of the guest. -/
  | serve
  /-- The guest ends. -/
  | stop
  /-- Docker puts so many bytes of the guest's output into a frame. -/
  | send (count : Nat)
  /-- A frame of another output stream. -/
  | stderr (bytes : Bytes)
  /-- So many bytes reach the daemon. -/
  | deliver (count : Nat)

namespace AgentLink

variable {σ Request Response : Type} (wire : AgentWire Request Response)
  (answers : SocketAnswers) (handle : σ → Request → σ × Response)

def start (guest : σ) (reply : AttachReply) :
    AgentLink σ Request Response :=
  { host := DockerAgentTransport.opened Response
    guest
    stream := reply.header ++ headerEnd }

def enqueue (link : AgentLink σ Request Response) (frame : UInt8 × Bytes) :
    Option (AgentLink σ Request Response) :=
  if frame.2.length < 2 ^ 32 then
    some { link with stream := link.stream ++ dockerFrame frame }
  else none

/-- A round of the guest's main loop, which ends it when a request cannot be
read. -/
def serve (link : AgentLink σ Request Response) :
    Option (AgentLink σ Request Response) :=
  if link.running then
    (wire.readFrame link.input).map fun (request?, rest) =>
      match request? with
      | none => { link with running := false, input := rest }
      | some request =>
          { link with
            guest := (handle link.guest request).1
            input := rest
            output :=
              link.output ++ wire.writeFrame (handle link.guest request).2 }
  else none

def step (link : AgentLink σ Request Response) :
    LinkEvent Request → Option (AgentLink σ Request Response)
  | .request input =>
      (link.host.request wire.toAgentJson answers input).map fun host =>
        { link with host, inputs := link.inputs ++ [input] }
  | .drain => some { link with host := link.host.drain answers }
  | .fail error => some { link with host := link.host.fail error }
  | .close => some { link with host := link.host.close }
  | .carry count =>
      let bytes := (link.host.socket.accepted.drop link.carried).take count
      some
        { link with
          carried := link.carried + bytes.length
          input := link.input ++ bytes }
  | .serve => link.serve wire handle
  | .stop => some { link with running := false }
  | .send count =>
      ({ link with output := link.output.drop count }).enqueue
        (1, link.output.take count)
  | .stderr bytes => link.enqueue (2, bytes)
  | .deliver count =>
      some
        { link with
          host := link.host.onData wire.toAgentJson (link.stream.take count)
          stream := link.stream.drop count }

/-- The requests that were handed to the socket. -/
def asked (link : AgentLink σ Request Response) : List Request :=
  link.host.channel.asked.filterMap fun call => link.inputs[call]?

end AgentLink

/-! ## What the guest makes of requests -/

section Guest

variable {σ Request Response : Type} (handle : σ → Request → σ × Response)

def guestAfter (guest : σ) (requests : List Request) : σ :=
  requests.foldl (fun guest request => (handle guest request).1) guest

def responses : σ → List Request → List Response
  | _, [] => []
  | guest, request :: requests =>
      (handle guest request).2 :: responses (handle guest request).1 requests

variable {handle}

theorem guestAfter_concat (guest : σ) (requests : List Request)
    (request : Request) :
    guestAfter handle guest (requests ++ [request]) =
      (handle (guestAfter handle guest requests) request).1 := by
  rw [guestAfter, List.foldl_append]
  rfl

theorem responses_concat (guest : σ) (requests : List Request)
    (request : Request) :
    responses handle guest (requests ++ [request]) =
      responses handle guest requests ++
        [(handle (guestAfter handle guest requests) request).2] := by
  induction requests generalizing guest with
  | nil => rfl
  | cons first requests induction =>
      rw [List.cons_append, responses, induction, responses]
      rfl

theorem length_responses (guest : σ) (requests : List Request) :
    (responses handle guest requests).length = requests.length := by
  induction requests generalizing guest with
  | nil => rfl
  | cons first requests induction =>
      rw [responses, List.length_cons, induction, List.length_cons]

/-- The first requests are answered as if there were no others. -/
theorem responses_take (guest : σ) (requests : List Request) (count : Nat) :
    responses handle guest (requests.take count) =
      (responses handle guest requests).take count := by
  induction requests generalizing guest count with
  | nil =>
      rw [List.take_nil, responses, List.take_nil]
  | cons first requests induction =>
      cases count with
      | zero => rfl
      | succ count =>
          rw [List.take_succ_cons, responses, responses, List.take_succ_cons,
            induction]

end Guest

/-! ## Frames in both directions -/

namespace AgentWire

variable {Request Response : Type} {wire : AgentWire Request Response}
  {request : Request} {requests : List Request} {response : Response}
  {written : List Response} {input rest more stream : Bytes}

def requestFrame (wire : AgentWire Request Response) (request : Request) :
    Bytes :=
  bigEndian 4 (wire.requestBytes request).length ++ wire.requestBytes request

theorem encodeAgentFrame_eq_ok {frame : Bytes}
    (encoded : encodeAgentFrame wire.toAgentJson request = .ok frame) :
    frame = wire.requestFrame request ∧
      (wire.requestBytes request).length < 2 ^ 32 := by
  obtain ⟨length, isLength, same⟩ := bind_eq_ok_iff.mp encoded
  cases same
  rw [Cfs.u32] at isLength
  split at isLength
  case isTrue fits =>
    cases isLength
    exact ⟨rfl, fits⟩
  case isFalse => cases isLength

/-- What the guest reads of a request that is on its way. -/
theorem readFrame_cases (fits : (wire.requestBytes request).length < 2 ^ 32)
    (isPrefix : input <+: wire.requestFrame request ++ more) :
    wire.readFrame input = none ∧
        ¬ (wire.requestFrame request <+: input) ∨
      maxRequestBytes < (wire.requestBytes request).length ∧
        (∃ rest, wire.readFrame input = some (none, rest)) ∨
      (wire.requestBytes request).length ≤ maxRequestBytes ∧
        ∃ rest, input = wire.requestFrame request ++ rest ∧
          wire.readFrame input = some (some request, rest) := by
  obtain ⟨unread, whole⟩ := isPrefix
  rw [requestFrame, List.append_assoc] at whole
  cases front : takeBytes 4 input with
  | none =>
      left
      constructor
      · rw [readFrame, front]
        rfl
      · rintro ⟨rest, rfl⟩
        have enough := takeBytes_append
          (bigEndian 4 (wire.requestBytes request).length)
          (wire.requestBytes request ++ rest)
        rw [length_bigEndian, ← List.append_assoc] at enough
        rw [requestFrame, enough] at front
        cases front
  | some taken =>
      obtain ⟨length, behind⟩ := taken
      obtain ⟨rfl, width⟩ := takeBytes_eq_some_iff.mp front
      rw [List.append_assoc] at whole
      obtain ⟨rfl, later⟩ := List.append_inj whole (by simp [width])
      have isLength : ofBigEndian
          (bigEndian 4 (wire.requestBytes request).length) =
            (wire.requestBytes request).length :=
        ofBigEndian_bigEndian_of_lt fits
      by_cases exceeds : maxRequestBytes < (wire.requestBytes request).length
      · refine .inr (.inl ⟨exceeds, behind, ?_⟩)
        rw [readFrame, front, Option.bind_some]
        dsimp only
        rw [isLength, if_pos exceeds]
      · cases payload : takeBytes (wire.requestBytes request).length behind with
        | none =>
            left
            constructor
            · rw [readFrame, front, Option.bind_some]
              dsimp only
              rw [isLength, if_neg exceeds, payload]
              rfl
            · rintro ⟨rest, same⟩
              rw [requestFrame, List.append_assoc] at same
              have isBehind := List.append_cancel_left same
              rw [← isBehind, takeBytes_append] at payload
              cases payload
        | some taken =>
            obtain ⟨body, rest⟩ := taken
            obtain ⟨rfl, long⟩ := takeBytes_eq_some_iff.mp payload
            rw [List.append_assoc] at later
            obtain ⟨rfl, -⟩ := List.append_inj later long
            refine .inr (.inr ⟨Nat.le_of_not_lt exceeds, rest, ?_, ?_⟩)
            · rw [requestFrame, List.append_assoc]
            · rw [readFrame, front, Option.bind_some]
              dsimp only
              rw [isLength, if_neg exceeds, payload, Option.map_some,
                requestBytes, wire.readsRequest]

/-- Nothing is read of nothing. -/
theorem readFrame_nil : wire.readFrame [] = none := rfl

/-- The frame of an answer as the daemon finds it. -/
def answerFrame (wire : AgentWire Request Response) (response : Response) :
    Bytes × Bytes :=
  (bigEndian 4 (wire.toVec response).length, wire.toVec response)

theorem decode_answerFrame (wire : AgentWire Request Response)
    (response : Response) :
    decodeAgentFrame wire.toAgentJson
      ((wire.answerFrame response).1 ++ (wire.answerFrame response).2) =
        .ok response := by
  have front := takeBytes_append
    (bigEndian 4 (wire.toVec response).length) (wire.toVec response)
  rw [answerFrame, decodeAgentFrame]
  dsimp only
  rw [if_neg (by simp), List.take_left' (by simp), List.drop_left' (by simp),
    ofBigEndian_bigEndian_of_lt (wire.bounded response), if_neg (by simp),
    wire.readsResponse]

/-- Of the answers that were written, those come first that have come in, as
long as none exceeds the limit. -/
theorem items_of_written (isPrefix : stream <+: written.flatMap wire.writeFrame)
    {count : Nat} (enough : count ≤ (answerFraming.items stream).length)
    (within : ∀ frame ∈ (answerFraming.items stream).take count,
      ofBigEndian frame.1 ≤ AgentFrameChannel.maxFrameBytes) :
    count ≤ written.length ∧
      (answerFraming.items stream).take count =
        (written.take count).map wire.answerFrame := by
  induction written generalizing stream count with
  | nil =>
      rw [List.flatMap_nil, List.prefix_nil] at isPrefix
      rw [isPrefix, Framing.items_nil] at enough ⊢
      rw [List.take_nil, List.take_nil]
      exact ⟨enough, rfl⟩
  | cons response written induction =>
      cases count with
      | zero => exact ⟨Nat.zero_le _, rfl⟩
      | succ count =>
          cases next : answerFraming.next stream with
          | none =>
              rw [Framing.items_of_none next] at enough
              cases enough
          | some taken =>
              obtain ⟨⟨header, body⟩, rest⟩ := taken
              rw [Framing.items_of_some next] at enough within ⊢
              obtain ⟨rfl, width, length⟩ :=
                Framing.next_headed_eq_some_iff.mp next
              have fits : ofBigEndian header ≤
                  AgentFrameChannel.maxFrameBytes :=
                within (header, body) List.mem_cons_self
              rw [if_neg (Nat.not_lt.mpr fits)] at length
              obtain ⟨unread, whole⟩ := isPrefix
              rw [List.flatMap_cons, writeFrame, List.append_assoc,
                List.append_assoc, List.append_assoc] at whole
              obtain ⟨rfl, later⟩ := List.append_inj whole (by simp [width])
              rw [ofBigEndian_bigEndian_of_lt (wire.bounded response)] at length
              obtain ⟨rfl, behind⟩ := List.append_inj later length
              obtain ⟨isWritten, same⟩ := induction ⟨unread, behind⟩
                (Nat.le_of_succ_le_succ enough)
                fun frame member => within frame (List.mem_cons_of_mem _ member)
              refine ⟨Nat.succ_le_succ isWritten, ?_⟩
              rw [List.take_succ_cons, List.take_succ_cons, List.map_cons, same]
              rfl

end AgentWire

/-! ## What Docker passes on -/

/-- The standard output in a list of frames. -/
def stdoutOf (frames : List (UInt8 × Bytes)) : Bytes :=
  (frames.filter fun frame => frame.1 == 1).flatMap Prod.snd

section Docker

variable {frames : List (UInt8 × Bytes)} {received stream : Bytes}
  {reply : AttachReply}

theorem stdoutOf_concat (frames : List (UInt8 × Bytes))
    (frame : UInt8 × Bytes) :
    stdoutOf (frames ++ [frame]) =
      stdoutOf frames ++ if frame.1 = 1 then frame.2 else [] := by
  rw [stdoutOf, List.filter_append, List.flatMap_append]
  congr 1
  by_cases isStdout : frame.1 = 1
  · rw [List.filter_cons_of_pos (by simp [isStdout]), if_pos isStdout]
    simp
  · rw [List.filter_cons_of_neg (by simp [isStdout]), if_neg isStdout]
    rfl

/-- A frame as Docker's reader finds it. -/
def outputFrame (frame : UInt8 × Bytes) : Bytes × Bytes :=
  (dockerHeader frame.1 frame.2, frame.2)

theorem stdoutPayloads_outputFrame (frames : List (UInt8 × Bytes)) :
    (stdoutPayloads (frames.map outputFrame)).flatten = stdoutOf frames := by
  have isStdout : onStdout ∘ outputFrame =
      fun frame : UInt8 × Bytes => frame.1 == 1 := by
    funext frame
    rfl
  rw [stdoutPayloads, List.filter_map, isStdout, List.map_map, stdoutOf,
    List.flatMap_def]
  rfl

theorem next_outputFrame {frame : UInt8 × Bytes}
    (fits : frame.2.length < 2 ^ 32) (rest : Bytes) :
    outputFraming.next
        ((outputFrame frame).1 ++ (outputFrame frame).2 ++ rest) =
      some (outputFrame frame, rest) := by
  apply Framing.next_headed_eq_some_iff.mpr
  refine ⟨rfl, ?_, ?_⟩
  · have width : (dockerHeader frame.1 frame.2).length = 8 := by
      rw [dockerHeader, List.length_append, length_bigEndian]
      rfl
    exact width
  · exact (ofBigEndian_bigEndian_of_lt fits).symm

theorem flatMap_dockerFrame (frames : List (UInt8 × Bytes)) :
    frames.flatMap dockerFrame =
      (frames.map outputFrame).flatMap fun frame => frame.1 ++ frame.2 := by
  rw [List.flatMap_map]
  rfl

theorem reads_outputFrame
    (fits : ∀ frame ∈ frames, frame.2.length < 2 ^ 32) :
    ∀ frame ∈ frames.map outputFrame, ∀ rest,
      outputFraming.next (frame.1 ++ frame.2 ++ rest) = some (frame, rest) := by
  intro item isItem rest
  obtain ⟨frame, member, rfl⟩ := List.mem_map.mp isItem
  exact next_outputFrame (fits frame member) rest

/-- What the frames that have come in bring of the standard output. -/
theorem guestOutput_prefix
    (fits : ∀ frame ∈ frames, frame.2.length < 2 ^ 32)
    {attached : Bytes} (isPrefix : attached <+: frames.flatMap dockerFrame) :
    guestOutput attached <+: stdoutOf frames := by
  rw [flatMap_dockerFrame] at isPrefix
  obtain ⟨later, isLater⟩ :=
    Framing.items_prefix_of_written (reads_outputFrame fits) isPrefix
  rw [← stdoutPayloads_outputFrame, ← isLater, stdoutPayloads,
    List.filter_append, List.map_append, List.flatten_append]
  exact List.prefix_append _ _

theorem guestOutput_frames
    (fits : ∀ frame ∈ frames, frame.2.length < 2 ^ 32) :
    guestOutput (frames.flatMap dockerFrame) = stdoutOf frames := by
  have whole := Framing.items_flatMap_append (reads_outputFrame fits) []
  rw [List.append_nil, Framing.items_nil, List.append_nil] at whole
  rw [guestOutput, flatMap_dockerFrame, whole, stdoutPayloads_outputFrame]

/-- The answers that have come in are read off the standard output of the
guest, as far as it has come. -/
theorem answerFrames_of_stream
    (fits : ∀ frame ∈ frames, frame.2.length < 2 ^ 32)
    (whole : received ++ stream =
      reply.header ++ headerEnd ++ frames.flatMap dockerFrame) :
    ∃ part, part <+: stdoutOf frames ∧
      answerFrames received = answerFraming.items part := by
  cases found : Framing.cut headerEnd received with
  | none =>
      refine ⟨[], List.nil_prefix, ?_⟩
      rw [answerFrames_of_none found, Framing.items_nil]
  | some cut =>
      have later : Framing.cut headerEnd (received ++ stream) =
          some (cut.1, cut.2 ++ stream) := Framing.cut_append found stream
      rw [whole, Framing.cut_append reply.whole] at later
      obtain ⟨-, behind⟩ := Prod.mk.inj (Option.some.inj later)
      rw [answerFrames_of_some (show _ = some (cut.1, cut.2) from found)]
      split
      · refine ⟨guestOutput cut.2, ?_, rfl⟩
        apply guestOutput_prefix fits
        exact ⟨stream, behind.symm⟩
      · exact ⟨[], List.nil_prefix, Framing.items_nil.symm⟩

end Docker

end Electrosphere
