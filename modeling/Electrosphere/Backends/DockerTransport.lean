import Electrosphere.Backends.AgentTransport

/-!
# The attach stream of a container

`DockerAgentTransport` reads three formats one inside the other: the answer to
its upgrade request, the frames in which Docker sends the output streams, and
in those of the standard output the frames of the guest agent.  Each keeps what
is not complete yet.
-/

namespace Electrosphere

open Foundation

/-- `\r\n\r\n`. -/
def headerEnd : Bytes := [13, 10, 13, 10]

def isWordByte (byte : UInt8) : Bool :=
  (0x30 ≤ byte && byte ≤ 0x39) || (0x41 ≤ byte && byte ≤ 0x5A) ||
    (0x61 ≤ byte && byte ≤ 0x7A) || byte == 0x5F

/-- `/^HTTP\/1\.[01] (101|200)\b/` -/
def upgraded (header : Bytes) : Bool :=
  header.take 7 == Utf8.encode "HTTP/1.".toList &&
    (header[7]? == some 0x30 || header[7]? == some 0x31) &&
    header[8]? == some 0x20 &&
    ((header.drop 9).take 3 == Utf8.encode "101".toList ||
      (header.drop 9).take 3 == Utf8.encode "200".toList) &&
    !(header[12]?).any isWordByte

def latin1 (bytes : Bytes) : String :=
  String.ofList (bytes.map fun byte => Char.ofNat byte.toNat)

def attachFailed (header : Bytes) : Thrown :=
  .plain ("Docker attach failed: " ++
    latin1 ((Framing.cut [13, 10] header).elim header Prod.fst))

structure DockerAgentTransport (Response : Type) where
  handshake : Bytes := []
  dockerFrames : Bytes := []
  connected : Bool := false
  closed : Bool := false
  /-- The promise `ready`, once it is settled. -/
  ready : Option (Except Thrown Unit) := none
  channel : AgentFrameChannel Response := {}
  /-- The writer and what the socket has accepted. -/
  socket : SocketSession := SocketSession.attached
  /-- The number of calls of `request`, and those rejected at once. -/
  calls : Nat := 0
  refused : List (Nat × Thrown) := []

namespace DockerAgentTransport

variable {Request Response : Type} (json : AgentJson Request Response)

def fail (transport : DockerAgentTransport Response) (error : Thrown) :
    DockerAgentTransport Response :=
  if transport.closed then transport
  else
    { transport with
      closed := true
      ready :=
        if transport.connected then transport.ready
        else transport.ready.or (some (.error error))
      channel := transport.channel.fail error
      socket := { transport.socket with writer := transport.socket.writer.clear } }

def close (transport : DockerAgentTransport Response) :
    DockerAgentTransport Response :=
  if transport.closed then transport
  else
    { transport with
      closed := true
      channel := transport.channel.fail (.plain "Guest agent transport closed")
      socket := { transport.socket with writer := transport.socket.writer.clear } }

/-- The loop of `consumeDockerFrames`.  Every round takes eight bytes at
least. -/
def consumeFrames : Nat → DockerAgentTransport Response →
    DockerAgentTransport Response
  | 0, transport => transport
  | fuel + 1, transport =>
      if transport.dockerFrames.length < 8 then transport
      else
        let stream := transport.dockerFrames.head?
        let length := ofBigEndian ((transport.dockerFrames.drop 4).take 4)
        if transport.dockerFrames.length < length + 8 then transport
        else
          let payload := (transport.dockerFrames.drop 8).take length
          consumeFrames fuel
            { transport with
              dockerFrames := transport.dockerFrames.drop (length + 8)
              channel :=
                if stream = some 1 then transport.channel.push json payload
                else transport.channel }

def consumeDockerFrames (transport : DockerAgentTransport Response)
    (chunk : Bytes) : DockerAgentTransport Response :=
  consumeFrames json (transport.dockerFrames ++ chunk).length
    { transport with dockerFrames := transport.dockerFrames ++ chunk }

def onData (transport : DockerAgentTransport Response) (chunk : Bytes) :
    DockerAgentTransport Response :=
  if transport.connected = false then
    let transport :=
      { transport with handshake := transport.handshake ++ chunk }
    match Framing.cut headerEnd transport.handshake with
    | none => transport
    | some (header, remainder) =>
        if upgraded header = false then transport.fail (attachFailed header)
        else
          let transport :=
            { transport with
              handshake := []
              connected := true
              ready := transport.ready.or (some (.ok ())) }
          if 0 < remainder.length then
            transport.consumeDockerFrames json remainder
          else transport
  else transport.consumeDockerFrames json chunk

/-- The function that the channel writes a frame with. -/
def writeFrame (answers : SocketAnswers) (socket : SocketSession)
    (frame : Bytes) : Except Thrown SocketSession :=
  match socket.writer.write answers socket.offers.length frame with
  | .error message => .error (.plain message)
  | .ok (writer, offers) =>
      .ok { writer, offers := socket.offers ++ offers }

/-- A call whose promise is rejected at once. -/
def refuse (transport : DockerAgentTransport Response) (error : Thrown) :
    DockerAgentTransport Response :=
  { transport with
    calls := transport.calls + 1
    refused := transport.refused ++ [(transport.calls, error)] }

/-- `request`, once `ready` is settled. -/
def request (answers : SocketAnswers)
    (transport : DockerAgentTransport Response) (input : Request) :
    Option (DockerAgentTransport Response) :=
  transport.ready.map fun ready =>
    match ready with
    | .error error => transport.refuse error
    | .ok () =>
        if transport.closed then
          transport.refuse
            (.coded .backendError "Guest agent transport is closed")
        else
          match transport.channel.request json
              (writeFrame answers transport.socket) transport.calls input with
          | (channel, .ok socket) =>
              { transport with
                channel, socket, calls := transport.calls + 1 }
          | (channel, .error error) =>
              ({ transport with channel }).refuse error

def drain (answers : SocketAnswers)
    (transport : DockerAgentTransport Response) :
    DockerAgentTransport Response :=
  { transport with socket := transport.socket.next answers .drain }

end DockerAgentTransport

/-- What happens to a transport. -/
inductive TransportEvent (Request : Type) where
  | data (chunk : Bytes)
  | request (input : Request)
  | drain
  /-- The socket reports an error, or that it is closed. -/
  | fail (error : Thrown)
  | close

namespace DockerAgentTransport

variable {Request Response : Type} (json : AgentJson Request Response)
  (answers : SocketAnswers)

def step (transport : DockerAgentTransport Response) :
    TransportEvent Request → Option (DockerAgentTransport Response)
  | .data chunk => some (transport.onData json chunk)
  | .request input => transport.request json answers input
  | .drain => some (transport.drain answers)
  | .fail error => some (transport.fail error)
  | .close => some transport.close

end DockerAgentTransport

/-! ## Output streams as items -/

/-- The frames in which Docker sends the output streams. -/
def outputFraming : Framing UInt8 (Bytes × Bytes) :=
  Framing.headed 8 (by decide) fun header => ofBigEndian (header.drop 4)

def onStdout (frame : Bytes × Bytes) : Bool := frame.1.head? == some 1

/-- What the standard output of the container has brought. -/
def stdoutPayloads (frames : List (Bytes × Bytes)) : List Bytes :=
  (frames.filter onStdout).map Prod.snd

namespace DockerAgentTransport

variable {Request Response : Type} {json : AgentJson Request Response}
  {transport : DockerAgentTransport Response}

theorem consumeFrames_eq {fuel : Nat}
    (enough : transport.dockerFrames.length ≤ fuel) :
    consumeFrames json fuel transport =
      { transport with
        dockerFrames := outputFraming.remainder transport.dockerFrames
        channel :=
          (stdoutPayloads (outputFraming.items transport.dockerFrames)).foldl
            (AgentFrameChannel.push json) transport.channel } := by
  induction fuel generalizing transport with
  | zero =>
      have none : transport.dockerFrames = [] :=
        List.length_eq_zero_iff.mp (Nat.le_zero.mp enough)
      rw [consumeFrames, none, Framing.items_nil, Framing.remainder_nil,
        ← none]
      rfl
  | succ fuel induction =>
      cases next : outputFraming.next transport.dockerFrames with
      | none =>
          have short := Framing.next_headed_eq_none_iff.mp next
          rw [Framing.items_of_none next, Framing.remainder_of_none next,
            consumeFrames]
          split
          case isTrue => rfl
          case isFalse long =>
            have header : (transport.dockerFrames.take 8).drop 4 =
                (transport.dockerFrames.drop 4).take 4 := by
              rw [List.drop_take]
            rw [header] at short
            rw [if_pos (by omega)]
            rfl
      | some taken =>
          obtain ⟨same, width, length⟩ := Framing.next_headed_eq_some_iff.mp
            (show _ = some ((taken.1.1, taken.1.2), taken.2) from next)
          have shorter := outputFraming.shorter next
          have long : ¬ transport.dockerFrames.length < 8 := by
            rw [same, List.length_append, List.length_append]
            omega
          have header : (transport.dockerFrames.drop 4).take 4 =
              taken.1.1.drop 4 := by
            have front : transport.dockerFrames.take 8 = taken.1.1 := by
              rw [same, ← width, List.append_assoc, List.take_left]
            rw [← front, List.drop_take]
          have stream : transport.dockerFrames.head? = taken.1.1.head? := by
            rw [same, List.append_assoc, List.head?_append_of_ne_nil]
            intro none
            rw [none] at width
            cases width
          have enoughBytes :
              ¬ transport.dockerFrames.length < taken.1.2.length + 8 := by
            rw [same, List.length_append, List.length_append]
            omega
          have payload : (transport.dockerFrames.drop 8).take
              taken.1.2.length = taken.1.2 := by
            rw [same, ← width, List.append_assoc, List.drop_left,
              List.take_left]
          have behind : transport.dockerFrames.drop (taken.1.2.length + 8) =
              taken.2 := by
            rw [same, Nat.add_comm, ← width, ← List.length_append,
              List.drop_left]
          rw [Framing.items_of_some next, Framing.remainder_of_some next,
            consumeFrames, if_neg long]
          dsimp only
          rw [header, ← length, if_neg enoughBytes, stream, payload, behind,
            induction]
          · by_cases isStdout : taken.1.1.head? = some 1
            · rw [if_pos isStdout, stdoutPayloads, stdoutPayloads,
                List.filter_cons_of_pos (by simp [onStdout, isStdout])]
              rfl
            · rw [if_neg isStdout, stdoutPayloads, stdoutPayloads,
                List.filter_cons_of_neg (by simp [onStdout, isStdout])]
          · dsimp only
            omega

end DockerAgentTransport

end Electrosphere
