import Electrosphere.Backends.DockerTransport
import Electrosphere.Foundation.Outcome

/-!
# Runs of a transport

What a transport has read is a function of the bytes received so far, so it
does not matter into which chunks they were cut.  The frames of the guest
settle the waiting requests in order, each of them once.
-/

namespace Electrosphere

open Foundation

/-! ## The bytes received -/

/-- What the guest has written, as far as Docker has sent it. -/
def guestOutput (attached : Bytes) : Bytes :=
  (stdoutPayloads (outputFraming.items attached)).flatten

/-- The complete frames of the guest in the bytes received. -/
def answerFrames (received : Bytes) : List (Bytes × Bytes) :=
  match Framing.cut headerEnd received with
  | none => []
  | some (header, attached) =>
      if upgraded header then answerFraming.items (guestOutput attached)
      else []

theorem guestOutput_append (attached more : Bytes) :
    guestOutput (attached ++ more) =
      guestOutput attached ++
        guestOutput (outputFraming.remainder attached ++ more) := by
  rw [guestOutput, Framing.items_append, stdoutPayloads, List.filter_append,
    List.map_append, List.flatten_append]
  rfl

section Received

variable {header attached received : Bytes}

theorem answerFrames_of_none (none : Framing.cut headerEnd received = none) :
    answerFrames received = [] := by
  rw [answerFrames, none]

theorem answerFrames_of_some
    (found : Framing.cut headerEnd received = some (header, attached)) :
    answerFrames received =
      if upgraded header then answerFraming.items (guestOutput attached)
      else [] := by
  rw [answerFrames, found]

end Received

/-! ## Chunks -/

namespace TransportEvent

variable {Request : Type}

/-- A chunk is put in front of the one that follows it at once. -/
def prepend (chunk : Bytes) :
    List (TransportEvent Request) → List (TransportEvent Request)
  | .data more :: events => .data (chunk ++ more) :: events
  | events => .data chunk :: events

/-- The same events, with the chunks between two others as one. -/
def coalesce : List (TransportEvent Request) → List (TransportEvent Request)
  | [] => []
  | .data chunk :: events => prepend chunk (coalesce events)
  | event :: events => event :: coalesce events

end TransportEvent

namespace DockerAgentTransport

variable {Request Response : Type} {json : AgentJson Request Response}
  {answers : SocketAnswers} {transport next : DockerAgentTransport Response}
  {event : TransportEvent Request}

/-- Nothing is taken for a frame of Docker before the connection stands. -/
def Attached (transport : DockerAgentTransport Response) : Prop :=
  transport.connected = false → transport.dockerFrames = []

theorem consumeDockerFrames_eq (transport : DockerAgentTransport Response)
    (chunk : Bytes) :
    transport.consumeDockerFrames json chunk =
      { transport with
        dockerFrames :=
          outputFraming.remainder (transport.dockerFrames ++ chunk)
        channel :=
          (stdoutPayloads (outputFraming.items
            (transport.dockerFrames ++ chunk))).foldl
            (AgentFrameChannel.push json) transport.channel } := by
  rw [consumeDockerFrames]
  apply consumeFrames_eq
  exact Nat.le_refl _

theorem consumeDockerFrames_append (transport : DockerAgentTransport Response)
    (first second : Bytes) :
    (transport.consumeDockerFrames json first).consumeDockerFrames json
        second =
      transport.consumeDockerFrames json (first ++ second) := by
  rw [consumeDockerFrames_eq, consumeDockerFrames_eq, consumeDockerFrames_eq]
  dsimp only
  rw [← Framing.remainder_append, ← List.foldl_append, ← List.append_assoc,
    Framing.items_append _ (transport.dockerFrames ++ first)]
  congr 2
  rw [stdoutPayloads, stdoutPayloads, stdoutPayloads, List.filter_append,
    List.map_append]

theorem consumeDockerFrames_nil (none : transport.dockerFrames = []) :
    transport.consumeDockerFrames json [] = transport := by
  rw [consumeDockerFrames_eq, none, List.append_nil, Framing.remainder_nil,
    Framing.items_nil, ← none]
  rfl

theorem onData_of_connected (connected : transport.connected = true)
    (chunk : Bytes) :
    transport.onData json chunk = transport.consumeDockerFrames json chunk := by
  rw [onData, if_neg (by simp [connected])]

theorem connected_fail (transport : DockerAgentTransport Response)
    (error : Thrown) :
    (transport.fail error).connected = transport.connected := by
  rw [fail]
  split <;> rfl

theorem handshake_fail (transport : DockerAgentTransport Response)
    (error : Thrown) :
    (transport.fail error).handshake = transport.handshake := by
  rw [fail]
  split <;> rfl

theorem closed_fail (transport : DockerAgentTransport Response)
    (error : Thrown) : (transport.fail error).closed = true := by
  rw [fail]
  split
  case isTrue closed => exact closed
  case isFalse => rfl

/-- The answer of Docker is not looked at any more after a failure. -/
theorem fail_handshake_fail (transport : DockerAgentTransport Response)
    (error : Thrown) (first second : Bytes) :
    ({ ({ transport with handshake := first }).fail error with
        handshake := second }).fail error =
      ({ transport with handshake := second }).fail error := by
  rw [fail, if_pos (closed_fail _ error), fail, fail]
  dsimp only
  split <;> rfl

section Handshake

variable {chunk header remainder : Bytes}

theorem onData_of_incomplete (waits : transport.connected = false)
    (none : Framing.cut headerEnd (transport.handshake ++ chunk) = none) :
    transport.onData json chunk =
      { transport with handshake := transport.handshake ++ chunk } := by
  rw [onData, if_pos waits]
  simp only [none]

theorem onData_of_rejected (waits : transport.connected = false)
    (found : Framing.cut headerEnd (transport.handshake ++ chunk) =
      some (header, remainder)) (rejected : upgraded header = false) :
    transport.onData json chunk =
      ({ transport with handshake := transport.handshake ++ chunk }).fail
        (attachFailed header) := by
  rw [onData, if_pos waits]
  simp only [found, rejected]
  rfl

theorem onData_of_accepted (attached : transport.Attached)
    (waits : transport.connected = false)
    (found : Framing.cut headerEnd (transport.handshake ++ chunk) =
      some (header, remainder)) (accepted : upgraded header = true) :
    transport.onData json chunk =
      ({ transport with
        handshake := []
        connected := true
        ready := transport.ready.or (some (.ok ())) }).consumeDockerFrames
          json remainder := by
  rw [onData, if_pos waits]
  simp only [found, accepted]
  cases remainder with
  | nil =>
      symm
      apply consumeDockerFrames_nil
      exact attached waits
  | cons byte bytes => rfl

end Handshake

/-- Two chunks are as good as one. -/
theorem onData_append (attached : transport.Attached)
    (first second : Bytes) :
    (transport.onData json first).onData json second =
      transport.onData json (first ++ second) := by
  cases state : transport.connected with
  | true =>
      have connected : (transport.consumeDockerFrames json first).connected =
          true := by
        rw [consumeDockerFrames_eq]
        exact state
      rw [onData_of_connected state, onData_of_connected state,
        onData_of_connected connected, consumeDockerFrames_append]
  | false =>
      cases found : Framing.cut headerEnd (transport.handshake ++ first) with
      | none =>
          rw [onData_of_incomplete state found, onData, onData, if_pos state,
            if_pos state]
          dsimp only
          rw [List.append_assoc]
      | some cut =>
          have later : Framing.cut headerEnd
              (transport.handshake ++ (first ++ second)) =
                some (cut.1, cut.2 ++ second) := by
            rw [← List.append_assoc]
            exact Framing.cut_append found second
          cases accepted : upgraded cut.1 with
          | true =>
              rw [onData_of_accepted attached state found accepted,
                onData_of_accepted attached state later accepted,
                onData_of_connected, consumeDockerFrames_append]
              rw [consumeDockerFrames_eq]
          | false =>
              rw [onData_of_rejected state found accepted,
                onData_of_rejected state later accepted,
                onData_of_rejected (by rw [connected_fail, state])
                  (by rw [handshake_fail, List.append_assoc, later]) accepted,
                fail_handshake_fail, handshake_fail, List.append_assoc]

theorem dockerFrames_fail (transport : DockerAgentTransport Response)
    (error : Thrown) :
    (transport.fail error).dockerFrames = transport.dockerFrames := by
  rw [fail]
  split <;> rfl

theorem buffer_fail (transport : DockerAgentTransport Response)
    (error : Thrown) :
    (transport.fail error).channel.buffer = transport.channel.buffer := by
  rw [fail]
  split <;> rfl

theorem replies_fail (error : Thrown)
    (shut : transport.closed = true → transport.channel.closed = true) :
    (transport.fail error).channel.toReplies =
      transport.channel.toReplies.fail error := by
  rw [fail]
  split
  case isTrue closed => rw [Replies.fail_of_closed (shut closed)]
  case isFalse => rfl

theorem closed_channel_fail (error : Thrown)
    (shut : transport.closed = true → transport.channel.closed = true) :
    (transport.fail error).channel.closed = true := by
  rw [replies_fail error shut]
  exact Replies.closed_fail _ _

/-- What requests and failures leave alone. -/
theorem request_eq_some {input : Request}
    (requested : transport.request json answers input = some next) :
    next.handshake = transport.handshake ∧
      next.dockerFrames = transport.dockerFrames ∧
      next.connected = transport.connected := by
  obtain ⟨ready, -, rfl⟩ := Option.map_eq_some_iff.mp requested
  cases ready with
  | error error => exact ⟨rfl, rfl, rfl⟩
  | ok =>
      dsimp only
      split
      · exact ⟨rfl, rfl, rfl⟩
      · split <;> exact ⟨rfl, rfl, rfl⟩

theorem close_eq (transport : DockerAgentTransport Response) :
    transport.close.handshake = transport.handshake ∧
      transport.close.dockerFrames = transport.dockerFrames ∧
      transport.close.connected = transport.connected := by
  rw [close]
  split <;> exact ⟨rfl, rfl, rfl⟩

theorem Attached.onData (attached : transport.Attached) (chunk : Bytes) :
    (transport.onData json chunk).Attached := by
  cases state : transport.connected with
  | true =>
      intro waits
      rw [onData_of_connected state, consumeDockerFrames_eq] at waits
      rw [state] at waits
      cases waits
  | false =>
      cases found : Framing.cut headerEnd (transport.handshake ++ chunk) with
      | none =>
          rw [onData_of_incomplete state found]
          exact attached
      | some cut =>
          cases accepted : upgraded cut.1 with
          | true =>
              intro waits
              rw [onData_of_accepted attached state found accepted,
                consumeDockerFrames_eq] at waits
              cases waits
          | false =>
              intro waits
              rw [onData_of_rejected state found accepted, dockerFrames_fail]
              exact attached state

theorem Attached.step (attached : transport.Attached)
    (stepped : transport.step json answers event = some next) :
    next.Attached := by
  cases event with
  | data chunk =>
      cases stepped
      exact attached.onData chunk
  | request input =>
      obtain ⟨-, frames, connected⟩ := request_eq_some stepped
      rw [Attached, frames, connected]
      exact attached
  | drain =>
      cases stepped
      exact attached
  | fail error =>
      cases stepped
      rw [Attached, connected_fail, dockerFrames_fail]
      exact attached
  | close =>
      cases stepped
      obtain ⟨-, frames, connected⟩ := close_eq transport
      rw [Attached, frames, connected]
      exact attached

/-- A transport whose socket has just been opened. -/
def opened (Response : Type) : DockerAgentTransport Response := {}

theorem attached_opened : (opened Response).Attached :=
  fun _ => rfl

theorem run_prepend (attached : transport.Attached) (chunk : Bytes)
    (events : List (TransportEvent Request)) :
    run (step json answers) transport (TransportEvent.prepend chunk events) =
      run (step json answers) (transport.onData json chunk) events := by
  cases events with
  | nil => rfl
  | cons event events =>
      cases event with
      | data more =>
          rw [TransportEvent.prepend, run, run, step, step, Option.bind_some,
            Option.bind_some, onData_append attached]
      | request => rfl
      | drain => rfl
      | fail => rfl
      | close => rfl

/-- Into which chunks the bytes of the socket are cut makes no difference. -/
theorem run_coalesce (attached : transport.Attached)
    (events : List (TransportEvent Request)) :
    run (step json answers) transport (TransportEvent.coalesce events) =
      run (step json answers) transport events := by
  induction events generalizing transport with
  | nil => rfl
  | cons event events induction =>
      have later : ∀ next, transport.step json answers event = some next →
          run (step json answers) next (TransportEvent.coalesce events) =
            run (step json answers) next events :=
        fun next stepped => induction (attached.step stepped)
      cases event with
      | data chunk =>
          rw [TransportEvent.coalesce, run_prepend attached]
          exact later _ rfl
      | request input => exact Option.bind_congr later
      | drain => exact Option.bind_congr later
      | fail error => exact Option.bind_congr later
      | close => exact Option.bind_congr later

end DockerAgentTransport

/-! ## Answers -/

namespace Replies

variable {Request Response : Type}

/-- The first of the frames have answered as many requests, in their order;
what is settled besides was rejected when the channel was closed. -/
structure Matches (json : AgentJson Request Response)
    (frames : List (Bytes × Bytes))
    (answered rejected : List (Nat × Except Thrown Response))
    (replies : Replies Response) : Prop where
  settled : replies.settled = answered ++ rejected
  outcomes : answered.map Prod.snd =
    (frames.take answered.length).map fun frame =>
      decodeAgentFrame json (frame.1 ++ frame.2)
  enough : answered.length ≤ frames.length
  within : ∀ frame ∈ frames.take answered.length,
    ofBigEndian frame.1 ≤ AgentFrameChannel.maxFrameBytes
  failed : ∃ error, rejected = reject error (rejected.map Prod.fst)
  current : replies.closed = false →
    rejected = [] ∧ answered.length = frames.length
  shut : replies.closed = true → replies.pending = []

/-- The requests that were handed to the socket, in order. -/
def asked (replies : Replies Response) : List Nat :=
  replies.settled.map Prod.fst ++ replies.pending

variable {json : AgentJson Request Response} {replies : Replies Response}
  {frames more : List (Bytes × Bytes)} {frame : Bytes × Bytes}
  {answered rejected : List (Nat × Except Thrown Response)}

theorem map_fst_reject (error : Thrown) (waiting : List Nat) :
    (reject error waiting : List (Nat × Except Thrown Response)).map Prod.fst =
      waiting := by
  rw [reject, List.map_map]
  exact List.map_id _

theorem asked_fail (replies : Replies Response) (error : Thrown) :
    (replies.fail error).asked = replies.asked := by
  rw [fail]
  split
  · rfl
  · rw [asked, asked, List.map_append, map_fst_reject, List.append_nil]

theorem asked_receive (replies : Replies Response) (frame : Bytes × Bytes) :
    (replies.receive json frame).asked = replies.asked := by
  rw [receive]
  split
  · rfl
  split
  · exact asked_fail _ _
  split
  · exact asked_fail _ _
  · next call pending waiting =>
      rw [asked, asked, waiting, List.map_append, List.append_assoc]
      rfl

theorem asked_foldl_receive (replies : Replies Response)
    (frames : List (Bytes × Bytes)) :
    (frames.foldl (receive json) replies).asked = replies.asked := by
  induction frames generalizing replies with
  | nil => rfl
  | cons frame frames induction =>
      rw [List.foldl_cons, induction, asked_receive]

theorem Matches.fail (corresponds : replies.Matches json frames answered rejected)
    (error : Thrown) :
    ∃ rejected, (replies.fail error).Matches json frames answered rejected := by
  cases state : replies.closed with
  | true =>
      rw [fail_of_closed state]
      exact ⟨rejected, corresponds⟩
  | false =>
      obtain ⟨none, all⟩ := corresponds.current state
      refine ⟨reject error replies.pending, ?_⟩
      rw [Replies.fail, if_neg (by simp [state])]
      constructor
      · rw [corresponds.settled, none, List.append_nil]
      · exact corresponds.outcomes
      · exact corresponds.enough
      · exact corresponds.within
      · exact ⟨error, by rw [map_fst_reject]⟩
      · intro still
        cases still
      · exact fun _ => rfl

/-- More frames do not change what the first have answered. -/
theorem Matches.ignore
    (corresponds : replies.Matches json frames answered rejected)
    (closed : replies.closed = true) (more : List (Bytes × Bytes)) :
    replies.Matches json (frames ++ more) answered rejected := by
  have front : (frames ++ more).take answered.length =
      frames.take answered.length :=
    List.take_append_of_le_length corresponds.enough
  constructor
  · exact corresponds.settled
  · rw [front]
    exact corresponds.outcomes
  · rw [List.length_append]
    exact Nat.le_add_right_of_le corresponds.enough
  · rw [front]
    exact corresponds.within
  · exact corresponds.failed
  · intro still
    rw [closed] at still
    cases still
  · exact corresponds.shut

theorem Matches.receive
    (corresponds : replies.Matches json frames answered rejected)
    (frame : Bytes × Bytes) :
    ∃ answered rejected, (replies.receive json frame).Matches json
      (frames ++ [frame]) answered rejected := by
  have stops : ∀ error, replies.closed = false →
      ∃ answered rejected, (replies.fail error).Matches json
        (frames ++ [frame]) answered rejected := by
    intro error isOpen
    obtain ⟨later, still⟩ := corresponds.fail error
    exact ⟨answered, later, still.ignore (closed_fail _ _) [frame]⟩
  cases state : replies.closed with
  | true =>
      rw [receive_of_closed state]
      exact ⟨answered, rejected, corresponds.ignore state [frame]⟩
  | false =>
      rw [Replies.receive, if_neg (by simp [state])]
      split
      case isTrue => exact stops _ state
      case isFalse fits =>
        split
        case h_1 => exact stops _ state
        case h_2 call pending waiting =>
          obtain ⟨none, all⟩ := corresponds.current state
          refine ⟨answered ++
            [(call, decodeAgentFrame json (frame.1 ++ frame.2))], [], ?_⟩
          have whole : (frames ++ [frame]).take
              (answered ++ [(call, decodeAgentFrame json
                (frame.1 ++ frame.2))]).length = frames ++ [frame] := by
            apply List.take_of_length_le
            simp [all]
          have before := corresponds.outcomes
          have within := corresponds.within
          rw [all, List.take_length] at before within
          constructor
          · rw [corresponds.settled, none, List.append_nil, List.append_nil]
          · rw [whole, List.map_append, List.map_append, before]
            rfl
          · simp [all]
          · intro other member
            rw [whole] at member
            rcases List.mem_append.mp member with earlier | last
            · exact within other earlier
            · rw [List.mem_singleton.mp last]
              exact Nat.le_of_not_lt fits
          · exact ⟨AgentFrameChannel.unsolicited, rfl⟩
          · exact fun _ => ⟨rfl, by simp [all]⟩
          · intro closed
            rw [state] at closed
            cases closed

theorem Matches.foldl_receive
    (corresponds : replies.Matches json frames answered rejected)
    (more : List (Bytes × Bytes)) :
    ∃ answered rejected, (more.foldl (Replies.receive json) replies).Matches json
      (frames ++ more) answered rejected := by
  induction more generalizing replies frames answered rejected with
  | nil =>
      rw [List.append_nil]
      exact ⟨answered, rejected, corresponds⟩
  | cons frame more induction =>
      obtain ⟨_, _, next⟩ := corresponds.receive frame
      rw [List.foldl_cons, List.append_cons]
      exact induction next

theorem Matches.ask
    (corresponds : replies.Matches json frames answered rejected)
    (isOpen : replies.closed = false) (call : Nat) :
    ({ replies with pending := replies.pending ++ [call] }).Matches json
      frames answered rejected where
  settled := corresponds.settled
  outcomes := corresponds.outcomes
  enough := corresponds.enough
  within := corresponds.within
  failed := corresponds.failed
  current := corresponds.current
  shut := by
    intro closed
    rw [isOpen] at closed
    cases closed

end Replies

namespace TransportEvent

/-- The bytes that come in. -/
def chunk? {Request : Type} : TransportEvent Request → Bytes
  | .data chunk => chunk
  | .request _ => []
  | .drain => []
  | .fail _ => []
  | .close => []

end TransportEvent

namespace DockerAgentTransport

variable {Request Response : Type} {json : AgentJson Request Response}
  {answers : SocketAnswers} {transport next : DockerAgentTransport Response}
  {event : TransportEvent Request} {received : Bytes}

/-- What a transport keeps of the bytes received. -/
structure Reads (received : Bytes)
    (transport : DockerAgentTransport Response) : Prop where
  waiting : transport.connected = false →
    transport.handshake = received ∧ transport.dockerFrames = [] ∧
      transport.channel.buffer = [] ∧
      ∀ header attached,
        Framing.cut headerEnd received = some (header, attached) →
          upgraded header = false
  connected : transport.connected = true →
    ∃ header attached,
      Framing.cut headerEnd received = some (header, attached) ∧
      upgraded header = true ∧
      transport.dockerFrames = outputFraming.remainder attached ∧
      (transport.channel.closed = false →
        transport.channel.buffer =
          answerFraming.remainder (guestOutput attached))
  shut : transport.closed = true → transport.channel.closed = true

theorem Reads.attached (reads : transport.Reads received) :
    transport.Attached :=
  fun waits => (reads.waiting waits).2.1

theorem Reads.drained (reads : transport.Reads received) :
    transport.channel.Drained := by
  intro isOpen
  cases state : transport.connected with
  | true =>
      obtain ⟨_, _, -, -, -, buffer⟩ := reads.connected state
      rw [buffer isOpen]
      exact Framing.next_remainder _ _
  | false =>
      rw [(reads.waiting state).2.2.1]
      exact Framing.next_nil

theorem shut_consume
    (shut : transport.closed = true → transport.channel.closed = true)
    (chunk : Bytes)
    (closed : (transport.consumeDockerFrames json chunk).closed = true) :
    (transport.consumeDockerFrames json chunk).channel.closed = true := by
  rw [consumeDockerFrames_eq] at closed ⊢
  dsimp only
  rw [AgentFrameChannel.foldl_push_of_closed (shut closed)]
  exact shut closed

/-- Frames of Docker are read on from what the attached stream has brought. -/
theorem consumeDockerFrames_reads (json : AgentJson Request Response)
    (transport : DockerAgentTransport Response) {attached : Bytes}
    (drained : transport.channel.Drained)
    (frames : transport.dockerFrames = outputFraming.remainder attached)
    (buffer : transport.channel.closed = false →
      transport.channel.buffer =
        answerFraming.remainder (guestOutput attached)) (chunk : Bytes) :
    let read := transport.consumeDockerFrames json chunk
    read.dockerFrames = outputFraming.remainder (attached ++ chunk) ∧
      (read.channel.closed = false → read.channel.buffer =
        answerFraming.remainder (guestOutput (attached ++ chunk))) ∧
      ∃ more, answerFraming.items (guestOutput (attached ++ chunk)) =
          answerFraming.items (guestOutput attached) ++ more ∧
        read.channel.toReplies =
          more.foldl (Replies.receive json) transport.channel.toReplies := by
  intro read
  obtain ⟨replies, remains⟩ := AgentFrameChannel.foldl_push json
    drained (stdoutPayloads (outputFraming.items
      (transport.dockerFrames ++ chunk)))
  have isRead : read = _ := consumeDockerFrames_eq transport chunk
  have whole := guestOutput_append attached chunk
  rw [isRead]
  dsimp only
  rw [frames] at replies remains ⊢
  refine ⟨(Framing.remainder_append _ _ _).symm, ?_⟩
  cases state : transport.channel.closed with
  | true =>
      rw [Replies.foldl_receive_of_closed state] at replies
      constructor
      · intro isOpen
        rw [replies, state] at isOpen
        cases isOpen
      · obtain ⟨more, isMore⟩ : answerFraming.items (guestOutput attached) <+:
            answerFraming.items (guestOutput (attached ++ chunk)) := by
          apply Framing.items_mono
          rw [whole]
          exact List.prefix_append _ _
        refine ⟨more, isMore.symm, ?_⟩
        rw [Replies.foldl_receive_of_closed state, replies]
  | false =>
      rw [buffer state] at replies remains
      constructor
      · intro isOpen
        rw [remains isOpen, whole,
          Framing.remainder_append _ (guestOutput attached)]
        rfl
      · refine ⟨_, ?_, replies⟩
        rw [whole, Framing.items_append]
        rfl

theorem Reads.onData (json : AgentJson Request Response)
    (reads : transport.Reads received) (chunk : Bytes) :
    (transport.onData json chunk).Reads (received ++ chunk) ∧
      ∃ more, answerFrames (received ++ chunk) =
          answerFrames received ++ more ∧
        ((transport.onData json chunk).channel.toReplies =
            more.foldl (Replies.receive json) transport.channel.toReplies ∨
          more = [] ∧ ∃ header attached,
            Framing.cut headerEnd (received ++ chunk) =
              some (header, attached) ∧ upgraded header = false ∧
            (transport.onData json chunk).channel.toReplies =
              transport.channel.toReplies.fail (attachFailed header)) := by
  cases state : transport.connected with
  | true =>
      obtain ⟨header, attached, found, accepted, frames, buffer⟩ :=
        reads.connected state
      obtain ⟨frames, buffer, more, isMore, replies⟩ :=
        consumeDockerFrames_reads json transport reads.drained frames buffer
          chunk
      have later := Framing.cut_append found chunk
      rw [onData_of_connected state]
      constructor
      · constructor
        · intro waits
          rw [consumeDockerFrames_eq] at waits
          rw [state] at waits
          cases waits
        · exact fun _ => ⟨header, _, later, accepted, frames, buffer⟩
        · exact shut_consume reads.shut chunk
      · refine ⟨more, ?_, .inl replies⟩
        rw [answerFrames_of_some later, answerFrames_of_some found,
          if_pos accepted, if_pos accepted, isMore]
  | false =>
      obtain ⟨handshake, none, empty, rejects⟩ := reads.waiting state
      have nothing : answerFrames received = [] := by
        cases found : Framing.cut headerEnd received with
        | none => exact answerFrames_of_none found
        | some cut =>
            rw [answerFrames_of_some
              (show _ = some (cut.1, cut.2) from found),
              if_neg (by simp [rejects cut.1 cut.2 found])]
      cases found : Framing.cut headerEnd (received ++ chunk) with
      | none =>
          rw [onData_of_incomplete state (by rw [handshake, found])]
          constructor
          · constructor
            · intro _
              refine ⟨by rw [handshake], none, empty, ?_⟩
              intro header attached isFound
              rw [found] at isFound
              cases isFound
            · intro connected
              rw [state] at connected
              cases connected
            · exact reads.shut
          · exact ⟨[], by rw [answerFrames_of_none found, nothing]; rfl,
              .inl rfl⟩
      | some cut =>
          have isCut : Framing.cut headerEnd (transport.handshake ++ chunk) =
              some (cut.1, cut.2) := by
            rw [handshake, found]
          cases accepted : upgraded cut.1 with
          | true =>
              have fresh : guestOutput [] = [] := by
                rw [guestOutput, Framing.items_nil]
                rfl
              have frames : transport.dockerFrames =
                  outputFraming.remainder [] := by
                rw [none, Framing.remainder_nil]
              have buffer : transport.channel.closed = false →
                  transport.channel.buffer =
                    answerFraming.remainder (guestOutput []) := by
                intro _
                rw [empty, fresh, Framing.remainder_nil]
              obtain ⟨frames, buffer, more, isMore, replies⟩ :=
                consumeDockerFrames_reads json
                  { transport with
                    handshake := []
                    connected := true
                    ready := transport.ready.or (some (.ok ())) }
                  reads.drained frames buffer cut.2
              rw [fresh, Framing.items_nil, List.nil_append,
                List.nil_append] at isMore
              rw [onData_of_accepted reads.attached state isCut accepted]
              constructor
              · constructor
                · intro waits
                  rw [consumeDockerFrames_eq] at waits
                  cases waits
                · exact fun _ => ⟨cut.1, cut.2, found, accepted, frames, buffer⟩
                · apply shut_consume
                  exact reads.shut
              · refine ⟨more, ?_, .inl replies⟩
                rw [answerFrames_of_some (show _ = some (cut.1, cut.2) from found),
                  if_pos accepted, nothing, isMore]
                rfl
          | false =>
              rw [onData_of_rejected state isCut accepted]
              constructor
              · constructor
                · intro _
                  rw [handshake_fail, dockerFrames_fail, buffer_fail]
                  refine ⟨by rw [handshake], none, empty, ?_⟩
                  intro header attached isFound
                  rw [found] at isFound
                  cases isFound
                  exact accepted
                · intro connected
                  rw [connected_fail, state] at connected
                  cases connected
                · intro _
                  apply closed_channel_fail
                  exact reads.shut
              · refine ⟨[], ?_,
                  .inr ⟨rfl, cut.1, cut.2, rfl, accepted, ?_⟩⟩
                · rw [answerFrames_of_some (show _ = some (cut.1, cut.2) from found),
                    if_neg (by simp [accepted]), nothing]
                  rfl
                · exact replies_fail _ reads.shut

/-! ## Runs -/

/-- Every call is known by one number: it waits, is settled, or was rejected
at once. -/
structure Numbered (transport : DockerAgentTransport Response) : Prop where
  ordered : transport.channel.asked.Pairwise (· < ·)
  complete : (transport.channel.asked ++ transport.refused.map Prod.fst).Perm
    (List.range transport.calls)

/-- The bytes received in a run. -/
def receivedIn (events : List (TransportEvent Request)) : Bytes :=
  events.flatMap TransportEvent.chunk?

/-- What holds of a transport that has received these bytes. -/
structure Served (json : AgentJson Request Response) (received : Bytes)
    (transport : DockerAgentTransport Response) : Prop where
  reads : transport.Reads received
  answered : ∃ answered rejected, transport.channel.Matches json
    (answerFrames received) answered rejected
  numbered : transport.Numbered

theorem served_opened : (opened Response).Served json [] where
  reads :=
    { waiting := by
        intro _
        refine ⟨rfl, rfl, rfl, ?_⟩
        intro header attached found
        cases found
      connected := by
        intro connected
        cases connected
      shut := by
        intro closed
        cases closed }
  answered :=
    ⟨[], [],
      { settled := rfl
        outcomes := rfl
        enough := Nat.le_refl _
        within := by
          intro frame member
          cases member
        failed := ⟨AgentFrameChannel.unsolicited, rfl⟩
        current := fun _ => ⟨rfl, rfl⟩
        shut := fun _ => rfl }⟩
  numbered := ⟨List.Pairwise.nil, List.Perm.nil⟩

/-- A call that is accepted waits behind the others; another is rejected at
once and leaves the channel alone. -/
theorem request_cases {input : Request}
    (requested : transport.request json answers input = some next) :
    (∃ error, next = transport.refuse error) ∨
      transport.closed = false ∧ transport.channel.closed = false ∧
        ∃ frame socket, encodeAgentFrame json input = .ok frame ∧
          writeFrame answers transport.socket frame = .ok socket ∧
          next =
            { transport with
              channel :=
                { transport.channel with
                  pending := transport.channel.pending ++ [transport.calls] }
              socket
              calls := transport.calls + 1 } := by
  obtain ⟨ready, -, rfl⟩ := Option.map_eq_some_iff.mp requested
  cases ready with
  | error error => exact .inl ⟨error, rfl⟩
  | ok =>
      dsimp only
      split
      case isTrue => exact .inl ⟨_, rfl⟩
      case isFalse isOpen =>
        rw [AgentFrameChannel.request]
        by_cases closed : transport.channel.closed = true
        · rw [if_pos closed]
          exact .inl ⟨_, rfl⟩
        · rw [if_neg closed]
          dsimp only
          cases written : (encodeAgentFrame json input).bind
              (writeFrame answers transport.socket) with
          | error error =>
              left
              refine ⟨error, ?_⟩
              dsimp only
              rw [List.dropLast_concat]
          | ok socket =>
              obtain ⟨frame, encoded, isWritten⟩ :=
                bind_eq_ok_iff.mp written
              right
              exact ⟨Bool.eq_false_iff.mpr isOpen, Bool.eq_false_iff.mpr closed,
                frame, socket, encoded, isWritten, rfl⟩

/-- The next number is beyond those in use. -/
theorem Numbered.fresh (numbered : transport.Numbered) (call : Nat)
    (isAsked : call ∈ transport.channel.asked) : call < transport.calls := by
  apply List.mem_range.mp
  exact numbered.complete.mem_iff.mp (List.mem_append_left _ isAsked)

theorem Numbered.refuse (numbered : transport.Numbered) (error : Thrown) :
    (transport.refuse error).Numbered where
  ordered := numbered.ordered
  complete := by
    rw [DockerAgentTransport.refuse, List.map_append, ← List.append_assoc,
      List.range_succ]
    exact numbered.complete.append_right _

theorem Numbered.of_asked (numbered : transport.Numbered)
    (asked : next.channel.asked = transport.channel.asked)
    (refused : next.refused = transport.refused)
    (calls : next.calls = transport.calls) : next.Numbered where
  ordered := by
    rw [asked]
    exact numbered.ordered
  complete := by
    rw [asked, refused, calls]
    exact numbered.complete

theorem fail_accounts (transport : DockerAgentTransport Response)
    (error : Thrown) :
    (transport.fail error).refused = transport.refused ∧
      (transport.fail error).calls = transport.calls := by
  rw [fail]
  split <;> exact ⟨rfl, rfl⟩

theorem onData_accounts (json : AgentJson Request Response)
    (attached : transport.Attached) (chunk : Bytes) :
    (transport.onData json chunk).refused = transport.refused ∧
      (transport.onData json chunk).calls = transport.calls := by
  cases state : transport.connected with
  | true =>
      rw [onData_of_connected state, consumeDockerFrames_eq]
      exact ⟨rfl, rfl⟩
  | false =>
      cases found : Framing.cut headerEnd (transport.handshake ++ chunk) with
      | none =>
          rw [onData_of_incomplete state found]
          exact ⟨rfl, rfl⟩
      | some cut =>
          cases accepted : upgraded cut.1 with
          | true =>
              rw [onData_of_accepted attached state found accepted,
                consumeDockerFrames_eq]
              exact ⟨rfl, rfl⟩
          | false =>
              rw [onData_of_rejected state found accepted]
              exact fail_accounts _ _

theorem Served.onData (served : transport.Served json received)
    (chunk : Bytes) :
    (transport.onData json chunk).Served json (received ++ chunk) := by
  obtain ⟨reads, more, isMore, replies⟩ := served.reads.onData json chunk
  obtain ⟨answered, rejected, corresponds⟩ := served.answered
  obtain ⟨refused, calls⟩ :=
    onData_accounts json served.reads.attached chunk
  constructor
  · exact reads
  · rw [isMore]
    rcases replies with replies | ⟨rfl, header, _, -, -, replies⟩
    · rw [replies]
      exact corresponds.foldl_receive more
    · rw [replies, List.append_nil]
      obtain ⟨later, failed⟩ := corresponds.fail (attachFailed header)
      exact ⟨answered, later, failed⟩
  · apply served.numbered.of_asked _ refused calls
    rcases replies with replies | ⟨-, _, _, -, -, replies⟩
    · rw [replies, Replies.asked_foldl_receive]
    · rw [replies, Replies.asked_fail]

theorem Reads.fail (reads : transport.Reads received) (error : Thrown) :
    (transport.fail error).Reads received where
  waiting := by
    rw [connected_fail, handshake_fail, dockerFrames_fail, buffer_fail]
    exact reads.waiting
  connected := by
    intro connected
    rw [connected_fail] at connected
    obtain ⟨header, attached, found, accepted, frames, -⟩ :=
      reads.connected connected
    rw [dockerFrames_fail]
    refine ⟨header, attached, found, accepted, frames, fun isOpen => ?_⟩
    rw [closed_channel_fail error reads.shut] at isOpen
    cases isOpen
  shut := fun _ => closed_channel_fail error reads.shut

theorem Served.fail (served : transport.Served json received)
    (error : Thrown) : (transport.fail error).Served json received := by
  obtain ⟨answered, rejected, corresponds⟩ := served.answered
  obtain ⟨refused, calls⟩ := fail_accounts transport error
  have replies := replies_fail error served.reads.shut
  constructor
  · exact served.reads.fail error
  · obtain ⟨later, failed⟩ := corresponds.fail error
    rw [replies]
    exact ⟨answered, later, failed⟩
  · apply served.numbered.of_asked _ refused calls
    rw [replies, Replies.asked_fail]

/-- `close` differs from `fail` in that it does not settle `ready`. -/
theorem close_eq_fail (transport : DockerAgentTransport Response) :
    transport.close =
      { transport.fail (.plain "Guest agent transport closed") with
        ready := transport.ready } := by
  rw [close, fail]
  split <;> rfl

theorem Served.close (served : transport.Served json received) :
    transport.close.Served json received := by
  have failed := served.fail (.plain "Guest agent transport closed")
  rw [close_eq_fail]
  exact ⟨⟨failed.reads.waiting, failed.reads.connected, failed.reads.shut⟩,
    failed.answered, failed.numbered.ordered, failed.numbered.complete⟩

theorem Served.refuse (served : transport.Served json received)
    (error : Thrown) : (transport.refuse error).Served json received :=
  ⟨⟨served.reads.waiting, served.reads.connected, served.reads.shut⟩,
    served.answered, served.numbered.refuse error⟩

theorem Served.request (served : transport.Served json received)
    {input : Request}
    (requested : transport.request json answers input = some next) :
    next.Served json received := by
  rcases request_cases requested with
    ⟨error, rfl⟩ | ⟨-, isOpen, frame, socket, -, -, rfl⟩
  · exact served.refuse error
  · obtain ⟨answered, rejected, corresponds⟩ := served.answered
    constructor
    · exact ⟨served.reads.waiting, served.reads.connected, served.reads.shut⟩
    · exact ⟨answered, rejected, corresponds.ask isOpen transport.calls⟩
    · have asked : ∀ pending, Replies.asked
          { transport.channel.toReplies with
            pending := transport.channel.pending ++ pending } =
          transport.channel.asked ++ pending :=
        fun pending => (List.append_assoc _ _ _).symm
      constructor
      · rw [asked, List.pairwise_append]
        refine ⟨served.numbered.ordered, List.pairwise_singleton _ _, ?_⟩
        intro earlier isAsked later isLast
        rw [List.mem_singleton.mp isLast]
        exact served.numbered.fresh earlier isAsked
      · have moved : (transport.channel.asked ++ [transport.calls] ++
            transport.refused.map Prod.fst).Perm
              (transport.channel.asked ++ transport.refused.map Prod.fst ++
                [transport.calls]) := by
          rw [List.append_assoc, List.append_assoc]
          exact List.perm_append_comm.append_left _
        rw [asked, List.range_succ]
        exact moved.trans (served.numbered.complete.append_right _)

theorem Served.step (served : transport.Served json received)
    (stepped : transport.step json answers event = some next) :
    next.Served json (received ++ event.chunk?) := by
  cases event with
  | data chunk =>
      cases stepped
      exact served.onData chunk
  | request input =>
      rw [TransportEvent.chunk?, List.append_nil]
      exact served.request stepped
  | drain =>
      cases stepped
      rw [TransportEvent.chunk?, List.append_nil]
      exact ⟨⟨served.reads.waiting, served.reads.connected, served.reads.shut⟩,
        served.answered, served.numbered.ordered, served.numbered.complete⟩
  | fail error =>
      cases stepped
      rw [TransportEvent.chunk?, List.append_nil]
      exact served.fail error
  | close =>
      cases stepped
      rw [TransportEvent.chunk?, List.append_nil]
      exact served.close

theorem Served.run (served : transport.Served json received)
    {events : List (TransportEvent Request)}
    (replay :
      Foundation.run (DockerAgentTransport.step json answers) transport events =
        some next) :
    next.Served json (received ++ receivedIn events) := by
  induction events generalizing transport received with
  | nil =>
      cases replay
      rw [receivedIn, List.flatMap_nil, List.append_nil]
      exact served
  | cons event events induction =>
      obtain ⟨middle, stepped, rest⟩ := Option.bind_eq_some_iff.mp replay
      rw [receivedIn, List.flatMap_cons, ← List.append_assoc]
      exact induction (served.step stepped) rest

/-- Nothing happens to the requests of a closed channel. -/
theorem Served.step_of_closed (served : transport.Served json received)
    (closed : transport.channel.closed = true)
    (stepped : transport.step json answers event = some next) :
    next.channel.toReplies = transport.channel.toReplies := by
  cases event with
  | data chunk =>
      cases stepped
      obtain ⟨-, more, -, replies | ⟨-, header, _, -, -, replies⟩⟩ :=
        served.reads.onData json chunk
      · rw [replies, Replies.foldl_receive_of_closed closed]
      · rw [replies, Replies.fail_of_closed closed]
  | request input =>
      rcases request_cases stepped with ⟨error, rfl⟩ | ⟨-, isOpen, -⟩
      · rfl
      · rw [closed] at isOpen
        cases isOpen
  | drain =>
      cases stepped
      rfl
  | fail error =>
      cases stepped
      rw [replies_fail error served.reads.shut, Replies.fail_of_closed closed]
  | close =>
      cases stepped
      rw [close_eq_fail]
      exact (replies_fail _ served.reads.shut).trans
        (Replies.fail_of_closed closed _)

theorem Served.run_of_closed (served : transport.Served json received)
    (closed : transport.channel.closed = true)
    {events : List (TransportEvent Request)}
    (replay :
      Foundation.run (DockerAgentTransport.step json answers) transport events =
        some next) :
    next.channel.toReplies = transport.channel.toReplies := by
  induction events generalizing transport received with
  | nil =>
      cases replay
      rfl
  | cons event events induction =>
      obtain ⟨middle, stepped, rest⟩ := Option.bind_eq_some_iff.mp replay
      have same := served.step_of_closed closed stepped
      rw [← same]
      apply induction (served.step stepped) _ rest
      rw [same]
      exact closed

end DockerAgentTransport

/-- The same bytes in other chunks, at the same places between the requests and
failures, leave the transport in the same state: nothing of it depends on where
the handshake, a header or a frame is cut. -/
theorem chunks_are_immaterial {Request Response : Type}
    (json : AgentJson Request Response) (answers : SocketAnswers)
    (events : List (TransportEvent Request)) :
    run (DockerAgentTransport.step json answers)
        (DockerAgentTransport.opened Response)
        (TransportEvent.coalesce events) =
      run (DockerAgentTransport.step json answers)
        (DockerAgentTransport.opened Response) events :=
  DockerAgentTransport.run_coalesce DockerAgentTransport.attached_opened events

/-- Whatever bytes come in: the frames of the guest settle the requests in
order, every request is settled once at most, and a closed channel has rejected
those that waited and settles nothing any more. -/
theorem requests_answered_in_order {Request Response : Type}
    {json : AgentJson Request Response} {answers : SocketAnswers}
    {before later : List (TransportEvent Request)}
    {transport final : DockerAgentTransport Response}
    (first : run (DockerAgentTransport.step json answers)
      (DockerAgentTransport.opened Response) before = some transport)
    (rest : run (DockerAgentTransport.step json answers) transport later =
      some final) :
    (∃ answered rejected, transport.channel.Matches json
        (answerFrames (DockerAgentTransport.receivedIn before))
        answered rejected) ∧
      transport.Numbered ∧
      (transport.channel.closed = true →
        final.channel.toReplies = transport.channel.toReplies) := by
  have served : transport.Served json ([] ++ DockerAgentTransport.receivedIn before) :=
    DockerAgentTransport.served_opened.run first
  exact ⟨served.answered, served.numbered,
    fun closed => served.run_of_closed closed rest⟩

/-! ### An answer that nobody asked for -/

/-- Numbers for requests and answers, without leading zeros. -/
def numbersJson : AgentJson Nat Nat where
  stringify := Json.natural
  parse text :=
    if Json.natural (Nat.ofDigitChars 10 text 0) = text then
      .ok (Nat.ofDigitChars 10 text 0)
    else .error (.plain "JSON Parse error")

/-- One request, and two frames in the two frames that Docker sends. -/
def answeredTwice : List (TransportEvent Nat) :=
  [.data [72, 84, 84, 80, 47, 49, 46, 49, 32, 50, 48, 48, 13, 10, 13, 10],
    .request 7,
    .data [1, 0, 0, 0, 0, 0, 0, 9, 0, 0, 0, 2, 52, 50, 0, 0, 0],
    .data [1, 0, 0, 0, 0, 0, 0, 1, 0]]

theorem answeredTwice_settled :
    (run (DockerAgentTransport.step numbersJson SocketSession.greedy)
        (DockerAgentTransport.opened Nat) answeredTwice).map
      (fun transport =>
        (transport.channel.settled, transport.channel.closed)) =
      some ([(0, .ok 42)], true) := by
  rfl

theorem requests_answered_in_order_sample :
    ∃ transport,
      run (DockerAgentTransport.step numbersJson SocketSession.greedy)
          (DockerAgentTransport.opened Nat) answeredTwice = some transport ∧
        transport.channel.settled = [(0, .ok 42)] ∧
        (∃ answered rejected, transport.channel.Matches numbersJson
          (answerFrames (DockerAgentTransport.receivedIn answeredTwice))
          answered rejected) ∧
        transport.Numbered ∧
        (transport.channel.closed = true →
          (transport.onData numbersJson [5]).channel.toReplies =
            transport.channel.toReplies) := by
  obtain ⟨transport, replay, settled⟩ :=
    Option.map_eq_some_iff.mp answeredTwice_settled
  have rest : run (DockerAgentTransport.step numbersJson SocketSession.greedy)
      transport [.data [5]] = some (transport.onData numbersJson [5]) := rfl
  exact ⟨transport, replay, (Prod.mk.inj settled).1,
    requests_answered_in_order replay rest⟩

end Electrosphere
