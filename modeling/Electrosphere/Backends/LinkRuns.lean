import Electrosphere.Backends.AgentLink

/-!
# Runs of the daemon and a guest agent

Whatever is cut, put in between or lost at the end, a request is answered with
what the guest made of it, and a link that has come to rest has answered all.
-/

namespace Electrosphere

open Foundation

namespace DockerAgentTransport

variable {Request Response : Type} {json : AgentJson Request Response}
  {answers : SocketAnswers} {host next : DockerAgentTransport Response}

/-- Nothing is asked or sent in a step from one to the other. -/
structure Hears (host next : DockerAgentTransport Response) : Prop where
  asked : next.channel.asked = host.channel.asked
  calls : next.calls = host.calls
  accepted : next.socket.accepted = host.socket.accepted
  sending : next.closed = false →
    host.closed = false ∧ next.socket = host.socket
  silent : (host.closed = true → host.socket.writer.attached = false) →
    next.closed = true → next.socket.writer.attached = false

theorem hears_fail (error : Thrown)
    (shut : host.closed = true → host.channel.closed = true) :
    host.Hears (host.fail error) where
  asked := by
    rw [replies_fail error shut, Replies.asked_fail]
  calls := (fail_accounts host error).2
  accepted := by
    rw [fail]
    split <;> rfl
  sending := by
    intro isOpen
    rw [closed_fail] at isOpen
    cases isOpen
  silent := by
    intro before _
    rw [fail]
    split
    case isTrue closed => exact before closed
    case isFalse => rfl

theorem hears_close (shut : host.closed = true → host.channel.closed = true) :
    host.Hears host.close := by
  have failed := hears_fail (.plain "Guest agent transport closed") shut
  rw [close_eq_fail]
  exact ⟨failed.asked, failed.calls, failed.accepted, failed.sending,
    failed.silent⟩

theorem hears_consume (json : AgentJson Request Response)
    (host : DockerAgentTransport Response) (chunk : Bytes) :
    host.Hears (host.consumeDockerFrames json chunk) := by
  rw [consumeDockerFrames_eq]
  constructor
  · generalize stdoutPayloads _ = chunks
    dsimp only
    induction chunks using List.reverseRecOn with
    | nil => rfl
    | append_singleton chunks chunk induction =>
        rw [List.foldl_append, List.foldl_cons, List.foldl_nil,
          AgentFrameChannel.replies_push, Replies.asked_foldl_receive,
          induction]
  · rfl
  · rfl
  · exact fun isOpen => ⟨isOpen, rfl⟩
  · exact fun before closed => before closed

theorem hears_onData (json : AgentJson Request Response)
    (attached : host.Attached)
    (shut : host.closed = true → host.channel.closed = true) (chunk : Bytes) :
    host.Hears (host.onData json chunk) := by
  cases state : host.connected with
  | true =>
      rw [onData_of_connected state]
      exact hears_consume json host chunk
  | false =>
      cases found : Framing.cut headerEnd (host.handshake ++ chunk) with
      | none =>
          rw [onData_of_incomplete state found]
          exact ⟨rfl, rfl, rfl, fun isOpen => ⟨isOpen, rfl⟩,
            fun before closed => before closed⟩
      | some cut =>
          cases accepted : upgraded cut.1 with
          | true =>
              rw [onData_of_accepted attached state found accepted]
              have heard := hears_consume json
                { host with
                  handshake := []
                  connected := true
                  ready := host.ready.or (some (.ok ())) } cut.2
              exact ⟨heard.asked, heard.calls, heard.accepted, heard.sending,
                heard.silent⟩
          | false =>
              rw [onData_of_rejected state found accepted]
              have failed := hears_fail (attachFailed cut.1)
                (show ({ host with
                  handshake := host.handshake ++ chunk }).closed = true → _
                  from shut)
              exact ⟨failed.asked, failed.calls, failed.accepted,
                failed.sending, failed.silent⟩

/-- A frame that is written is put behind the others. -/
theorem writeFrame_eq_ok {frames : List Bytes} {socket later : SocketSession}
    (sound : socket.Sound frames) {frame : Bytes}
    (written : writeFrame answers socket frame = .ok later) :
    later.Sound (frames ++ [frame]) ∧
      socket.accepted <+: later.accepted := by
  have next : (socket.next answers (.write frame)).Sound _ :=
    sound.next (.write frame)
  have same : later = socket.next answers (.write frame) := by
    have result : socket.writer.write answers socket.offers.length frame =
        .ok (SocketFrameWriter.flush answers socket.offers.length
          { socket.writer with frames := socket.writer.frames ++ [frame] }) :=
      if_pos sound.attached
    simp only [writeFrame, result] at written
    rw [SocketSession.next, SocketSession.perform]
    simp only [result]
    exact (Except.ok.inj written).symm
  rw [same]
  refine ⟨next, ?_⟩
  rw [SocketSession.accepted, SocketSession.accepted, SocketSession.next,
    List.flatMap_append]
  exact List.prefix_append _ _

end DockerAgentTransport

namespace AgentLink

variable {σ Request Response : Type} {wire : AgentWire Request Response}
  {answers : SocketAnswers} {handle : σ → Request → σ × Response}
  {begin : σ} {reply : AttachReply} {link next : AgentLink σ Request Response}
  {done : Nat} {received : Bytes} {frames : List (UInt8 × Bytes)}

/-- The bytes on both ways, when the guest has answered so many requests,
the daemon has received these bytes and Docker has made these frames. -/
structure Linked (wire : AgentWire Request Response)
    (handle : σ → Request → σ × Response) (begin : σ) (reply : AttachReply)
    (done : Nat) (received : Bytes) (frames : List (UInt8 × Bytes))
    (link : AgentLink σ Request Response) : Prop where
  host : link.host.Served wire.toAgentJson received
  inputs : link.inputs.length = link.host.calls
  fits : ∀ request ∈ link.asked, (wire.requestBytes request).length < 2 ^ 32
  sending : link.host.closed = false →
    link.host.socket.Sound (link.asked.map wire.requestFrame)
  silent : link.host.closed = true →
    link.host.socket.writer.attached = false
  sent : link.host.socket.accepted <+: link.asked.flatMap wire.requestFrame
  carried : link.carried ≤ link.host.socket.accepted.length
  within : done ≤ link.asked.length
  reading : link.running = true →
    link.host.socket.accepted.take link.carried =
      (link.asked.take done).flatMap wire.requestFrame ++ link.input
  guest : link.guest = guestAfter handle begin (link.asked.take done)
  written : stdoutOf frames ++ link.output =
    (responses handle begin (link.asked.take done)).flatMap wire.writeFrame
  short : ∀ frame ∈ frames, frame.2.length < 2 ^ 32
  stream : received ++ link.stream =
    reply.header ++ headerEnd ++ frames.flatMap dockerFrame

theorem linked_start :
    (start begin reply : AgentLink σ Request Response).Linked wire handle begin
      reply 0 [] [] where
  host := DockerAgentTransport.served_opened
  inputs := rfl
  fits := by
    intro request member
    cases member
  sending := fun _ => SocketSession.sound_after (fun _ _ => ⟨0, by decide,
    Int.natCast_nonneg _⟩) []
  silent := by
    intro closed
    cases closed
  sent := List.nil_prefix
  carried := Nat.le_refl _
  within := Nat.le_refl _
  reading := fun _ => rfl
  guest := rfl
  written := rfl
  short := by
    intro frame member
    cases member
  stream := (List.append_nil _).symm

/-- The daemon hears something and asks nothing. -/
theorem Linked.hears
    (linked : link.Linked wire handle begin reply done received frames)
    {host : DockerAgentTransport Response} (heard : link.host.Hears host)
    {stream more : Bytes} (isHost : host.Served wire.toAgentJson more)
    (whole : more ++ stream = received ++ link.stream) :
    ({ link with host, stream }).Linked wire handle begin reply done more
      frames := by
  have asked : ({ link with host, stream } :
      AgentLink σ Request Response).asked = link.asked := by
    rw [AgentLink.asked, AgentLink.asked]
    dsimp only
    rw [heard.asked]
  constructor
  · exact isHost
  · exact linked.inputs.trans heard.calls.symm
  · rw [asked]
    exact linked.fits
  · intro isOpen
    obtain ⟨wasOpen, same⟩ := heard.sending isOpen
    rw [asked]
    dsimp only
    rw [same]
    exact linked.sending wasOpen
  · exact heard.silent linked.silent
  · rw [asked]
    dsimp only
    rw [heard.accepted]
    exact linked.sent
  · dsimp only
    rw [heard.accepted]
    exact linked.carried
  · rw [asked]
    exact linked.within
  · rw [asked]
    dsimp only
    rw [heard.accepted]
    exact linked.reading
  · rw [asked]
    exact linked.guest
  · rw [asked]
    exact linked.written
  · exact linked.short
  · exact whole.trans linked.stream

/-- The guest, Docker and the bytes between them move on. -/
theorem Linked.enqueue
    (linked : link.Linked wire handle begin reply done received frames)
    {frame : UInt8 × Bytes} {output : Bytes}
    (written : stdoutOf (frames ++ [frame]) ++ output =
      stdoutOf frames ++ link.output)
    (enqueued : ({ link with output }).enqueue frame = some next) :
    next.Linked wire handle begin reply done received
      (frames ++ [frame]) := by
  rw [AgentLink.enqueue] at enqueued
  split at enqueued
  case isFalse => cases enqueued
  case isTrue fits =>
    cases enqueued
    refine ⟨linked.host, linked.inputs, linked.fits, linked.sending,
      linked.silent, linked.sent, linked.carried, linked.within,
      linked.reading, linked.guest, written.trans linked.written, ?_, ?_⟩
    · intro other member
      rcases List.mem_append.mp member with earlier | last
      · exact linked.short other earlier
      · rw [List.mem_singleton.mp last]
        exact fits
    · dsimp only
      rw [← List.append_assoc, linked.stream, List.flatMap_append,
        List.flatMap_singleton, List.append_assoc]

theorem Linked.carry
    (linked : link.Linked wire handle begin reply done received frames)
    (count : Nat) (carried : link.step wire answers handle (.carry count) =
      some next) :
    next.Linked wire handle begin reply done received frames := by
  cases carried
  refine ⟨linked.host, linked.inputs, linked.fits, linked.sending,
    linked.silent, linked.sent, ?_, linked.within, ?_, linked.guest,
    linked.written, linked.short, linked.stream⟩
  · dsimp only
    rw [List.length_take, List.length_drop]
    have within := linked.carried
    omega
  · intro running
    have before := linked.reading running
    have bytes : (link.host.socket.accepted.drop link.carried).take
        ((link.host.socket.accepted.drop link.carried).take count).length =
          (link.host.socket.accepted.drop link.carried).take count :=
      (List.prefix_iff_eq_take.mp (List.take_prefix _ _)).symm
    change link.host.socket.accepted.take (link.carried + _) =
      (link.asked.take done).flatMap wire.requestFrame ++ (link.input ++ _)
    rw [List.take_add, bytes, before, List.append_assoc]

/-- Requests are put behind the others, and the socket takes more of them. -/
theorem Linked.sends
    (linked : link.Linked wire handle begin reply done received frames)
    {host : DockerAgentTransport Response} {inputs : List Request}
    (more : List Request) (isHost : host.Served wire.toAgentJson received)
    (counted : inputs.length = host.calls) (isOpen : host.closed = false)
    (asked : ({ link with host, inputs } :
      AgentLink σ Request Response).asked = link.asked ++ more)
    (fits : ∀ request ∈ more, (wire.requestBytes request).length < 2 ^ 32)
    (sound : host.socket.Sound ((link.asked ++ more).map wire.requestFrame))
    (accepts : link.host.socket.accepted <+: host.socket.accepted) :
    ({ link with host, inputs }).Linked wire handle begin reply done received
      frames := by
  have before : (link.asked ++ more).take done = link.asked.take done :=
    List.take_append_of_le_length linked.within
  constructor
  · exact isHost
  · exact counted
  · rw [asked]
    intro request member
    rcases List.mem_append.mp member with earlier | later
    · exact linked.fits request earlier
    · exact fits request later
  · rw [asked]
    exact fun _ => sound
  · intro closed
    rw [isOpen] at closed
    cases closed
  · rw [asked, List.flatMap_def]
    exact ⟨_, sound.bytes⟩
  · exact linked.carried.trans accepts.length_le
  · rw [asked, List.length_append]
    exact Nat.le_add_right_of_le linked.within
  · intro running
    obtain ⟨later, isLater⟩ := accepts
    rw [asked, before, ← linked.reading running]
    dsimp only
    rw [← isLater, List.take_append_of_le_length linked.carried]
  · rw [asked, before]
    exact linked.guest
  · rw [asked, before]
    exact linked.written
  · exact linked.short
  · exact linked.stream

theorem accepted_next (socket : SocketSession) (call : WriterCall) :
    socket.accepted <+: (socket.next answers call).accepted := by
  rw [SocketSession.accepted, SocketSession.accepted, SocketSession.next,
    List.flatMap_append]
  exact List.prefix_append _ _

theorem Linked.drain
    (linked : link.Linked wire handle begin reply done received frames) :
    ({ link with host := link.host.drain answers }).Linked wire handle begin
      reply done received frames := by
  have host : (link.host.drain answers).Served wire.toAgentJson received :=
    ⟨⟨linked.host.reads.waiting, linked.host.reads.connected,
      linked.host.reads.shut⟩, linked.host.answered,
      linked.host.numbered.ordered, linked.host.numbered.complete⟩
  cases state : link.host.closed with
  | true =>
      have same : link.host.socket.next answers .drain = link.host.socket := by
        have result : link.host.socket.writer.drain answers
            link.host.socket.offers.length = (link.host.socket.writer, []) := by
          rw [SocketFrameWriter.drain, SocketFrameWriter.flush,
            if_neg (by simp [linked.silent state])]
        rw [SocketSession.next, SocketSession.perform, result,
          List.append_nil]
      rw [DockerAgentTransport.drain, same]
      exact linked
  | false =>
      have sound : (link.host.socket.next answers .drain).Sound _ :=
        (linked.sending state).next .drain
      apply linked.sends [] host linked.inputs state
      · exact (List.append_nil _).symm
      · intro request member
        cases member
      · rw [List.append_nil]
        rw [WriterCall.frame?, Option.toList_none, List.append_nil] at sound
        exact sound
      · exact accepted_next _ _

/-- A number that is in use names the same request when others follow. -/
theorem asked_append (numbered : link.host.Numbered)
    (counted : link.inputs.length = link.host.calls) (input : Request) :
    link.host.channel.asked.filterMap (fun call => (link.inputs ++ [input])[call]?) =
      link.asked := by
  apply List.filterMap_congr
  intro call isAsked
  have fresh := numbered.fresh call isAsked
  rw [List.getElem?_append_left (by omega)]

theorem Linked.request
    (linked : link.Linked wire handle begin reply done received frames)
    {input : Request} (requested :
      link.step wire answers handle (.request input) = some next) :
    next.Linked wire handle begin reply done received frames := by
  obtain ⟨host, isHost, rfl⟩ := Option.map_eq_some_iff.mp requested
  have served := linked.host.request isHost
  have same := asked_append linked.host.numbered linked.inputs input
  rcases DockerAgentTransport.request_cases isHost with
    ⟨error, rfl⟩ | ⟨isOpen, -, frame, socket, encoded, written, rfl⟩
  · have asked : ({ link with
        host := link.host.refuse error
        inputs := link.inputs ++ [input] } :
          AgentLink σ Request Response).asked = link.asked := same
    refine ⟨served, ?_, ?_, ?_, linked.silent, ?_, linked.carried, ?_, ?_, ?_,
      ?_, linked.short, linked.stream⟩
    · rw [List.length_append, linked.inputs]
      rfl
    all_goals rw [asked]
    · exact linked.fits
    · exact linked.sending
    · exact linked.sent
    · exact linked.within
    · exact linked.reading
    · exact linked.guest
    · exact linked.written
  · obtain ⟨rfl, fits⟩ := AgentWire.encodeAgentFrame_eq_ok encoded
    obtain ⟨sound, accepts⟩ := DockerAgentTransport.writeFrame_eq_ok
      (linked.sending isOpen) written
    apply linked.sends [input] served _ isOpen
    · change List.filterMap _ (_ ++ (_ ++ [link.host.calls])) = _
      rw [← List.append_assoc, List.filterMap_append]
      congr 1
      rw [List.filterMap_cons_some (b := input), List.filterMap_nil]
      dsimp only
      rw [← linked.inputs, List.getElem?_concat_length]
    · intro request member
      rw [List.mem_singleton.mp member]
      exact fits
    · rw [List.map_append]
      exact sound
    · exact accepts
    · rw [List.length_append, linked.inputs]
      rfl

/-- What the guest has not read begins with the request it is to answer
next. -/
theorem Linked.unread
    (linked : link.Linked wire handle begin reply done received frames)
    (running : link.running = true) :
    link.input <+: (link.asked.drop done).flatMap wire.requestFrame := by
  have sent := (List.take_prefix link.carried _).trans linked.sent
  rw [linked.reading running] at sent
  nth_rewrite 2 [← List.take_append_drop done link.asked] at sent
  rw [List.flatMap_append] at sent
  exact (List.prefix_append_right_inj _).mp sent

theorem Linked.serve
    (linked : link.Linked wire handle begin reply done received frames)
    (served : link.serve wire handle = some next) :
    ∃ done, next.Linked wire handle begin reply done received frames := by
  rw [AgentLink.serve] at served
  split at served
  case isFalse => cases served
  case isTrue running =>
    obtain ⟨⟨request?, rest⟩, isRead, rfl⟩ := Option.map_eq_some_iff.mp served
    have unread := linked.unread running
    cases later : link.asked.drop done with
    | nil =>
        rw [later, List.flatMap_nil, List.prefix_nil] at unread
        rw [unread, AgentWire.readFrame_nil] at isRead
        cases isRead
    | cons request more =>
        rw [later, List.flatMap_cons] at unread
        have isAsked : request ∈ link.asked := by
          apply List.mem_of_mem_drop (i := done)
          rw [later]
          exact List.mem_cons_self
        rcases AgentWire.readFrame_cases (linked.fits request isAsked) unread
          with ⟨waits, -⟩ | ⟨-, rest', fails⟩ | ⟨-, rest', isInput, reads⟩
        · rw [waits] at isRead
          cases isRead
        · rw [fails] at isRead
          cases isRead
          refine ⟨done, linked.host, linked.inputs, linked.fits,
            linked.sending, linked.silent, linked.sent, linked.carried,
            linked.within, ?_, linked.guest, linked.written, linked.short,
            linked.stream⟩
          intro still
          cases still
        · rw [reads] at isRead
          cases isRead
          have less : done < link.asked.length := by
            by_contra enough
            rw [List.drop_of_length_le (Nat.le_of_not_lt enough)] at later
            cases later
          have first : link.asked.take (done + 1) =
              link.asked.take done ++ [request] := by
            rw [List.take_add, later]
            rfl
          refine ⟨done + 1, linked.host, linked.inputs, linked.fits,
            linked.sending, linked.silent, linked.sent, linked.carried,
            less, ?_, ?_, ?_, linked.short, linked.stream⟩
          · intro _
            change _ = (link.asked.take (done + 1)).flatMap _ ++ rest
            rw [first, List.flatMap_append, List.flatMap_singleton,
              List.append_assoc, ← isInput]
            exact linked.reading running
          · change _ = guestAfter handle begin (link.asked.take (done + 1))
            rw [first, guestAfter_concat, ← linked.guest]
          · change _ ++ (link.output ++ _) =
              (responses handle begin (link.asked.take (done + 1))).flatMap _
            rw [first, responses_concat, List.flatMap_append,
              List.flatMap_singleton, ← linked.written, ← linked.guest,
              List.append_assoc]

theorem Linked.deliver
    (linked : link.Linked wire handle begin reply done received frames)
    (count : Nat) :
    ({ link with
      host := link.host.onData wire.toAgentJson (link.stream.take count)
      stream := link.stream.drop count }).Linked wire handle begin reply done
      (received ++ link.stream.take count) frames := by
  apply linked.hears
  · exact DockerAgentTransport.hears_onData wire.toAgentJson
      linked.host.reads.attached linked.host.reads.shut _
  · exact linked.host.onData _
  · rw [List.append_assoc, List.take_append_drop]

theorem Linked.step {event : LinkEvent Request}
    (linked : link.Linked wire handle begin reply done received frames)
    (stepped : link.step wire answers handle event = some next) :
    ∃ done received frames,
      next.Linked wire handle begin reply done received frames := by
  have shut := linked.host.reads.shut
  cases event with
  | request input => exact ⟨done, received, frames, linked.request stepped⟩
  | drain =>
      cases stepped
      exact ⟨done, received, frames, linked.drain⟩
  | fail error =>
      cases stepped
      exact ⟨done, received, frames,
        linked.hears (DockerAgentTransport.hears_fail error shut)
          (linked.host.fail error) rfl⟩
  | close =>
      cases stepped
      exact ⟨done, received, frames,
        linked.hears (DockerAgentTransport.hears_close shut)
          linked.host.close rfl⟩
  | carry count => exact ⟨done, received, frames, linked.carry count stepped⟩
  | serve =>
      obtain ⟨done, later⟩ := linked.serve stepped
      exact ⟨done, received, frames, later⟩
  | stop =>
      cases stepped
      refine ⟨done, received, frames, linked.host, linked.inputs, linked.fits,
        linked.sending, linked.silent, linked.sent, linked.carried,
        linked.within, ?_, linked.guest, linked.written, linked.short,
        linked.stream⟩
      intro running
      cases running
  | send count =>
      refine ⟨done, received, _, linked.enqueue ?_ stepped⟩
      rw [stdoutOf_concat, if_pos rfl, List.append_assoc,
        List.take_append_drop]
  | stderr bytes =>
      have other : ¬ (2 : UInt8) = 1 := by decide
      have written : stdoutOf (frames ++ [(2, bytes)]) ++ link.output =
          stdoutOf frames ++ link.output := by
        rw [stdoutOf_concat, if_neg other, List.append_nil]
      exact ⟨done, received, _, linked.enqueue written stepped⟩
  | deliver count =>
      cases stepped
      refine ⟨done, received ++ link.stream.take count, frames,
        linked.deliver count⟩

theorem Linked.run {events : List (LinkEvent Request)}
    (linked : link.Linked wire handle begin reply done received frames)
    (replay : Foundation.run (AgentLink.step wire answers handle) link events =
      some next) :
    ∃ done received frames,
      next.Linked wire handle begin reply done received frames := by
  induction events generalizing link done received frames with
  | nil =>
      cases replay
      exact ⟨done, received, frames, linked⟩
  | cons event events induction =>
      obtain ⟨middle, stepped, rest⟩ := Option.bind_eq_some_iff.mp replay
      obtain ⟨_, _, _, later⟩ := linked.step stepped
      exact induction later rest

/-- The answers that have been handed out are those of the guest. -/
theorem Linked.answered
    (linked : link.Linked wire handle begin reply done received frames) :
    ∃ answered rejected,
      link.host.channel.settled = answered ++ rejected ∧
      answered.length ≤ done ∧
      answered.map Prod.snd =
        ((responses handle begin link.asked).take answered.length).map
          .ok ∧
      (∃ error, rejected = Replies.reject error (rejected.map Prod.fst)) ∧
      (link.host.channel.closed = false → rejected = []) := by
  obtain ⟨answered, rejected, corresponds⟩ := linked.host.answered
  obtain ⟨part, isPart, same⟩ :=
    answerFrames_of_stream linked.short linked.stream
  have isWritten : part <+: (responses handle begin
      (link.asked.take done)).flatMap wire.writeFrame := by
    rw [← linked.written]
    exact isPart.trans (List.prefix_append _ _)
  have enough := corresponds.enough
  have within := corresponds.within
  have outcomes := corresponds.outcomes
  rw [same] at enough within outcomes
  obtain ⟨few, items⟩ := AgentWire.items_of_written isWritten enough within
  rw [length_responses, List.length_take] at few
  have few := few.trans (Nat.min_le_left _ _)
  refine ⟨answered, rejected, corresponds.settled, few, ?_,
    corresponds.failed, fun isOpen => (corresponds.current isOpen).1⟩
  rw [outcomes, items, responses_take, List.take_take, Nat.min_eq_left few,
    List.map_map]
  apply List.map_congr_left
  intro response _
  rw [Function.comp_apply]
  exact wire.decode_answerFrame response

end AgentLink

/-! ## Rest -/

namespace LinkEvent

/-- Neither end gives up, and the guest accepts the length of a request. -/
def Undisturbed {Request Response : Type} (wire : AgentWire Request Response) :
    LinkEvent Request → Prop
  | .request input =>
      (wire.requestBytes input).length ≤ AgentWire.maxRequestBytes
  | .fail _ => False
  | .close => False
  | .stop => False
  | _ => True

end LinkEvent

/-- Frames that are awaited, none of them too long, leave a channel open. -/
theorem Replies.isOpen_foldl_receive {Request Response : Type}
    {json : AgentJson Request Response} {replies : Replies Response}
    {frames : List (Bytes × Bytes)} (isOpen : replies.closed = false)
    (within : ∀ frame ∈ frames,
      ofBigEndian frame.1 ≤ AgentFrameChannel.maxFrameBytes)
    (awaited : frames.length ≤ replies.pending.length) :
    (frames.foldl (Replies.receive json) replies).closed = false := by
  induction frames generalizing replies with
  | nil => exact isOpen
  | cons frame frames induction =>
      have fits := within frame List.mem_cons_self
      rw [List.foldl_cons, Replies.receive, if_neg (by simp [isOpen]),
        if_neg (Nat.not_lt.mpr fits)]
      cases waiting : replies.pending with
      | nil =>
          rw [waiting] at awaited
          cases awaited
      | cons call pending =>
          rw [waiting] at awaited
          exact induction isOpen
            (fun other member => within other (List.mem_cons_of_mem _ member))
            (Nat.le_of_succ_le_succ awaited)

namespace AgentWire

variable {Request Response : Type} {wire : AgentWire Request Response}

theorem next_answerFrame {response : Response}
    (small : (wire.toVec response).length ≤ AgentFrameChannel.maxFrameBytes)
    (rest : Bytes) :
    answerFraming.next ((wire.answerFrame response).1 ++
        (wire.answerFrame response).2 ++ rest) =
      some (wire.answerFrame response, rest) := by
  apply Framing.next_headed_eq_some_iff.mpr
  have length : ofBigEndian (bigEndian 4 (wire.toVec response).length) =
      (wire.toVec response).length :=
    ofBigEndian_bigEndian_of_lt (wire.bounded response)
  refine ⟨rfl, length_bigEndian _ _, ?_⟩
  rw [length, if_neg (Nat.not_lt.mpr small)]

theorem reads_answerFrame {written : List Response}
    (small : ∀ response ∈ written,
      (wire.toVec response).length ≤ AgentFrameChannel.maxFrameBytes) :
    ∀ frame ∈ written.map wire.answerFrame, ∀ rest,
      answerFraming.next (frame.1 ++ frame.2 ++ rest) = some (frame, rest) := by
  intro item isItem rest
  obtain ⟨response, member, rfl⟩ := List.mem_map.mp isItem
  exact next_answerFrame (small response member) rest

theorem flatMap_writeFrame (written : List Response) :
    written.flatMap wire.writeFrame =
      (written.map wire.answerFrame).flatMap
        fun frame => frame.1 ++ frame.2 := by
  rw [List.flatMap_map]
  rfl

end AgentWire

theorem mem_responses {σ Request Response : Type}
    {handle : σ → Request → σ × Response} {guest : σ}
    {requests : List Request} {response : Response}
    (member : response ∈ responses handle guest requests) :
    ∃ guest request, response = (handle guest request).2 := by
  induction requests generalizing guest with
  | nil => cases member
  | cons request requests induction =>
      rcases List.mem_cons.mp member with first | later
      · exact ⟨guest, request, first⟩
      · exact induction later

namespace AgentLink

variable {σ Request Response : Type} {wire : AgentWire Request Response}
  {answers : SocketAnswers} {handle : σ → Request → σ × Response}
  {begin : σ} {reply : AttachReply} {link next : AgentLink σ Request Response}
  {done : Nat} {received : Bytes} {frames : List (UInt8 × Bytes)}

/-- Nothing is under way any more. -/
structure Resting (wire : AgentWire Request Response)
    (link : AgentLink σ Request Response) : Prop where
  sent : link.host.socket.writer.remainder = []
  carried : link.carried = link.host.socket.accepted.length
  read : wire.readFrame link.input = none
  output : link.output = []
  stream : link.stream = []

/-- Neither end has given up. -/
structure Calm (wire : AgentWire Request Response)
    (link : AgentLink σ Request Response) : Prop where
  running : link.running = true
  isOpen : link.host.channel.closed = false
  small : ∀ request ∈ link.inputs,
    (wire.requestBytes request).length ≤ AgentWire.maxRequestBytes

theorem small_of_asked (calm : link.Calm wire) {request : Request}
    (isAsked : request ∈ link.asked) :
    (wire.requestBytes request).length ≤ AgentWire.maxRequestBytes := by
  obtain ⟨call, -, isInput⟩ := List.mem_filterMap.mp isAsked
  exact calm.small request (List.mem_of_getElem? isInput)

theorem length_filterMap_getElem? {inputs : List Request} {calls : List Nat}
    (known : ∀ call ∈ calls, call < inputs.length) :
    (calls.filterMap fun call => inputs[call]?).length = calls.length := by
  induction calls with
  | nil => rfl
  | cons call calls induction =>
      have first := List.getElem?_eq_getElem (known call List.mem_cons_self)
      rw [List.filterMap_cons_some first, List.length_cons, List.length_cons,
        induction fun other member => known other (List.mem_cons_of_mem _ member)]

theorem Linked.length_asked
    (linked : link.Linked wire handle begin reply done received frames) :
    link.asked.length = link.host.channel.asked.length := by
  apply length_filterMap_getElem?
  intro call isAsked
  rw [linked.inputs]
  exact linked.host.numbered.fresh call isAsked

/-- Short answers that have come in are the first of those written. -/
theorem Linked.answerFrames_prefix
    (linked : link.Linked wire handle begin reply done received frames)
    (short : ∀ guest request, (wire.toVec (handle guest request).2).length ≤
      AgentFrameChannel.maxFrameBytes) :
    answerFrames received <+:
      (responses handle begin (link.asked.take done)).map wire.answerFrame := by
  obtain ⟨part, isPart, same⟩ :=
    answerFrames_of_stream linked.short linked.stream
  have isWritten := isPart.trans (List.prefix_append _ link.output)
  rw [linked.written, AgentWire.flatMap_writeFrame] at isWritten
  rw [same]
  apply Framing.items_prefix_of_written _ isWritten
  apply AgentWire.reads_answerFrame
  intro response member
  obtain ⟨guest, request, rfl⟩ := mem_responses member
  exact short guest request

theorem length_of_open {replies : Replies Response}
    {answers : List (Bytes × Bytes)}
    {answered rejected : List (Nat × Except Thrown Response)}
    (corresponds : replies.Matches wire.toAgentJson answers answered rejected)
    (isOpen : replies.closed = false) :
    answers.length + replies.pending.length = replies.asked.length := by
  obtain ⟨none, all⟩ := corresponds.current isOpen
  rw [Replies.asked, List.length_append, List.length_map, corresponds.settled,
    none, List.append_nil, all]

theorem Linked.calm_deliver
    (linked : link.Linked wire handle begin reply done received frames)
    (calm : link.Calm wire) (accepted : upgraded reply.header = true)
    (short : ∀ guest request, (wire.toVec (handle guest request).2).length ≤
      AgentFrameChannel.maxFrameBytes)
    (count : Nat) :
    ({ link with
      host := link.host.onData wire.toAgentJson (link.stream.take count)
      stream := link.stream.drop count }).Calm wire := by
  have later := linked.deliver count
  refine ⟨calm.running, ?_, calm.small⟩
  obtain ⟨_, more, isMore, replies | ⟨-, header, attached, found, refused, -⟩⟩ :=
    linked.host.reads.onData wire.toAgentJson (link.stream.take count)
  · obtain ⟨_, _, corresponds⟩ := linked.host.answered
    have balance := length_of_open corresponds calm.isOpen
    have come := later.answerFrames_prefix short
    rw [isMore] at come
    dsimp only
    rw [replies]
    apply Replies.isOpen_foldl_receive calm.isOpen
    · intro frame member
      obtain ⟨response, isResponse, rfl⟩ := List.mem_map.mp
        (come.subset (List.mem_append_right _ member))
      obtain ⟨guest, request, rfl⟩ := mem_responses isResponse
      rw [AgentWire.answerFrame, ofBigEndian_bigEndian_of_lt (wire.bounded _)]
      exact short guest request
    · have few := come.length_le
      rw [List.length_append, List.length_map, length_responses,
        List.length_take] at few
      have asked := linked.length_asked
      have heard := DockerAgentTransport.hears_onData wire.toAgentJson
        linked.host.reads.attached linked.host.reads.shut
        (link.stream.take count)
      have asked' := later.length_asked
      dsimp only at asked'
      rw [heard.asked] at asked'
      omega
  · have whole := Framing.cut_append found (link.stream.drop count)
    have stream := later.stream
    dsimp only at stream
    rw [stream, Framing.cut_append reply.whole] at whole
    obtain ⟨same, -⟩ := Prod.mk.inj (Option.some.inj whole)
    rw [← same, accepted] at refused
    cases refused

theorem Linked.calm_serve
    (linked : link.Linked wire handle begin reply done received frames)
    (calm : link.Calm wire) (served : link.serve wire handle = some next) :
    next.Calm wire := by
  rw [AgentLink.serve, if_pos calm.running] at served
  obtain ⟨⟨request?, rest⟩, isRead, rfl⟩ := Option.map_eq_some_iff.mp served
  have unread := linked.unread calm.running
  cases request? with
  | some request => exact ⟨calm.running, calm.isOpen, calm.small⟩
  | none =>
      cases later : link.asked.drop done with
      | nil =>
          rw [later, List.flatMap_nil, List.prefix_nil] at unread
          rw [unread, AgentWire.readFrame_nil] at isRead
          cases isRead
      | cons request more =>
          rw [later, List.flatMap_cons] at unread
          have isAsked : request ∈ link.asked := by
            apply List.mem_of_mem_drop (i := done)
            rw [later]
            exact List.mem_cons_self
          have small := small_of_asked calm isAsked
          rcases AgentWire.readFrame_cases (linked.fits request isAsked) unread
            with ⟨waits, -⟩ | ⟨exceeds, -⟩ | ⟨-, _, -, reads⟩
          · rw [waits] at isRead
            cases isRead
          · omega
          · rw [reads] at isRead
            cases isRead

theorem calm_request (calm : link.Calm wire) {input : Request}
    (small : (wire.requestBytes input).length ≤ AgentWire.maxRequestBytes)
    (requested : link.step wire answers handle (.request input) =
      some next) : next.Calm wire := by
  obtain ⟨host, isHost, rfl⟩ := Option.map_eq_some_iff.mp requested
  refine ⟨calm.running, ?_, ?_⟩
  · rcases DockerAgentTransport.request_cases isHost with
      ⟨error, rfl⟩ | ⟨-, isOpen, _, _, -, -, rfl⟩
    · exact calm.isOpen
    · exact isOpen
  · intro request member
    rcases List.mem_append.mp member with earlier | last
    · exact calm.small request earlier
    · rw [List.mem_singleton.mp last]
      exact small

theorem Linked.calm_step {event : LinkEvent Request}
    (linked : link.Linked wire handle begin reply done received frames)
    (calm : link.Calm wire) (accepted : upgraded reply.header = true)
    (short : ∀ guest request, (wire.toVec (handle guest request).2).length ≤
      AgentFrameChannel.maxFrameBytes) (undisturbed : event.Undisturbed wire)
    (stepped : link.step wire answers handle event = some next) :
    next.Calm wire := by
  have enqueued : ∀ {output frame},
      ({ link with output }).enqueue frame = some next → next.Calm wire := by
    intro output frame enqueued
    rw [AgentLink.enqueue] at enqueued
    split at enqueued
    case isFalse => cases enqueued
    case isTrue =>
      cases enqueued
      exact ⟨calm.running, calm.isOpen, calm.small⟩
  cases event with
  | request input => exact calm_request calm undisturbed stepped
  | drain =>
      cases stepped
      exact ⟨calm.running, calm.isOpen, calm.small⟩
  | fail error => cases undisturbed
  | close => cases undisturbed
  | carry count =>
      cases stepped
      exact ⟨calm.running, calm.isOpen, calm.small⟩
  | serve => exact linked.calm_serve calm stepped
  | stop => cases undisturbed
  | send count => exact enqueued stepped
  | stderr bytes => exact @enqueued link.output _ stepped
  | deliver count =>
      cases stepped
      exact linked.calm_deliver calm accepted short count

theorem Linked.calm_run {events : List (LinkEvent Request)}
    (linked : link.Linked wire handle begin reply done received frames)
    (calm : link.Calm wire) (accepted : upgraded reply.header = true)
    (short : ∀ guest request, (wire.toVec (handle guest request).2).length ≤
      AgentFrameChannel.maxFrameBytes)
    (undisturbed : ∀ event ∈ events, event.Undisturbed wire)
    (replay : Foundation.run (AgentLink.step wire answers handle) link events =
      some next) : next.Calm wire := by
  induction events generalizing link done received frames with
  | nil =>
      cases replay
      exact calm
  | cons event events induction =>
      obtain ⟨middle, stepped, rest⟩ := Option.bind_eq_some_iff.mp replay
      have first := undisturbed event List.mem_cons_self
      obtain ⟨_, _, _, later⟩ := linked.step stepped
      exact induction later (linked.calm_step calm accepted short first stepped)
        (fun other member => undisturbed other (List.mem_cons_of_mem _ member))
        rest

/-- When nothing is under way, the guest has answered all requests. -/
theorem Linked.served_all
    (linked : link.Linked wire handle begin reply done received frames)
    (calm : link.Calm wire) (resting : link.Resting wire) :
    link.asked.take done = link.asked := by
  have isOpen : link.host.closed = false := by
    cases state : link.host.closed with
    | false => rfl
    | true =>
        have closed := linked.host.reads.shut state
        rw [calm.isOpen] at closed
        cases closed
  have sent := (linked.sending isOpen).bytes
  have read := linked.reading calm.running
  rw [resting.sent, List.append_nil, ← List.flatMap_def] at sent
  rw [resting.carried, List.take_length, sent] at read
  nth_rewrite 1 [← List.take_append_drop done link.asked] at read
  rw [List.flatMap_append] at read
  have input := List.append_cancel_left read
  apply List.take_of_length_le
  rw [← List.drop_eq_nil_iff]
  cases later : link.asked.drop done with
  | nil => rfl
  | cons request more =>
      rw [later, List.flatMap_cons] at input
      have isAsked : request ∈ link.asked := by
        apply List.mem_of_mem_drop (i := done)
        rw [later]
        exact List.mem_cons_self
      have small := small_of_asked calm isAsked
      rcases AgentWire.readFrame_cases (linked.fits request isAsked)
        (show link.input <+: _ by rw [← input]) with
        ⟨-, incomplete⟩ | ⟨exceeds, -⟩ | ⟨-, _, -, reads⟩
      · exact absurd ⟨_, input⟩ incomplete
      · omega
      · rw [resting.read] at reads
        cases reads

/-- When nothing is under way, all answers have come in. -/
theorem Linked.answered_all
    (linked : link.Linked wire handle begin reply done received frames)
    (calm : link.Calm wire) (accepted : upgraded reply.header = true)
    (short : ∀ guest request, (wire.toVec (handle guest request).2).length ≤
      AgentFrameChannel.maxFrameBytes) (resting : link.Resting wire) :
    link.host.channel.pending = [] := by
  have all := linked.served_all calm resting
  have written := linked.written
  have stream := linked.stream
  rw [resting.output, List.append_nil, all,
    AgentWire.flatMap_writeFrame] at written
  rw [resting.stream, List.append_nil] at stream
  have come : answerFrames received =
      (responses handle begin link.asked).map wire.answerFrame := by
    have small : ∀ response ∈ responses handle begin link.asked,
        (wire.toVec response).length ≤ AgentFrameChannel.maxFrameBytes := by
      intro response member
      obtain ⟨guest, request, rfl⟩ := mem_responses member
      exact short guest request
    have items := Framing.items_flatMap_append
      (AgentWire.reads_answerFrame small) []
    rw [List.append_nil, Framing.items_nil, List.append_nil] at items
    rw [stream, answerFrames_of_some (Framing.cut_append reply.whole _),
      if_pos accepted, List.nil_append, guestOutput_frames linked.short,
      written, items]
  obtain ⟨_, _, corresponds⟩ := linked.host.answered
  have balance := length_of_open corresponds calm.isOpen
  have asked := linked.length_asked
  rw [come, List.length_map, length_responses] at balance
  apply List.length_eq_zero_iff.mp
  omega

/-- What the requests have got: first the answers that the guest gave to them,
each at its own place, then, once the daemon has given up, rejections. -/
def AnswersMatch (handle : σ → Request → σ × Response) (begin : σ)
    (link : AgentLink σ Request Response) : Prop :=
  ∃ answered rejected,
    link.host.channel.settled = answered ++ rejected ∧
    answered.map Prod.snd =
      ((responses handle begin link.asked).take answered.length).map .ok ∧
    (∃ error, rejected = Replies.reject error (rejected.map Prod.fst)) ∧
    (link.host.channel.closed = false → rejected = [])

end AgentLink

variable {σ Request Response : Type} {wire : AgentWire Request Response}
  {answers : SocketAnswers} {handle : σ → Request → σ × Response}
  {begin : σ} {reply : AttachReply} {link : AgentLink σ Request Response}
  {events : List (LinkEvent Request)}

/-- However the bytes are taken, cut and mixed on their way, no request gets
the answer to another, and none gets two. -/
theorem link_answers_match
    (replay : run (AgentLink.step wire answers handle)
      (AgentLink.start begin reply) events = some link) :
    link.AnswersMatch handle begin ∧ link.host.Numbered := by
  obtain ⟨_, _, _, linked⟩ := AgentLink.linked_start.run replay
  obtain ⟨answered, rejected, settled, -, outcomes, failed, current⟩ :=
    linked.answered
  exact ⟨⟨answered, rejected, settled, outcomes, failed, current⟩,
    linked.host.numbered⟩

/-- As long as neither end gives up and no frame is too long, the channel stays
open, and when nothing is under way no request waits. -/
theorem resting_link_has_answered (accepted : upgraded reply.header = true)
    (short : ∀ guest request, (wire.toVec (handle guest request).2).length ≤
      AgentFrameChannel.maxFrameBytes)
    (undisturbed : ∀ event ∈ events, event.Undisturbed wire)
    (replay : run (AgentLink.step wire answers handle)
      (AgentLink.start begin reply) events = some link) :
    link.host.channel.closed = false ∧
      (link.Resting wire →
        link.host.channel.pending = [] ∧ link.AnswersMatch handle begin) := by
  have start : (AgentLink.start begin reply :
      AgentLink σ Request Response).Calm wire := by
    refine ⟨rfl, rfl, ?_⟩
    intro request member
    cases member
  have calm := AgentLink.linked_start.calm_run start accepted short undisturbed
    replay
  obtain ⟨_, _, _, linked⟩ := AgentLink.linked_start.run replay
  refine ⟨calm.isOpen, fun resting => ⟨?_, ?_⟩⟩
  · exact linked.answered_all calm accepted short resting
  · obtain ⟨answered, rejected, settled, -, outcomes, failed, current⟩ :=
      linked.answered
    exact ⟨answered, rejected, settled, outcomes, failed, current⟩

/-! ### Two requests -/

inductive TwoRequests where
  | poll
  | stat
  deriving DecidableEq

def TwoRequests.json : TwoRequests → List Char
  | .poll =>
      Json.object [("type", Json.string "Poll".toList),
        ("executionId", Json.string "e".toList)]
  | .stat =>
      Json.object [("type", Json.string "FileStat".toList),
        ("path", Json.string "a".toList)]

inductive TwoResponses where
  | running
  | missing
  deriving DecidableEq

def TwoResponses.json : TwoResponses → List Char
  | .running =>
      Json.object [("ok", Json.boolean true),
        ("executionId", Json.string "e".toList),
        ("state", Json.string "RUNNING".toList)]
  | .missing =>
      Json.object [("ok", Json.boolean false),
        ("errorCode", Json.string "FILE_NOT_FOUND".toList)]

/-- Each end reads these texts and no others. -/
def TwoRequests.parse (bytes : Bytes) : Option TwoRequests :=
  [.poll, .stat].find? fun request => Utf8.encode request.json = bytes

def TwoResponses.parse (text : List Char) : Except Thrown TwoResponses :=
  if text = TwoResponses.running.json then .ok .running
  else if text = TwoResponses.missing.json then .ok .missing
  else .error (.plain "JSON Parse error")

theorem TwoRequests.parse_json (request : TwoRequests) :
    TwoRequests.parse (Utf8.encode request.json) = some request := by
  cases request <;> rfl

theorem TwoResponses.parse_json (response : TwoResponses) :
    TwoResponses.parse (Utf8.decodeLossy (Utf8.encode response.json)) =
      .ok response := by
  rw [Utf8.decodeLossy_encode]
  cases response <;> rfl

theorem TwoResponses.length_json (response : TwoResponses) :
    (Utf8.encode response.json).length ≤ 52 := by
  cases response <;> decide

theorem TwoResponses.bounded (response : TwoResponses) :
    (Utf8.encode response.json).length < 2 ^ 32 :=
  Nat.lt_of_le_of_lt response.length_json (by decide)

def twoWire : AgentWire TwoRequests TwoResponses where
  stringify := TwoRequests.json
  parse := TwoResponses.parse
  fromSlice := TwoRequests.parse
  toVec response := Utf8.encode response.json
  readsRequest := TwoRequests.parse_json
  readsResponse := TwoResponses.parse_json
  bounded := TwoResponses.bounded

/-- A guest that counts the requests. -/
def countingGuest (guest : Nat) : TwoRequests → Nat × TwoResponses
  | .poll => (guest + 1, .running)
  | .stat => (guest + 1, .missing)

/-- `HTTP/1.1 101` -/
def switchingProtocols : AttachReply where
  header := [72, 84, 84, 80, 47, 49, 46, 49, 32, 49, 48, 49]
  whole := by decide

/-- The requests reach the guest cut inside of the second one, and the answers
come in two frames that are cut elsewhere, with one of another stream between
them and in chunks that begin inside of them. -/
def answeredTwoRequests : List (LinkEvent TwoRequests) :=
  [.deliver 5, .deliver 20, .request .poll, .request .stat, .carry 45, .serve,
    .carry 100, .send 50, .serve, .stderr [7], .send 100, .deliver 13,
    .deliver 50, .deliver 100]

/-- The link after these events. -/
def answeredLink : Option (AgentLink Nat TwoRequests TwoResponses) :=
  run (AgentLink.step twoWire SocketSession.greedy countingGuest)
    (AgentLink.start 0 switchingProtocols) answeredTwoRequests

theorem answeredLink_settled :
    answeredLink.map (fun link => link.host.channel.settled) =
      some [(0, .ok .running), (1, .ok .missing)] := by
  rfl

theorem link_answers_match_sample :
    ∃ link, answeredLink = some link ∧
      link.host.channel.settled = [(0, .ok .running), (1, .ok .missing)] ∧
      link.AnswersMatch countingGuest 0 ∧ link.host.Numbered := by
  obtain ⟨link, replay, settled⟩ :=
    Option.map_eq_some_iff.mp answeredLink_settled
  exact ⟨link, replay, settled, link_answers_match replay⟩

theorem answeredLink_rests :
    answeredLink.map (fun link =>
      (link.host.socket.writer.remainder, link.carried,
        link.host.socket.accepted.length, link.input, link.output,
        link.stream)) = some ([], 71, 71, [], [], []) := by
  rfl

theorem resting_link_has_answered_sample :
    ∃ link, answeredLink = some link ∧ link.Resting twoWire ∧
      link.host.channel.pending = [] ∧
      link.AnswersMatch countingGuest 0 := by
  obtain ⟨link, replay, rests⟩ := Option.map_eq_some_iff.mp answeredLink_rests
  simp only [Prod.mk.injEq] at rests
  obtain ⟨sent, carried, accepted, input, output, stream⟩ := rests
  have resting : link.Resting twoWire := by
    refine ⟨sent, carried.trans accepted.symm, ?_, output, stream⟩
    rw [input, AgentWire.readFrame_nil]
  have short : ∀ (guest : Nat) (request : TwoRequests),
      (twoWire.toVec (countingGuest guest request).2).length ≤
        AgentFrameChannel.maxFrameBytes := fun guest request =>
    (TwoResponses.length_json _).trans (by decide)
  have undisturbed : ∀ event ∈ answeredTwoRequests,
      event.Undisturbed twoWire := by
    have small : ∀ request,
        (twoWire.requestBytes request).length ≤ AgentWire.maxRequestBytes := by
      intro request
      cases request <;> decide
    simp [answeredTwoRequests, LinkEvent.Undisturbed, small]
  obtain ⟨-, answered⟩ :=
    resting_link_has_answered (by decide) short undisturbed replay
  exact ⟨link, replay, resting, answered resting⟩

end Electrosphere
