import Slipstream.TradingPipeline

/-!
# Any bytes from a peer

A peer may send anything.  Whatever it sends, the messages handled are read
from the first frames of its bytes, one from each and in order, and a
receiver that goes on has consumed every complete frame.

A header that announces more than the buffer can hold is never completed.
The messages in front of it are the last that are handled, and the receiver
has stopped once it was given more bytes behind them than the buffer has.
-/

namespace Slipstream

open PackedBytes

/-- The frame stood somewhere in memory when the message was read there. -/
def ReadFrom (frame : List UInt8) (message : MDMessage) : Prop :=
  ∃ memory address, Memory.Holds memory address frame ∧
    GCMDDeserialiser.deserialiseMessage memory address = .ok message

theorem ReadFrom.eq_decoded {message decoded : MDMessage}
    (hread : ReadFrom (GCMDSerialiser.frame message) decoded) :
    decoded = GCMDDeserialiser.decoded message := by
  rcases hread with ⟨memory, address, hholds, hdecoded⟩
  rw [GCMDDeserialiser.deserialiseMessage_eq_decoded hholds] at hdecoded
  exact (Except.ok.inj hdecoded).symm

theorem readFrom_frames {messages decoded : List MDMessage}
    {frames : List (List UInt8)}
    (hfirst : frames <+: messages.map GCMDSerialiser.frame)
    (hread : List.Forall₂ ReadFrom frames decoded) :
    decoded <+: messages.map GCMDDeserialiser.decoded := by
  induction messages generalizing frames decoded with
  | nil =>
      rw [List.map_nil, List.prefix_nil] at hfirst
      subst hfirst
      cases hread
      exact List.prefix_rfl
  | cons message later ih =>
      cases hread with
      | nil => exact List.nil_prefix
      | cons hhead htail =>
          rw [List.map_cons, List.cons_prefix_cons] at hfirst
          rcases hfirst with ⟨rfl, hrest⟩
          rw [hhead.eq_decoded, List.map_cons, List.prefix_cons_inj]
          exact ih hrest htail

namespace ReceiverThread

/-- The frames reported by the last `recieve` that are still to be decoded
and pushed. -/
def left (thread : ReceiverThread) : List (List UInt8) :=
  let buffer := thread.receiver.messageReconstructor.buffer
  match thread.point with
  | .decoding ptr count => framesAt buffer ptr count
  | .pushing _ ptr count =>
      framesAt buffer (ptr + GCMDDeserialiser.getMessageSize buffer ptr)
        count
  | _ => []

/-- A thread that has been given the bytes of `stream` and has decoded the
frames `done`. -/
structure Decoded (stream : List UInt8) (thread : ReceiverThread)
    (done : List (List UInt8)) : Prop where
  read : List.Forall₂ ReadFrom done thread.receiver.messageQueue
  first : done ++ thread.left <+: (framing.split stream).1
  fits : ∀ frame ∈ done ++ thread.left,
    frame.length ≤ MessageReconstructor.bufferSize

/-- A thread that goes on has every complete frame decoded or before it. -/
structure Goes (stream : List UInt8) (thread : ReceiverThread)
    (done : List (List UInt8)) : Prop where
  all : done ++ thread.left = (framing.split stream).1
  pending : MessageReconstructor.Pending
    thread.receiver.messageReconstructor (framing.split stream).2

def Reads (stream : List UInt8) (thread : ReceiverThread) : Prop :=
  ∃ done, Decoded stream thread done ∧
    (thread.point ≠ .stopped → Goes stream thread done)

theorem reads_of_goes {stream : List UInt8} {thread : ReceiverThread}
    {done : List (List UInt8)}
    (hread : List.Forall₂ ReadFrom done thread.receiver.messageQueue)
    (hfits : ∀ frame ∈ done ++ thread.left,
      frame.length ≤ MessageReconstructor.bufferSize)
    (hgoes : Goes stream thread done) : Reads stream thread :=
  ⟨done, ⟨hread, hgoes.all ▸ List.prefix_rfl, hfits⟩, fun _ => hgoes⟩

theorem initial_reads (buffer : Memory) (lastHeartbeat : UInt64) :
    Reads [] (initial buffer lastHeartbeat) := by
  refine reads_of_goes .nil (fun _ hframe => absurd hframe List.not_mem_nil)
    ⟨?_, ?_⟩
  · rw [framing.split_nil]
    rfl
  · rw [framing.split_nil]
    exact MessageReconstructor.initial_pending buffer

section Reads

variable {stream : List UInt8} {thread : ReceiverThread}
  (hreads : Reads stream thread)
include hreads

/-- An exception, or the end of the connection. -/
theorem Reads.stop {receiver : NetworkMessageReceiver}
    (hqueue : receiver.messageQueue = thread.receiver.messageQueue)
    (later : List UInt8) :
    Reads (stream ++ later) ⟨receiver, .stopped⟩ := by
  rcases hreads with ⟨done, hdecoded, -⟩
  have hdone : done ++ left ⟨receiver, .stopped⟩ = done :=
    List.append_nil done
  refine ⟨done, ⟨?_, ?_, ?_⟩, fun hgoes => absurd rfl hgoes⟩
  · rw [hqueue]
    exact hdecoded.read
  · rw [hdone, framing.split_append]
    exact ((List.prefix_append done _).trans hdecoded.first).trans
      (List.prefix_append _ _)
  · rw [hdone]
    exact (List.forall_mem_append.mp hdecoded.fits).1

/-- A `recieve` that returns. -/
theorem Reads.reassemble (hpoint : thread.point = .receiving)
    {networkBuffer : List UInt8} {received : MessagesRecieved}
    {messageReconstructor : MessageReconstructor}
    (hcall : thread.receiver.messageReconstructor.recieve networkBuffer =
      (.ok received, messageReconstructor)) :
    Reads (stream ++ networkBuffer)
      { receiver :=
          { thread.receiver with messageReconstructor := messageReconstructor }
        point :=
          match received.start with
          | none => .receiving
          | some ptr => .decoding ptr received.messagesCount } := by
  rcases hreads with ⟨done, hdecoded, hgoing⟩
  rcases hgoing (by simp [hpoint]) with ⟨hall, hpending⟩
  have hreturns := hpending.recieve networkBuffer
  rw [hcall] at hreturns
  split at hreturns
  next => simp at hreturns
  next hroom =>
    rcases hreturns with ⟨again, hagain, hframes, hleft⟩
    rw [← Except.ok.inj hagain, Framing.feed] at hframes
    rw [Framing.feed] at hleft
    rw [left, hpoint] at hall
    dsimp only at hall hframes hleft
    rw [List.append_nil] at hall
    let next : ReceiverThread :=
      { receiver :=
          { thread.receiver with messageReconstructor := messageReconstructor }
        point :=
          match received.start with
          | none => .receiving
          | some ptr => .decoding ptr received.messagesCount }
    have hnext : next.left = (framing.split
        ((framing.split stream).2 ++ networkBuffer)).1 := by
      rw [← hframes, left, MessagesRecieved.frames]
      cases hstart : received.start <;> simp [next, hstart]
    have hqueue : List.Forall₂ ReadFrom done next.receiver.messageQueue :=
      hdecoded.read
    refine reads_of_goes hqueue ?_ ⟨?_, ?_⟩
    · rw [List.forall_mem_append]
      refine ⟨(List.forall_mem_append.mp hdecoded.fits).1, ?_⟩
      intro frame hframe
      rw [hnext] at hframe
      have hlength := framing.length_le_of_mem_split hframe
      rw [List.length_append] at hlength
      omega
    · rw [hnext, hall, framing.split_append stream]
    · rw [framing.split_append]
      exact hleft

theorem Reads.receive (hpoint : thread.point = .receiving)
    (networkBuffer : List UInt8) :
    Reads (stream ++ networkBuffer) (thread.receive networkBuffer) := by
  unfold ReceiverThread.receive
  split
  next hempty =>
    rw [List.length_eq_zero_iff.mp hempty, List.append_nil]
    exact hreads
  next hnonempty =>
    split
    next exception messageReconstructor hcall =>
      apply hreads.stop
      rfl
    next received messageReconstructor hcall =>
      exact hreads.reassemble hpoint hcall

theorem Reads.decode {ptr count : ℕ}
    (hpoint : thread.point = .decoding ptr count) :
    Reads stream (thread.decode ptr count) := by
  have hstop : Reads (stream ++ []) ⟨thread.receiver, .stopped⟩ :=
    hreads.stop rfl []
  rcases hreads with ⟨done, hdecoded, hgoing⟩
  rcases hgoing (by simp [hpoint]) with ⟨hall, hpending⟩
  have hfits := hdecoded.fits
  rw [left, hpoint] at hall hfits
  cases count with
  | zero => exact reads_of_goes hdecoded.read hfits ⟨hall, hpending⟩
  | succ count =>
      rw [ReceiverThread.decode]
      split
      next exception hfails =>
        rwa [List.append_nil] at hstop
      next message hmessage =>
        let buffer := thread.receiver.messageReconstructor.buffer
        let frame := Memory.bytes buffer ptr
          (GCMDDeserialiser.getMessageSize buffer ptr)
        let next : ReceiverThread :=
          ⟨thread.receiver.push message, .pushing message ptr count⟩
        have hframe : ReadFrom frame message := by
          refine ⟨buffer, ptr, ?_, hmessage⟩
          rw [Memory.Holds, Memory.length_bytes]
        have hqueue : List.Forall₂ ReadFrom (done ++ [frame])
            next.receiver.messageQueue :=
          List.rel_append hdecoded.read (.cons hframe .nil)
        have hnext : done ++ [frame] ++ next.left =
            done ++ framesAt buffer ptr (count + 1) :=
          List.append_assoc _ _ _
        refine reads_of_goes hqueue ?_ ⟨?_, hpending⟩
        · rw [hnext]
          exact hfits
        · rw [hnext]
          exact hall

theorem Reads.stepOver {message : MDMessage} {ptr count : ℕ}
    (hpoint : thread.point = .pushing message ptr count) :
    Reads stream (thread.stepOver ptr count) := by
  rcases hreads with ⟨done, hdecoded, hgoing⟩
  rcases hgoing (by simp [hpoint]) with ⟨hall, hpending⟩
  have hfits := hdecoded.fits
  rw [left, hpoint] at hall hfits
  exact reads_of_goes hdecoded.read hfits ⟨hall, hpending⟩

end Reads

end ReceiverThread

namespace InboundPipeline

/-- Every thread has been given the bytes that its connection received. -/
def Reads (events : List Event) (pipeline : InboundPipeline) : Prop :=
  ∀ connection, ReceiverThread.Reads (receivedOn connection events).flatten
    (pipeline.threads connection)

theorem dispatch_receivedOn (pipeline : InboundPipeline)
    (connection : Connection) (events : List Event) :
    receivedOn connection (events ++ pipeline.dispatch.2.toList) =
      receivedOn connection events := by
  unfold dispatch
  split
  · simp
  · split <;> simp
  · split <;> simp
  · rw [Option.toList_some, receivedOn_concat]
    exact List.append_nil _
  · simp

section Reads

variable {events : List Event} {pipeline : InboundPipeline}
  (hreads : pipeline.Reads events)
include hreads

theorem Reads.setThread {connection : Connection} {thread : ReceiverThread}
    (hthread : ReceiverThread.Reads
      (receivedOn connection events).flatten thread) :
    (pipeline.setThread connection thread).Reads events := by
  intro other
  by_cases hsame : other = connection
  · subst hsame
    rw [setThread_self]
    exact hthread
  · rw [setThread_other _ _ _ hsame]
    exact hreads other

theorem Reads.advance (capacity : ℕ) (connection : Connection) :
    (pipeline.advance capacity connection).Reads events := by
  rcases pipeline.advance_cases capacity connection with
    hsame | ⟨ptr, count, hpoint, hdecode⟩ |
      ⟨message, ptr, count, hpoint, -, hpush⟩
  · rw [hsame]
    exact hreads
  · rw [hdecode]
    exact hreads.setThread ((hreads connection).decode hpoint)
  · have hqueued : (pipeline.setQueue (pipeline.inboundMessageQueue ++
        [(connection, message)])).Reads events := hreads
    rw [hpush]
    exact hqueued.setThread ((hreads connection).stepOver hpoint)

theorem Reads.receive {connection : Connection}
    (hpoint : (pipeline.threads connection).point = .receiving)
    (networkBuffer : List UInt8) :
    (pipeline.setThread connection
        ((pipeline.threads connection).receive networkBuffer)).Reads
      (events ++ [.received connection networkBuffer]) := by
  intro other
  rw [receivedOn_concat]
  by_cases hsame : other = connection
  · subst hsame
    rw [setThread_self]
    simpa [Event.receivedOn?] using
      (hreads other).receive hpoint networkBuffer
  · rw [setThread_other _ _ _ hsame]
    simpa [Event.receivedOn?, Ne.symm hsame] using hreads other

theorem Reads.step (capacity : ℕ) (turn : Turn) :
    (step capacity pipeline turn).1.Reads
      (events ++ (step capacity pipeline turn).2.toList) := by
  have hignored : pipeline.Reads (events ++ (none : Option Event).toList) :=
    by rwa [Option.toList_none, List.append_nil]
  cases turn with
  | receive connection networkBuffer =>
      rcases pipeline.receive_cases capacity connection networkBuffer with
        hsame | ⟨hpoint, hreceive⟩
      · rw [hsame]
        exact hignored
      · rw [hreceive]
        exact hreads.receive hpoint networkBuffer
  | close connection =>
      rcases pipeline.close_cases capacity connection with
        hsame | ⟨-, hclose⟩
      · rw [hsame]
        exact hignored
      · rw [hclose, Option.toList_none, List.append_nil]
        apply hreads.setThread
        rw [← List.append_nil (receivedOn connection events).flatten]
        exact (hreads connection).stop rfl []
  | advance connection =>
      simpa [InboundPipeline.step] using hreads.advance capacity connection
  | dispatch =>
      intro connection
      have hthreads : pipeline.dispatch.1.threads = pipeline.threads := by
        unfold InboundPipeline.dispatch
        split
        · rfl
        · split <;> rfl
        · split <;> rfl
        · rfl
        · rfl
      have hsame := hreads connection
      rw [← pipeline.dispatch_receivedOn, ← hthreads] at hsame
      exact hsame
  | stop => exact hignored

end Reads

theorem after_reads (capacity : ℕ) (buffers : Connection → Memory)
    (lastHeartbeats : Connection → UInt64) (turns : List Turn) :
    (after capacity buffers lastHeartbeats turns).Reads
      (events capacity buffers lastHeartbeats turns) := by
  induction turns using List.reverseRecOn with
  | nil => exact fun _ => ReceiverThread.initial_reads _ _
  | append_singleton earlier turn ih =>
      rw [after, events, RunHistory.reduceOption_outputs_concat,
        RunHistory.exec_append]
      exact ih.step capacity turn

end InboundPipeline

namespace TradingPipeline

/-- What is known of a connection and its peer, whatever bytes the peer
sends. -/
structure HandlesFrames (stream : List UInt8) (pipeline : TradingPipeline)
    (connection : Connection) (handled : List MDMessage) : Prop where
  /-- Of its first frames one message each is handled. -/
  in_order : ∃ frames, frames <+: (framing.split stream).1 ∧
    List.Forall₂ ReadFrom frames handled
  /-- A receiver that asks for more bytes has read every complete frame. -/
  complete : (pipeline.inbound.threads connection).point = .receiving →
    List.Forall₂ ReadFrom (framing.split stream).1
      (handled ++ InboundPipeline.inFlight connection pipeline.inbound)

section Peer

variable {wiring : Wiring} {happened : List Happening}
  {pipeline : TradingPipeline}
  (hexplained : Explained wiring happened pipeline)
include hexplained

theorem Explained.reads (connection : Connection) :
    ReceiverThread.Reads (receivedOn connection happened).flatten
        (pipeline.inbound.threads connection) ∧
      (pipeline.inbound.threads connection).receiver.messageQueue =
        handledOn connection happened ++
          InboundPipeline.inFlight connection pipeline.inbound := by
  rcases hexplained.inbound with ⟨turns, hafter, hevents⟩
  have hreads := InboundPipeline.after_reads wiring.capacity
    wiring.receiverBuffers wiring.constructed turns connection
  have haccounted := (InboundPipeline.after_invariants wiring.capacity
    wiring.receiverBuffers wiring.constructed turns).1 connection
  rw [hevents, ← hafter] at hreads haccounted
  exact ⟨hreads, haccounted⟩

theorem Explained.handlesFrames (connection : Connection) :
    HandlesFrames (receivedOn connection happened).flatten pipeline
      connection (handledOn connection happened) := by
  rcases hexplained.reads connection with
    ⟨⟨done, hdecoded, hgoing⟩, hqueue⟩
  have hread := hdecoded.read
  rw [hqueue] at hread
  constructor
  · refine ⟨done.take (handledOn connection happened).length, ?_, ?_⟩
    · exact ((List.take_prefix _ done).trans
        (List.prefix_append done _)).trans hdecoded.first
    · have hfirst := List.forall₂_take
        (handledOn connection happened).length hread
      rwa [List.take_left] at hfirst
  · intro hpoint
    have hall := (hgoing (by simp [hpoint])).all
    rw [ReceiverThread.left, hpoint] at hall
    rw [← hall]
    simpa using hread

/-- If the bytes of a peer are frames of messages, however they are cut, the
messages handled are those that the first of them are read as. -/
theorem Explained.handledOn_isPrefix {connection : Connection}
    {messages : List MDMessage}
    (hreceived : (receivedOn connection happened).flatten <+:
      (messages.map GCMDSerialiser.frame).flatten) :
    handledOn connection happened <+:
      messages.map GCMDDeserialiser.decoded := by
  rcases (hexplained.handlesFrames connection).in_order with
    ⟨frames, hfirst, hread⟩
  rcases hreceived with ⟨later, hlater⟩
  have hframes : ∀ frame ∈ messages.map GCMDSerialiser.frame,
      framing.IsFrame frame := by
    simpa using fun message _ => isFrame_frame message
  exact readFrom_frames
    (hfirst.trans (framing.frames_isPrefix hframes hlater)) hread

end Peer

/-- Whatever bytes a peer sends, and however they are cut, the messages
handled are read from its first frames, one from each and in order, and none
is left out. -/
theorem any_bytes_handled (wiring : Wiring) (turns : List Turn)
    (connection : Connection) :
    HandlesFrames (receivedOn connection (happenings wiring turns)).flatten
      (after wiring turns) connection
      (handledOn connection (happenings wiring turns)) :=
  (after_explained wiring turns).handlesFrames connection

/-- A peer sends messages and then a header that announces more than the
buffer can hold.  Nothing behind these messages is handled, and the receiver
has stopped once more bytes behind them were received than the buffer
holds. -/
theorem oversized_frame_stops (wiring : Wiring) (turns : List Turn)
    (connection : Connection) {messages : List MDMessage}
    {header : FrameHeader}
    (hlarge : MessageReconstructor.bufferSize <
      FrameHeader.size + header.bodyLen.toNat) {later : List UInt8}
    (hreceived : (receivedOn connection (happenings wiring turns)).flatten <+:
      (messages.map GCMDSerialiser.frame).flatten ++
        (header.toBytes ++ later)) :
    handledOn connection (happenings wiring turns) <+:
        messages.map GCMDDeserialiser.decoded ∧
      ((messages.map GCMDSerialiser.frame).flatten.length +
          MessageReconstructor.bufferSize <
          (receivedOn connection (happenings wiring turns)).flatten.length →
        ((after wiring turns).inbound.threads connection).point =
          .stopped) := by
  have hexplained := after_explained wiring turns
  rcases hexplained.reads connection with
    ⟨⟨done, hdecoded, hgoing⟩, hqueue⟩
  have hframes : ∀ frame ∈ messages.map GCMDSerialiser.frame,
      framing.IsFrame frame := by
    simpa using fun message _ => isFrame_frame message
  have hlong : framing.frameLength (header.toBytes ++ later) =
      some (FrameHeader.size + header.bodyLen.toNat) := by
    rw [framing, frameLength_eq_some_iff, List.length_append,
      FrameHeader.length_toBytes]
    refine ⟨Nat.le_add_right _ _, ?_⟩
    rw [FrameHeader.toBytes, List.append_assoc,
      List.take_left' (length_uint16Bytes _), uint16Bytes,
      decode_encode_of_lt (UInt16.toNat_lt _)]
  have hfound := framing.found_isPrefix hframes hlong hlarge hreceived
    hdecoded.first hdecoded.fits
  constructor
  · have hread := readFrom_frames
      ((List.prefix_append done _).trans hfound) hdecoded.read
    rw [hqueue] at hread
    exact (List.prefix_append _ _).trans hread
  · intro hmore
    by_contra hgoes
    rcases hgoing hgoes with ⟨hall, hpending⟩
    have hsize := hpending.size_eq
    have hbounded := hpending.bounded
    have hlength := congrArg List.length (framing.flatten_split
      (receivedOn connection (happenings wiring turns)).flatten)
    rw [← hall, List.length_append] at hlength
    have hshort := hfound.flatten.length_le
    omega

/-- A heartbeat is handled before a header for 60000 bytes and 2045 bytes of
its frame arrive. -/
theorem oversized_frame_stops_heartbeat :
    let turns : List Turn :=
      [.receive .md (GCMDSerialiser.frame (.heartbeat ⟨5⟩)),
        .advance .md, .advance .md, .advance .md, .dispatch ⟨5, 5, 5⟩,
        .dispatch ⟨5, 5, 5⟩, .dispatch ⟨5, 5, 5⟩, .dispatch ⟨5, 5, 5⟩,
        .receive .md
          (FrameHeader.toBytes ⟨60000, 3, 1⟩ ++ List.replicate 2045 0)]
    handledOn .md (happenings sampleWiring turns) <+: [.heartbeat ⟨5⟩] ∧
      (handledOn .md (happenings sampleWiring turns)).length = 1 ∧
        ((after sampleWiring turns).inbound.threads .md).point =
          .stopped := by
  intro turns
  let messages : List MDMessage := [.heartbeat ⟨5⟩]
  let header : FrameHeader := ⟨60000, 3, 1⟩
  have hreceived : (receivedOn .md (happenings sampleWiring turns)).flatten =
      (messages.map GCMDSerialiser.frame).flatten ++
        (header.toBytes ++ List.replicate 2045 0) := by decide +kernel
  have hlarge : MessageReconstructor.bufferSize <
      FrameHeader.size + header.bodyLen.toNat := by decide
  have hfirst : (receivedOn .md (happenings sampleWiring turns)).flatten <+:
      (messages.map GCMDSerialiser.frame).flatten ++
        (header.toBytes ++ List.replicate 2045 0) := by
    rw [hreceived]
  obtain ⟨hhandled, hstops⟩ :=
    oversized_frame_stops sampleWiring turns .md hlarge hfirst
  refine ⟨hhandled, by decide +kernel, hstops ?_⟩
  rw [hreceived]
  decide +kernel

end TradingPipeline

end Slipstream
