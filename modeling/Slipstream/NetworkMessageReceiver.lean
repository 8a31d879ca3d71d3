import Slipstream.MessageReconstructor

/-!
# The network message receiver

One step of the receive loop takes the bytes that the connection delivered,
lets the reconstructor find the complete frames, and decodes them one after
the other, stepping by the size each header states.  Decoded messages are
pushed to the inbound queue, which is taken to accept each push in the end.

Cutting a sequence of frames into chunks that leave room for one pending
frame loses nothing: every message is pushed once and in order.
-/

namespace Slipstream

open PackedBytes

structure NetworkMessageReceiver where
  messageReconstructor : MessageReconstructor
  lastHeartbeat : UInt64
  /-- The messages pushed so far, in order. -/
  messageQueue : List MDMessage

namespace NetworkMessageReceiver

def initial (buffer : Memory) (lastHeartbeat : UInt64) :
    NetworkMessageReceiver where
  messageReconstructor := MessageReconstructor.initial buffer
  lastHeartbeat := lastHeartbeat
  messageQueue := []

/-- The heartbeat bookkeeping of `tryReceive`, and its push. -/
def push (receiver : NetworkMessageReceiver) (message : MDMessage) :
    NetworkMessageReceiver :=
  { receiver with
    lastHeartbeat :=
      match message with
      | .heartbeat hb =>
          if hb.timestamp > receiver.lastHeartbeat then hb.timestamp
          else receiver.lastHeartbeat
      | _ => receiver.lastHeartbeat
    messageQueue := receiver.messageQueue ++ [message] }

/-- The `for` loop of `tryReceive`: decode `count` messages from `ptr` on. -/
def deliver (memory : Memory) : ℕ → ℕ → NetworkMessageReceiver →
    Outcome NetworkMessageReceiver Unit
  | _, 0, receiver => (.ok (), receiver)
  | ptr, count + 1, receiver =>
      match GCMDDeserialiser.deserialiseMessage memory ptr with
      | .error exception => (.error exception, receiver)
      | .ok message =>
          deliver memory (ptr + GCMDDeserialiser.getMessageSize memory ptr)
            count (receiver.push message)

/-- `networkBuffer` holds the bytes that `receiveBuffer` delivered.  A null
`start` comes with no messages, so the loop is not entered. -/
def tryReceive (receiver : NetworkMessageReceiver)
    (networkBuffer : List UInt8) : Outcome NetworkMessageReceiver Unit :=
  if networkBuffer.length = 0 then (.ok (), receiver)
  else
    match receiver.messageReconstructor.recieve networkBuffer with
    | (.error exception, messageReconstructor) =>
        (.error exception,
          { receiver with messageReconstructor := messageReconstructor })
    | (.ok received, messageReconstructor) =>
        let receiver :=
          { receiver with messageReconstructor := messageReconstructor }
        match received.start with
        | none => (.ok (), receiver)
        | some ptr =>
            deliver messageReconstructor.buffer ptr received.messagesCount
              receiver

/-! ## Decoding the reported frames -/

@[simp] theorem push_messageQueue (receiver : NetworkMessageReceiver)
    (message : MDMessage) :
    (receiver.push message).messageQueue =
      receiver.messageQueue ++ [message] := rfl

@[simp] theorem push_messageReconstructor
    (receiver : NetworkMessageReceiver) (message : MDMessage) :
    (receiver.push message).messageReconstructor =
      receiver.messageReconstructor := rfl

theorem foldl_push_messageQueue (receiver : NetworkMessageReceiver)
    (messages : List MDMessage) :
    (messages.foldl push receiver).messageQueue =
      receiver.messageQueue ++ messages := by
  induction messages generalizing receiver with
  | nil => simp
  | cons message rest ih => simp [ih]

theorem foldl_push_messageReconstructor (receiver : NetworkMessageReceiver)
    (messages : List MDMessage) :
    (messages.foldl push receiver).messageReconstructor =
      receiver.messageReconstructor := by
  induction messages generalizing receiver with
  | nil => rfl
  | cons message rest ih => simp [ih]

/-- A message that its decoder gives back; session control is not one. -/
def Decodes (message : MDMessage) : Prop :=
  GCMDSerialiser.messageType message ≠ .sessionControl

theorem deliver_frames {memory : Memory} {ptr : ℕ}
    {messages : List MDMessage} (hkinds : ∀ message ∈ messages,
      Decodes message) (receiver : NetworkMessageReceiver)
    (hframes : framesAt memory ptr messages.length =
      messages.map GCMDSerialiser.frame) :
    deliver memory ptr messages.length receiver =
      (.ok (), messages.foldl push receiver) := by
  induction messages generalizing ptr receiver with
  | nil => rfl
  | cons message rest ih =>
      rw [List.length_cons, framesAt, List.map_cons, List.cons.injEq]
        at hframes
      rcases hframes with ⟨hfirst, hrest⟩
      have hlength := congrArg List.length hfirst
      rw [Memory.length_bytes] at hlength
      have hholds : memory.Holds ptr (GCMDSerialiser.frame message) := by
        rw [Memory.Holds, ← hlength, hfirst]
      have hdecoded := GCMDDeserialiser.deserialiseMessage_of_holds hholds
        (hkinds message List.mem_cons_self)
      rw [List.length_cons, deliver, hdecoded]
      exact ih (fun other hother =>
        hkinds other (List.mem_cons_of_mem message hother)) _ hrest

theorem tryReceive_of_frames {receiver : NetworkMessageReceiver}
    {networkBuffer : List UInt8} (hnonempty : networkBuffer ≠ [])
    {received : MessagesRecieved}
    (hresult : (receiver.messageReconstructor.recieve networkBuffer).1 =
      .ok received)
    {messages : List MDMessage} (hkinds : ∀ message ∈ messages,
      Decodes message)
    (hframes : received.frames
      (receiver.messageReconstructor.recieve networkBuffer).2.buffer =
        messages.map GCMDSerialiser.frame) :
    receiver.tryReceive networkBuffer =
      (.ok (), messages.foldl push
        { receiver with
          messageReconstructor :=
            (receiver.messageReconstructor.recieve networkBuffer).2 }) := by
  have hlength : ¬ networkBuffer.length = 0 := by
    rwa [List.length_eq_zero_iff]
  cases hcall : receiver.messageReconstructor.recieve networkBuffer with
  | mk result messageReconstructor =>
      rw [hcall] at hresult hframes
      dsimp only at hresult hframes
      cases hstart : received.start with
      | none =>
          simp only [MessagesRecieved.frames, hstart] at hframes
          simp only [tryReceive, if_neg hlength, hcall, hresult, hstart]
          rw [List.map_eq_nil_iff.mp hframes.symm, List.foldl_nil]
      | some ptr =>
          simp only [MessagesRecieved.frames, hstart] at hframes
          have hcount := congrArg List.length hframes
          rw [length_framesAt, List.length_map] at hcount
          rw [hcount] at hframes
          simp only [tryReceive, if_neg hlength, hcall, hresult, hstart,
            hcount]
          exact deliver_frames hkinds _ hframes

/-! ## The inbound pipeline -/

def receive (receiver : NetworkMessageReceiver) (chunk : List UInt8) :
    NetworkMessageReceiver × Except Exception Unit :=
  let outcome := receiver.tryReceive chunk
  (outcome.2, outcome.1)

def after (receiver : NetworkMessageReceiver)
    (chunks : List (List UInt8)) : NetworkMessageReceiver :=
  RunHistory.exec receive receiver chunks

def results (receiver : NetworkMessageReceiver)
    (chunks : List (List UInt8)) : List (Except Exception Unit) :=
  RunHistory.outputs receive receiver chunks

/-- A receiver that has taken in the bytes of `stream`, which are the first
bytes of the frames of `messages`. -/
structure Progress (messages : List MDMessage) (stream : List UInt8)
    (receiver : NetworkMessageReceiver) : Prop where
  pending : MessageReconstructor.Pending receiver.messageReconstructor
    (framing.split stream).2
  queued : receiver.messageQueue.map GCMDSerialiser.frame =
    (framing.split stream).1
  queue_isPrefix : receiver.messageQueue <+: messages

/-- Room for one pending frame is all that a chunk must leave. -/
def maxChunkSize : ℕ :=
  MessageReconstructor.bufferSize - (GCMDSerialiser.maxFrameSize - 1)

theorem initial_progress (messages : List MDMessage) (buffer : Memory)
    (lastHeartbeat : UInt64) :
    Progress messages [] (initial buffer lastHeartbeat) where
  pending := by
    rw [framing.split_nil]
    exact MessageReconstructor.initial_pending buffer
  queued := by
    rw [framing.split_nil]
    rfl
  queue_isPrefix := List.nil_prefix

section Chunk

variable {messages : List MDMessage} {stream chunk later : List UInt8}
  {receiver : NetworkMessageReceiver}

theorem forall_isFrame (messages : List MDMessage) :
    ∀ frame ∈ messages.map GCMDSerialiser.frame, framing.IsFrame frame := by
  simpa using fun message _ => isFrame_frame message

theorem chunk_fits
    (hstream : stream ++ chunk ++ later =
      (messages.map GCMDSerialiser.frame).flatten)
    (hsize : chunk.length ≤ maxChunkSize) :
    ¬ MessageReconstructor.bufferSize <
      (framing.split stream).2.length + chunk.length := by
  have hbound : ∀ frame ∈ messages.map GCMDSerialiser.frame,
      frame.length ≤ GCMDSerialiser.maxFrameSize := by
    simpa using fun message _ => GCMDSerialiser.length_frame_le message
  have hwhole : stream ++ (chunk ++ later) =
      (messages.map GCMDSerialiser.frame).flatten := by
    rw [← List.append_assoc, hstream]
  have hshort := framing.length_pending_lt (forall_isFrame messages) hbound
    (by decide) hwhole
  have hmax : GCMDSerialiser.maxFrameSize = 48 := rfl
  simp only [maxChunkSize, MessageReconstructor.bufferSize, hmax]
    at hshort hsize ⊢
  omega

/-- The frames that a chunk completes are those of the next messages. -/
theorem Progress.arrived (hprogress : Progress messages stream receiver)
    (hstream : stream ++ chunk ++ later =
      (messages.map GCMDSerialiser.frame).flatten) :
    ∃ arrived, receiver.messageQueue ++ arrived <+: messages ∧
      (framing.feed (framing.split stream).2 chunk).2 =
        arrived.map GCMDSerialiser.frame := by
  have hfirst := framing.frames_isPrefix (forall_isFrame messages) hstream
  have hqueue : ∃ rest, receiver.messageQueue ++ rest = messages :=
    hprogress.queue_isPrefix
  rcases hqueue with ⟨rest, hrest⟩
  have hnew : (framing.feed (framing.split stream).2 chunk).2 <+:
      rest.map GCMDSerialiser.frame := by
    rw [framing.split_append stream chunk, ← hprogress.queued, ← hrest,
      List.map_append, List.prefix_append_right_inj] at hfirst
    exact hfirst
  obtain ⟨arrived, harrived, hmap⟩ := List.prefix_map_iff.mp hnew
  refine ⟨arrived, ?_, hmap⟩
  rw [← hrest]
  exact (List.prefix_append_right_inj _).mpr harrived

theorem Progress.receive (hprogress : Progress messages stream receiver)
    (hkinds : ∀ message ∈ messages, Decodes message)
    (hstream : stream ++ chunk ++ later =
      (messages.map GCMDSerialiser.frame).flatten)
    (hnonempty : chunk ≠ []) (hsize : chunk.length ≤ maxChunkSize) :
    (receiver.receive chunk).2 = .ok () ∧
      Progress messages (stream ++ chunk) (receiver.receive chunk).1 := by
  obtain ⟨arrived, hbegins, hmap⟩ := hprogress.arrived hstream
  have hcall := hprogress.pending.recieve chunk
  rw [if_neg (chunk_fits hstream hsize)] at hcall
  rcases hcall with ⟨received, hresult, hreported, hleft⟩
  have hdecodes : ∀ message ∈ arrived, Decodes message := by
    intro message hmessage
    exact hkinds message
      (hbegins.subset (List.mem_append_right _ hmessage))
  have hstep := tryReceive_of_frames hnonempty hresult hdecodes
    (hreported.trans hmap)
  have hcut := framing.split_append stream chunk
  rw [NetworkMessageReceiver.receive, hstep]
  refine ⟨rfl, ?_, ?_, ?_⟩
  · rw [foldl_push_messageReconstructor, hcut]
    exact hleft
  · rw [foldl_push_messageQueue, List.map_append, hprogress.queued, ← hmap,
      hcut]
    rfl
  · rw [foldl_push_messageQueue]
    exact hbegins

end Chunk

theorem after_progress {messages : List MDMessage}
    {chunks : List (List UInt8)}
    (hkinds : ∀ message ∈ messages, Decodes message)
    (hcut : chunks.flatten =
      (messages.map GCMDSerialiser.frame).flatten)
    (hchunks : ∀ chunk ∈ chunks,
      chunk ≠ [] ∧ chunk.length ≤ maxChunkSize)
    (buffer : Memory) (lastHeartbeat : UInt64)
    {before : List (List UInt8)} (hpre : before <+: chunks) :
    (∀ result ∈ results (initial buffer lastHeartbeat) before,
        result = .ok ()) ∧
      Progress messages before.flatten
        (after (initial buffer lastHeartbeat) before) := by
  induction before using List.reverseRecOn with
  | nil => exact ⟨by simp [results],
      initial_progress messages buffer lastHeartbeat⟩
  | append_singleton earlier chunk ih =>
      rcases ih ((List.prefix_append earlier [chunk]).trans hpre) with
        ⟨hresults, hprogress⟩
      have hchunk := hchunks chunk (hpre.subset (by simp))
      rcases hpre with ⟨later, hlater⟩
      have hstream : earlier.flatten ++ chunk ++ later.flatten =
          (messages.map GCMDSerialiser.frame).flatten := by
        rw [← hcut, ← hlater]
        simp
      rcases hprogress.receive hkinds hstream hchunk.1 hchunk.2 with
        ⟨hok, hnext⟩
      constructor
      · intro result hresult
        rw [results, RunHistory.outputs_append, List.mem_append] at hresult
        rcases hresult with hold | hnew
        · exact hresults result hold
        · rw [List.mem_singleton.mp hnew]
          exact hok
      · rw [List.flatten_append, List.flatten_singleton]
        simpa [after] using hnext

/-- However the frames of a list of quotes, trades and heartbeats are cut
into chunks of at most `2001` bytes, receiving the chunks pushes exactly
that list, throws nothing and leaves no byte pending. -/
theorem inbound_round_trip (messages : List MDMessage)
    (chunks : List (List UInt8)) (buffer : Memory) (lastHeartbeat : UInt64)
    (hkinds : ∀ message ∈ messages,
      (∃ quote, message = .quote quote) ∨ (∃ trade, message = .trade trade) ∨
        ∃ heartbeat, message = .heartbeat heartbeat)
    (hcut : chunks.flatten =
      (messages.map GCMDSerialiser.frame).flatten)
    (hchunks : ∀ chunk ∈ chunks, chunk ≠ [] ∧ chunk.length ≤ 2001) :
    (∀ result ∈ results (initial buffer lastHeartbeat) chunks,
        result = .ok ()) ∧
      (after (initial buffer lastHeartbeat) chunks).messageQueue =
        messages ∧
      (after (initial buffer lastHeartbeat)
        chunks).messageReconstructor.size = 0 := by
  have hdecodes : ∀ message ∈ messages, Decodes message := by
    intro message hmessage
    rcases hkinds message hmessage with
      ⟨quote, rfl⟩ | ⟨trade, rfl⟩ | ⟨heartbeat, rfl⟩ <;>
      simp [Decodes, GCMDSerialiser.messageType]
  rcases after_progress hdecodes hcut hchunks
      buffer lastHeartbeat (List.prefix_refl chunks) with
    ⟨hresults, hprogress⟩
  have hwhole : framing.split chunks.flatten =
      (messages.map GCMDSerialiser.frame, []) := by
    rw [hcut]
    exact framing.split_flatten (forall_isFrame messages)
  have hqueued := hprogress.queued
  have hsize := hprogress.pending.size_eq
  rw [hwhole] at hqueued hsize
  refine ⟨hresults, hprogress.queue_isPrefix.eq_of_length ?_, hsize⟩
  simpa using congrArg List.length hqueued

theorem inbound_round_trip_three_chunks :
    let trade : MDMessage :=
      .trade
        { symbol := List.Vector.replicate 12 65
          timestampNs := 1000, quantity := 7, price := -90
          aggressor := .sell, id := 3 }
    let chunks := [[8, 0, 3],
      [1, 5, 0, 0, 0, 0, 0, 0, 0] ++ (GCMDSerialiser.frame trade).take 2,
      (GCMDSerialiser.frame trade).drop 2]
    let receiver := after (initial (fun _ => 0) 0) chunks
    receiver.messageQueue = [.heartbeat ⟨5⟩, trade] ∧
      receiver.messageReconstructor.size = 0 := by
  intro trade chunks receiver
  have hround := inbound_round_trip [.heartbeat ⟨5⟩, trade] chunks
    (fun _ => 0) 0 (by simp [trade]) (by decide) (by decide)
  exact hround.2

end NetworkMessageReceiver

end Slipstream
