import Slipstream.BoundedFifo
import Slipstream.NetworkMessageReceiver

/-!
# Delivery from the connections to the dispatcher

The receivers of the market-data and the order-entry connection decode
messages and push them to one inbound queue, trying again while it is full.
The dispatcher tests the queue, pops a message and hands it over.  The three
threads take their steps in any order; `push`, `pop` and `empty` of the
bounded queue are single steps.

A message that has been decoded is waiting in a retry loop, queued, in the
hand of the dispatcher, or handled.  For each connection these places hold
the decoded messages in order.
-/

namespace Slipstream

open PackedBytes

inductive Connection where
  | md
  | oe
  deriving DecidableEq, Repr

/-- What `tryReceive` does next; `count` messages are left to decode.  A
thread that `run` has left is stopped. -/
inductive ReceivePoint where
  | receiving
  | decoding (ptr count : ℕ)
  | pushing (message : MDMessage) (ptr count : ℕ)
  | stopped

/-- A receiver with its thread.  The messages recorded in the receiver are
here those it has decoded, from the moment its push loop is entered. -/
structure ReceiverThread where
  receiver : NetworkMessageReceiver
  point : ReceivePoint

namespace ReceiverThread

def initial (buffer : Memory) (lastHeartbeat : UInt64) : ReceiverThread where
  receiver := NetworkMessageReceiver.initial buffer lastHeartbeat
  point := .receiving

/-- `tryReceive` up to its loop, for the bytes that the connection gives.
An exception ends the loop of `run`. -/
def receive (thread : ReceiverThread) (networkBuffer : List UInt8) :
    ReceiverThread :=
  if networkBuffer.length = 0 then thread
  else
    match thread.receiver.messageReconstructor.recieve networkBuffer with
    | (.error _, messageReconstructor) =>
        { receiver :=
            { thread.receiver with
              messageReconstructor := messageReconstructor }
          point := .stopped }
    | (.ok received, messageReconstructor) =>
        { receiver :=
            { thread.receiver with
              messageReconstructor := messageReconstructor }
          point :=
            match received.start with
            | none => .receiving
            | some ptr => .decoding ptr received.messagesCount }

/-- The head of the loop of `tryReceive` and the decoding in it. -/
def decode (thread : ReceiverThread) (ptr : ℕ) : ℕ → ReceiverThread
  | 0 => { thread with point := .receiving }
  | count + 1 =>
      match GCMDDeserialiser.deserialiseMessage
          thread.receiver.messageReconstructor.buffer ptr with
      | .error _ => { thread with point := .stopped }
      | .ok message =>
          { receiver := thread.receiver.push message
            point := .pushing message ptr count }

/-- The message that was pushed is stepped over. -/
def stepOver (thread : ReceiverThread) (ptr count : ℕ) : ReceiverThread :=
  { thread with
    point := .decoding
      (ptr + GCMDDeserialiser.getMessageSize
        thread.receiver.messageReconstructor.buffer ptr) count }

/-- The message of a push that has not succeeded yet. -/
def waiting (thread : ReceiverThread) : List MDMessage :=
  match thread.point with
  | .pushing message _ _ => [message]
  | _ => []

theorem decode_messageQueue (thread : ReceiverThread) (ptr count : ℕ) :
    (thread.decode ptr count).receiver.messageQueue =
      thread.receiver.messageQueue ++ (thread.decode ptr count).waiting := by
  cases count with
  | zero => simp [decode, waiting]
  | succ count =>
      cases hmessage : GCMDDeserialiser.deserialiseMessage
          thread.receiver.messageReconstructor.buffer ptr with
      | error exception => simp [decode, waiting, hmessage]
      | ok message => simp [decode, waiting, hmessage]

theorem receive_messageQueue (thread : ReceiverThread)
    (networkBuffer : List UInt8) :
    (thread.receive networkBuffer).receiver.messageQueue =
      thread.receiver.messageQueue := by
  unfold receive
  split
  · rfl
  · split <;> rfl

theorem receive_waiting {thread : ReceiverThread}
    (hpoint : thread.point = .receiving) (networkBuffer : List UInt8) :
    (thread.receive networkBuffer).waiting = [] := by
  unfold receive
  split
  · rw [waiting, hpoint]
  · split
    · rfl
    · unfold waiting
      dsimp only
      split
      next hpushing => split at hpushing <;> contradiction
      next => rfl

/-- The receiver once the frames reported by the last `recieve` are decoded
and pushed. -/
def finished (thread : ReceiverThread) : NetworkMessageReceiver :=
  let buffer := thread.receiver.messageReconstructor.buffer
  match thread.point with
  | .receiving => thread.receiver
  | .decoding ptr count =>
      (NetworkMessageReceiver.deliver buffer ptr count thread.receiver).2
  | .pushing _ ptr count =>
      (NetworkMessageReceiver.deliver buffer
        (ptr + GCMDDeserialiser.getMessageSize buffer ptr) count
        thread.receiver).2
  | .stopped => thread.receiver

theorem decode_finished (thread : ReceiverThread) (ptr count : ℕ) :
    (thread.decode ptr count).finished =
      (NetworkMessageReceiver.deliver
        thread.receiver.messageReconstructor.buffer ptr count
        thread.receiver).2 := by
  cases count with
  | zero => rfl
  | succ count =>
      cases hmessage : GCMDDeserialiser.deserialiseMessage
          thread.receiver.messageReconstructor.buffer ptr with
      | error exception =>
          simp [decode, finished, NetworkMessageReceiver.deliver, hmessage]
      | ok message =>
          simp [decode, finished, NetworkMessageReceiver.deliver, hmessage]

theorem receive_finished {thread : ReceiverThread}
    (hpoint : thread.point = .receiving) (networkBuffer : List UInt8) :
    (thread.receive networkBuffer).finished =
      (thread.receiver.receive networkBuffer).1 := by
  have hidle : thread.finished = thread.receiver := by
    simp only [finished, hpoint]
  unfold receive NetworkMessageReceiver.receive
    NetworkMessageReceiver.tryReceive
  by_cases hempty : networkBuffer.length = 0
  · rw [if_pos hempty, if_pos hempty]
    exact hidle
  · rw [if_neg hempty, if_neg hempty]
    cases hcall : thread.receiver.messageReconstructor.recieve
        networkBuffer with
    | mk result messageReconstructor =>
        cases result with
        | error exception => rfl
        | ok received => cases hstart : received.start <;>
            simp [finished, hstart]

theorem deliver_isPrefix (memory : Memory) (ptr count : ℕ)
    (receiver : NetworkMessageReceiver) :
    receiver.messageQueue <+:
      (NetworkMessageReceiver.deliver memory ptr count
        receiver).2.messageQueue := by
  induction count generalizing ptr receiver with
  | zero => exact List.prefix_rfl
  | succ count ih =>
      rw [NetworkMessageReceiver.deliver]
      split
      next => exact List.prefix_rfl
      next message hmessage =>
        exact (List.prefix_append _ [message]).trans
          (ih _ (receiver.push message))

theorem decoded_isPrefix (thread : ReceiverThread) :
    thread.receiver.messageQueue <+: thread.finished.messageQueue := by
  unfold finished
  dsimp only
  split
  next => exact List.prefix_rfl
  next => exact deliver_isPrefix _ _ _ _
  next => exact deliver_isPrefix _ _ _ _
  next => exact List.prefix_rfl

end ReceiverThread

/-- What `MessageDeMultiplexer::run` does next. -/
inductive DispatchPoint where
  | checking
  | testing
  | popping
  | handling (connection : Connection) (message : MDMessage)
  | stopped

/-- The objects of the three threads.  In the queue each message carries the
connection it came from, which the program does not store. -/
structure InboundPipeline where
  threads : Connection → ReceiverThread
  inboundMessageQueue : List (Connection × MDMessage)
  dispatcher : DispatchPoint
  shouldStop : Bool

namespace InboundPipeline

open BoundedFifo

def initial (buffers : Connection → Memory)
    (lastHeartbeats : Connection → UInt64) : InboundPipeline where
  threads connection :=
    ReceiverThread.initial (buffers connection) (lastHeartbeats connection)
  inboundMessageQueue := []
  dispatcher := .checking
  shouldStop := false

/-- A receiver is given bytes, leaves its loop, or takes another step; the
dispatcher takes a step; or the destructor tells the dispatcher to stop. -/
inductive Turn where
  | receive (connection : Connection) (networkBuffer : List UInt8)
  | close (connection : Connection)
  | advance (connection : Connection)
  | dispatch
  | stop

inductive Event where
  | received (connection : Connection) (networkBuffer : List UInt8)
  | handled (connection : Connection) (message : MDMessage)

def setThread (pipeline : InboundPipeline) (connection : Connection)
    (thread : ReceiverThread) : InboundPipeline :=
  { pipeline with
    threads := Function.update pipeline.threads connection thread }

def setQueue (pipeline : InboundPipeline)
    (queue : List (Connection × MDMessage)) : InboundPipeline :=
  { pipeline with inboundMessageQueue := queue }

def advance (capacity : ℕ) (pipeline : InboundPipeline)
    (connection : Connection) : InboundPipeline :=
  let thread := pipeline.threads connection
  match thread.point with
  | .receiving => pipeline
  | .decoding ptr count =>
      pipeline.setThread connection (thread.decode ptr count)
  | .pushing message ptr count =>
      match push capacity pipeline.inboundMessageQueue
          (connection, message) with
      | (false, _) => pipeline
      | (true, queue) =>
          (pipeline.setQueue queue).setThread connection
            (thread.stepOver ptr count)
  | .stopped => pipeline

def dispatch (pipeline : InboundPipeline) :
    InboundPipeline × Option Event :=
  match pipeline.dispatcher with
  | .checking =>
      ({ pipeline with
          dispatcher := if pipeline.shouldStop then .stopped else .testing },
        none)
  | .testing =>
      if pipeline.inboundMessageQueue.isEmpty then (pipeline, none)
      else ({ pipeline with dispatcher := .popping }, none)
  | .popping =>
      match pop pipeline.inboundMessageQueue with
      | (none, queue) =>
          ({ pipeline with
              inboundMessageQueue := queue
              dispatcher := .checking }, none)
      | (some (connection, message), queue) =>
          ({ pipeline with
              inboundMessageQueue := queue
              dispatcher := .handling connection message }, none)
  | .handling connection message =>
      ({ pipeline with dispatcher := .checking },
        some (.handled connection message))
  | .stopped => (pipeline, none)

def step (capacity : ℕ) (pipeline : InboundPipeline) :
    Turn → InboundPipeline × Option Event
  | .receive connection networkBuffer =>
      let thread := pipeline.threads connection
      match thread.point with
      | .receiving =>
          (pipeline.setThread connection (thread.receive networkBuffer),
            some (.received connection networkBuffer))
      | _ => (pipeline, none)
  | .close connection =>
      let thread := pipeline.threads connection
      match thread.point with
      | .receiving =>
          (pipeline.setThread connection { thread with point := .stopped },
            none)
      | _ => (pipeline, none)
  | .advance connection => (pipeline.advance capacity connection, none)
  | .dispatch => pipeline.dispatch
  | .stop => ({ pipeline with shouldStop := true }, none)

section Run

variable (capacity : ℕ) (buffers : Connection → Memory)
  (lastHeartbeats : Connection → UInt64) (turns : List Turn)

def after : InboundPipeline :=
  RunHistory.exec (step capacity) (initial buffers lastHeartbeats) turns

def events : List Event :=
  (RunHistory.outputs (step capacity) (initial buffers lastHeartbeats)
    turns).reduceOption

end Run

/-! ## Messages of one connection -/

def Event.handledOn? (connection : Connection) : Event → Option MDMessage
  | .handled origin message =>
      if origin = connection then some message else none
  | .received _ _ => none

def Event.receivedOn? (connection : Connection) :
    Event → Option (List UInt8)
  | .received origin networkBuffer =>
      if origin = connection then some networkBuffer else none
  | .handled _ _ => none

def handledOn (connection : Connection) (events : List Event) :
    List MDMessage :=
  events.filterMap (Event.handledOn? connection)

def receivedOn (connection : Connection) (events : List Event) :
    List (List UInt8) :=
  events.filterMap (Event.receivedOn? connection)

def ofConnection (connection : Connection)
    (messages : List (Connection × MDMessage)) : List MDMessage :=
  messages.filterMap fun entry =>
    if entry.1 = connection then some entry.2 else none

def inHand (pipeline : InboundPipeline) : List (Connection × MDMessage) :=
  match pipeline.dispatcher with
  | .handling connection message => [(connection, message)]
  | _ => []

def decodedOn (connection : Connection) (pipeline : InboundPipeline) :
    List MDMessage :=
  (pipeline.threads connection).receiver.messageQueue

/-- The decoded messages that are not handled yet, oldest first. -/
def inFlight (connection : Connection) (pipeline : InboundPipeline) :
    List MDMessage :=
  ofConnection connection
      (pipeline.inHand ++ pipeline.inboundMessageQueue) ++
    (pipeline.threads connection).waiting

/-- Every decoded message is in one place. -/
def Accounted (events : List Event) (pipeline : InboundPipeline) : Prop :=
  ∀ connection, pipeline.decodedOn connection =
    handledOn connection events ++ pipeline.inFlight connection

theorem handledOn_concat (connection : Connection) (events : List Event)
    (event : Event) :
    handledOn connection (events ++ [event]) =
      handledOn connection events ++
        (event.handledOn? connection).toList := by
  rw [handledOn, List.filterMap_append, List.filterMap_cons,
    List.filterMap_nil]
  cases event.handledOn? connection <;> rfl

theorem receivedOn_concat (connection : Connection) (events : List Event)
    (event : Event) :
    receivedOn connection (events ++ [event]) =
      receivedOn connection events ++
        (event.receivedOn? connection).toList := by
  rw [receivedOn, List.filterMap_append, List.filterMap_cons,
    List.filterMap_nil]
  cases event.receivedOn? connection <;> rfl

theorem ofConnection_append (connection : Connection)
    (first second : List (Connection × MDMessage)) :
    ofConnection connection (first ++ second) =
      ofConnection connection first ++ ofConnection connection second :=
  List.filterMap_append

theorem ofConnection_same (connection : Connection) (message : MDMessage) :
    ofConnection connection [(connection, message)] = [message] := by
  simp [ofConnection]

theorem ofConnection_other {connection other : Connection}
    (hother : other ≠ connection) (message : MDMessage) :
    ofConnection connection [(other, message)] = [] := by
  simp [ofConnection, hother]

section Fields

variable (pipeline : InboundPipeline) (connection : Connection)
  (thread : ReceiverThread) (queue : List (Connection × MDMessage))

@[simp] theorem setThread_self :
    (pipeline.setThread connection thread).threads connection = thread :=
  Function.update_self _ _ _

theorem setThread_other {other : Connection} (hother : other ≠ connection) :
    (pipeline.setThread connection thread).threads other =
      pipeline.threads other :=
  Function.update_of_ne hother _ _

@[simp] theorem setThread_queue :
    (pipeline.setThread connection thread).inboundMessageQueue =
      pipeline.inboundMessageQueue := rfl

@[simp] theorem setThread_inHand :
    (pipeline.setThread connection thread).inHand = pipeline.inHand := rfl

@[simp] theorem setQueue_threads :
    (pipeline.setQueue queue).threads = pipeline.threads := rfl

@[simp] theorem setQueue_queue :
    (pipeline.setQueue queue).inboundMessageQueue = queue := rfl

@[simp] theorem setQueue_inHand :
    (pipeline.setQueue queue).inHand = pipeline.inHand := rfl

end Fields

section Turns

variable (capacity : ℕ) (pipeline : InboundPipeline)
  (connection : Connection)

theorem advance_cases :
    pipeline.advance capacity connection = pipeline ∨
      (∃ ptr count,
        (pipeline.threads connection).point = .decoding ptr count ∧
          pipeline.advance capacity connection =
            pipeline.setThread connection
              ((pipeline.threads connection).decode ptr count)) ∨
      ∃ message ptr count,
        (pipeline.threads connection).point = .pushing message ptr count ∧
          pipeline.inboundMessageQueue.length < capacity ∧
          pipeline.advance capacity connection =
            (pipeline.setQueue (pipeline.inboundMessageQueue ++
              [(connection, message)])).setThread connection
                ((pipeline.threads connection).stepOver ptr count) := by
  cases hpoint : (pipeline.threads connection).point with
  | receiving => exact .inl (by simp only [advance, hpoint])
  | stopped => exact .inl (by simp only [advance, hpoint])
  | decoding ptr count =>
      exact .inr (.inl ⟨ptr, count, rfl, by simp only [advance, hpoint]⟩)
  | pushing message ptr count =>
      by_cases hroom : pipeline.inboundMessageQueue.length < capacity
      · exact .inr (.inr ⟨message, ptr, count, rfl, hroom, by
          simp only [advance, hpoint, push, if_pos hroom]⟩)
      · exact .inl (by simp only [advance, hpoint, push, if_neg hroom])

theorem receive_cases (networkBuffer : List UInt8) :
    step capacity pipeline (.receive connection networkBuffer) =
        (pipeline, none) ∨
      (pipeline.threads connection).point = .receiving ∧
        step capacity pipeline (.receive connection networkBuffer) =
          (pipeline.setThread connection
              ((pipeline.threads connection).receive networkBuffer),
            some (.received connection networkBuffer)) := by
  cases hpoint : (pipeline.threads connection).point with
  | receiving => exact .inr ⟨rfl, by simp only [step, hpoint]⟩
  | decoding ptr count => exact .inl (by simp only [step, hpoint])
  | pushing message ptr count => exact .inl (by simp only [step, hpoint])
  | stopped => exact .inl (by simp only [step, hpoint])

/-- `recv` has timed out. -/
theorem receive_nil :
    (step capacity pipeline (.receive connection [])).1 = pipeline := by
  rcases pipeline.receive_cases capacity connection [] with
    hsame | ⟨-, hreceive⟩
  · rw [hsame]
  · rw [hreceive]
    exact congrArg (fun threads => { pipeline with threads := threads })
      (Function.update_eq_self connection pipeline.threads)

theorem close_cases :
    step capacity pipeline (.close connection) = (pipeline, none) ∨
      (pipeline.threads connection).point = .receiving ∧
        step capacity pipeline (.close connection) =
          (pipeline.setThread connection
              { pipeline.threads connection with point := .stopped },
            none) := by
  cases hpoint : (pipeline.threads connection).point with
  | receiving => exact .inr ⟨rfl, by simp only [step, hpoint]⟩
  | decoding ptr count => exact .inl (by simp only [step, hpoint])
  | pushing message ptr count => exact .inl (by simp only [step, hpoint])
  | stopped => exact .inl (by simp only [step, hpoint])

end Turns

section Accounting

variable {events : List Event} {pipeline : InboundPipeline}
  (haccounted : pipeline.Accounted events)
include haccounted

/-- A thread outside the push loop records the message it decodes. -/
theorem Accounted.setThread {connection : Connection}
    {thread : ReceiverThread}
    (hidle : (pipeline.threads connection).waiting = [])
    (hdecoded : thread.receiver.messageQueue =
      pipeline.decodedOn connection ++ thread.waiting) :
    (pipeline.setThread connection thread).Accounted events := by
  intro other
  have hbefore := haccounted other
  rw [inFlight] at hbefore
  rw [decodedOn, inFlight, setThread_inHand, setThread_queue]
  by_cases hsame : other = connection
  · subst hsame
    rw [hidle, List.append_nil] at hbefore
    rw [setThread_self, hdecoded, hbefore, List.append_assoc]
  · rw [setThread_other _ _ _ hsame]
    exact hbefore

theorem Accounted.push {connection : Connection} {message : MDMessage}
    {ptr count : ℕ}
    (hpoint : (pipeline.threads connection).point =
      .pushing message ptr count) :
    ((pipeline.setQueue (pipeline.inboundMessageQueue ++
        [(connection, message)])).setThread connection
          ((pipeline.threads connection).stepOver ptr count)).Accounted
      events := by
  intro other
  have hbefore := haccounted other
  rw [decodedOn, inFlight, ofConnection_append] at hbefore
  rw [decodedOn, inFlight, setThread_inHand, setQueue_inHand,
    setThread_queue, setQueue_queue, ofConnection_append,
    ofConnection_append]
  by_cases hsame : other = connection
  · subst hsame
    have hwaiting : (pipeline.threads other).waiting = [message] := by
      rw [ReceiverThread.waiting, hpoint]
    rw [hwaiting] at hbefore
    rw [setThread_self, ofConnection_same]
    simpa [ReceiverThread.stepOver, ReceiverThread.waiting] using hbefore
  · rw [setThread_other _ _ _ hsame, ofConnection_other (Ne.symm hsame),
      List.append_nil]
    exact hbefore

theorem Accounted.advance (capacity : ℕ) (connection : Connection) :
    (pipeline.advance capacity connection).Accounted events := by
  rcases pipeline.advance_cases capacity connection with
    hsame | ⟨ptr, count, hpoint, hdecode⟩ |
      ⟨message, ptr, count, hpoint, -, hpush⟩
  · rw [hsame]
    exact haccounted
  · rw [hdecode]
    apply haccounted.setThread
    · rw [ReceiverThread.waiting, hpoint]
    · exact ReceiverThread.decode_messageQueue _ ptr count
  · rw [hpush]
    exact haccounted.push hpoint

theorem Accounted.dispatch :
    pipeline.dispatch.1.Accounted
      (events ++ pipeline.dispatch.2.toList) := by
  intro connection
  have hbefore := haccounted connection
  rw [inFlight, inHand] at hbefore
  cases hdispatcher : pipeline.dispatcher with
  | checking =>
      simp only [InboundPipeline.dispatch, hdispatcher] at hbefore ⊢
      cases pipeline.shouldStop <;>
        simpa [decodedOn, inFlight, inHand] using hbefore
  | stopped =>
      simp only [InboundPipeline.dispatch, hdispatcher] at hbefore ⊢
      simpa [inFlight, inHand, hdispatcher] using hbefore
  | testing =>
      simp only [InboundPipeline.dispatch, hdispatcher] at hbefore ⊢
      cases pipeline.inboundMessageQueue.isEmpty <;>
        simpa [decodedOn, inFlight, inHand, hdispatcher] using hbefore
  | popping =>
      simp only [InboundPipeline.dispatch, hdispatcher] at hbefore ⊢
      cases hqueue : pipeline.inboundMessageQueue with
      | nil =>
          simpa [BoundedFifo.pop, decodedOn, inFlight, inHand, hqueue] using
            hbefore
      | cons entry rest =>
          simpa [BoundedFifo.pop, decodedOn, inFlight, inHand, hqueue] using
            hbefore
  | handling origin message =>
      simp only [InboundPipeline.dispatch, hdispatcher] at hbefore ⊢
      rw [Option.toList_some, handledOn_concat]
      by_cases hsame : origin = connection
      · subst hsame
        simpa [decodedOn, inFlight, inHand, ofConnection,
          Event.handledOn?] using hbefore
      · simpa [decodedOn, inFlight, inHand, ofConnection,
          Event.handledOn?, hsame] using hbefore

end Accounting

theorem Accounted.step {events : List Event} {pipeline : InboundPipeline}
    (haccounted : pipeline.Accounted events) (capacity : ℕ) (turn : Turn) :
    (step capacity pipeline turn).1.Accounted
      (events ++ (step capacity pipeline turn).2.toList) := by
  have hignored : pipeline.Accounted
      (events ++ (none : Option Event).toList) := by
    rw [Option.toList_none, List.append_nil]
    exact haccounted
  cases turn with
  | receive connection networkBuffer =>
      rcases pipeline.receive_cases capacity connection networkBuffer with
        hsame | ⟨hpoint, hreceive⟩
      · rw [hsame]
        exact hignored
      · have hthread : (pipeline.setThread connection
            ((pipeline.threads connection).receive
              networkBuffer)).Accounted events := by
          apply haccounted.setThread
          · rw [ReceiverThread.waiting, hpoint]
          · rw [ReceiverThread.receive_messageQueue,
              ReceiverThread.receive_waiting hpoint, List.append_nil]
            rfl
        rw [hreceive]
        intro other
        rw [Option.toList_some, handledOn_concat]
        simpa [Event.handledOn?] using hthread other
  | close connection =>
      rcases pipeline.close_cases capacity connection with
        hsame | ⟨hpoint, hclose⟩
      · rw [hsame]
        exact hignored
      · rw [hclose, Option.toList_none, List.append_nil]
        apply haccounted.setThread
        · rw [ReceiverThread.waiting, hpoint]
        · exact (List.append_nil _).symm
  | advance connection =>
      simpa [InboundPipeline.step] using
        haccounted.advance capacity connection
  | dispatch => exact haccounted.dispatch
  | stop => exact hignored

/-! ## Decoding what was received -/

/-- The receiver that takes the chunks received on a connection without
interruption, its queue always having room. -/
def replayed (buffers : Connection → Memory)
    (lastHeartbeats : Connection → UInt64) (connection : Connection)
    (events : List Event) : NetworkMessageReceiver :=
  NetworkMessageReceiver.after
    (NetworkMessageReceiver.initial (buffers connection)
      (lastHeartbeats connection))
    (receivedOn connection events)

def Replays (buffers : Connection → Memory)
    (lastHeartbeats : Connection → UInt64) (events : List Event)
    (pipeline : InboundPipeline) : Prop :=
  ∀ connection, (pipeline.threads connection).finished =
    replayed buffers lastHeartbeats connection events

section Replay

variable {buffers : Connection → Memory}
  {lastHeartbeats : Connection → UInt64} {events : List Event}
  {pipeline : InboundPipeline}
  (hreplays : pipeline.Replays buffers lastHeartbeats events)
include hreplays

theorem Replays.setThread {connection : Connection}
    {thread : ReceiverThread}
    (hfinished : thread.finished =
      (pipeline.threads connection).finished) :
    (pipeline.setThread connection thread).Replays buffers lastHeartbeats
      events := by
  intro other
  by_cases hsame : other = connection
  · subst hsame
    rw [setThread_self, hfinished]
    exact hreplays other
  · rw [setThread_other _ _ _ hsame]
    exact hreplays other

theorem Replays.advance (capacity : ℕ) (connection : Connection) :
    (pipeline.advance capacity connection).Replays buffers lastHeartbeats
      events := by
  rcases pipeline.advance_cases capacity connection with
    hsame | ⟨ptr, count, hpoint, hdecode⟩ |
      ⟨message, ptr, count, hpoint, -, hpush⟩
  · rw [hsame]
    exact hreplays
  · rw [hdecode]
    apply hreplays.setThread
    rw [ReceiverThread.decode_finished]
    simp only [ReceiverThread.finished, hpoint]
  · have hqueued : (pipeline.setQueue (pipeline.inboundMessageQueue ++
        [(connection, message)])).Replays buffers lastHeartbeats
      events := hreplays
    rw [hpush]
    apply hqueued.setThread
    simp only [ReceiverThread.finished, ReceiverThread.stepOver,
      setQueue_threads, hpoint]

theorem Replays.dispatch :
    pipeline.dispatch.1.Replays buffers lastHeartbeats
      (events ++ pipeline.dispatch.2.toList) := by
  intro connection
  have hthreads : pipeline.dispatch.1.threads = pipeline.threads := by
    unfold InboundPipeline.dispatch
    split
    · rfl
    · split <;> rfl
    · split <;> rfl
    · rfl
    · rfl
  have hquiet : receivedOn connection
      (events ++ pipeline.dispatch.2.toList) =
        receivedOn connection events := by
    unfold InboundPipeline.dispatch
    split
    · simp
    · split <;> simp
    · split <;> simp
    · rw [Option.toList_some, receivedOn_concat]
      exact List.append_nil _
    · simp
  rw [hthreads, replayed, hquiet]
  exact hreplays connection

theorem Replays.step (capacity : ℕ) (turn : Turn) :
    (step capacity pipeline turn).1.Replays buffers lastHeartbeats
      (events ++ (step capacity pipeline turn).2.toList) := by
  have hignored : pipeline.Replays buffers lastHeartbeats
      (events ++ (none : Option Event).toList) := by
    rw [Option.toList_none, List.append_nil]
    exact hreplays
  cases turn with
  | receive connection networkBuffer =>
      rcases pipeline.receive_cases capacity connection networkBuffer with
        hsame | ⟨hpoint, hreceive⟩
      · rw [hsame]
        exact hignored
      · have hidle : (pipeline.threads connection).finished =
            (pipeline.threads connection).receiver := by
          simp only [ReceiverThread.finished, hpoint]
        rw [hreceive]
        intro other
        rw [Option.toList_some, replayed, receivedOn_concat]
        by_cases hsame : other = connection
        · subst hsame
          have hbefore := hreplays other
          rw [hidle, replayed] at hbefore
          rw [setThread_self, ReceiverThread.receive_finished hpoint,
            hbefore]
          simp [Event.receivedOn?, NetworkMessageReceiver.after]
        · rw [setThread_other _ _ _ hsame]
          simpa [Event.receivedOn?, Ne.symm hsame, replayed] using
            hreplays other
  | close connection =>
      rcases pipeline.close_cases capacity connection with
        hsame | ⟨hpoint, hclose⟩
      · rw [hsame]
        exact hignored
      · rw [hclose, Option.toList_none, List.append_nil]
        apply hreplays.setThread
        simp only [ReceiverThread.finished, hpoint]
  | advance connection =>
      simpa [InboundPipeline.step] using hreplays.advance capacity connection
  | dispatch => exact hreplays.dispatch
  | stop => exact hignored

end Replay

/-! ## Delivery -/

section Delivery

variable (capacity : ℕ) (buffers : Connection → Memory)
  (lastHeartbeats : Connection → UInt64) (turns : List Turn)

theorem after_invariants :
    (after capacity buffers lastHeartbeats turns).Accounted
        (events capacity buffers lastHeartbeats turns) ∧
      (after capacity buffers lastHeartbeats turns).Replays buffers
        lastHeartbeats (events capacity buffers lastHeartbeats turns) := by
  induction turns using List.reverseRecOn with
  | nil => exact ⟨fun _ => rfl, fun _ => rfl⟩
  | append_singleton earlier turn ih =>
      rcases ih with ⟨haccounted, hreplays⟩
      rw [after, events, RunHistory.reduceOption_outputs_concat,
        RunHistory.exec_append]
      exact ⟨haccounted.step capacity turn, hreplays.step capacity turn⟩

/-- Whatever the threads do, the messages of a connection that have been
handled are a prefix of those decoded on it, and these are a prefix of what
the chunks received on it decode to. -/
theorem per_connection_delivery (connection : Connection) :
    handledOn connection (events capacity buffers lastHeartbeats turns) <+:
        (after capacity buffers lastHeartbeats turns).decodedOn
          connection ∧
      (after capacity buffers lastHeartbeats turns).decodedOn connection <+:
        (replayed buffers lastHeartbeats connection
          (events capacity buffers lastHeartbeats turns)).messageQueue := by
  rcases after_invariants capacity buffers lastHeartbeats turns with
    ⟨haccounted, hreplays⟩
  constructor
  · rw [haccounted connection]
    exact List.prefix_append _ _
  · rw [← hreplays connection]
    exact ReceiverThread.decoded_isPrefix _

end Delivery

end InboundPipeline

end Slipstream
