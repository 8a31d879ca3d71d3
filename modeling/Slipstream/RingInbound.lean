import Slipstream.InboundDelivery
import Slipstream.RingCalls

/-!
# The inbound threads on the ring

The receivers and the dispatcher, with each of their calls of the inbound
queue taken apart into the loads and stores of its ring and the lock of the
producers.  A thread that is in a call does nothing else, and no other
thread looks at where it is, so that the call can be thought to happen at
the one step that decides it.
-/

namespace Slipstream

open PackedBytes BoundedFifo RingQueue

/-- The inbound threads; a producer is the connection of its receiver. -/
structure RingInbound where
  threads : Connection → ReceiverThread
  queue : MPSCQueue Connection (Connection × MDMessage)
  dispatcher : DispatchPoint
  shouldStop : Bool

namespace RingInbound

def initial (slots : Slots (Connection × MDMessage))
    (buffers : Connection → Memory) (lastHeartbeats : Connection → UInt64) :
    RingInbound where
  threads connection :=
    ReceiverThread.initial (buffers connection) (lastHeartbeats connection)
  queue := MPSCQueue.initial slots.blank
  dispatcher := .checking
  shouldStop := false

def setThread (inbound : RingInbound) (connection : Connection)
    (thread : ReceiverThread) : RingInbound :=
  { inbound with
    threads := Function.update inbound.threads connection thread }

def setQueue (inbound : RingInbound)
    (queue : MPSCQueue Connection (Connection × MDMessage)) : RingInbound :=
  { inbound with queue := queue }

@[simp] theorem setThread_self (inbound : RingInbound)
    (connection : Connection) :
    inbound.setThread connection (inbound.threads connection) = inbound := by
  rw [setThread, Function.update_eq_self]

section Code

variable (capacity : ℕ) (slots : Slots (Connection × MDMessage))

/-- A call of `push` is entered, or the one under way is continued. -/
def push (inbound : RingInbound) (connection : Connection)
    (entry : Connection × MDMessage) :
    MPSCQueue Connection (Connection × MDMessage) ×
      Option (Event (Connection × MDMessage)) :=
  match inbound.queue.producers connection with
  | .idle => inbound.queue.step capacity slots.moved (.push connection entry)
  | _ => inbound.queue.step capacity slots.moved (.produce connection)

/-- A call of `empty` or `pop` is entered, or the one under way is
continued. -/
def poll (inbound : RingInbound)
    (call : MPSCQueue.Turn Connection (Connection × MDMessage)) :
    MPSCQueue Connection (Connection × MDMessage) ×
      Option (Event (Connection × MDMessage)) :=
  match inbound.queue.consumer with
  | .idle => inbound.queue.step capacity slots.moved call
  | _ => inbound.queue.step capacity slots.moved .consume

/-- A thread steps over its message with the store that publishes it. -/
def proceed (inbound : RingInbound) (connection : Connection) :
    RingInbound :=
  let thread := inbound.threads connection
  match thread.point with
  | .receiving => inbound
  | .decoding ptr count =>
      inbound.setThread connection (thread.decode ptr count)
  | .pushing message ptr count =>
      match inbound.push capacity slots connection (connection, message) with
      | (queue, some (.pushed _)) =>
          (inbound.setQueue queue).setThread connection
            (thread.stepOver ptr count)
      | (queue, _) => inbound.setQueue queue
  | .stopped => inbound

/-- The lock is released before the thread goes on. -/
def advance (inbound : RingInbound) (connection : Connection) :
    RingInbound :=
  match inbound.queue.producers connection with
  | .unlock _ =>
      inbound.setQueue (inbound.queue.step capacity slots.moved
        (.produce connection)).1
  | _ => inbound.proceed capacity slots connection

def dispatch (inbound : RingInbound) :
    RingInbound × Option InboundPipeline.Event :=
  match inbound.dispatcher with
  | .checking =>
      ({ inbound with
          dispatcher := if inbound.shouldStop then .stopped else .testing },
        none)
  | .testing =>
      match inbound.poll capacity slots .empty with
      | (queue, some (.tested false)) =>
          ({ inbound with queue := queue, dispatcher := .popping }, none)
      | (queue, _) => (inbound.setQueue queue, none)
  | .popping =>
      match inbound.poll capacity slots .pop with
      | (queue, some .empty) =>
          ({ inbound with queue := queue, dispatcher := .checking }, none)
      | (queue, some (.popped (connection, message))) =>
          ({ inbound with
              queue := queue
              dispatcher := .handling connection message }, none)
      | (queue, _) => (inbound.setQueue queue, none)
  | .handling connection message =>
      ({ inbound with dispatcher := .checking },
        some (.handled connection message))
  | .stopped => (inbound, none)

def step (inbound : RingInbound) :
    InboundPipeline.Turn → RingInbound × Option InboundPipeline.Event
  | .receive connection networkBuffer =>
      let thread := inbound.threads connection
      match thread.point with
      | .receiving =>
          (inbound.setThread connection (thread.receive networkBuffer),
            some (.received connection networkBuffer))
      | _ => (inbound, none)
  | .close connection =>
      let thread := inbound.threads connection
      match thread.point with
      | .receiving =>
          (inbound.setThread connection { thread with point := .stopped },
            none)
      | _ => (inbound, none)
  | .advance connection => (inbound.advance capacity slots connection, none)
  | .dispatch => inbound.dispatch capacity slots
  | .stop => ({ inbound with shouldStop := true }, none)

end Code

/-- `recv` has timed out. -/
theorem receive_nil (capacity : ℕ)
    (slots : Slots (Connection × MDMessage)) (inbound : RingInbound)
    (connection : Connection) :
    (inbound.step capacity slots (.receive connection [])).1 = inbound := by
  simp only [step]
  split
  · exact congrArg (fun threads => { inbound with threads := threads })
      (Function.update_eq_self connection inbound.threads)
  · rfl

/-- The threads with a queue of atomic operations. -/
def view (capacity : ℕ) (inbound : RingInbound) : InboundPipeline where
  threads := inbound.threads
  inboundMessageQueue := inbound.queue.contents capacity
  dispatcher := inbound.dispatcher
  shouldStop := inbound.shouldStop

/-- The dispatcher is where the call of the consumer is made. -/
def Serves : ConsumerPoint (Connection × MDMessage) → DispatchPoint → Prop
  | .idle, _ => True
  | .testing _, dispatcher => dispatcher = .testing
  | .popping _, dispatcher => dispatcher = .popping

/-- The thread is in the loop of `tryReceive`. -/
def InLoop (thread : ReceiverThread) : Prop :=
  match thread.point with
  | .decoding _ _ => True
  | .pushing _ _ _ => True
  | _ => False

/-- The calls that are under way are those at which the threads are. -/
structure Matched (capacity : ℕ) (inbound : RingInbound) : Prop where
  coherent : inbound.queue.Coherent capacity
  calling : ∀ {connection value},
    (inbound.queue.producers connection).value? = some value →
      ∃ message ptr count,
        (inbound.threads connection).point = .pushing message ptr count ∧
          value = (connection, message)
  returning : ∀ {connection result},
    inbound.queue.producers connection = .unlock result →
      InLoop (inbound.threads connection)
  serving : Serves inbound.queue.consumer inbound.dispatcher

/-- What a step of a receiver can be. -/
inductive Advances (capacity : ℕ) (inbound : RingInbound)
    (connection : Connection) : RingInbound → Prop
  | rests (hpoint : ¬ InLoop (inbound.threads connection)) :
      Advances capacity inbound connection inbound
  | decodes {ptr count : ℕ}
      (hpoint : (inbound.threads connection).point = .decoding ptr count)
      (hreturned : ∀ result,
        inbound.queue.producers connection ≠ .unlock result) :
      Advances capacity inbound connection
        (inbound.setThread connection
          ((inbound.threads connection).decode ptr count))
  | enters {message : MDMessage} {ptr count : ℕ}
      (hpoint : (inbound.threads connection).point =
        .pushing message ptr count)
      (hidle : inbound.queue.producers connection = .idle) :
      Advances capacity inbound connection
        (inbound.setQueue (inbound.queue.setProducer connection
          (.lock (connection, message))))
  | goes_on (hentered : inbound.queue.producers connection ≠ .idle)
      (hquiet : ∀ value, (inbound.queue.produce capacity connection).2 ≠
        some (.pushed value)) :
      Advances capacity inbound connection
        (inbound.setQueue (inbound.queue.produce capacity connection).1)
  | publishes {message : MDMessage} {ptr count : ℕ}
      {value : Connection × MDMessage}
      (hpoint : (inbound.threads connection).point =
        .pushing message ptr count)
      (hevent : (inbound.queue.produce capacity connection).2 =
        some (.pushed value)) :
      Advances capacity inbound connection
        ((inbound.setQueue
          (inbound.queue.produce capacity connection).1).setThread connection
            ((inbound.threads connection).stepOver ptr count))

section Advances

variable {capacity : ℕ} {inbound : RingInbound} {connection : Connection}

theorem advances_pushing (slots : Slots (Connection × MDMessage))
    {message : MDMessage} {ptr count : ℕ}
    (hpoint : (inbound.threads connection).point =
      .pushing message ptr count) :
    Advances capacity inbound connection
      (inbound.proceed capacity slots connection) := by
  have hproceed : inbound.proceed capacity slots connection =
      match inbound.push capacity slots connection (connection, message) with
      | (queue, some (.pushed _)) =>
          (inbound.setQueue queue).setThread connection
            ((inbound.threads connection).stepOver ptr count)
      | (queue, _) => inbound.setQueue queue := by
    simp only [proceed, hpoint]
  rw [hproceed]
  by_cases hidle : inbound.queue.producers connection = .idle
  · simp only [push, hidle, MPSCQueue.step]
    exact .enters hpoint hidle
  · have hpush : inbound.push capacity slots connection
        (connection, message) =
          inbound.queue.produce capacity connection := by
      cases hproducer : inbound.queue.producers connection with
      | idle => exact absurd hproducer hidle
      | lock value => simp only [push, hproducer, MPSCQueue.step]
      | emplacing point => simp only [push, hproducer, MPSCQueue.step]
      | unlock result => simp only [push, hproducer, MPSCQueue.step]
    rw [hpush]
    split
    next queue value hproduce =>
      have hevent := congrArg Prod.snd hproduce
      have hqueue := congrArg Prod.fst hproduce
      subst hqueue
      exact .publishes hpoint hevent
    next queue event hother hproduce =>
      have hevent := congrArg Prod.snd hproduce
      have hqueue := congrArg Prod.fst hproduce
      subst hqueue
      refine .goes_on hidle ?_
      intro value hpushed
      rw [hevent] at hpushed
      exact hother value hpushed

theorem advances (slots : Slots (Connection × MDMessage)) :
    Advances capacity inbound connection
      (inbound.advance capacity slots connection) := by
  unfold advance
  split
  next result hproducer =>
    exact .goes_on (by simp [hproducer])
      (by simp [MPSCQueue.produce, hproducer])
  next hreturned =>
    cases hpoint : (inbound.threads connection).point with
    | receiving =>
        simp only [proceed, hpoint]
        exact .rests (by simp [InLoop, hpoint])
    | decoding ptr count =>
        simp only [proceed, hpoint]
        exact .decodes hpoint hreturned
    | pushing message ptr count => exact advances_pushing slots hpoint
    | stopped =>
        simp only [proceed, hpoint]
        exact .rests (by simp [InLoop, hpoint])

theorem Advances.other {after : RingInbound}
    (hadvances : Advances capacity inbound connection after)
    {other : Connection} (hother : other ≠ connection) :
    after.queue.producers other = inbound.queue.producers other := by
  cases hadvances with
  | rests hpoint => rfl
  | decodes hpoint hreturned => rfl
  | enters hpoint hidle => exact Function.update_of_ne hother _ _
  | goes_on hentered hquiet => exact MPSCQueue.produce_other hother
  | publishes hpoint hevent => exact MPSCQueue.produce_other hother

end Advances

/-- What a step of the dispatcher can be. -/
inductive Dispatches (capacity : ℕ) (slots : Slots (Connection × MDMessage))
    (inbound : RingInbound) :
    RingInbound × Option InboundPipeline.Event → Prop
  | checks (hpoint : inbound.dispatcher = .checking) :
      Dispatches capacity slots inbound
        ({ inbound with
            dispatcher :=
              if inbound.shouldStop then .stopped else .testing },
          none)
  | tests (hpoint : inbound.dispatcher = .testing)
      (hidle : inbound.queue.consumer = .idle) :
      Dispatches capacity slots inbound
        (inbound.setQueue
          { inbound.queue with consumer := .testing .loadTail }, none)
  | pops (hpoint : inbound.dispatcher = .popping)
      (hidle : inbound.queue.consumer = .idle) :
      Dispatches capacity slots inbound
        (inbound.setQueue
          { inbound.queue with consumer := .popping .loadTail }, none)
  | goes_on {queue : MPSCQueue Connection (Connection × MDMessage)}
      (hcalling : inbound.queue.consumer ≠ .idle)
      (hstep : inbound.queue.step capacity slots.moved .consume =
        (queue, none))
      (hserving : Serves queue.consumer inbound.dispatcher) :
      Dispatches capacity slots inbound (inbound.setQueue queue, none)
  | retries {queue : MPSCQueue Connection (Connection × MDMessage)}
      (hpoint : inbound.dispatcher = .testing)
      (hstep : inbound.queue.step capacity slots.moved .consume =
        (queue, some (.tested true)))
      (hidle : queue.consumer = .idle) :
      Dispatches capacity slots inbound (inbound.setQueue queue, none)
  | finds {queue : MPSCQueue Connection (Connection × MDMessage)}
      (hpoint : inbound.dispatcher = .testing)
      (hstep : inbound.queue.step capacity slots.moved .consume =
        (queue, some (.tested false)))
      (hidle : queue.consumer = .idle) :
      Dispatches capacity slots inbound
        ({ inbound with queue := queue, dispatcher := .popping }, none)
  | misses {queue : MPSCQueue Connection (Connection × MDMessage)}
      (hpoint : inbound.dispatcher = .popping)
      (hstep : inbound.queue.step capacity slots.moved .consume =
        (queue, some .empty))
      (hidle : queue.consumer = .idle) :
      Dispatches capacity slots inbound
        ({ inbound with queue := queue, dispatcher := .checking }, none)
  | takes {queue : MPSCQueue Connection (Connection × MDMessage)}
      {connection : Connection} {message : MDMessage}
      (hpoint : inbound.dispatcher = .popping)
      (hstep : inbound.queue.step capacity slots.moved .consume =
        (queue, some (.popped (connection, message))))
      (hidle : queue.consumer = .idle) :
      Dispatches capacity slots inbound
        ({ inbound with
            queue := queue
            dispatcher := .handling connection message }, none)
  | handles {connection : Connection} {message : MDMessage}
      (hpoint : inbound.dispatcher = .handling connection message) :
      Dispatches capacity slots inbound
        ({ inbound with dispatcher := .checking },
          some (.handled connection message))
  | rests (hpoint : inbound.dispatcher = .stopped) :
      Dispatches capacity slots inbound (inbound, none)

theorem Dispatches.producers {capacity : ℕ}
    {slots : Slots (Connection × MDMessage)} {inbound : RingInbound}
    {outcome : RingInbound × Option InboundPipeline.Event}
    (hdispatches : Dispatches capacity slots inbound outcome) :
    outcome.1.queue.producers = inbound.queue.producers ∧
      outcome.1.queue.producerLock = inbound.queue.producerLock := by
  cases hdispatches with
  | checks hpoint => exact ⟨rfl, rfl⟩
  | tests hpoint hidle => exact ⟨rfl, rfl⟩
  | pops hpoint hidle => exact ⟨rfl, rfl⟩
  | goes_on hcalling hstep hserving => exact MPSCQueue.consume_producers hstep
  | retries hpoint hstep hidle => exact MPSCQueue.consume_producers hstep
  | finds hpoint hstep hidle => exact MPSCQueue.consume_producers hstep
  | misses hpoint hstep hidle => exact MPSCQueue.consume_producers hstep
  | takes hpoint hstep hidle => exact MPSCQueue.consume_producers hstep
  | handles hpoint => exact ⟨rfl, rfl⟩
  | rests hpoint => exact ⟨rfl, rfl⟩

section Dispatches

variable {capacity : ℕ} {inbound : RingInbound}
  (hserving : Serves inbound.queue.consumer inbound.dispatcher)
include hserving

theorem dispatches_testing (slots : Slots (Connection × MDMessage))
    (hpoint : inbound.dispatcher = .testing) :
    Dispatches capacity slots inbound (inbound.dispatch capacity slots) := by
  rw [hpoint] at hserving
  simp only [dispatch, hpoint, poll]
  cases hconsumer : inbound.queue.consumer with
  | idle =>
      simp only [MPSCQueue.step, hconsumer]
      exact .tests hpoint hconsumer
  | popping point =>
      rw [hconsumer] at hserving
      contradiction
  | testing point =>
      have hcalling : inbound.queue.consumer ≠ .idle := by simp [hconsumer]
      obtain ⟨ring, ⟨next, hstep⟩ | ⟨isEmpty, hstep⟩⟩ :=
        MPSCQueue.consume_testing capacity slots.moved hconsumer
      · simp only [hstep]
        exact .goes_on hcalling hstep hpoint
      · simp only [hstep]
        cases isEmpty with
        | true => exact .retries hpoint hstep rfl
        | false => exact .finds hpoint hstep rfl

theorem dispatches_popping (slots : Slots (Connection × MDMessage))
    (hpoint : inbound.dispatcher = .popping) :
    Dispatches capacity slots inbound (inbound.dispatch capacity slots) := by
  rw [hpoint] at hserving
  simp only [dispatch, hpoint, poll]
  cases hconsumer : inbound.queue.consumer with
  | idle =>
      simp only [MPSCQueue.step, hconsumer]
      exact .pops hpoint hconsumer
  | testing point =>
      rw [hconsumer] at hserving
      contradiction
  | popping point =>
      have hcalling : inbound.queue.consumer ≠ .idle := by simp [hconsumer]
      obtain ⟨ring, ⟨next, hstep⟩ | hstep | ⟨value, hstep⟩⟩ :=
        MPSCQueue.consume_popping capacity slots.moved hconsumer
      · simp only [hstep]
        exact .goes_on hcalling hstep hpoint
      · simp only [hstep]
        exact .misses hpoint hstep rfl
      · simp only [hstep]
        exact .takes hpoint hstep rfl

theorem dispatches (slots : Slots (Connection × MDMessage)) :
    Dispatches capacity slots inbound (inbound.dispatch capacity slots) := by
  cases hpoint : inbound.dispatcher with
  | checking =>
      simp only [dispatch, hpoint]
      exact .checks hpoint
  | testing => exact dispatches_testing hserving slots hpoint
  | popping => exact dispatches_popping hserving slots hpoint
  | handling connection message =>
      simp only [dispatch, hpoint]
      exact .handles hpoint
  | stopped =>
      simp only [dispatch, hpoint]
      exact .rests hpoint

end Dispatches

/-- What a step of the rings is to the threads with atomic queues: nothing,
or their step of the same turn. -/
structure Steps (capacity : ℕ) (turn : InboundPipeline.Turn)
    (before : RingInbound)
    (after : RingInbound × Option InboundPipeline.Event) : Prop where
  matched : Matched capacity after.1
  follows : RunHistory.Follows (InboundPipeline.step capacity) turn
    (before.view capacity) (after.1.view capacity) after.2

section Matched

variable {capacity : ℕ} {slots : Slots (Connection × MDMessage)}
  {inbound : RingInbound} (hmatched : Matched capacity inbound)
include hmatched

/-- One receiver changes, and its place in the queue. -/
theorem Matched.update {connection : Connection}
    {queue : MPSCQueue Connection (Connection × MDMessage)}
    (hcoherent : queue.Coherent capacity)
    (hothers : ∀ other, other ≠ connection →
      queue.producers other = inbound.queue.producers other)
    (hconsumer : queue.consumer = inbound.queue.consumer)
    {thread : ReceiverThread}
    (hcalling : ∀ value, (queue.producers connection).value? = some value →
      ∃ message ptr count, thread.point = .pushing message ptr count ∧
        value = (connection, message))
    (hreturning : ∀ result, queue.producers connection = .unlock result →
      InLoop thread) :
    Matched capacity ((inbound.setQueue queue).setThread connection
      thread) where
  coherent := hcoherent
  calling {other value} hvalue := by
    by_cases hsame : other = connection
    · subst hsame
      simp only [setThread, Function.update_self]
      exact hcalling value hvalue
    · simp only [setThread, Function.update_of_ne hsame]
      apply hmatched.calling
      rw [← hothers other hsame]
      exact hvalue
  returning {other result} hunlock := by
    by_cases hsame : other = connection
    · subst hsame
      simp only [setThread, Function.update_self]
      exact hreturning result hunlock
    · simp only [setThread, Function.update_of_ne hsame]
      apply hmatched.returning
      rw [← hothers other hsame]
      exact hunlock
  serving := by
    have hserving := hmatched.serving
    rw [← hconsumer] at hserving
    exact hserving

/-- A receiver outside a call takes a step of its own. -/
theorem Matched.own {connection : Connection} {thread : ReceiverThread}
    (hoff : (inbound.queue.producers connection).value? = none)
    (hreturned : ∀ result,
      inbound.queue.producers connection ≠ .unlock result) :
    Matched capacity (inbound.setThread connection thread) := by
  have hsame : inbound.setThread connection thread =
      (inbound.setQueue inbound.queue).setThread connection thread := rfl
  rw [hsame]
  apply hmatched.update hmatched.coherent (fun _ _ => rfl) rfl
  · intro value hvalue
    rw [hoff] at hvalue
    contradiction
  · exact fun result hunlock => absurd hunlock (hreturned result)

theorem Matched.value_none {connection : Connection}
    (hpoint : ∀ message ptr count,
      (inbound.threads connection).point ≠ .pushing message ptr count) :
    (inbound.queue.producers connection).value? = none := by
  cases hvalue : (inbound.queue.producers connection).value? with
  | none => rfl
  | some value =>
      rcases hmatched.calling hvalue with ⟨message, ptr, count, hat, -⟩
      exact absurd hat (hpoint message ptr count)

theorem Matched.returned {connection : Connection}
    (hpoint : (inbound.threads connection).point = .receiving)
    (result : Bool) :
    inbound.queue.producers connection ≠ .unlock result := by
  intro hunlock
  have hloop := hmatched.returning hunlock
  simp only [InLoop, hpoint] at hloop

/-- A step in `push` that does not publish the message. -/
theorem Matched.produce_quiet (connection : Connection)
    (hquiet : ∀ value, (inbound.queue.produce capacity connection).2 ≠
      some (.pushed value)) :
    Matched capacity (inbound.setQueue
        (inbound.queue.produce capacity connection).1) ∧
      (inbound.setQueue (inbound.queue.produce capacity connection).1).view
          capacity =
        inbound.view capacity := by
  constructor
  · rw [← setThread_self (inbound.setQueue _) connection]
    apply hmatched.update (hmatched.coherent.produce connection)
      (fun _ hother => MPSCQueue.produce_other hother)
      MPSCQueue.produce_consumer
    · exact fun value hvalue =>
        hmatched.calling (MPSCQueue.produce_value hvalue)
    · intro result hunlock
      obtain ⟨value, hvalue⟩ := MPSCQueue.produce_unlock hunlock
      rcases hmatched.calling hvalue with ⟨message, ptr, count, hpoint, -⟩
      simp only [setQueue, InLoop, hpoint]
  · have hmoves := hmatched.coherent.produce_moves connection
    have hcontents :
        (inbound.queue.produce capacity connection).1.contents capacity =
          inbound.queue.contents capacity := by
      cases hevent : (inbound.queue.produce capacity connection).2 with
      | none =>
          rw [hevent] at hmoves
          exact hmoves
      | some event =>
          rw [hevent] at hmoves
          rcases MPSCQueue.produce_event hevent with rfl | ⟨value, rfl⟩
          · exact (step_full_iff.mp hmoves).2
          · exact absurd hevent (hquiet value)
    rw [view, view, setQueue, hcontents]

/-- The step of `push` that publishes the message. -/
theorem Matched.produce_pushed {connection : Connection}
    {value : Connection × MDMessage}
    (hevent : (inbound.queue.produce capacity connection).2 =
      some (.pushed value)) {message : MDMessage} {ptr count : ℕ}
    (hpoint : (inbound.threads connection).point =
      .pushing message ptr count) :
    let after := (inbound.setQueue
      (inbound.queue.produce capacity connection).1).setThread connection
        ((inbound.threads connection).stepOver ptr count)
    Matched capacity after ∧
      after.view capacity =
        (inbound.view capacity).advance capacity connection := by
  obtain ⟨hvalue, hoff⟩ := MPSCQueue.produce_pushed hevent
  constructor
  · apply hmatched.update (hmatched.coherent.produce connection)
      (fun _ hother => MPSCQueue.produce_other hother)
      MPSCQueue.produce_consumer
    · intro other hother
      rw [hoff] at hother
      contradiction
    · exact fun _ _ => trivial
  · have hentry : value = (connection, message) := by
      rcases hmatched.calling hvalue with ⟨other, start, left, hat, heq⟩
      rw [hpoint] at hat
      cases hat
      exact heq
    have hmoves := hmatched.coherent.produce_moves connection
    rw [hevent, hentry] at hmoves
    obtain ⟨hroom, hcontents⟩ := step_pushed_iff.mp hmoves
    have hpush : BoundedFifo.push capacity
        (inbound.view capacity).inboundMessageQueue (connection, message) =
        (true, inbound.queue.contents capacity ++
          [(connection, message)]) := if_pos hroom
    have hview : ((inbound.view capacity).threads connection).point =
        .pushing message ptr count := hpoint
    simp only [InboundPipeline.advance, hview, hpush]
    rw [← hcontents]
    rfl

/-- A call of `push` is entered. -/
theorem Matched.enter {connection : Connection} {message : MDMessage}
    {ptr count : ℕ}
    (hpoint : (inbound.threads connection).point =
      .pushing message ptr count)
    (hidle : inbound.queue.producers connection = .idle) :
    let queue := inbound.queue.setProducer connection
      (.lock (connection, message))
    Matched capacity (inbound.setQueue queue) ∧
      (inbound.setQueue queue).view capacity = inbound.view capacity := by
  refine ⟨?_, rfl⟩
  rw [← (inbound.setQueue _).setThread_self connection]
  apply hmatched.update
  · apply hmatched.coherent.setProducer
    · rw [hidle]
      exact id
    · exact id
  · intro other hother
    exact Function.update_of_ne hother _ _
  · rfl
  · intro value hvalue
    simp only [MPSCQueue.setProducer, Function.update_self,
      ProducerPoint.value?, Option.some.injEq] at hvalue
    exact ⟨message, ptr, count, hpoint, hvalue.symm⟩
  · intro result hunlock
    simp [MPSCQueue.setProducer] at hunlock

theorem Matched.advance (slots : Slots (Connection × MDMessage))
    (connection : Connection) :
    Steps capacity (.advance connection) inbound
      (inbound.advance capacity slots connection, none) := by
  have hadvances : Advances capacity inbound connection
      (inbound.advance capacity slots connection) := advances slots
  generalize inbound.advance capacity slots connection = after
    at hadvances ⊢
  cases hadvances with
  | rests => exact ⟨hmatched, .inl ⟨rfl, rfl⟩⟩
  | @decodes ptr count hpoint hreturned =>
      have hview : ((inbound.view capacity).threads connection).point =
          .decoding ptr count := hpoint
      refine ⟨hmatched.own (hmatched.value_none (by simp [hpoint]))
        hreturned, .inr ?_⟩
      simp only [InboundPipeline.step, InboundPipeline.advance, hview]
      rfl
  | enters hpoint hidle =>
      obtain ⟨hafter, hview⟩ := hmatched.enter hpoint hidle
      exact ⟨hafter, .inl ⟨hview, rfl⟩⟩
  | goes_on hentered hquiet =>
      obtain ⟨hafter, hview⟩ := hmatched.produce_quiet connection hquiet
      exact ⟨hafter, .inl ⟨hview, rfl⟩⟩
  | publishes hpoint hevent =>
      obtain ⟨hafter, hview⟩ := hmatched.produce_pushed hevent hpoint
      exact ⟨hafter, .inr (by
        rw [hview]
        rfl)⟩

/-- The dispatcher changes, and the call that it is in. -/
theorem Matched.serve (slots : Slots (Connection × MDMessage))
    (dispatcher : DispatchPoint)
    {call : MPSCQueue.Turn Connection (Connection × MDMessage)}
    (hcall : call = .empty ∨ call = .pop ∨ call = .consume)
    {queue : MPSCQueue Connection (Connection × MDMessage)}
    {event : Option (Event (Connection × MDMessage))}
    (hstep : inbound.queue.step capacity slots.moved call = (queue, event))
    (hserving : Serves queue.consumer dispatcher) :
    Matched capacity
        { inbound with queue := queue, dispatcher := dispatcher } ∧
      Moves capacity (inbound.queue.contents capacity) event
        (queue.contents capacity) := by
  have hcoherent := MPSCQueue.step_coherent slots.moved inbound.queue call
    hmatched.coherent
  have hmoves := MPSCQueue.step_moves slots.moved inbound.queue call
    hmatched.coherent
  have hproducers :
      (inbound.queue.step capacity slots.moved call).1.producers =
        inbound.queue.producers := by
    rcases hcall with rfl | rfl | rfl <;> rfl
  rw [hstep] at hcoherent hmoves hproducers
  refine ⟨⟨hcoherent, ?_, ?_, hserving⟩, hmoves⟩
  · intro connection value hvalue
    apply hmatched.calling
    rw [← hproducers]
    exact hvalue
  · intro connection result hunlock
    apply hmatched.returning
    rw [← hproducers]
    exact hunlock

/-- A step of the consumer that decides nothing. -/
theorem Matched.serve_quiet (slots : Slots (Connection × MDMessage))
    {call : MPSCQueue.Turn Connection (Connection × MDMessage)}
    (hcall : call = .empty ∨ call = .pop ∨ call = .consume)
    {queue : MPSCQueue Connection (Connection × MDMessage)}
    (hstep : inbound.queue.step capacity slots.moved call = (queue, none))
    (hserving : Serves queue.consumer inbound.dispatcher) :
    Steps capacity .dispatch inbound (inbound.setQueue queue, none) := by
  obtain ⟨hafter, hmoves⟩ :=
    hmatched.serve slots inbound.dispatcher hcall hstep hserving
  refine ⟨hafter, .inl ⟨?_, rfl⟩⟩
  rw [Moves] at hmoves
  simp only [view, setQueue, hmoves]

/-- A receiver that is in a call of `push`, or returns from one. -/
theorem Matched.pushing_or_unlock {connection : Connection}
    (hentered : inbound.queue.producers connection ≠ .idle) :
    (∃ message ptr count, (inbound.threads connection).point =
        .pushing message ptr count) ∨
      ∃ ptr count result,
        (inbound.threads connection).point = .decoding ptr count ∧
          inbound.queue.producers connection = .unlock result := by
  cases hvalue : (inbound.queue.producers connection).value? with
  | some value =>
      rcases hmatched.calling hvalue with ⟨message, ptr, count, hpoint, -⟩
      exact .inl ⟨message, ptr, count, hpoint⟩
  | none =>
      cases hproducer : inbound.queue.producers connection with
      | idle => exact absurd hproducer hentered
      | lock value => simp [hproducer, ProducerPoint.value?] at hvalue
      | emplacing point => simp [hproducer, ProducerPoint.value?] at hvalue
      | unlock result =>
          have hloop := hmatched.returning hproducer
          cases hpoint : (inbound.threads connection).point with
          | receiving => simp only [InLoop, hpoint] at hloop
          | decoding ptr count => exact .inr ⟨ptr, count, result, rfl, rfl⟩
          | pushing message ptr count =>
              exact .inl ⟨message, ptr, count, rfl⟩
          | stopped => simp only [InLoop, hpoint] at hloop

theorem Matched.calling_point (hcalling : inbound.queue.consumer ≠ .idle) :
    inbound.dispatcher = .testing ∨ inbound.dispatcher = .popping := by
  have hserving := hmatched.serving
  cases hconsumer : inbound.queue.consumer with
  | idle => exact absurd hconsumer hcalling
  | testing point =>
      rw [hconsumer] at hserving
      exact .inl hserving
  | popping point =>
      rw [hconsumer] at hserving
      exact .inr hserving

/-- Outside its two calls the dispatcher is in none of them. -/
theorem Matched.consumer_idle (htesting : inbound.dispatcher ≠ .testing)
    (hpopping : inbound.dispatcher ≠ .popping) :
    inbound.queue.consumer = .idle := by
  have hserving := hmatched.serving
  cases hconsumer : inbound.queue.consumer with
  | idle => rfl
  | testing point =>
      rw [hconsumer] at hserving
      exact absurd hserving htesting
  | popping point =>
      rw [hconsumer] at hserving
      exact absurd hserving hpopping

/-- The dispatcher takes a step outside its two calls. -/
theorem Matched.redirect (dispatcher : DispatchPoint)
    (hidle : inbound.queue.consumer = .idle) :
    Matched capacity { inbound with dispatcher := dispatcher } where
  coherent := hmatched.coherent
  calling := hmatched.calling
  returning := hmatched.returning
  serving := by
    rw [hidle]
    trivial

/-- A call of `pop` or `empty` has been decided, and the dispatcher acts on
it. -/
theorem Matched.decided (slots : Slots (Connection × MDMessage))
    (dispatcher : DispatchPoint)
    {queue : MPSCQueue Connection (Connection × MDMessage)}
    {event : Event (Connection × MDMessage)}
    (hstep : inbound.queue.step capacity slots.moved .consume =
      (queue, some event))
    (hidle : queue.consumer = .idle) :
    Matched capacity
        { inbound with queue := queue, dispatcher := dispatcher } ∧
      Step capacity (inbound.queue.contents capacity) event
        (queue.contents capacity) :=
  hmatched.serve slots dispatcher (.inr (.inr rfl)) hstep (by
    rw [hidle]
    trivial)

theorem Matched.dispatch (slots : Slots (Connection × MDMessage)) :
    Steps capacity .dispatch inbound (inbound.dispatch capacity slots) := by
  have hdispatches : Dispatches capacity slots inbound _ :=
    dispatches hmatched.serving slots
  generalize inbound.dispatch capacity slots = outcome at hdispatches ⊢
  cases hdispatches with
  | checks hpoint =>
      have hidle := hmatched.consumer_idle (by simp [hpoint])
        (by simp [hpoint])
      have hview : (inbound.view capacity).dispatcher = .checking := hpoint
      refine ⟨hmatched.redirect _ hidle, .inr ?_⟩
      simp only [InboundPipeline.step, InboundPipeline.dispatch, hview]
      rfl
  | tests hpoint hidle =>
      apply hmatched.serve_quiet slots (.inl rfl)
      · simp only [MPSCQueue.step, hidle]
        rfl
      · exact hpoint
  | pops hpoint hidle =>
      apply hmatched.serve_quiet slots (.inr (.inl rfl))
      · simp only [MPSCQueue.step, hidle]
        rfl
      · exact hpoint
  | goes_on hcalling hstep hserving =>
      exact hmatched.serve_quiet slots (.inr (.inr rfl)) hstep hserving
  | retries hpoint hstep hidle =>
      obtain ⟨hafter, hmoves⟩ :=
        hmatched.decided slots inbound.dispatcher hstep hidle
      obtain ⟨-, hsame⟩ := step_tested_iff.mp hmoves
      refine ⟨hafter, .inl ⟨?_, rfl⟩⟩
      simp only [view, setQueue, hsame]
  | finds hpoint hstep hidle =>
      have hview : (inbound.view capacity).dispatcher = .testing := hpoint
      obtain ⟨hafter, hmoves⟩ := hmatched.decided slots .popping hstep hidle
      obtain ⟨hanswer, hsame⟩ := step_tested_iff.mp hmoves
      refine ⟨hafter, .inr ?_⟩
      have hnonempty :
          (inbound.view capacity).inboundMessageQueue.isEmpty = false :=
        hanswer.symm
      simp only [InboundPipeline.step, InboundPipeline.dispatch, hview,
        hnonempty]
      simp only [view, hsame]
      rfl
  | misses hpoint hstep hidle =>
      have hview : (inbound.view capacity).dispatcher = .popping := hpoint
      obtain ⟨hafter, hmoves⟩ := hmatched.decided slots .checking hstep hidle
      obtain ⟨hbefore, hnext⟩ := step_empty_iff.mp hmoves
      refine ⟨hafter, .inr ?_⟩
      have hempty : (inbound.view capacity).inboundMessageQueue = [] :=
        hbefore
      simp only [InboundPipeline.step, InboundPipeline.dispatch, hview,
        hempty, BoundedFifo.pop]
      simp only [view, hnext]
  | @takes queue connection message hpoint hstep hidle =>
      have hview : (inbound.view capacity).dispatcher = .popping := hpoint
      obtain ⟨hafter, hmoves⟩ := hmatched.decided slots
        (.handling connection message) hstep hidle
      have hbefore := step_popped_iff.mp hmoves
      refine ⟨hafter, .inr ?_⟩
      have hqueued : (inbound.view capacity).inboundMessageQueue = _ :=
        hbefore
      simp only [InboundPipeline.step, InboundPipeline.dispatch, hview,
        hqueued, BoundedFifo.pop]
      rfl
  | @handles connection message hpoint =>
      have hidle := hmatched.consumer_idle (by simp [hpoint])
        (by simp [hpoint])
      have hview : (inbound.view capacity).dispatcher =
          .handling connection message := hpoint
      refine ⟨hmatched.redirect .checking hidle, .inr ?_⟩
      simp only [InboundPipeline.step, InboundPipeline.dispatch, hview]
      rfl
  | rests hpoint => exact ⟨hmatched, .inl ⟨rfl, rfl⟩⟩

theorem Matched.step (slots : Slots (Connection × MDMessage))
    (turn : InboundPipeline.Turn) :
    Steps capacity turn inbound (inbound.step capacity slots turn) := by
  cases turn with
  | receive connection networkBuffer =>
      cases hpoint : (inbound.threads connection).point with
      | receiving =>
          have hview : ((inbound.view capacity).threads connection).point =
              .receiving := hpoint
          simp only [RingInbound.step, hpoint]
          refine ⟨hmatched.own (hmatched.value_none (by simp [hpoint]))
            (hmatched.returned hpoint), .inr ?_⟩
          simp only [InboundPipeline.step, hview]
          rfl
      | decoding ptr count =>
          simp only [RingInbound.step, hpoint]
          exact ⟨hmatched, .inl ⟨rfl, rfl⟩⟩
      | pushing message ptr count =>
          simp only [RingInbound.step, hpoint]
          exact ⟨hmatched, .inl ⟨rfl, rfl⟩⟩
      | stopped =>
          simp only [RingInbound.step, hpoint]
          exact ⟨hmatched, .inl ⟨rfl, rfl⟩⟩
  | close connection =>
      cases hpoint : (inbound.threads connection).point with
      | receiving =>
          have hview : ((inbound.view capacity).threads connection).point =
              .receiving := hpoint
          simp only [RingInbound.step, hpoint]
          refine ⟨hmatched.own (hmatched.value_none (by simp [hpoint]))
            (hmatched.returned hpoint), .inr ?_⟩
          simp only [InboundPipeline.step, hview]
          rfl
      | decoding ptr count =>
          simp only [RingInbound.step, hpoint]
          exact ⟨hmatched, .inl ⟨rfl, rfl⟩⟩
      | pushing message ptr count =>
          simp only [RingInbound.step, hpoint]
          exact ⟨hmatched, .inl ⟨rfl, rfl⟩⟩
      | stopped =>
          simp only [RingInbound.step, hpoint]
          exact ⟨hmatched, .inl ⟨rfl, rfl⟩⟩
  | advance connection => exact hmatched.advance slots connection
  | dispatch => exact hmatched.dispatch slots
  | stop => exact ⟨⟨hmatched.coherent, hmatched.calling,
      hmatched.returning, hmatched.serving⟩, .inr rfl⟩

end Matched

theorem initial_matched (capacity : ℕ)
    (slots : Slots (Connection × MDMessage)) (buffers : Connection → Memory)
    (lastHeartbeats : Connection → UInt64) :
    Matched capacity (initial slots buffers lastHeartbeats) where
  coherent := MPSCQueue.initial_coherent capacity slots.blank
  calling hvalue := nomatch hvalue
  returning hunlock := nomatch hunlock
  serving := trivial

theorem initial_view (capacity : ℕ)
    (slots : Slots (Connection × MDMessage)) (buffers : Connection → Memory)
    (lastHeartbeats : Connection → UInt64) :
    (initial slots buffers lastHeartbeats).view capacity =
      InboundPipeline.initial buffers lastHeartbeats := by
  have hcontents : (MPSCQueue.initial slots.blank :
      MPSCQueue Connection (Connection × MDMessage)).contents capacity = [] :=
    SPSCQueue.initial_contents capacity slots.blank
  simp only [view, initial, hcontents]
  rfl

end RingInbound

end Slipstream
