import Slipstream.OrderMessageShutdown
import Slipstream.RingCalls

/-!
# The order sender on the ring

The order sender and the thread that calls `send`, with each of their calls
of the queue between them taken apart into the loads and stores of its ring.
A caller stays in `send` with its message until the message is published.
-/

namespace Slipstream

open PackedBytes BoundedFifo RingQueue

/-- The sender thread and its callers, who are one thread. -/
structure RingSender where
  sender : OrderMessageSender
  queue : SPSCQueue OrderMessage
  point : SendPoint
  shouldStop : Bool

namespace RingSender

open SenderThread (queueSize)

def initial (slots : Slots OrderMessage) (buffer : Memory) (fd : ℤ) :
    RingSender where
  sender := OrderMessageSender.initial buffer fd
  queue := SPSCQueue.initial slots.blank
  point := .checking
  shouldStop := false

def setQueue (thread : RingSender) (queue : SPSCQueue OrderMessage) :
    RingSender :=
  { thread with queue := queue }

section Code

variable (slots : Slots OrderMessage)

/-- A call of `push` is entered, or the one under way is continued. -/
def push (thread : RingSender) (message : OrderMessage) :
    SPSCQueue OrderMessage × Option (Event OrderMessage) :=
  match thread.queue.producer with
  | none => thread.queue.step queueSize slots.moved (.push message)
  | some _ => thread.queue.step queueSize slots.moved .produce

/-- A call of `pop` is entered, or the one under way is continued. -/
def poll (thread : RingSender) :
    SPSCQueue OrderMessage × Option (Event OrderMessage) :=
  match thread.queue.consumer with
  | .idle => thread.queue.step queueSize slots.moved .pop
  | _ => thread.queue.step queueSize slots.moved .consume

def run (answer : OrderMessage → SendAnswer) (thread : RingSender) :
    RingSender :=
  match thread.point with
  | .checking =>
      { thread with
        point := if thread.shouldStop then .returned else .popping }
  | .popping =>
      match thread.poll slots with
      | (queue, some .empty) =>
          { thread with queue := queue, point := .checking }
      | (queue, some (.popped message)) =>
          { thread with queue := queue, point := .sending message }
      | (queue, _) => thread.setQueue queue
  | .sending message =>
      match thread.sender.iterate (.taken message (answer message)) with
      | (.ok (), sender) =>
          { thread with sender := sender, point := .checking }
      | (.error _, sender) =>
          { thread with sender := sender, point := .terminated }
  | .returned => thread
  | .terminated => thread

/-- A call of `send` is completed by the store that publishes its
message. -/
def send (thread : RingSender) (message : OrderMessage) :
    RingSender × Option OrderMessage :=
  match thread.push slots message with
  | (queue, some (.pushed published)) =>
      (thread.setQueue queue, some published)
  | (queue, _) => (thread.setQueue queue, none)

end Code

/-- The thread with a queue of atomic operations. -/
def view (thread : RingSender) : SenderThread where
  sender := thread.sender
  messageQueue := thread.queue.contents queueSize
  point := thread.point
  shouldStop := thread.shouldStop

/-- The only call of the consumer is the `pop` at which the thread is. -/
def Serves : ConsumerPoint OrderMessage → SendPoint → Prop
  | .idle, _ => True
  | .testing _, _ => False
  | .popping _, point => point = .popping

/-- The calls that are under way are those at which the threads are; the
caller of `send` is in it with `calling`. -/
structure Matched (calling : Option OrderMessage) (thread : RingSender) :
    Prop where
  coherent : thread.queue.Coherent queueSize
  calling : ∀ {point}, thread.queue.producer = some point →
    calling = some point.value
  serving : Serves thread.queue.consumer thread.point

/-- What a step in `send` can be. -/
inductive Pushes (slots : Slots OrderMessage) (thread : RingSender)
    (message : OrderMessage) : RingSender × Option OrderMessage → Prop
  | enters (hidle : thread.queue.producer = none) :
      Pushes slots thread message
        (thread.setQueue
          { thread.queue with producer := some (.loadHead message) }, none)
  | goes_on {queue : SPSCQueue OrderMessage}
      {event : Option (Event OrderMessage)}
      (hentered : thread.queue.producer ≠ none)
      (hstep : thread.queue.step queueSize slots.moved .produce =
        (queue, event))
      (hquiet : ∀ value, event ≠ some (.pushed value)) :
      Pushes slots thread message (thread.setQueue queue, none)
  | publishes {queue : SPSCQueue OrderMessage} {value : OrderMessage}
      (hstep : thread.queue.step queueSize slots.moved .produce =
        (queue, some (.pushed value))) :
      Pushes slots thread message (thread.setQueue queue, some value)

theorem pushes (slots : Slots OrderMessage) (thread : RingSender)
    (message : OrderMessage) :
    Pushes slots thread message (thread.send slots message) := by
  cases hproducer : thread.queue.producer with
  | none =>
      simp only [send, push, hproducer, SPSCQueue.step]
      exact .enters hproducer
  | some point =>
      simp only [send, push, hproducer]
      split
      next queue value hproduce => exact .publishes hproduce
      next queue event hother hproduce =>
        exact .goes_on (by simp [hproducer]) hproduce hother

theorem Pushes.consumer {slots : Slots OrderMessage} {thread : RingSender}
    {message : OrderMessage}
    {outcome : RingSender × Option OrderMessage}
    (hpushes : Pushes slots thread message outcome) :
    outcome.1.queue.consumer = thread.queue.consumer := by
  have hproduce :
      (thread.queue.step queueSize slots.moved .produce).1.consumer =
        thread.queue.consumer := SPSCQueue.produce_consumer
  cases hpushes with
  | enters hidle => rfl
  | goes_on hentered hstep hquiet =>
      rw [hstep] at hproduce
      exact hproduce
  | publishes hstep =>
      rw [hstep] at hproduce
      exact hproduce

/-- What a step of `run` can be. -/
inductive Runs (slots : Slots OrderMessage)
    (answer : OrderMessage → SendAnswer) (thread : RingSender) :
    RingSender → Prop
  | checks (hpoint : thread.point = .checking) :
      Runs slots answer thread
        { thread with
          point := if thread.shouldStop then .returned else .popping }
  | pops (hpoint : thread.point = .popping)
      (hidle : thread.queue.consumer = .idle) :
      Runs slots answer thread
        (thread.setQueue
          { thread.queue with consumer := .popping .loadTail })
  | goes_on {queue : SPSCQueue OrderMessage}
      (hpoint : thread.point = .popping)
      (hcalling : thread.queue.consumer ≠ .idle)
      (hstep : thread.queue.step queueSize slots.moved .consume =
        (queue, none))
      (hserving : Serves queue.consumer thread.point) :
      Runs slots answer thread (thread.setQueue queue)
  | misses {queue : SPSCQueue OrderMessage}
      (hpoint : thread.point = .popping)
      (hstep : thread.queue.step queueSize slots.moved .consume =
        (queue, some .empty))
      (hidle : queue.consumer = .idle) :
      Runs slots answer thread
        { thread with queue := queue, point := .checking }
  | takes {queue : SPSCQueue OrderMessage} {message : OrderMessage}
      (hpoint : thread.point = .popping)
      (hstep : thread.queue.step queueSize slots.moved .consume =
        (queue, some (.popped message)))
      (hidle : queue.consumer = .idle) :
      Runs slots answer thread
        { thread with queue := queue, point := .sending message }
  | sends {message : OrderMessage} {result : Except Exception Unit}
      {sender : OrderMessageSender}
      (hpoint : thread.point = .sending message)
      (hiterate : thread.sender.iterate (.taken message (answer message)) =
        (result, sender)) :
      Runs slots answer thread
        { thread with
          sender := sender
          point :=
            match result with
            | .ok () => .checking
            | .error _ => .terminated }
  | rests (hpoint : thread.point = .returned ∨ thread.point = .terminated) :
      Runs slots answer thread thread

theorem Runs.producer {slots : Slots OrderMessage}
    {answer : OrderMessage → SendAnswer} {thread after : RingSender}
    (hruns : Runs slots answer thread after) :
    after.queue.producer = thread.queue.producer := by
  cases hruns with
  | checks hpoint => rfl
  | pops hpoint hidle => rfl
  | goes_on hpoint hcalling hstep hserving =>
      exact SPSCQueue.consume_producer hstep
  | misses hpoint hstep hidle => exact SPSCQueue.consume_producer hstep
  | takes hpoint hstep hidle => exact SPSCQueue.consume_producer hstep
  | sends hpoint hiterate => rfl
  | rests hpoint => rfl

section Runs

variable {thread : RingSender}
  (hserving : Serves thread.queue.consumer thread.point)
include hserving

theorem runs_popping (slots : Slots OrderMessage)
    (answer : OrderMessage → SendAnswer)
    (hpoint : thread.point = .popping) :
    Runs slots answer thread (thread.run slots answer) := by
  rw [hpoint] at hserving
  simp only [run, hpoint, poll]
  cases hconsumer : thread.queue.consumer with
  | idle =>
      simp only [SPSCQueue.step, hconsumer]
      exact .pops hpoint hconsumer
  | testing point =>
      rw [hconsumer] at hserving
      contradiction
  | popping point =>
      have hcalling : thread.queue.consumer ≠ .idle := by simp [hconsumer]
      obtain ⟨ring, ⟨next, hstep⟩ | hstep | ⟨message, hstep⟩⟩ :=
        SPSCQueue.consume_popping queueSize slots.moved hconsumer
      · simp only [hstep]
        exact .goes_on hpoint hcalling hstep hpoint
      · simp only [hstep]
        exact .misses hpoint hstep rfl
      · simp only [hstep]
        exact .takes hpoint hstep rfl

theorem runs (slots : Slots OrderMessage)
    (answer : OrderMessage → SendAnswer) :
    Runs slots answer thread (thread.run slots answer) := by
  cases hpoint : thread.point with
  | checking =>
      simp only [run, hpoint]
      exact .checks hpoint
  | popping => exact runs_popping hserving slots answer hpoint
  | sending message =>
      simp only [run, hpoint]
      cases hiterate : thread.sender.iterate
          (.taken message (answer message)) with
      | mk result sender => cases result <;> exact .sends hpoint hiterate
  | returned =>
      simp only [run, hpoint]
      exact .rests (.inl hpoint)
  | terminated =>
      simp only [run, hpoint]
      exact .rests (.inr hpoint)

end Runs

section Matched

variable {calling : Option OrderMessage} {slots : Slots OrderMessage}
  {answer : OrderMessage → SendAnswer} {thread : RingSender}

/-- Without a caller in `send` the next one may be any. -/
theorem Matched.uncalled (hmatched : Matched none thread) :
    Matched calling thread where
  coherent := hmatched.coherent
  calling hproducer := absurd (hmatched.calling hproducer) (by simp)
  serving := hmatched.serving

/-- A step in `push` that does not publish the message. -/
theorem Matched.produce_quiet (hmatched : Matched calling thread)
    {queue : SPSCQueue OrderMessage} {event : Option (Event OrderMessage)}
    (hstep : thread.queue.step queueSize slots.moved .produce =
      (queue, event))
    (hquiet : ∀ value, event ≠ some (.pushed value)) :
    Matched calling (thread.setQueue queue) ∧
      (thread.setQueue queue).view = thread.view := by
  have hcoherent := SPSCQueue.step_coherent slots.moved _ .produce
    hmatched.coherent
  have hmoves := SPSCQueue.step_moves slots.moved _ .produce
    hmatched.coherent
  have hevent := congrArg Prod.snd hstep
  obtain rfl := congrArg Prod.fst hstep
  constructor
  · refine ⟨hcoherent, ?_, ?_⟩
    · intro next hnext
      obtain ⟨point, hproducer, hvalue⟩ := SPSCQueue.produce_value hnext
      rw [hmatched.calling hproducer, hvalue]
    · rw [setQueue, SPSCQueue.produce_consumer]
      exact hmatched.serving
  · have hcontents :
        (thread.queue.step queueSize slots.moved .produce).1.contents
            queueSize =
          thread.queue.contents queueSize := by
      rw [hevent] at hmoves
      cases event with
      | none => exact hmoves
      | some event =>
          rcases SPSCQueue.produce_event hevent with rfl | ⟨value, rfl⟩
          · exact (step_full_iff.mp hmoves).2
          · exact absurd rfl (hquiet value)
    rw [view, view, setQueue, hcontents]

/-- The step of `push` that publishes the message. -/
theorem Matched.produce_pushed {message value : OrderMessage}
    (hmatched : Matched (some message) thread)
    {queue : SPSCQueue OrderMessage}
    (hstep : thread.queue.step queueSize slots.moved .produce =
      (queue, some (.pushed value))) :
    value = message ∧ Matched none (thread.setQueue queue) ∧
      thread.view.send message =
        ((thread.setQueue queue).view, some message) := by
  have hcoherent := SPSCQueue.step_coherent slots.moved _ .produce
    hmatched.coherent
  have hmoves := SPSCQueue.step_moves slots.moved _ .produce
    hmatched.coherent
  have hevent := congrArg Prod.snd hstep
  obtain rfl := congrArg Prod.fst hstep
  obtain ⟨⟨point, hproducer, hvalue⟩, hoff⟩ :=
    SPSCQueue.produce_pushed hevent
  have hentry : value = message := by
    rw [← hvalue]
    exact (Option.some.inj (hmatched.calling hproducer)).symm
  refine ⟨hentry, ⟨hcoherent, ?_, ?_⟩, ?_⟩
  · intro next hnext
    rw [setQueue, hoff] at hnext
    contradiction
  · rw [setQueue, SPSCQueue.produce_consumer]
    exact hmatched.serving
  · rw [hevent, hentry] at hmoves
    obtain ⟨hroom, hcontents⟩ := step_pushed_iff.mp hmoves
    have hpush : BoundedFifo.push queueSize thread.view.messageQueue
        message =
          (true, thread.queue.contents queueSize ++ [message]) :=
      if_pos hroom
    simp only [SenderThread.send, hpush]
    rw [← hcontents]
    rfl

/-- What a step in `send` is to the caller and to the thread with an atomic
queue. -/
structure Sends (message : OrderMessage) (before : RingSender)
    (after : RingSender × Option OrderMessage) : Prop where
  matched : (after.2 = none ∧ Matched (some message) after.1) ∨
    (after.2 = some message ∧ Matched none after.1)
  follows : RunHistory.Follows SenderThread.send message before.view
    after.1.view after.2

theorem Matched.send {message : OrderMessage}
    (hmatched : Matched (some message) thread)
    (slots : Slots OrderMessage) :
    Sends message thread (thread.send slots message) := by
  have hpushes := pushes slots thread message
  generalize thread.send slots message = outcome at hpushes ⊢
  cases hpushes with
  | enters hidle =>
      refine ⟨.inl ⟨rfl, ?_, ?_, hmatched.serving⟩, .inl ⟨rfl, rfl⟩⟩
      · have hcoherent := SPSCQueue.step_coherent slots.moved thread.queue
          (.push message) hmatched.coherent
        simp only [SPSCQueue.step, hidle] at hcoherent
        exact hcoherent
      · intro point hpoint
        cases hpoint
        rfl
  | goes_on hentered hstep hquiet =>
      obtain ⟨hafter, hview⟩ := hmatched.produce_quiet hstep hquiet
      exact ⟨.inl ⟨rfl, hafter⟩, .inl ⟨hview, rfl⟩⟩
  | publishes hstep =>
      obtain ⟨rfl, hafter, hfollows⟩ := hmatched.produce_pushed hstep
      exact ⟨.inr ⟨rfl, hafter⟩, .inr hfollows⟩

/-- The thread comes to another point of `run`, and with it the call that it
is in. -/
theorem Matched.serve (hmatched : Matched calling thread)
    (slots : Slots OrderMessage) (point : SendPoint)
    {call : SPSCQueue.Turn OrderMessage}
    (hcall : call = .pop ∨ call = .consume)
    {queue : SPSCQueue OrderMessage} {event : Option (Event OrderMessage)}
    (hstep : thread.queue.step queueSize slots.moved call = (queue, event))
    (hserving : Serves queue.consumer point) :
    Matched calling { thread with queue := queue, point := point } ∧
      Moves queueSize (thread.queue.contents queueSize) event
        (queue.contents queueSize) := by
  have hcoherent := SPSCQueue.step_coherent slots.moved thread.queue call
    hmatched.coherent
  have hmoves := SPSCQueue.step_moves slots.moved thread.queue call
    hmatched.coherent
  have hproducer : (thread.queue.step queueSize slots.moved call).1.producer =
      thread.queue.producer := by
    rcases hcall with rfl | rfl <;> rfl
  rw [hstep] at hcoherent hmoves hproducer
  refine ⟨⟨hcoherent, ?_, hserving⟩, hmoves⟩
  intro next hnext
  apply hmatched.calling
  rw [← hproducer]
  exact hnext

/-- A step of the consumer that decides nothing. -/
theorem Matched.serve_quiet (hmatched : Matched calling thread)
    (slots : Slots OrderMessage) {call : SPSCQueue.Turn OrderMessage}
    (hcall : call = .pop ∨ call = .consume) {queue : SPSCQueue OrderMessage}
    (hstep : thread.queue.step queueSize slots.moved call = (queue, none))
    (hserving : Serves queue.consumer thread.point) :
    Matched calling (thread.setQueue queue) ∧
      (thread.setQueue queue).view = thread.view := by
  obtain ⟨hafter, hmoves⟩ :=
    hmatched.serve slots thread.point hcall hstep hserving
  refine ⟨hafter, ?_⟩
  rw [Moves] at hmoves
  simp only [view, setQueue, hmoves]

/-- Outside its call the thread is in none. -/
theorem Matched.consumer_idle (hmatched : Matched calling thread)
    (hpoint : thread.point ≠ .popping) : thread.queue.consumer = .idle := by
  have hserving := hmatched.serving
  cases hconsumer : thread.queue.consumer with
  | idle => rfl
  | testing point =>
      rw [hconsumer] at hserving
      contradiction
  | popping point =>
      rw [hconsumer] at hserving
      exact absurd hserving hpoint

/-- The thread takes a step outside its call. -/
theorem Matched.redirect (hmatched : Matched calling thread)
    (hpoint : thread.point ≠ .popping) (sender : OrderMessageSender)
    (point : SendPoint) :
    Matched calling { thread with sender := sender, point := point } where
  coherent := hmatched.coherent
  calling := hmatched.calling
  serving := by
    rw [hmatched.consumer_idle hpoint]
    trivial

/-- A call of `pop` has been decided, and the thread acts on it. -/
theorem Matched.decided (hmatched : Matched calling thread)
    (slots : Slots OrderMessage) (point : SendPoint)
    {queue : SPSCQueue OrderMessage} {event : Event OrderMessage}
    (hstep : thread.queue.step queueSize slots.moved .consume =
      (queue, some event))
    (hidle : queue.consumer = .idle) :
    Matched calling { thread with queue := queue, point := point } ∧
      Step queueSize (thread.queue.contents queueSize) event
        (queue.contents queueSize) :=
  hmatched.serve slots point (.inr rfl) hstep (by
    rw [hidle]
    trivial)

theorem Matched.run (hmatched : Matched calling thread)
    (slots : Slots OrderMessage) (answer : OrderMessage → SendAnswer) :
    Matched calling (thread.run slots answer) ∧
      (((thread.run slots answer).view = thread.view ∧
          thread.point.poll? answer = none) ∨
        thread.view.run answer = (thread.run slots answer).view) := by
  have hruns : Runs slots answer thread _ :=
    runs hmatched.serving slots answer
  generalize thread.run slots answer = after at hruns ⊢
  cases hruns with
  | checks hpoint =>
      have hview : thread.view.point = .checking := hpoint
      refine ⟨hmatched.redirect (by simp [hpoint]) thread.sender _, .inr ?_⟩
      simp only [SenderThread.run, hview]
      rfl
  | pops hpoint hidle =>
      have hstep : thread.queue.step queueSize slots.moved .pop =
          ({ thread.queue with consumer := .popping .loadTail }, none) := by
        simp only [SPSCQueue.step, hidle]
        rfl
      obtain ⟨hafter, hview⟩ :=
        hmatched.serve_quiet slots (.inl rfl) hstep hpoint
      exact ⟨hafter, .inl ⟨hview, by rw [hpoint]; rfl⟩⟩
  | goes_on hpoint hcalling hstep hserving =>
      obtain ⟨hafter, hview⟩ :=
        hmatched.serve_quiet slots (.inr rfl) hstep hserving
      exact ⟨hafter, .inl ⟨hview, by rw [hpoint]; rfl⟩⟩
  | misses hpoint hstep hidle =>
      have hview : thread.view.point = .popping := hpoint
      obtain ⟨hafter, hmoves⟩ := hmatched.decided slots .checking hstep hidle
      obtain ⟨hbefore, hnext⟩ := step_empty_iff.mp hmoves
      refine ⟨hafter, .inr ?_⟩
      have hempty : thread.view.messageQueue = [] := hbefore
      simp only [SenderThread.run, hview, hempty,
        BoundedFifo.pop]
      simp only [view, hnext]
  | @takes queue message hpoint hstep hidle =>
      have hview : thread.view.point = .popping := hpoint
      obtain ⟨hafter, hmoves⟩ :=
        hmatched.decided slots (.sending message) hstep hidle
      have hbefore := step_popped_iff.mp hmoves
      refine ⟨hafter, .inr ?_⟩
      have hqueued : thread.view.messageQueue = _ := hbefore
      simp only [SenderThread.run, hview, hqueued,
        BoundedFifo.pop]
      rfl
  | @sends message result sender hpoint hiterate =>
      have hview : thread.view.point = .sending message := hpoint
      have hsame : thread.view.sender = thread.sender := rfl
      refine ⟨hmatched.redirect (by simp [hpoint]) sender _, .inr ?_⟩
      cases result with
      | ok value =>
          simp only [SenderThread.run, hview, hsame,
            hiterate]
          rfl
      | error exception =>
          simp only [SenderThread.run, hview, hsame,
            hiterate]
          rfl
  | rests hended =>
      refine ⟨hmatched, .inl ⟨rfl, ?_⟩⟩
      rcases hended with hended | hended <;> rw [hended] <;> rfl

end Matched

theorem initial_matched (slots : Slots OrderMessage) (buffer : Memory)
    (fd : ℤ) (calling : Option OrderMessage) :
    Matched calling (initial slots buffer fd) where
  coherent := SPSCQueue.initial_coherent queueSize slots.blank
  calling hproducer := nomatch hproducer
  serving := trivial

theorem initial_view (slots : Slots OrderMessage) (buffer : Memory)
    (fd : ℤ) :
    (initial slots buffer fd).view = SenderThread.initial buffer fd := by
  have hcontents :
      (SPSCQueue.initial slots.blank).contents queueSize = [] :=
    SPSCQueue.initial_contents queueSize slots.blank
  simp only [view, initial, hcontents]
  rfl

end RingSender

end Slipstream
