import Slipstream.PipelineProgress
import Slipstream.RingInbound
import Slipstream.RingSender

/-!
# Delays of the threads

How many steps a thread in a call of a queue is from the step that the other
threads see.  A call of `push` in front of a full queue and a call of `empty`
in front of an empty one start again and again; a thread in such a call is
not on its way to anything.

A step that the others do not see brings its thread nearer to the one that
they do see, unless the thread is blocked or waits for the lock.
-/

namespace Slipstream

open PackedBytes BoundedFifo RingQueue FairRounds

/-! ## The inbound threads -/

namespace RingInbound

/-- The steps of a receiver to the one that publishes its message.  In front
of a full queue there are none. -/
def pushDelay (capacity : ℕ) (inbound : RingInbound)
    (connection : Connection) : ℕ :=
  match (inbound.threads connection).point with
  | .pushing _ _ _ =>
      if (inbound.queue.contents capacity).length < capacity then
        (inbound.queue.producers connection).stepsLeft
      else 0
  | .decoding _ _ =>
      match inbound.queue.producers connection with
      | .unlock _ => 1
      | _ => 0
  | _ => 0

def pollDelay (capacity : ℕ) (inbound : RingInbound) : ℕ :=
  match inbound.dispatcher with
  | .testing =>
      if inbound.queue.contents capacity = [] then 0
      else inbound.queue.consumer.stepsLeft
  | .popping => inbound.queue.consumer.stepsLeft
  | _ => 0

def delay (capacity : ℕ) (inbound : RingInbound) : ℕ :=
  inbound.pushDelay capacity .md + inbound.pushDelay capacity .oe +
    inbound.pollDelay capacity

theorem pushDelay_le (capacity : ℕ) (inbound : RingInbound)
    (connection : Connection) :
    inbound.pushDelay capacity connection ≤ 7 := by
  have hsteps := (inbound.queue.producers connection).stepsLeft_le
  unfold pushDelay
  split
  · split <;> omega
  · split <;> omega
  · omega

theorem pollDelay_le (capacity : ℕ) (inbound : RingInbound) :
    inbound.pollDelay capacity ≤ 5 := by
  have hsteps := inbound.queue.consumer.stepsLeft_le
  unfold pollDelay
  split
  · split <;> omega
  · exact hsteps
  · omega

theorem delay_le (capacity : ℕ) (inbound : RingInbound) :
    inbound.delay capacity ≤ 19 := by
  have hmd := inbound.pushDelay_le capacity .md
  have hoe := inbound.pushDelay_le capacity .oe
  have hpoll := inbound.pollDelay_le capacity
  unfold delay
  omega

/-- The receiver is blocked, or waits for the lock. -/
def Held (capacity : ℕ) (inbound : RingInbound) (connection : Connection) :
    Prop :=
  InboundPipeline.ReceiverBlocked capacity connection
      (inbound.view capacity) ∨
    inbound.queue.Waits connection

section Steps

variable {capacity : ℕ} {inbound : RingInbound}

section Receivers

variable {connection : Connection}

theorem blocked_pushing_iff {message : MDMessage} {ptr count : ℕ}
    (hpoint : (inbound.threads connection).point =
      .pushing message ptr count) :
    InboundPipeline.ReceiverBlocked capacity connection
        (inbound.view capacity) ↔
      capacity ≤ (inbound.queue.contents capacity).length := by
  have hviewed : ((inbound.view capacity).threads connection).point =
      .pushing message ptr count := hpoint
  simp only [InboundPipeline.ReceiverBlocked, hviewed]
  rfl

theorem not_blocked_decoding {ptr count : ℕ}
    (hpoint : (inbound.threads connection).point = .decoding ptr count) :
    ¬ InboundPipeline.ReceiverBlocked capacity connection
      (inbound.view capacity) := by
  have hviewed : ((inbound.view capacity).threads connection).point =
      .decoding ptr count := hpoint
  simp only [InboundPipeline.ReceiverBlocked, hviewed, not_false_eq_true]

theorem blocked_of_rests
    (hpoint : ¬ InLoop (inbound.threads connection)) :
    InboundPipeline.ReceiverBlocked capacity connection
      (inbound.view capacity) := by
  have hviewed : (inbound.view capacity).threads connection =
      inbound.threads connection := rfl
  unfold InLoop at hpoint
  unfold InboundPipeline.ReceiverBlocked
  rw [hviewed]
  cases hat : (inbound.threads connection).point with
  | receiving => trivial
  | stopped => trivial
  | decoding ptr count => simp [hat] at hpoint
  | pushing message ptr count => simp [hat] at hpoint

end Receivers

/-- A receiver comes to another point of its call. -/
theorem delay_pushed {after : RingInbound} {connection : Connection}
    (hview : after.view capacity = inbound.view capacity)
    (hothers : ∀ other, other ≠ connection →
      after.queue.producers other = inbound.queue.producers other)
    (hconsumer : after.queue.consumer = inbound.queue.consumer) :
    after.delay capacity + inbound.pushDelay capacity connection =
      inbound.delay capacity + after.pushDelay capacity connection := by
  have hcontents : after.queue.contents capacity =
      inbound.queue.contents capacity :=
    congrArg InboundPipeline.inboundMessageQueue hview
  have hthreads : after.threads = inbound.threads :=
    congrArg InboundPipeline.threads hview
  have hdispatcher : after.dispatcher = inbound.dispatcher :=
    congrArg InboundPipeline.dispatcher hview
  have hpoll : after.pollDelay capacity = inbound.pollDelay capacity := by
    simp only [pollDelay, hcontents, hdispatcher, hconsumer]
  have hpush : ∀ other, other ≠ connection →
      after.pushDelay capacity other = inbound.pushDelay capacity other := by
    intro other hother
    simp only [pushDelay, hcontents, hthreads, hothers other hother]
  cases connection with
  | md =>
      have hother := hpush .oe (by decide)
      unfold delay
      omega
  | oe =>
      have hother := hpush .md (by decide)
      unfold delay
      omega

/-- A step in a poll, which leaves the producers as they are. -/
theorem delay_polled {after : RingInbound}
    (hview : after.view capacity = inbound.view capacity)
    (hproducers : after.queue.producers = inbound.queue.producers) :
    after.delay capacity + inbound.pollDelay capacity =
      inbound.delay capacity + after.pollDelay capacity := by
  have hcontents : after.queue.contents capacity =
      inbound.queue.contents capacity :=
    congrArg InboundPipeline.inboundMessageQueue hview
  have hthreads : after.threads = inbound.threads :=
    congrArg InboundPipeline.threads hview
  simp only [delay, pushDelay, hcontents, hthreads, hproducers]
  omega

/-- The dispatcher comes to another point of its call, or polls the queue
once more. -/
theorem delay_nears {after : RingInbound}
    (hview : after.view capacity = inbound.view capacity)
    (hproducers : after.queue.producers = inbound.queue.producers)
    (hpoint : inbound.dispatcher = .testing ∨ inbound.dispatcher = .popping)
    (hnears : ¬ (inbound.view capacity).Waits →
      after.queue.consumer.stepsLeft < inbound.queue.consumer.stepsLeft) :
    Nears ((inbound.view capacity).Waits ∨ inbound.dispatcher = .stopped)
      (inbound.delay capacity) (after.delay capacity) := by
  have hcontents : after.queue.contents capacity =
      inbound.queue.contents capacity :=
    congrArg InboundPipeline.inboundMessageQueue hview
  have hdispatcher : after.dispatcher = inbound.dispatcher :=
    congrArg InboundPipeline.dispatcher hview
  have hpolled := delay_polled hview hproducers
  constructor
  · rintro (hwaits | hstopped)
    · have htesting : inbound.dispatcher = .testing := hwaits.testing
      have hempty : inbound.queue.contents capacity = [] := hwaits.empty
      simp only [pollDelay, hdispatcher, hcontents, htesting, if_pos hempty]
        at hpolled
      exact hpolled
    · rcases hpoint with hpoint | hpoint <;> simp [hpoint] at hstopped
  · intro hgoes
    have hless := hnears fun hwaits => hgoes (.inl hwaits)
    rcases hpoint with hpoint | hpoint
    · have hsome : inbound.queue.contents capacity ≠ [] :=
        fun hempty => hgoes (.inl ⟨hpoint, hempty⟩)
      simp only [pollDelay, hdispatcher, hcontents, hpoint, if_neg hsome]
        at hpolled
      omega
    · simp only [pollDelay, hdispatcher, hpoint] at hpolled
      omega

variable (hmatched : Matched capacity inbound)
include hmatched

/-- A step in `push` of a receiver that has the lock or may take it. -/
theorem Matched.produce_delays {connection : Connection}
    (hentered : inbound.queue.producers connection ≠ .idle)
    (hfree : ¬ inbound.queue.Waits connection)
    (hquiet : ∀ value, (inbound.queue.produce capacity connection).2 ≠
      some (.pushed value)) :
    Nears (InboundPipeline.ReceiverBlocked capacity connection
        (inbound.view capacity))
      (inbound.pushDelay capacity connection)
      ((inbound.setQueue (inbound.queue.produce capacity
        connection).1).pushDelay capacity connection) := by
  obtain ⟨-, hview⟩ := hmatched.produce_quiet connection hquiet
  have hcontents : (inbound.queue.produce capacity connection).1.contents
      capacity = inbound.queue.contents capacity :=
    congrArg InboundPipeline.inboundMessageQueue hview
  rcases hmatched.pushing_or_unlock hentered with
    ⟨message, ptr, count, hpoint⟩ | ⟨ptr, count, result, hpoint, hunlock⟩
  · rw [blocked_pushing_iff hpoint]
    simp only [pushDelay, setQueue, hpoint, hcontents]
    constructor
    · intro hfull
      rw [if_neg (not_lt.mpr hfull), if_neg (not_lt.mpr hfull)]
    · intro hroom
      rw [if_pos (not_le.mp hroom), if_pos (not_le.mp hroom)]
      apply MPSCQueue.produce_nears hentered hfree
      have hmoves := hmatched.coherent.produce_moves connection
      cases hevent : (inbound.queue.produce capacity connection).2 with
      | none => rfl
      | some event =>
          rw [hevent] at hmoves
          rcases MPSCQueue.produce_event hevent with rfl | ⟨value, rfl⟩
          · exact absurd (step_full_iff.mp hmoves).1.ge hroom
          · exact absurd hevent (hquiet value)
  · have hidle : (inbound.queue.produce capacity connection).1.producers
        connection = .idle := by
      simp [MPSCQueue.produce, hunlock, MPSCQueue.setProducer]
    simp only [pushDelay, setQueue, hpoint, hidle, hunlock]
    exact ⟨fun hblocked => absurd hblocked (not_blocked_decoding hpoint),
      fun _ => Nat.zero_lt_one⟩

/-- A step of a receiver that changes nothing for the others. -/
theorem Matched.advance_delays {connection : Connection}
    {after : RingInbound}
    (hadvances : Advances capacity inbound connection after)
    (hview : after.view capacity = inbound.view capacity)
    (hfree : ¬ inbound.queue.Waits connection) :
    Nears (InboundPipeline.ReceiverBlocked capacity connection
        (inbound.view capacity))
      (inbound.delay capacity) (after.delay capacity) := by
  have hthread : after.threads connection = inbound.threads connection :=
    congrArg (fun pipeline => pipeline.threads connection) hview
  have hother : ∀ other, other ≠ connection →
      after.queue.producers other = inbound.queue.producers other :=
    fun _ hother => hadvances.other hother
  cases hadvances with
  | rests hpoint =>
      exact ⟨fun _ => rfl,
        fun hgoes => absurd (blocked_of_rests hpoint) hgoes⟩
  | @decodes ptr count hpoint hreturned =>
      have hless := (inbound.threads connection).work_decode_lt ptr count
      simp only [setThread, Function.update_self] at hthread
      rw [hthread] at hless
      simp [ReceiverThread.work, hpoint] at hless
  | publishes hpoint hevent =>
      simp only [setThread, Function.update_self] at hthread
      have hat := congrArg ReceiverThread.point hthread
      rw [hpoint] at hat
      simp [ReceiverThread.stepOver] at hat
  | @enters message ptr count hpoint hidle =>
      have hdelay := delay_pushed hview hother rfl
      have hbefore : inbound.pushDelay capacity connection =
          if (inbound.queue.contents capacity).length < capacity then 6
          else 0 := by
        simp only [pushDelay, hpoint, hidle]
        rfl
      have hafter : (inbound.setQueue (inbound.queue.setProducer connection
          (.lock (connection, message)))).pushDelay capacity connection =
            if (inbound.queue.contents capacity).length < capacity then 5
            else 0 := by
        simp only [pushDelay, setQueue, hpoint, MPSCQueue.setProducer,
          Function.update_self]
        rfl
      rw [hbefore, hafter] at hdelay
      rw [blocked_pushing_iff hpoint]
      constructor
      · intro hfull
        rw [if_neg (not_lt.mpr hfull), if_neg (not_lt.mpr hfull)] at hdelay
        exact hdelay
      · intro hroom
        rw [if_pos (not_le.mp hroom), if_pos (not_le.mp hroom)] at hdelay
        omega
  | goes_on hentered hquiet =>
      have hdelay := delay_pushed hview hother MPSCQueue.produce_consumer
      have hnears := hmatched.produce_delays hentered hfree hquiet
      constructor
      · intro hblocked
        have hpush := hnears.stays hblocked
        omega
      · intro hgoes
        have hpush := hnears.nears hgoes
        omega

theorem Matched.advance_waits {connection : Connection}
    {after : RingInbound}
    (hadvances : Advances capacity inbound connection after)
    (hwaits : inbound.queue.Waits connection) : after = inbound := by
  have hproduce : inbound.queue.produce capacity connection = _ :=
    MPSCQueue.produce_waits hwaits
  rcases hwaits with ⟨⟨value, hlock⟩, -⟩
  cases hadvances with
  | rests hpoint => rfl
  | decodes hpoint hreturned =>
      obtain ⟨message, ptr, count, hat, -⟩ :=
        hmatched.calling (by rw [hlock]; rfl)
      rw [hpoint] at hat
      contradiction
  | enters hpoint hidle =>
      rw [hlock] at hidle
      contradiction
  | goes_on hentered hquiet =>
      rw [hproduce]
      rfl
  | publishes hpoint hevent =>
      rw [hproduce] at hevent
      contradiction

/-- A step of a receiver that changes nothing for the others nears the one
that does, unless the receiver is held up. -/
theorem Matched.advance_nears {connection : Connection}
    {after : RingInbound}
    (hadvances : Advances capacity inbound connection after)
    (hview : after.view capacity = inbound.view capacity) :
    Nears (inbound.Held capacity connection) (inbound.delay capacity)
      (after.delay capacity) := by
  by_cases hwaits : inbound.queue.Waits connection
  · rw [hmatched.advance_waits hadvances hwaits]
    exact ⟨fun _ => rfl, fun hgoes => absurd (.inr hwaits) hgoes⟩
  · have hnears := hmatched.advance_delays hadvances hview hwaits
    exact ⟨fun hheld => hnears.stays (hheld.resolve_right hwaits),
      fun hgoes => hnears.nears fun hblocked => hgoes (.inl hblocked)⟩

/-- A blocked receiver stays where it is, as long as the queue has room. -/
theorem Matched.advance_rests {connection : Connection}
    {after : RingInbound}
    (hadvances : Advances capacity inbound connection after)
    (hblocked : InboundPipeline.ReceiverBlocked capacity connection
      (inbound.view capacity))
    (hroom : (inbound.queue.contents capacity).length < capacity) :
    after = inbound := by
  have hpushing : ∀ message ptr count,
      (inbound.threads connection).point ≠ .pushing message ptr count := by
    intro message ptr count hpoint
    have hfull := (blocked_pushing_iff hpoint).mp hblocked
    omega
  have hdecoding : ∀ ptr count,
      (inbound.threads connection).point ≠ .decoding ptr count :=
    fun ptr count hpoint => not_blocked_decoding hpoint hblocked
  cases hadvances with
  | rests hpoint => rfl
  | decodes hpoint hreturned => exact absurd hpoint (hdecoding _ _)
  | enters hpoint hidle => exact absurd hpoint (hpushing _ _ _)
  | publishes hpoint hevent => exact absurd hpoint (hpushing _ _ _)
  | goes_on hentered hquiet =>
      rcases hmatched.pushing_or_unlock hentered with
        ⟨message, ptr, count, hpoint⟩ | ⟨ptr, count, result, hpoint, -⟩
      · exact absurd hpoint (hpushing _ _ _)
      · exact absurd hpoint (hdecoding _ _)

/-- A receiver that is held up does not hold up another one: in front of a
full queue it may take the lock, but there the other one is blocked too. -/
theorem Matched.advance_stays {connection : Connection}
    {after : RingInbound}
    (hadvances : Advances capacity inbound connection after)
    (hview : after.view capacity = inbound.view capacity)
    (hheld : inbound.Held capacity connection) {other : Connection}
    (hgoes : ¬ inbound.Held capacity other) :
    ¬ after.Held capacity other := by
  rcases hheld with hblocked | hwaits
  · rintro (hother | ⟨⟨value, hlock⟩, htaken⟩)
    · rw [hview] at hother
      exact hgoes (.inl hother)
    · by_cases hsame : other = connection
      · subst hsame
        exact hgoes (.inl hblocked)
      · rw [hadvances.other hsame] at hlock
        obtain ⟨message, ptr, count, hpoint, -⟩ :=
          hmatched.calling (by rw [hlock]; rfl)
        by_cases hroom :
            (inbound.queue.contents capacity).length < capacity
        · rw [hmatched.advance_rests hadvances hblocked hroom] at htaken
          exact hgoes (.inr ⟨⟨value, hlock⟩, htaken⟩)
        · exact hgoes
            (.inl ((blocked_pushing_iff hpoint).mpr (not_lt.mp hroom)))
  · rw [hmatched.advance_waits hadvances hwaits]
    exact hgoes

/-- If one receiver waits for the lock of a queue with room, another one has
the lock and is not held up. -/
theorem Matched.holder {connection : Connection}
    (hgoes : ¬ InboundPipeline.ReceiverBlocked capacity connection
      (inbound.view capacity)) :
    ∃ other, ¬ inbound.Held capacity other := by
  by_cases hwaits : inbound.queue.Waits connection
  · rcases hwaits with ⟨⟨value, hlock⟩, htaken⟩
    obtain ⟨message, ptr, count, hpoint, -⟩ :=
      hmatched.calling (by rw [hlock]; rfl)
    rw [blocked_pushing_iff hpoint] at hgoes
    obtain ⟨holder, hholder⟩ := Option.ne_none_iff_exists'.mp htaken
    have hholds := (hmatched.coherent.exclusive holder).mpr hholder
    have hentered : inbound.queue.producers holder ≠ .idle := by
      intro hidle
      rw [hidle] at hholds
      exact hholds
    refine ⟨holder, ?_⟩
    rintro (hblocked | ⟨⟨other, hother⟩, -⟩)
    · rcases hmatched.pushing_or_unlock hentered with
        ⟨message, ptr, count, hat⟩ | ⟨ptr, count, result, hat, -⟩
      · exact hgoes ((blocked_pushing_iff hat).mp hblocked)
      · exact not_blocked_decoding hat hblocked
    · rw [hother] at hholds
      exact hholds
  · exact ⟨connection, fun hheld => hheld.elim hgoes hwaits⟩

/-- A step of the dispatcher that changes nothing for the others nears the
one that does, unless the dispatcher polls an empty queue or has ended. -/
theorem Matched.dispatch_nears {slots : Slots (Connection × MDMessage)}
    {outcome : RingInbound × Option InboundPipeline.Event}
    (hdispatches : Dispatches capacity slots inbound outcome)
    (hview : outcome.1.view capacity = inbound.view capacity) :
    Nears ((inbound.view capacity).Waits ∨ inbound.dispatcher = .stopped)
      (inbound.delay capacity) (outcome.1.delay capacity) := by
  have hdispatcher : outcome.1.dispatcher = inbound.dispatcher :=
    congrArg InboundPipeline.dispatcher hview
  obtain ⟨hproducers, -⟩ := hdispatches.producers
  cases hdispatches with
  | checks hpoint =>
      rw [hpoint] at hdispatcher
      cases hstop : inbound.shouldStop <;> simp [hstop] at hdispatcher
  | tests hpoint hidle =>
      apply delay_nears hview hproducers (.inl hpoint)
      intro _
      simp only [setQueue, hidle]
      decide
  | pops hpoint hidle =>
      apply delay_nears hview hproducers (.inr hpoint)
      intro _
      simp only [setQueue, hidle]
      exact Nat.lt_succ_self _
  | goes_on hcalling hstep hserving =>
      apply delay_nears hview hproducers (hmatched.calling_point hcalling)
      exact fun _ => MPSCQueue.consume_nears hcalling hstep
  | retries hpoint hstep hidle =>
      obtain ⟨-, hmoves⟩ :=
        hmatched.decided slots inbound.dispatcher hstep hidle
      have hempty : inbound.queue.contents capacity = [] := by
        have hanswer := (step_tested_iff.mp hmoves).1
        exact List.isEmpty_iff.mp hanswer.symm
      apply delay_nears hview hproducers (.inl hpoint)
      exact fun hgoes => absurd ⟨hpoint, hempty⟩ hgoes
  | finds hpoint hstep hidle => simp [hpoint] at hdispatcher
  | misses hpoint hstep hidle => simp [hpoint] at hdispatcher
  | takes hpoint hstep hidle => simp [hpoint] at hdispatcher
  | handles hpoint => simp [hpoint] at hdispatcher
  | rests hpoint =>
      exact ⟨fun _ => rfl, fun hgoes => absurd (.inr hpoint) hgoes⟩

end Steps

section Close

variable (capacity : ℕ) (slots : Slots (Connection × MDMessage))
  (inbound : RingInbound) (connection : Connection)

theorem close_queue :
    (inbound.step capacity slots (.close connection)).1.queue =
      inbound.queue := by
  simp only [step]
  split <;> rfl

theorem close_delay :
    (inbound.step capacity slots (.close connection)).1.delay capacity =
      inbound.delay capacity := by
  simp only [step]
  split
  next hpoint =>
    have hpush : ∀ other, (inbound.setThread connection
        { inbound.threads connection with point := .stopped }).pushDelay
          capacity other = inbound.pushDelay capacity other := by
      intro other
      by_cases hother : other = connection
      · subst hother
        simp only [pushDelay, setThread, Function.update_self, hpoint]
      · simp only [pushDelay, setThread, Function.update_of_ne hother]
        rfl
    simp only [delay, hpush]
    rfl
  next => rfl

end Close

end RingInbound

/-! ## The order sender -/

namespace RingSender

open SenderThread (queueSize)

/-- The steps of a caller of `send` to the one that publishes its message.
In front of a full queue there are none. -/
def sendDelay (thread : RingSender) : ℕ :=
  if (thread.queue.contents queueSize).length < queueSize then
    thread.queue.pushStepsLeft
  else 0

/-- A thread that polls an empty queue is not on its way to anything. -/
def runDelay (thread : RingSender) : ℕ :=
  match thread.point with
  | .popping =>
      if thread.shouldStop = false ∧ thread.queue.contents queueSize = [] then
        0
      else thread.queue.consumer.stepsLeft
  | _ => 0

theorem sendDelay_le (thread : RingSender) : thread.sendDelay ≤ 5 := by
  have hsteps := thread.queue.pushStepsLeft_le
  unfold sendDelay
  split <;> omega

theorem runDelay_le (thread : RingSender) : thread.runDelay ≤ 5 := by
  have hsteps := thread.queue.consumer.stepsLeft_le
  unfold runDelay
  split
  · split <;> omega
  · omega

theorem runDelay_of_idle {thread : RingSender} (hidle : thread.view.Idle) :
    thread.runDelay = 0 := by
  unfold runDelay
  split
  next hpoint =>
    have hview : thread.view.point = .popping := hpoint
    simp only [SenderThread.Idle, hview] at hidle
    exact if_pos hidle
  next => rfl

section Steps

variable {slots : Slots OrderMessage} {answer : OrderMessage → SendAnswer}
  {thread : RingSender}

theorem runDelay_eq {after : RingSender} (hview : after.view = thread.view)
    (hconsumer : after.queue.consumer = thread.queue.consumer) :
    after.runDelay = thread.runDelay := by
  have hpoint : after.point = thread.point :=
    congrArg SenderThread.point hview
  have hstop : after.shouldStop = thread.shouldStop :=
    congrArg SenderThread.shouldStop hview
  have hcontents : after.queue.contents queueSize =
      thread.queue.contents queueSize :=
    congrArg SenderThread.messageQueue hview
  simp only [runDelay, hpoint, hstop, hcontents, hconsumer]

theorem sendDelay_eq {after : RingSender}
    (hqueue : after.view.messageQueue = thread.view.messageQueue)
    (hproducer : after.queue.producer = thread.queue.producer) :
    after.sendDelay = thread.sendDelay := by
  have hcontents : after.queue.contents queueSize =
      thread.queue.contents queueSize := hqueue
  simp only [sendDelay, SPSCQueue.pushStepsLeft, hcontents, hproducer]

theorem sendDelay_nears {after : RingSender}
    (hview : after.view = thread.view)
    (hless : (thread.queue.contents queueSize).length < queueSize →
      after.queue.pushStepsLeft < thread.queue.pushStepsLeft) :
    Nears (queueSize ≤ thread.view.messageQueue.length) thread.sendDelay
      after.sendDelay := by
  have hcontents : after.queue.contents queueSize =
      thread.queue.contents queueSize :=
    congrArg SenderThread.messageQueue hview
  have hqueued : thread.view.messageQueue =
      thread.queue.contents queueSize := rfl
  rw [hqueued]
  constructor
  · intro hfull
    simp only [sendDelay, hcontents, if_neg (not_lt.mpr hfull)]
  · intro hroom
    simp only [sendDelay, hcontents, if_pos (not_le.mp hroom)]
    exact hless (not_le.mp hroom)

/-- A step in `send` that publishes nothing nears the one that does, unless
the queue is full. -/
theorem Matched.push_nears {calling : Option OrderMessage}
    (hmatched : Matched calling thread) {message : OrderMessage}
    {outcome : RingSender × Option OrderMessage}
    (hpushes : Pushes slots thread message outcome)
    (hview : outcome.1.view = thread.view) :
    Nears (queueSize ≤ thread.view.messageQueue.length) thread.sendDelay
      outcome.1.sendDelay := by
  have hmoves := SPSCQueue.step_moves slots.moved thread.queue .produce
    hmatched.coherent
  apply sendDelay_nears hview
  cases hpushes with
  | enters hidle =>
      intro _
      simp only [SPSCQueue.pushStepsLeft, setQueue, hidle]
      exact Nat.lt_succ_self _
  | @goes_on queue event hentered hstep hquiet =>
      intro hroom
      rw [hstep] at hmoves
      have hnone : event = none := by
        cases event with
        | none => rfl
        | some event =>
            rcases SPSCQueue.produce_event (congrArg Prod.snd hstep) with
              rfl | ⟨value, rfl⟩
            · have hfull := (step_full_iff.mp hmoves).1
              omega
            · exact absurd rfl (hquiet value)
      have hless := SPSCQueue.produce_nears hentered
        ((congrArg Prod.snd hstep).trans hnone)
      rw [hstep] at hless
      exact hless
  | publishes hstep =>
      rw [hstep] at hmoves
      have hcontents := congrArg SenderThread.messageQueue hview
      have hlonger := (step_pushed_iff.mp hmoves).2
      have hlength := congrArg List.length (hlonger.symm.trans hcontents)
      simp [view] at hlength

/-- A step of the thread that changes nothing for its callers nears the one
that does, unless the thread polls an empty queue or has ended. -/
theorem Runs.runDelay_lt {after : RingSender}
    (hruns : Runs slots answer thread after)
    (hview : after.view = thread.view) (hgoes : ¬ thread.view.Idle) :
    after.runDelay < thread.runDelay := by
  have hpoint : after.point = thread.point :=
    congrArg SenderThread.point hview
  have hstop : after.shouldStop = thread.shouldStop :=
    congrArg SenderThread.shouldStop hview
  have hcontents : after.queue.contents queueSize =
      thread.queue.contents queueSize :=
    congrArg SenderThread.messageQueue hview
  have hnears : thread.point = .popping →
      after.queue.consumer.stepsLeft < thread.queue.consumer.stepsLeft →
      after.runDelay < thread.runDelay := by
    intro hpopping hless
    have hviewed : thread.view.point = .popping := hpopping
    simp only [SenderThread.Idle, hviewed] at hgoes
    have hbusy : ¬ (thread.shouldStop = false ∧
        thread.queue.contents queueSize = []) := hgoes
    simp only [runDelay, hpoint, hpopping, hstop, hcontents, if_neg hbusy]
    exact hless
  cases hruns with
  | checks hchecking =>
      rw [hchecking] at hpoint
      cases hflag : thread.shouldStop <;> simp [hflag] at hpoint
  | pops hpopping hidle =>
      apply hnears hpopping
      simp only [setQueue, hidle]
      exact Nat.lt_succ_self _
  | goes_on hpopping hcalling hstep hserving =>
      exact hnears hpopping (SPSCQueue.consume_nears hcalling hstep)
  | misses hpopping hstep hidle =>
      rw [hpopping] at hpoint
      contradiction
  | takes hpopping hstep hidle =>
      rw [hpopping] at hpoint
      contradiction
  | @sends message result sender hsending hiterate =>
      rw [hsending] at hpoint
      cases result <;> contradiction
  | rests hended =>
      refine absurd ?_ hgoes
      have hviewed : thread.view.point = thread.point := rfl
      unfold SenderThread.Idle
      rcases hended with hended | hended <;> simp only [hviewed, hended]

/-- A step of the thread lowers its work, or its delay unless the thread is
idle. -/
theorem Runs.nears {after : RingSender}
    (hruns : Runs slots answer thread after)
    (hfollows : after.view = thread.view ∨
      thread.view.run answer = after.view) :
    after.view.work < thread.view.work ∨
      after.view.work = thread.view.work ∧
        after.view.messageQueue = thread.view.messageQueue ∧
        (after.view.Idle → thread.view.Idle) ∧
        Nears thread.view.Idle thread.runDelay after.runDelay := by
  by_cases hidle : thread.view.Idle
  · have hstays : after.view.Idle ∧
        after.view.messageQueue = thread.view.messageQueue ∧
        after.view.work = thread.view.work := by
      rcases hfollows with hsame | hnext
      · rw [hsame]
        exact ⟨hidle, rfl, rfl⟩
      · rw [← hnext]
        exact SenderThread.run_of_idle answer hidle
    rcases hstays with ⟨hafter, hqueue, hwork⟩
    refine .inr ⟨hwork, hqueue, fun _ => hidle, fun _ => ?_,
      fun hgoes => absurd hidle hgoes⟩
    rw [runDelay_of_idle hidle, runDelay_of_idle hafter]
  · rcases hfollows with hview | hnext
    · have hless := hruns.runDelay_lt hview hidle
      right
      rw [hview]
      exact ⟨rfl, rfl, id, fun hheld => absurd hheld hidle, fun _ => hless⟩
    · rw [← hnext]
      exact .inl (SenderThread.work_run_lt answer hidle)

end Steps

end RingSender

end Slipstream
