import Slipstream.RingDelays
import Slipstream.RingPipeline

/-!
# Progress on the rings

A single step lowers what is left to do, or the delay of the thread that does
it.  A receiver that waits for the lock lowers neither, but the one that has
the lock does, unless the queue is full; and then both are blocked.

So fair rounds of single steps get the work done as well, if there are thirty
times as many.
-/

namespace Slipstream

open FairRounds

namespace RingPipeline

open TradingPipeline (Turn Happening Thread Blocked)

/-- The steps that the threads are from those seen by the others. -/
def delay (capacity : ℕ) (pipeline : RingPipeline) : ℕ :=
  pipeline.inbound.delay capacity +
    (if pipeline.newOrders = [] then 0
      else pipeline.orderSender.sendDelay) +
    pipeline.orderSender.runDelay

theorem delay_lt (capacity : ℕ) (pipeline : RingPipeline) :
    pipeline.delay capacity < 30 := by
  have hinbound := pipeline.inbound.delay_le capacity
  have hsend := pipeline.orderSender.sendDelay_le
  have hrun := pipeline.orderSender.runDelay_le
  unfold delay
  split <;> omega

def Held (capacity : ℕ) : Thread → RingPipeline → Prop
  | .receiver connection, pipeline =>
      pipeline.inbound.Held capacity connection
  | .dispatcher, pipeline =>
      Blocked capacity (pipeline.view capacity) .dispatcher
  | .orderSender, pipeline =>
      Blocked capacity (pipeline.view capacity) .orderSender

/-- A step of `thread` from `before` to `after`. -/
def Delays (capacity : ℕ) (thread : Option Thread)
    (before after : RingPipeline) : Prop :=
  FairRounds.Delays TradingPipeline.work (view capacity) (Held capacity)
    (delay capacity) thread before after

section Delays

variable {wiring : Wiring} {inboundSlots : Slots (Connection × MDMessage)}
  {orderSlots : Slots OrderMessage} {pipeline : RingPipeline}

/-- Who is held up depends on what is seen of the threads, on the lock and
on who wants it. -/
theorem held_of_held {capacity : ℕ} {next : RingPipeline}
    (hblocked : ∀ thread, Blocked capacity (next.view capacity) thread →
      Blocked capacity (pipeline.view capacity) thread)
    (hwaits : ∀ connection, next.inbound.queue.Waits connection →
      pipeline.inbound.queue.Waits connection) (thread : Thread)
    (hgoes : ¬ Held capacity thread pipeline) :
    ¬ Held capacity thread next := by
  refine mt ?_ hgoes
  intro hheld
  cases thread with
  | receiver connection =>
      exact hheld.imp (hblocked (.receiver connection)) (hwaits connection)
  | dispatcher => exact hblocked .dispatcher hheld
  | orderSender => exact hblocked .orderSender hheld

/-- A step in `send` that publishes nothing changes the sender alone. -/
theorem send_eq {order : NewOrder} {later : List NewOrder}
    (horders : pipeline.newOrders = order :: later) (clock : ClockReadings)
    (hview : (pipeline.dispatch wiring inboundSlots orderSlots clock).1.view
      wiring.capacity = pipeline.view wiring.capacity) :
    (pipeline.dispatch wiring inboundSlots orderSlots clock).1 =
      { pipeline with
        orderSender :=
          (pipeline.orderSender.send orderSlots (.newOrder order)).1 } := by
  have hleft := congrArg TradingPipeline.newOrders hview
  simp only [view, dispatch, horders] at hleft ⊢
  generalize pipeline.orderSender.send orderSlots (.newOrder order) =
    outcome at hleft ⊢
  rcases outcome with ⟨orderSender, _ | sent⟩
  · rw [← horders]
  · simp at hleft

variable (hmatched : Matched wiring.capacity pipeline)
include hmatched

theorem Matched.exists_not_held {thread : Thread}
    (hgoes : ¬ Blocked wiring.capacity (pipeline.view wiring.capacity)
      thread) :
    ∃ other, ¬ Held wiring.capacity other pipeline := by
  cases thread with
  | receiver connection =>
      obtain ⟨other, hother⟩ := RingInbound.Matched.holder
        hmatched.inbound hgoes
      exact ⟨.receiver other, hother⟩
  | dispatcher => exact ⟨.dispatcher, hgoes⟩
  | orderSender => exact ⟨.orderSender, hgoes⟩

theorem Matched.advance_delays (connection : Connection) :
    Delays wiring.capacity (some (.receiver connection)) pipeline
      (pipeline.step wiring inboundSlots orderSlots
        (.advance connection)).1 := by
  have hadvances : RingInbound.Advances wiring.capacity pipeline.inbound
      connection (pipeline.inbound.advance wiring.capacity inboundSlots
        connection) := RingInbound.advances inboundSlots
  obtain ⟨-, hfollows⟩ := RingInbound.Matched.advance hmatched.inbound
    inboundSlots connection
  simp only [RingPipeline.step]
  generalize pipeline.inbound.advance wiring.capacity inboundSlots
    connection = inbound at hadvances hfollows ⊢
  have hseen : inbound.view wiring.capacity =
        pipeline.inbound.view wiring.capacity ∨
      (inbound.view wiring.capacity).work <
        (pipeline.inbound.view wiring.capacity).work := by
    rcases hfollows with ⟨hsame, -⟩ | hstep
    · exact .inl hsame
    · have hnext : (pipeline.inbound.view wiring.capacity).advance
          wiring.capacity connection = inbound.view wiring.capacity :=
        congrArg Prod.fst hstep
      rw [← hnext]
      by_cases hblocked : InboundPipeline.ReceiverBlocked wiring.capacity
          connection (pipeline.inbound.view wiring.capacity)
      · exact .inl (InboundPipeline.advance_of_blocked hblocked)
      · exact .inr (InboundPipeline.work_advance_lt hblocked)
  rcases hseen with hview | hlower
  · have hnears := RingInbound.Matched.advance_nears hmatched.inbound
      hadvances hview
    apply Delays.of_nears
    · simp only [view, hview]
    · constructor
      · intro hheld
        simp only [delay, hnears.stays hheld]
      · intro hgoes
        have hless := hnears.nears hgoes
        simp only [delay]
        omega
    · intro hheld thread hgoes
      cases thread with
      | receiver other =>
          exact RingInbound.Matched.advance_stays hmatched.inbound hadvances
            hview hheld hgoes
      | dispatcher =>
          simp only [Held, view, hview] at hgoes ⊢
          exact hgoes
      | orderSender => exact hgoes
  · refine .works ?_
    simp only [view, TradingPipeline.work]
    omega

theorem Matched.dispatch_view (clock : ClockReadings) :
    ((pipeline.dispatch wiring inboundSlots orderSlots clock).1.view
        wiring.capacity = pipeline.view wiring.capacity) ∨
      ((pipeline.dispatch wiring inboundSlots orderSlots clock).1.view
        wiring.capacity).work < (pipeline.view wiring.capacity).work := by
  have hsteps : Steps wiring.capacity (.dispatch clock) pipeline
      (pipeline.dispatch wiring inboundSlots orderSlots clock) :=
    Matched.step hmatched (.dispatch clock)
  rcases hsteps.follows with ⟨hsame, -⟩ | hstep
  · exact .inl hsame
  · have hnext : ((pipeline.view wiring.capacity).dispatch clock).1 =
        (pipeline.dispatch wiring inboundSlots orderSlots clock).1.view
          wiring.capacity := congrArg Prod.fst hstep
    by_cases hblocked : Blocked wiring.capacity
        (pipeline.view wiring.capacity) .dispatcher
    · left
      rw [← hnext]
      exact TradingPipeline.dispatch_of_blocked hblocked clock
    · right
      rw [← hnext]
      exact (TradingPipeline.dispatch_work clock).2 hblocked

/-- A poll that handles no message changes the inbound threads alone. -/
theorem Matched.poll_eq (horders : pipeline.newOrders = [])
    (clock : ClockReadings)
    (hview : (pipeline.dispatch wiring inboundSlots orderSlots clock).1.view
      wiring.capacity = pipeline.view wiring.capacity) :
    (pipeline.dispatch wiring inboundSlots orderSlots clock).1 =
      { pipeline with
        inbound := (pipeline.inbound.dispatch wiring.capacity
          inboundSlots).1 } := by
  have hdispatches : RingInbound.Dispatches wiring.capacity inboundSlots
      pipeline.inbound _ :=
    RingInbound.dispatches hmatched.inbound.serving inboundSlots
  have hdispatcher := congrArg
    (fun seen : TradingPipeline => seen.inbound.dispatcher) hview
  simp only [RingPipeline.dispatch, horders] at hdispatcher ⊢
  generalize pipeline.inbound.dispatch wiring.capacity inboundSlots =
    outcome at hdispatches hdispatcher ⊢
  cases hdispatches
  case handles connection message hpoint =>
    have hat : DispatchPoint.checking = pipeline.inbound.dispatcher :=
      hdispatcher
    rw [hpoint] at hat
    contradiction
  all_goals rw [← horders]

theorem Matched.poll_delays (horders : pipeline.newOrders = [])
    (clock : ClockReadings)
    (hview : (pipeline.dispatch wiring inboundSlots orderSlots clock).1.view
      wiring.capacity = pipeline.view wiring.capacity) :
    Delays wiring.capacity (some .dispatcher) pipeline
      (pipeline.dispatch wiring inboundSlots orderSlots clock).1 := by
  have hdispatches : RingInbound.Dispatches wiring.capacity inboundSlots
      pipeline.inbound _ :=
    RingInbound.dispatches hmatched.inbound.serving inboundSlots
  have hblocked_iff :
      Blocked wiring.capacity (pipeline.view wiring.capacity) .dispatcher ↔
        (pipeline.inbound.view wiring.capacity).Waits ∨
          pipeline.inbound.dispatcher = .stopped := by
    have hnone : (pipeline.view wiring.capacity).newOrders = [] := horders
    simp only [Blocked, hnone, if_true]
    rfl
  have hnext := hmatched.poll_eq horders clock hview
  rw [hnext] at hview ⊢
  obtain ⟨hproducers, hlock⟩ := hdispatches.producers
  have hnears := RingInbound.Matched.dispatch_nears hmatched.inbound
    hdispatches (congrArg TradingPipeline.inbound hview)
  rw [← hblocked_iff] at hnears
  apply Delays.of_nears
  · rw [hview]
  · constructor
    · intro hblocked
      simp only [delay, hnears.stays hblocked]
    · intro hgoes
      have hless := hnears.nears hgoes
      simp only [delay]
      omega
  · intro _
    apply held_of_held
    · intro thread
      rw [hview]
      exact id
    · intro connection
      simp only [MPSCQueue.Waits, hproducers, hlock, imp_self]

theorem Matched.send_delays {order : NewOrder} {later : List NewOrder}
    (horders : pipeline.newOrders = order :: later) (clock : ClockReadings)
    (hview : (pipeline.dispatch wiring inboundSlots orderSlots clock).1.view
      wiring.capacity = pipeline.view wiring.capacity) :
    Delays wiring.capacity (some .dispatcher) pipeline
      (pipeline.dispatch wiring inboundSlots orderSlots clock).1 := by
  have hpushes := RingSender.pushes orderSlots pipeline.orderSender
    (.newOrder order)
  have hblocked_iff :
      Blocked wiring.capacity (pipeline.view wiring.capacity) .dispatcher ↔
        SenderThread.queueSize ≤
          pipeline.orderSender.view.messageQueue.length := by
    have hsome : (pipeline.view wiring.capacity).newOrders = order :: later :=
      horders
    simp only [Blocked, hsome, List.cons_ne_nil, if_false]
    rfl
  have hnext := send_eq horders clock hview
  rw [hnext] at hview ⊢
  have hsender := congrArg TradingPipeline.orderSender hview
  have hrun := RingSender.runDelay_eq hsender hpushes.consumer
  have hnears := RingSender.Matched.push_nears hmatched.orderSender hpushes
    hsender
  rw [← hblocked_iff] at hnears
  apply Delays.of_nears
  · rw [hview]
  · constructor
    · intro hblocked
      simp only [delay, hnears.stays hblocked, hrun]
    · intro hgoes
      have hless := hnears.nears hgoes
      simp only [delay, hrun, horders, List.cons_ne_nil, if_false]
      omega
  · intro _
    apply held_of_held
    · intro thread
      rw [hview]
      exact id
    · exact fun _ => id

theorem Matched.dispatch_delays (clock : ClockReadings) :
    Delays wiring.capacity (some .dispatcher) pipeline
      (pipeline.dispatch wiring inboundSlots orderSlots clock).1 := by
  rcases hmatched.dispatch_view clock with hview | hlower
  · cases horders : pipeline.newOrders with
    | nil => exact hmatched.poll_delays horders clock hview
    | cons order later => exact hmatched.send_delays horders clock hview
  · exact .works hlower

theorem Matched.run_delays (answer : SendAnswer) :
    Delays wiring.capacity (some .orderSender) pipeline
      { pipeline with
        orderSender := pipeline.orderSender.run orderSlots
          fun _ => answer } := by
  have hruns : RingSender.Runs orderSlots (fun _ => answer)
      pipeline.orderSender _ :=
    RingSender.runs hmatched.orderSender.serving orderSlots fun _ => answer
  obtain ⟨-, hrun⟩ := RingSender.Matched.run hmatched.orderSender
    orderSlots fun _ => answer
  have hfollows := hrun.imp_left And.left
  generalize pipeline.orderSender.run orderSlots (fun _ => answer) =
    orderSender at hruns hfollows ⊢
  have hsend : orderSender.view.messageQueue =
      pipeline.orderSender.view.messageQueue →
        orderSender.sendDelay = pipeline.orderSender.sendDelay :=
    fun hqueue => RingSender.sendDelay_eq hqueue hruns.producer
  rcases hruns.nears hfollows with hlower | ⟨hwork, hqueue, hidle, hnears⟩
  · refine .works ?_
    simp only [view, TradingPipeline.work]
    omega
  · apply Delays.of_nears
    · simp only [view, TradingPipeline.work, hwork]
    · constructor
      · intro hblocked
        simp only [delay, hsend hqueue, hnears.stays hblocked]
      · intro hgoes
        have hless := hnears.nears hgoes
        simp only [delay, hsend hqueue]
        omega
    · intro _
      apply held_of_held
      · intro thread hblocked
        cases thread with
        | receiver connection => exact hblocked
        | dispatcher =>
            simp only [Blocked, view, hqueue] at hblocked ⊢
            exact hblocked
        | orderSender => exact hidle hblocked
      · exact fun _ => id

theorem Matched.close_delays (connection : Connection) :
    Delays wiring.capacity none pipeline
      (pipeline.step wiring inboundSlots orderSlots
        (.close connection)).1 := by
  have hsteps : Steps wiring.capacity (.close connection) pipeline
      (pipeline.step wiring inboundSlots orderSlots (.close connection)) :=
    hmatched.step (.close connection)
  have hqueue := RingInbound.close_queue wiring.capacity inboundSlots
    pipeline.inbound connection
  have hdelay := RingInbound.close_delay wiring.capacity inboundSlots
    pipeline.inbound connection
  refine .stays ?_ ?_ (fun _ hthread => nomatch hthread)
    (held_of_held ?_ ?_)
  · rcases hsteps.follows with ⟨hsame, -⟩ | hstep
    · rw [hsame]
    · have hwork : (TradingPipeline.step wiring.capacity
          (pipeline.view wiring.capacity) (.close connection)).1.work = _ :=
        TradingPipeline.work_close connection
      rw [hstep] at hwork
      exact hwork
  · simp only [delay, RingPipeline.step, hdelay]
    rfl
  · intro thread
    rcases hsteps.follows with ⟨hsame, -⟩ | hstep
    · rw [hsame]
      exact id
    · have hblocked : Blocked wiring.capacity
          (TradingPipeline.step wiring.capacity
            (pipeline.view wiring.capacity) (.close connection)).1 thread ↔
              _ := TradingPipeline.close_blocked_iff connection thread
      rw [hstep] at hblocked
      exact hblocked.mp
  · intro other
    simp only [RingPipeline.step, hqueue, imp_self]

/-- What a turn without new bytes does for the threads. -/
theorem Matched.delays {turn : Turn} (hquiet : turn.Quiet) :
    Delays wiring.capacity turn.thread pipeline
      (pipeline.step wiring inboundSlots orderSlots turn).1 := by
  cases turn with
  | receive connection networkBuffer =>
      obtain rfl : networkBuffer = [] := hquiet
      rw [RingPipeline.step, RingInbound.receive_nil]
      refine .stays rfl rfl ?_ fun _ hgoes => hgoes
      intro thread hthread
      contradiction
  | close connection => exact hmatched.close_delays connection
  | advance connection => exact hmatched.advance_delays connection
  | line input =>
      refine .stays rfl rfl ?_ ?_
      · intro thread hthread
        contradiction
      · intro thread hgoes
        cases thread <;> exact hgoes
  | dispatch clock => exact hmatched.dispatch_delays clock
  | send answer => exact hmatched.run_delays answer

end Delays

/-- Nothing tells the dispatcher or the order sender to stop. -/
structure Serving (capacity : ℕ) (pipeline : RingPipeline) : Prop where
  matched : Matched capacity pipeline
  serving : (pipeline.view capacity).Serving

section Runs

variable (wiring : Wiring) (inboundSlots : Slots (Connection × MDMessage))
  (orderSlots : Slots OrderMessage)

/-- The threads get their work done in single steps, thirty for each one of
atomic calls. -/
theorem progress :
    FairRounds.Progress (step wiring inboundSlots orderSlots) Turn.thread
      (fun turn => turn.Quiet ∧ turn.Succeeds) (Serving wiring.capacity)
      (fun pipeline => (pipeline.view wiring.capacity).work = 0)
      (Held wiring.capacity)
      (fun pipeline => 30 * (pipeline.view wiring.capacity).work +
        pipeline.delay wiring.capacity) := by
  have hdelays : ∀ (pipeline : RingPipeline) (turn : Turn),
      Serving wiring.capacity pipeline → turn.Quiet ∧ turn.Succeeds →
        Delays wiring.capacity turn.thread pipeline
          (pipeline.step wiring inboundSlots orderSlots turn).1 :=
    fun _ _ hserving hallowed => hserving.matched.delays hallowed.1
  apply (TradingPipeline.progress wiring.capacity_pos).refined
  · intro pipeline turn hserving hallowed
    have hsteps : Steps wiring.capacity turn pipeline
        (pipeline.step wiring inboundSlots orderSlots turn) :=
      hserving.matched.step turn
    refine ⟨hsteps.matched, ?_⟩
    rcases hsteps.follows with ⟨hsame, -⟩ | hstep
    · rw [hsame]
      exact hserving.serving
    · have hnext := hserving.serving.step wiring.capacity hallowed.2
      rw [hstep] at hnext
      exact hnext
  · exact fun _ hserving => hserving.serving
  · intro pipeline turn hserving hallowed hdone
    cases hdelays pipeline turn hserving hallowed with
    | works hwork => omega
    | nears hwork hdelay => exact hwork.trans hdone
    | stays hwork hdelay hheld hothers => exact hwork.trans hdone
  · exact delay_lt wiring.capacity
  · exact hdelays
  · exact fun _ _ hserving hgoes => hserving.matched.exists_not_held hgoes

theorem after_serving {turns : List Turn}
    (hsucceeds : ∀ turn ∈ turns, turn.Succeeds) :
    Serving wiring.capacity
      (after wiring inboundSlots orderSlots turns) := by
  obtain ⟨hmatched, moves, hsublist, hstate, -⟩ :=
    exists_moves wiring inboundSlots orderSlots turns
  refine ⟨hmatched, ?_⟩
  rw [← hstate]
  exact TradingPipeline.after_serving wiring
    fun turn hturn => hsucceeds turn (hsublist.subset hturn)

theorem after_explained (turns : List Turn) :
    TradingPipeline.Explained wiring
      (happenings wiring inboundSlots orderSlots turns)
      ((after wiring inboundSlots orderSlots turns).view
        wiring.capacity) := by
  obtain ⟨-, moves, -, hstate, hshown⟩ :=
    exists_moves wiring inboundSlots orderSlots turns
  rw [← hstate, ← hshown]
  exact TradingPipeline.after_explained wiring moves

/-- Once no more bytes arrive, fair rounds of the single steps of the rings
complete what was received, whichever of two receivers gets the lock.  No
call of `sendBuffer` fails, and nothing stops the threads. -/
theorem single_steps_complete (turns : List Turn)
    (rounds : List (List Turn))
    (hsucceeds : ∀ turn ∈ turns, turn.Succeeds)
    (hallowed : ∀ round ∈ rounds, ∀ turn ∈ round,
      turn.Quiet ∧ turn.Succeeds)
    (hrounds : ∀ round ∈ rounds, FairRounds.Round Turn.thread round)
    (hmany : 30 * (((after wiring inboundSlots orderSlots turns).view
      wiring.capacity).work + 1) ≤ rounds.length) :
    TradingPipeline.Completed wiring
      (happenings wiring inboundSlots orderSlots (turns ++ rounds.flatten))
      ((after wiring inboundSlots orderSlots
        (turns ++ rounds.flatten)).view wiring.capacity) := by
  apply (after_explained wiring inboundSlots orderSlots _).completed
  have hbound := delay_lt wiring.capacity
    (after wiring inboundSlots orderSlots turns)
  rw [after, RunHistory.exec_append]
  apply (progress wiring inboundSlots orderSlots).rounds
    (after_serving wiring inboundSlots orderSlots hsucceeds) hallowed hrounds
  omega

end Runs

/-- A trade arrives; it is handled and its order is written. -/
theorem single_steps_complete_trade :
    let inboundSlots : Slots (Connection × MDMessage) :=
      ⟨(.md, .heartbeat ⟨0⟩), id⟩
    let orderSlots : Slots OrderMessage :=
      ⟨.newOrder OrderMessageSender.sampleOrder, id⟩
    let wiring := TradingPipeline.sampleWiring
    let turns : List Turn :=
      [.receive .oe (GCMDSerialiser.frame
        (.trade (ExecutionEngine.sampleTrade .buy 1 90)))]
    let work := ((after wiring inboundSlots orderSlots turns).view
      wiring.capacity).work
    let rounds :=
      List.replicate (30 * (work + 1)) TradingPipeline.sampleRound
    let happened :=
      happenings wiring inboundSlots orderSlots (turns ++ rounds.flatten)
    let pipeline := (after wiring inboundSlots orderSlots
      (turns ++ rounds.flatten)).view wiring.capacity
    TradingPipeline.Completed wiring happened pipeline ∧
      (TradingPipeline.handledOn .oe happened).length = 1 ∧
        pipeline.wire.length = 54 := by
  intro inboundSlots orderSlots wiring turns work rounds happened pipeline
  refine ⟨?_, by decide +kernel, by decide +kernel⟩
  apply single_steps_complete wiring inboundSlots orderSlots turns rounds
  · simp [turns, TradingPipeline.Turn.Succeeds]
  · intro round hround
    rw [List.eq_of_mem_replicate hround]
    exact TradingPipeline.sampleRound_allowed
  · intro round hround
    rw [List.eq_of_mem_replicate hround]
    exact TradingPipeline.sampleRound_round
  · rw [List.length_replicate]

end RingPipeline

end Slipstream
