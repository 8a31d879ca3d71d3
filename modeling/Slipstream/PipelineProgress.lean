import Slipstream.DispatcherShutdown
import Slipstream.FairRounds
import Slipstream.ReceivedFrames

/-!
# The pipeline runs empty

A full queue holds up the thread in front of it: the dispatcher waits for the
order sender, the receivers wait for the dispatcher.  The work that is left
weighs every message and order by the steps it still has to take.  Each step
of a thread that is not held up lowers it, and as long as some is left one of
the threads is not held up.

So once no more bytes arrive, fair rounds carry all that was received to the
order connection, unless a thread ends: a receiver may leave its loop, and a
failing `send` ends the program.
-/

namespace Slipstream

open PackedBytes

namespace ReceiverThread

/-- The steps to decode and push, and those of the dispatcher that follow. -/
def work (thread : ReceiverThread) : ℕ :=
  match thread.point with
  | .receiving => 0
  | .decoding _ count => 13 * count + 1
  | .pushing _ _ count => 13 * count + 12
  | .stopped => 0

theorem work_stepOver (thread : ReceiverThread) (ptr count : ℕ) :
    (thread.stepOver ptr count).work = 13 * count + 1 := rfl

theorem work_decode_lt (thread : ReceiverThread) (ptr count : ℕ) :
    (thread.decode ptr count).work < 13 * count + 1 := by
  cases count with
  | zero => exact Nat.zero_lt_one
  | succ count =>
      rw [decode]
      split
      · exact Nat.succ_pos _
      · simp only [work]
        omega

end ReceiverThread

namespace InboundPipeline

/-- A queue that is not empty costs a test. -/
def testWork (queue : List (Connection × MDMessage)) : ℕ :=
  if queue = [] then 0 else 1

def dispatchWork (pipeline : InboundPipeline) : ℕ :=
  match pipeline.dispatcher with
  | .checking => testWork pipeline.inboundMessageQueue + 1
  | .testing => testWork pipeline.inboundMessageQueue
  | .popping => if pipeline.inboundMessageQueue = [] then 2 else 0
  | .handling _ _ => 8
  | .stopped => 0

def work (pipeline : InboundPipeline) : ℕ :=
  (pipeline.threads .md).work + (pipeline.threads .oe).work +
    9 * pipeline.inboundMessageQueue.length + pipeline.dispatchWork

theorem testWork_le (queue : List (Connection × MDMessage)) :
    testWork queue ≤ 1 := by
  unfold testWork
  split <;> omega

theorem work_setThread (pipeline : InboundPipeline)
    (connection : Connection) (thread : ReceiverThread) :
    (pipeline.setThread connection thread).work +
        (pipeline.threads connection).work =
      pipeline.work + thread.work := by
  have hdispatch : (pipeline.setThread connection thread).dispatchWork =
      pipeline.dispatchWork := rfl
  unfold work
  rw [hdispatch, setThread_queue]
  cases connection with
  | md =>
      rw [setThread_self, setThread_other _ _ _ (by decide)]
      omega
  | oe =>
      rw [setThread_self, setThread_other _ _ _ (by decide)]
      omega

theorem dispatchWork_setQueue_le (pipeline : InboundPipeline)
    (entry : Connection × MDMessage) :
    (pipeline.setQueue
        (pipeline.inboundMessageQueue ++ [entry])).dispatchWork ≤
      pipeline.dispatchWork + 1 := by
  have htest := testWork_le (pipeline.inboundMessageQueue ++ [entry])
  unfold dispatchWork
  cases hpoint : pipeline.dispatcher <;>
    simp only [setQueue, hpoint] <;> first | omega | simp

/-- The receiver waits for bytes, for room in the queue, or for nothing. -/
def ReceiverBlocked (capacity : ℕ) (connection : Connection)
    (pipeline : InboundPipeline) : Prop :=
  match (pipeline.threads connection).point with
  | .receiving => True
  | .decoding _ _ => False
  | .pushing _ _ _ => capacity ≤ pipeline.inboundMessageQueue.length
  | .stopped => True

theorem advance_of_blocked {capacity : ℕ} {connection : Connection}
    {pipeline : InboundPipeline}
    (hblocked : ReceiverBlocked capacity connection pipeline) :
    pipeline.advance capacity connection = pipeline := by
  unfold ReceiverBlocked at hblocked
  rcases pipeline.advance_cases capacity connection with
    hsame | ⟨ptr, count, hpoint, -⟩ | ⟨message, ptr, count, hpoint, hroom, -⟩
  · exact hsame
  · simp only [hpoint] at hblocked
  · simp only [hpoint] at hblocked
    omega

theorem work_advance_lt {capacity : ℕ} {connection : Connection}
    {pipeline : InboundPipeline}
    (hgoes : ¬ ReceiverBlocked capacity connection pipeline) :
    (pipeline.advance capacity connection).work < pipeline.work := by
  cases hpoint : (pipeline.threads connection).point with
  | receiving => simp [ReceiverBlocked, hpoint] at hgoes
  | stopped => simp [ReceiverBlocked, hpoint] at hgoes
  | decoding ptr count =>
      have hthread : (pipeline.threads connection).work = 13 * count + 1 :=
        by simp only [ReceiverThread.work, hpoint]
      have hdecode := (pipeline.threads connection).work_decode_lt ptr count
      have hwork := pipeline.work_setThread connection
        ((pipeline.threads connection).decode ptr count)
      simp only [advance, hpoint]
      omega
  | pushing message ptr count =>
      have hroom : pipeline.inboundMessageQueue.length < capacity := by
        simpa [ReceiverBlocked, hpoint] using hgoes
      have hthread : (pipeline.threads connection).work =
          13 * count + 12 := by
        simp only [ReceiverThread.work, hpoint]
      let queued := pipeline.setQueue
        (pipeline.inboundMessageQueue ++ [(connection, message)])
      have hqueued : queued.work ≤ pipeline.work + 10 := by
        have hdispatch := pipeline.dispatchWork_setQueue_le
          (connection, message)
        simp only [work, queued, setQueue_threads, setQueue_queue,
          List.length_append, List.length_singleton]
        omega
      have hwork := queued.work_setThread connection
        ((pipeline.threads connection).stepOver ptr count)
      rw [show queued.threads connection = pipeline.threads connection
        from rfl, ReceiverThread.work_stepOver] at hwork
      have hadvance : pipeline.advance capacity connection =
          queued.setThread connection
            ((pipeline.threads connection).stepOver ptr count) := by
        simp only [advance, hpoint, BoundedFifo.push, if_pos hroom, queued]
      rw [hadvance]
      omega

/-- A step in the loop of `run`; one that handles a message may bring an
order, which costs five steps. -/
theorem work_dispatch (pipeline : InboundPipeline) :
    (pipeline.dispatch.1 = pipeline ∧
        (pipeline.Waits ∨ pipeline.dispatcher = .stopped)) ∨
      pipeline.dispatch.1.work < pipeline.work ∧
        ((∃ connection message,
            pipeline.dispatcher = .handling connection message) →
          pipeline.dispatch.1.work + 5 < pipeline.work) := by
  cases hpoint : pipeline.dispatcher with
  | checking =>
      right
      cases hstop : pipeline.shouldStop <;>
        simp [dispatch, work, dispatchWork, hpoint, hstop]
  | testing =>
      cases hqueue : pipeline.inboundMessageQueue with
      | nil => exact .inl ⟨dispatch_waits ⟨hpoint, hqueue⟩,
          .inl ⟨hpoint, hqueue⟩⟩
      | cons entry rest =>
          right
          simp [dispatch, work, dispatchWork, testWork, hpoint, hqueue]
  | popping =>
      right
      cases hqueue : pipeline.inboundMessageQueue with
      | nil =>
          simp [dispatch, work, dispatchWork, testWork, hpoint, hqueue,
            BoundedFifo.pop]
      | cons entry rest =>
          simp [dispatch, work, dispatchWork, hpoint, hqueue,
            BoundedFifo.pop]
          omega
  | handling connection message =>
      right
      have htest := testWork_le pipeline.inboundMessageQueue
      simp only [dispatch, work, dispatchWork, hpoint]
      omega
  | stopped => exact .inl ⟨by simp [dispatch, hpoint], .inr rfl⟩

end InboundPipeline

namespace SenderThread

/-- Once the flag is set the thread still has to come to its test. -/
def work (thread : SenderThread) : ℕ :=
  3 * thread.messageQueue.length +
    match thread.point with
    | .checking =>
        if thread.shouldStop then 1
        else if thread.messageQueue = [] then 0 else 1
    | .popping => if thread.shouldStop then 2 else 0
    | .sending _ => 2
    | .returned => 0
    | .terminated => 0

/-- The thread polls an empty queue, or has ended. -/
def Idle (thread : SenderThread) : Prop :=
  match thread.point with
  | .checking => thread.shouldStop = false ∧ thread.messageQueue = []
  | .popping => thread.shouldStop = false ∧ thread.messageQueue = []
  | .sending _ => False
  | .returned => True
  | .terminated => True

theorem work_push_le (thread : SenderThread) (message : OrderMessage) :
    work { thread with
        messageQueue := thread.messageQueue ++ [message] } ≤
      thread.work + 4 := by
  unfold work
  cases hpoint : thread.point with
  | checking =>
      cases hstop : thread.shouldStop with
      | true =>
          simp only [List.length_append, List.length_singleton, if_true]
          omega
      | false =>
          simp only [List.length_append, List.length_singleton,
            Bool.false_eq_true, if_false, List.append_eq_nil_iff,
            List.cons_ne_nil, and_false]
          omega
  | popping => simp only [List.length_append, List.length_singleton]; omega
  | sending _ => simp only [List.length_append, List.length_singleton]; omega
  | returned => simp only [List.length_append, List.length_singleton]; omega
  | terminated => simp only [List.length_append, List.length_singleton]; omega

theorem run_of_idle (answer : OrderMessage → SendAnswer)
    {thread : SenderThread} (hidle : thread.Idle) :
    (thread.run answer).Idle ∧
      (thread.run answer).messageQueue = thread.messageQueue ∧
      (thread.run answer).work = thread.work := by
  unfold Idle at hidle
  cases hpoint : thread.point with
  | checking =>
      simp only [hpoint] at hidle
      simp [run, Idle, work, hpoint, hidle.1, hidle.2]
  | popping =>
      simp only [hpoint] at hidle
      simp [run, Idle, work, hpoint, hidle.1, hidle.2, BoundedFifo.pop]
  | sending message => simp only [hpoint] at hidle
  | returned => simp [run, Idle, work, hpoint]
  | terminated => simp [run, Idle, work, hpoint]

theorem work_run_lt (answer : OrderMessage → SendAnswer)
    {thread : SenderThread} (hgoes : ¬ thread.Idle) :
    (thread.run answer).work < thread.work := by
  unfold Idle at hgoes
  cases hpoint : thread.point with
  | checking =>
      simp only [hpoint] at hgoes
      cases hstop : thread.shouldStop with
      | true => simp [run, work, hpoint, hstop]
      | false =>
          have hqueue : thread.messageQueue ≠ [] := fun hempty =>
            hgoes ⟨hstop, hempty⟩
          simp [run, work, hpoint, hstop, hqueue]
  | popping =>
      simp only [hpoint] at hgoes
      cases hqueue : thread.messageQueue with
      | nil =>
          have hstop : thread.shouldStop = true := by
            simpa [hqueue] using hgoes
          simp [run, work, hpoint, hstop, hqueue, BoundedFifo.pop]
      | cons message rest =>
          simp only [run, work, hpoint, hqueue, BoundedFifo.pop,
            List.length_cons]
          omega
  | sending message =>
      simp only [run, hpoint]
      split
      · simp only [work, hpoint]
        split <;> first | omega | (split <;> omega)
      · simp only [work, hpoint]
        omega
  | returned => simp [hpoint] at hgoes
  | terminated => simp [hpoint] at hgoes

end SenderThread

namespace TradingPipeline

/-- The threads that carry messages and orders on. -/
inductive Thread where
  | receiver (connection : Connection)
  | dispatcher
  | orderSender

def Turn.thread : Turn → Option Thread
  | .receive _ _ => none
  | .close _ => none
  | .advance connection => some (.receiver connection)
  | .line _ => none
  | .dispatch _ => some .dispatcher
  | .send _ => some .orderSender

/-- A turn in which no bytes arrive: a call of `recv` times out. -/
def Turn.Quiet : Turn → Prop
  | .receive _ networkBuffer => networkBuffer = []
  | _ => True

/-- A turn in which no call of `send` fails. -/
def Turn.Succeeds : Turn → Prop
  | .send answer => ∃ n, answer = .ok n ∧ 1 ≤ n
  | _ => True

/-- An order that waits in `send` costs its push and its way to the wire. -/
def work (pipeline : TradingPipeline) : ℕ :=
  pipeline.inbound.work + 5 * pipeline.newOrders.length +
    pipeline.orderSender.work

def Blocked (capacity : ℕ) (pipeline : TradingPipeline) : Thread → Prop
  | .receiver connection =>
      InboundPipeline.ReceiverBlocked capacity connection pipeline.inbound
  | .dispatcher =>
      if pipeline.newOrders = [] then
        pipeline.inbound.Waits ∨ pipeline.inbound.dispatcher = .stopped
      else
        SenderThread.queueSize ≤ pipeline.orderSender.messageQueue.length
  | .orderSender => pipeline.orderSender.Idle

theorem length_orders_le (session : Session)
    (delivery : Components.Delivery) :
    (session.step (.message delivery)).2.orders.length ≤ 1 := by
  rcases delivery with ⟨message, clock⟩
  cases message with
  | trade trade =>
      rw [Session.step, Components.dispatch_trade]
      exact Option.length_toList_le
  | quote quote => exact Nat.zero_le 1
  | heartbeat heartbeat => exact Nat.zero_le 1
  | sessionControl sessionControl => exact Nat.zero_le 1

/-- What the threads look at has not changed. -/
structure Alike (pipeline next : TradingPipeline) : Prop where
  inbound : next.inbound = pipeline.inbound
  newOrders : next.newOrders = pipeline.newOrders
  messageQueue : next.orderSender.messageQueue =
    pipeline.orderSender.messageQueue
  idle : next.orderSender.Idle ↔ pipeline.orderSender.Idle
  work : next.work = pipeline.work

theorem Alike.blocked_iff {capacity : ℕ} {pipeline next : TradingPipeline}
    (halike : Alike pipeline next) (thread : Thread) :
    Blocked capacity next thread ↔ Blocked capacity pipeline thread := by
  cases thread with
  | receiver connection => rw [Blocked, Blocked, halike.inbound]
  | dispatcher =>
      rw [Blocked, Blocked, halike.inbound, halike.newOrders,
        halike.messageQueue]
  | orderSender => exact halike.idle

theorem Alike.rfl {pipeline : TradingPipeline} : Alike pipeline pipeline :=
  ⟨Eq.refl _, Eq.refl _, Eq.refl _, Iff.refl _, Eq.refl _⟩

section Steps

variable {capacity : ℕ} {pipeline : TradingPipeline}

/-- A dispatcher that is blocked changes nothing. -/
theorem dispatch_of_blocked
    (hblocked : Blocked capacity pipeline .dispatcher)
    (clock : ClockReadings) : (pipeline.dispatch clock).1 = pipeline := by
  have hdispatches := pipeline.dispatches clock
  generalize pipeline.dispatch clock = outcome at hdispatches ⊢
  cases hdispatches with
  | pushes horders hroom =>
      simp only [Blocked, horders, List.cons_ne_nil, if_false] at hblocked
      omega
  | retries horders hfull => rfl
  | handles horders hpoint =>
      simp only [Blocked, if_pos horders] at hblocked
      rcases hblocked with hwaits | hstopped
      · rw [hwaits.testing] at hpoint
        contradiction
      · rw [hstopped] at hpoint
        contradiction
  | polls horders hpoint hquiet =>
      simp only [Blocked, if_pos horders] at hblocked
      have hsame : pipeline.inbound.dispatch.1 = pipeline.inbound := by
        rcases hblocked with hwaits | hstopped
        · exact InboundPipeline.dispatch_waits hwaits
        · simp [InboundPipeline.dispatch, hstopped]
      rw [hsame]

theorem dispatch_work (clock : ClockReadings) :
    (Blocked capacity pipeline .dispatcher →
        Alike pipeline (pipeline.dispatch clock).1) ∧
      (¬ Blocked capacity pipeline .dispatcher →
        (pipeline.dispatch clock).1.work < pipeline.work) := by
  refine ⟨fun hblocked => ?_, fun hgoes => ?_⟩
  · rw [dispatch_of_blocked hblocked clock]
    exact .rfl
  have hdispatches := pipeline.dispatches clock
  have hwork := pipeline.inbound.work_dispatch
  generalize pipeline.dispatch clock = outcome at hdispatches ⊢
  cases hdispatches with
  | @pushes order later horders hroom =>
      have hpush := pipeline.orderSender.work_push_le (.newOrder order)
      simp only [work, horders, List.length_cons]
      omega
  | retries horders hfull =>
      simp only [Blocked, horders, if_false] at hgoes
      exact absurd (not_le.mp hgoes) hfull
  | @handles connection message horders hpoint =>
      have horder := length_orders_le pipeline.session ⟨message, clock⟩
      simp only [Blocked, if_pos horders] at hgoes
      rcases hwork with ⟨-, hblocked⟩ | ⟨-, hhandled⟩
      · exact absurd hblocked hgoes
      · have hlower := hhandled ⟨connection, message, hpoint⟩
        simp only [work, horders, List.length_nil]
        omega
  | polls horders hpoint hquiet =>
      simp only [Blocked, if_pos horders] at hgoes
      rcases hwork with ⟨-, hblocked⟩ | ⟨hlower, -⟩
      · exact absurd hblocked hgoes
      · simp only [work]
        omega

theorem advance_work (connection : Connection) :
    (Blocked capacity pipeline (.receiver connection) →
        Alike pipeline (step capacity pipeline (.advance connection)).1) ∧
      (¬ Blocked capacity pipeline (.receiver connection) →
        (step capacity pipeline (.advance connection)).1.work <
          pipeline.work) := by
  constructor
  · intro hblocked
    rw [step, InboundPipeline.advance_of_blocked hblocked]
    exact .rfl
  · intro hgoes
    have hlower := InboundPipeline.work_advance_lt hgoes
    simp only [step, work]
    omega

theorem send_work (answer : SendAnswer) :
    (Blocked capacity pipeline .orderSender →
        Alike pipeline (step capacity pipeline (.send answer)).1) ∧
      (¬ Blocked capacity pipeline .orderSender →
        (step capacity pipeline (.send answer)).1.work < pipeline.work) := by
  constructor
  · intro hidle
    rcases SenderThread.run_of_idle (fun _ => answer) hidle with
      ⟨hstays, hqueue, hwork⟩
    refine ⟨rfl, rfl, hqueue, iff_of_true hstays hidle, ?_⟩
    simp only [step, work, hwork]
  · intro hgoes
    have hlower := SenderThread.work_run_lt (fun _ => answer) hgoes
    simp only [step, work]
    omega

/-- A receiver leaves its loop where it was waiting for bytes. -/
theorem close_blocked_iff (connection : Connection) (thread : Thread) :
    Blocked capacity (step capacity pipeline (.close connection)).1 thread ↔
      Blocked capacity pipeline thread := by
  rcases pipeline.inbound.close_cases capacity connection with
    hsame | ⟨hpoint, hclose⟩
  · rw [step, hsame]
  · rw [step, hclose]
    cases thread with
    | receiver other =>
        by_cases hother : other = connection
        · subst hother
          simp [Blocked, InboundPipeline.ReceiverBlocked, hpoint]
        · simp [Blocked, InboundPipeline.ReceiverBlocked,
            InboundPipeline.setThread_other _ _ _ hother]
    | dispatcher =>
        simp only [Blocked]
        split
        · exact or_congr ⟨fun h => ⟨h.testing, h.empty⟩,
            fun h => ⟨h.testing, h.empty⟩⟩ Iff.rfl
        · exact Iff.rfl
    | orderSender => exact Iff.rfl

theorem work_close (connection : Connection) :
    (step capacity pipeline (.close connection)).1.work =
      pipeline.work := by
  rcases pipeline.inbound.close_cases capacity connection with
    hsame | ⟨hpoint, hclose⟩
  · rw [step, hsame]
  · have hbefore : (pipeline.inbound.threads connection).work = 0 := by
      simp only [ReceiverThread.work, hpoint]
    have hsame := pipeline.inbound.work_setThread connection
      { pipeline.inbound.threads connection with point := .stopped }
    rw [hbefore, ReceiverThread.work, add_zero, add_zero] at hsame
    rw [step, hclose]
    simp only [work, hsame]

end Steps

/-! ## Fair rounds -/

/-- Nothing tells the dispatcher or the order sender to stop. -/
structure Serving (pipeline : TradingPipeline) : Prop where
  dispatcher_goes_on : pipeline.inbound.shouldStop = false
  dispatcher_runs : pipeline.inbound.dispatcher ≠ .stopped
  sender_goes_on : pipeline.orderSender.shouldStop = false
  sender_runs : pipeline.orderSender.point ≠ .returned
  sender_alive : pipeline.orderSender.point ≠ .terminated
  connected : pipeline.orderSender.sender.clientConnection.fd ≠ -1

theorem serving_initial (wiring : Wiring) : (initial wiring).Serving where
  dispatcher_goes_on := rfl
  dispatcher_runs := by simp [initial, InboundPipeline.initial]
  sender_goes_on := rfl
  sender_runs := by simp [initial, SenderThread.initial]
  sender_alive := by simp [initial, SenderThread.initial]
  connected := wiring.connected

section Serving

variable {pipeline : TradingPipeline} (hserving : pipeline.Serving)
include hserving

theorem Serving.inbound_dispatch :
    pipeline.inbound.dispatch.1.shouldStop = false ∧
      pipeline.inbound.dispatch.1.dispatcher ≠ .stopped := by
  rw [InboundPipeline.dispatch_shouldStop]
  refine ⟨hserving.dispatcher_goes_on, ?_⟩
  unfold InboundPipeline.dispatch
  rw [hserving.dispatcher_goes_on]
  split
  case h_1 => simp
  case h_2 hpoint =>
    split
    · simp [hpoint]
    · simp
  case h_3 => split <;> simp
  case h_4 => simp
  case h_5 hpoint => exact absurd hpoint hserving.dispatcher_runs

theorem Serving.run {n : ℕ} (hsome : 1 ≤ n) :
    let orderSender := pipeline.orderSender.run fun _ => .ok n
    orderSender.shouldStop = false ∧ orderSender.point ≠ .returned ∧
      orderSender.point ≠ .terminated ∧
        orderSender.sender.clientConnection.fd ≠ -1 := by
  intro orderSender
  refine ⟨?_, ?_⟩
  · exact (SenderThread.run_shouldStop _ _).trans hserving.sender_goes_on
  · unfold orderSender SenderThread.run
    rw [hserving.sender_goes_on]
    split
    case h_1 => simp [hserving.connected]
    case h_2 => split <;> simp [hserving.connected]
    case h_3 message hpoint =>
      rw [OrderMessageSender.iterate_taken,
        ClientConnection.sendBuffer_of_accepted hserving.connected _ hsome]
      exact ⟨nofun, nofun, hserving.connected⟩
    case h_4 hpoint => exact absurd hpoint hserving.sender_runs
    case h_5 hpoint => exact absurd hpoint hserving.sender_alive

theorem Serving.dispatch (clock : ClockReadings) :
    (pipeline.dispatch clock).1.Serving := by
  have hdispatches := pipeline.dispatches clock
  generalize pipeline.dispatch clock = outcome at hdispatches ⊢
  cases hdispatches with
  | pushes horders hroom => exact { hserving with }
  | retries horders hfull => exact hserving
  | handles horders hpoint =>
      exact { hserving with
        dispatcher_goes_on := hserving.inbound_dispatch.1
        dispatcher_runs := hserving.inbound_dispatch.2 }
  | polls horders hpoint hquiet =>
      exact { hserving with
        dispatcher_goes_on := hserving.inbound_dispatch.1
        dispatcher_runs := hserving.inbound_dispatch.2 }

theorem Serving.advance (capacity : ℕ) (connection : Connection) :
    (TradingPipeline.step capacity pipeline
      (.advance connection)).1.Serving := by
  rcases pipeline.inbound.advance_cases capacity connection with
    hsame | ⟨ptr, count, -, hdecode⟩ | ⟨message, ptr, count, -, -, hpush⟩
  · rw [TradingPipeline.step, hsame]
    exact hserving
  · rw [TradingPipeline.step, hdecode]
    exact { hserving with }
  · rw [TradingPipeline.step, hpush]
    exact { hserving with }

theorem Serving.step (capacity : ℕ) {turn : Turn}
    (hsucceeds : turn.Succeeds) :
    (TradingPipeline.step capacity pipeline turn).1.Serving := by
  cases turn with
  | receive connection networkBuffer =>
      rcases pipeline.inbound.receive_cases capacity connection
          networkBuffer with hsame | ⟨-, hreceive⟩
      · rw [TradingPipeline.step, hsame]
        exact hserving
      · rw [TradingPipeline.step, hreceive]
        exact { hserving with }
  | close connection =>
      rcases pipeline.inbound.close_cases capacity connection with
        hsame | ⟨-, hclose⟩
      · rw [TradingPipeline.step, hsame]
        exact hserving
      · rw [TradingPipeline.step, hclose]
        exact { hserving with }
  | advance connection => exact hserving.advance capacity connection
  | line input => exact { hserving with }
  | dispatch clock => exact hserving.dispatch clock
  | send answer =>
      obtain ⟨n, rfl, hsome⟩ := hsucceeds
      rcases hserving.run hsome with ⟨hflag, hruns, halive, hconnected⟩
      exact { hserving with
        sender_goes_on := hflag
        sender_runs := hruns
        sender_alive := halive
        connected := hconnected }

/-- An order sender that polls has no order, and is not told to stop. -/
theorem Serving.empty_of_idle (hidle : pipeline.orderSender.Idle) :
    pipeline.orderSender.messageQueue = [] ∧
      pipeline.orderSender.work = 0 := by
  unfold SenderThread.Idle at hidle
  cases hpoint : pipeline.orderSender.point with
  | checking =>
      simp only [hpoint] at hidle
      simp [SenderThread.work, hpoint, hidle.1, hidle.2]
  | popping =>
      simp only [hpoint] at hidle
      simp [SenderThread.work, hpoint, hidle.1, hidle.2]
  | sending message => simp only [hpoint] at hidle
  | returned => exact absurd hpoint hserving.sender_runs
  | terminated => exact absurd hpoint hserving.sender_alive

/-- As long as there is work some thread can go on. -/
theorem Serving.enabled {capacity : ℕ} (hcapacity : 0 < capacity)
    (hwork : pipeline.work ≠ 0) :
    ∃ thread, ¬ Blocked capacity pipeline thread := by
  by_contra hstuck
  push Not at hstuck
  obtain ⟨hsender, hsent⟩ := hserving.empty_of_idle (hstuck .orderSender)
  have horders : pipeline.newOrders = [] := by
    have hblocked := hstuck .dispatcher
    by_contra horders
    rw [Blocked, if_neg horders, hsender] at hblocked
    exact absurd hblocked (by decide)
  have hwaits : pipeline.inbound.Waits := by
    have hblocked := hstuck .dispatcher
    rw [Blocked, if_pos horders] at hblocked
    exact hblocked.resolve_right hserving.dispatcher_runs
  have hreceivers : ∀ connection,
      (pipeline.inbound.threads connection).work = 0 := by
    intro connection
    have hblocked := hstuck (.receiver connection)
    unfold Blocked InboundPipeline.ReceiverBlocked at hblocked
    rw [hwaits.empty] at hblocked
    unfold ReceiverThread.work
    cases hpoint : (pipeline.inbound.threads connection).point with
    | receiving => rfl
    | decoding ptr count => simp only [hpoint] at hblocked
    | pushing message ptr count =>
        simp only [hpoint, List.length_nil] at hblocked
        omega
    | stopped => rfl
  have hpolls : pipeline.inbound.dispatchWork = 0 := by
    simp only [InboundPipeline.dispatchWork, hwaits.testing,
      InboundPipeline.testWork, hwaits.empty, if_true]
  apply hwork
  rw [work, InboundPipeline.work, hreceivers .md, hreceivers .oe, hpolls,
    hsent, horders, hwaits.empty]
  rfl

end Serving

section Turns

variable {capacity : ℕ} {pipeline : TradingPipeline} {turn : Turn}

theorem Alike.keeps {next : TradingPipeline} (halike : Alike pipeline next) :
    FairRounds.Keeps (fun thread pipeline => Blocked capacity pipeline thread)
      TradingPipeline.work pipeline next where
  same := halike.work
  others thread := (not_congr (halike.blocked_iff thread)).mpr

theorem step_work {thread : Thread}
    (hthread : turn.thread = some thread) :
    (Blocked capacity pipeline thread →
        Alike pipeline (step capacity pipeline turn).1) ∧
      (¬ Blocked capacity pipeline thread →
        (step capacity pipeline turn).1.work < pipeline.work) := by
  cases turn with
  | receive connection networkBuffer => contradiction
  | close connection => contradiction
  | advance connection =>
      obtain rfl := Option.some.inj hthread
      exact advance_work connection
  | line input => contradiction
  | dispatch clock =>
      obtain rfl := Option.some.inj hthread
      exact dispatch_work clock
  | send answer =>
      obtain rfl := Option.some.inj hthread
      exact send_work answer

theorem step_keeps (hquiet : turn.Quiet) (hthread : turn.thread = none) :
    FairRounds.Keeps (fun thread pipeline => Blocked capacity pipeline thread)
      work pipeline (step capacity pipeline turn).1 := by
  cases turn with
  | receive connection networkBuffer =>
      obtain rfl : networkBuffer = [] := hquiet
      rw [step, InboundPipeline.receive_nil]
      exact Alike.rfl.keeps
  | close connection =>
      exact ⟨work_close connection, fun thread =>
        (not_congr (close_blocked_iff connection thread)).mpr⟩
  | advance connection => contradiction
  | line input =>
      exact ⟨rfl, fun thread hgoes => by cases thread <;> exact hgoes⟩
  | dispatch clock => contradiction
  | send answer => contradiction

end Turns

/-- The threads of the pipeline get their work done. -/
theorem progress {capacity : ℕ} (hcapacity : 0 < capacity) :
    FairRounds.Progress (step capacity) Turn.thread
      (fun turn => turn.Quiet ∧ turn.Succeeds) Serving
      (fun pipeline => pipeline.work = 0)
      (fun thread pipeline => Blocked capacity pipeline thread) work := by
  have hown : ∀ (pipeline : TradingPipeline) (turn : Turn) (thread : Thread),
      Serving pipeline → turn.Quiet ∧ turn.Succeeds →
        turn.thread = some thread →
        (Blocked capacity pipeline thread →
            FairRounds.Keeps
              (fun thread pipeline => Blocked capacity pipeline thread) work
              pipeline (step capacity pipeline turn).1) ∧
          (¬ Blocked capacity pipeline thread →
            (step capacity pipeline turn).1.work < pipeline.work) := by
    intro pipeline turn thread _ _ hthread
    obtain ⟨halike, hlower⟩ := step_work hthread
    exact ⟨fun hblocked => (halike hblocked).keeps, hlower⟩
  have hfree : ∀ (pipeline : TradingPipeline) (turn : Turn),
      Serving pipeline → turn.Quiet ∧ turn.Succeeds → turn.thread = none →
        FairRounds.Keeps
          (fun thread pipeline => Blocked capacity pipeline thread) work
          pipeline (step capacity pipeline turn).1 :=
    fun _ _ _ hallowed hthread => step_keeps hallowed.1 hthread
  apply FairRounds.Progress.of_steps hown hfree
  · exact fun pipeline turn hserving hallowed =>
      hserving.step capacity hallowed.2
  · intro pipeline turn hserving hallowed hdone
    rcases FairRounds.lowers_or_keeps hown hfree pipeline turn hserving
      hallowed with hlower | hkeeps
    · omega
    · exact hkeeps.same.trans hdone
  · exact fun pipeline hserving hwork => hserving.enabled hcapacity hwork

theorem after_serving (wiring : Wiring) {turns : List Turn}
    (hsucceeds : ∀ turn ∈ turns, turn.Succeeds) :
    (after wiring turns).Serving := by
  unfold after
  generalize hstart : initial wiring = pipeline
  have hserving : pipeline.Serving := hstart ▸ serving_initial wiring
  clear hstart
  induction turns generalizing pipeline with
  | nil => exact hserving
  | cons turn rest ih =>
      rw [List.forall_mem_cons] at hsucceeds
      exact ih hsucceeds.2 _ (hserving.step wiring.capacity hsucceeds.1)

/-! ## An empty pipeline -/

section Empty

variable {pipeline : TradingPipeline} (hdone : pipeline.work = 0)
include hdone

theorem drained : pipeline.Drained := by
  have hsender : pipeline.orderSender.work = 0 := by
    unfold work at hdone
    omega
  constructor
  · apply List.eq_nil_of_length_eq_zero
    unfold work at hdone
    omega
  · apply List.eq_nil_of_length_eq_zero
    unfold SenderThread.work at hsender
    omega
  · unfold SenderThread.work at hsender
    unfold SenderThread.inHand
    split at hsender <;> simp_all

theorem inbound_empty (connection : Connection) :
    pipeline.inbound.inFlight connection = [] ∧
      ((pipeline.inbound.threads connection).point = .receiving ∨
        (pipeline.inbound.threads connection).point = .stopped) := by
  have hinbound : pipeline.inbound.work = 0 := by
    unfold work at hdone
    omega
  have hqueue : pipeline.inbound.inboundMessageQueue = [] := by
    apply List.eq_nil_of_length_eq_zero
    unfold InboundPipeline.work at hinbound
    omega
  have hhand : pipeline.inbound.inHand = [] := by
    have hdispatch : pipeline.inbound.dispatchWork = 0 := by
      unfold InboundPipeline.work at hinbound
      omega
    unfold InboundPipeline.inHand
    split
    next connection message hpoint =>
      simp [InboundPipeline.dispatchWork, hpoint] at hdispatch
    next => rfl
  have hthread : (pipeline.inbound.threads connection).work = 0 := by
    unfold InboundPipeline.work at hinbound
    cases connection <;> omega
  have hreceiver : (pipeline.inbound.threads connection).waiting = [] ∧
      ((pipeline.inbound.threads connection).point = .receiving ∨
        (pipeline.inbound.threads connection).point = .stopped) := by
    unfold ReceiverThread.work at hthread
    unfold ReceiverThread.waiting
    split at hthread
    next hpoint => simp [hpoint]
    next => omega
    next => omega
    next hpoint => simp [hpoint]
  refine ⟨?_, hreceiver.2⟩
  rw [InboundPipeline.inFlight, hhand, hqueue, hreceiver.1]
  rfl

/-- Of every complete frame the message has been handled. -/
theorem Explained.handles_all {wiring : Wiring} {happened : List Happening}
    (hexplained : Explained wiring happened pipeline)
    {connection : Connection}
    (hgoes : (pipeline.inbound.threads connection).point ≠ .stopped) :
    List.Forall₂ ReadFrom
      (framing.split (receivedOn connection happened).flatten).1
      (handledOn connection happened) := by
  obtain ⟨hflight, hidle⟩ := inbound_empty hdone connection
  have hall := (hexplained.handlesFrames connection).complete
    (hidle.resolve_right hgoes)
  rwa [hflight, List.append_nil] at hall

end Empty

/-- A pipeline that has brought all that it received to an end: every order
of the session was given to `sendBuffer`, and every complete frame was
handled if its receiver goes on. -/
structure Completed (wiring : Wiring) (happened : List Happening)
    (pipeline : TradingPipeline) : Prop where
  sent : OrderMessageSender.taken (sends happened) =
    (Session.emitted wiring.setup (sessionEvents happened)).map
      OrderMessage.newOrder
  wire : pipeline.wire = (sends happened).flatMap Poll.accepted
  wire_of_whole : SendsWhole happened → pipeline.wire =
    (Session.emitted wiring.setup (sessionEvents happened)).flatMap
      fun order => (OrderMessage.newOrder order).frame
  handled : ∀ connection,
    (pipeline.inbound.threads connection).point ≠ .stopped →
      List.Forall₂ ReadFrom
        (framing.split (receivedOn connection happened).flatten).1
        (handledOn connection happened)

theorem Explained.completed {wiring : Wiring} {happened : List Happening}
    {pipeline : TradingPipeline}
    (hexplained : Explained wiring happened pipeline)
    (hdone : pipeline.work = 0) : Completed wiring happened pipeline := by
  rcases hexplained.written with ⟨orders, later, hwritten⟩
  have hemitted := hwritten.eq_of_drained (drained hdone)
  constructor
  · rw [hemitted]
    exact hwritten.sent
  · exact hwritten.wire
  · rw [hemitted]
    exact hwritten.wire_of_whole
  · exact fun connection => hexplained.handles_all hdone

/-- Once no more bytes arrive, as many rounds as there are steps left, and
one more, complete what was received, as long as no call of `sendBuffer`
fails and nothing stops the threads. -/
theorem rounds_complete (wiring : Wiring) (turns : List Turn)
    (rounds : List (List Turn))
    (hsucceeds : ∀ turn ∈ turns, turn.Succeeds)
    (hallowed : ∀ round ∈ rounds, ∀ turn ∈ round,
      turn.Quiet ∧ turn.Succeeds)
    (hrounds : ∀ round ∈ rounds, FairRounds.Round Turn.thread round)
    (hmany : (after wiring turns).work < rounds.length) :
    Completed wiring (happenings wiring (turns ++ rounds.flatten))
      (after wiring (turns ++ rounds.flatten)) := by
  apply (after_explained wiring (turns ++ rounds.flatten)).completed
  rw [after, RunHistory.exec_append]
  exact (progress wiring.capacity_pos).rounds
    (after_serving wiring hsucceeds) hallowed hrounds hmany

/-- Every thread takes a step, and a call of `recv` times out. -/
def sampleRound : List Turn :=
  [.receive .md [], .advance .md, .advance .oe, .dispatch ⟨5, 5, 5⟩,
    .send (.ok 54)]

theorem sampleRound_round : FairRounds.Round Turn.thread sampleRound := by
  intro thread
  cases thread with
  | receiver connection =>
      cases connection <;> simp [sampleRound, Turn.thread]
  | dispatcher => simp [sampleRound, Turn.thread]
  | orderSender => simp [sampleRound, Turn.thread]

theorem sampleRound_allowed :
    ∀ turn ∈ sampleRound, turn.Quiet ∧ turn.Succeeds := by
  simp [sampleRound, Turn.Quiet, Turn.Succeeds]

/-- A trade arrives; it is handled and its order is written. -/
theorem rounds_complete_trade :
    let turns : List Turn :=
      [.receive .oe (GCMDSerialiser.frame
        (.trade (ExecutionEngine.sampleTrade .buy 1 90)))]
    let rounds := List.replicate ((after sampleWiring turns).work + 1)
      sampleRound
    Completed sampleWiring
        (happenings sampleWiring (turns ++ rounds.flatten))
        (after sampleWiring (turns ++ rounds.flatten)) ∧
      (handledOn .oe
          (happenings sampleWiring (turns ++ rounds.flatten))).length = 1 ∧
        (after sampleWiring (turns ++ rounds.flatten)).wire.length = 54 := by
  intro turns rounds
  refine ⟨?_, by decide +kernel, by decide +kernel⟩
  apply rounds_complete sampleWiring turns rounds
  · simp [turns, Turn.Succeeds]
  · intro round hround
    rw [List.eq_of_mem_replicate hround]
    exact sampleRound_allowed
  · intro round hround
    rw [List.eq_of_mem_replicate hround]
    exact sampleRound_round
  · rw [List.length_replicate]
    exact Nat.lt_succ_self _

end TradingPipeline

end Slipstream
