import Slipstream.InboundDelivery
import Slipstream.OrderMessageShutdown
import Slipstream.SessionControl

/-!
# From the connections to the order connection

The receivers, the dispatcher, the console and the order sender run in
threads of their own and meet at two bounded queues.  The dispatcher handles
one message after the other; when a trade brings an order it stays in the
handler until the queue of the sender takes the order.

Put together, the threads do what one session does that takes console lines
and messages in some order.  Its first orders have been given to
`sendBuffer`, one after the other, and the order connection holds what the
system has accepted of their frames.
-/

namespace Slipstream

open PackedBytes

namespace Session

/-- The orders of a session that takes the events one after the other. -/
def emitted (setup : Components.Setup) (events : List Event) :
    List NewOrder :=
  (RunHistory.outputs step (initial setup) events).flatMap Reaction.orders

theorem emitted_concat (setup : Components.Setup) (events : List Event)
    (event : Event) :
    emitted setup (events ++ [event]) =
      emitted setup events ++ (step (after setup events) event).2.orders := by
  simp [emitted, after]

end Session

/-- What `main` starts the threads with. -/
structure Wiring where
  setup : Components.Setup
  capacity : ℕ
  receiverBuffers : Connection → Memory
  constructed : Connection → UInt64
  senderBuffer : Memory
  fd : ℤ
  capacity_pos : 0 < capacity
  connected : fd ≠ -1

/-- The objects shared by the threads.  The orders of the message that the
dispatcher is handling stay in `newOrders` until `send` has pushed them. -/
structure TradingPipeline where
  inbound : InboundPipeline
  session : Session
  newOrders : List NewOrder
  orderSender : SenderThread

namespace TradingPipeline

def initial (wiring : Wiring) : TradingPipeline where
  inbound :=
    InboundPipeline.initial wiring.receiverBuffers wiring.constructed
  session := Session.initial wiring.setup
  newOrders := []
  orderSender := SenderThread.initial wiring.senderBuffer wiring.fd

/-- A receiver is given bytes, leaves its loop, or takes another step; the
console reads a line; the dispatcher or the order sender takes a step, and
the system answers the call of `send` if there is one. -/
inductive Turn where
  | receive (connection : Connection) (networkBuffer : List UInt8)
  | close (connection : Connection)
  | advance (connection : Connection)
  | line (input : String)
  | dispatch (clock : ClockReadings)
  | send (answer : SendAnswer)

inductive Happening where
  | received (connection : Connection) (networkBuffer : List UInt8)
  | handled (connection : Connection) (delivery : Components.Delivery)
  | line (input : String)
  | sent (poll : Poll)

def Happening.inbound? : Happening → Option InboundPipeline.Event
  | .received connection networkBuffer =>
      some (.received connection networkBuffer)
  | .handled connection delivery =>
      some (.handled connection delivery.message)
  | .line _ => none
  | .sent _ => none

def Happening.session? : Happening → Option Session.Event
  | .received _ _ => none
  | .handled _ delivery => some (.message delivery)
  | .line input => some (.line input)
  | .sent _ => none

def Happening.poll? : Happening → Option Poll
  | .sent poll => some poll
  | _ => none

def inboundEvents (happened : List Happening) :
    List InboundPipeline.Event :=
  happened.filterMap Happening.inbound?

def sessionEvents (happened : List Happening) : List Session.Event :=
  happened.filterMap Happening.session?

/-- The calls of `sendBuffer`, with the answers of the system. -/
def sends (happened : List Happening) : List Poll :=
  happened.filterMap Happening.poll?

/-- A step of the dispatcher, in `send` or in the loop of `run`.  The clocks
are read if a message is handled. -/
def dispatch (pipeline : TradingPipeline) (clock : ClockReadings) :
    TradingPipeline × Option Happening :=
  match pipeline.newOrders with
  | order :: later =>
      match pipeline.orderSender.send (.newOrder order) with
      | (orderSender, some _) =>
          ({ pipeline with newOrders := later, orderSender := orderSender },
            none)
      | (orderSender, none) =>
          ({ pipeline with orderSender := orderSender }, none)
  | [] =>
      match pipeline.inbound.dispatch with
      | (inbound, some (.handled connection message)) =>
          let handled := pipeline.session.step (.message ⟨message, clock⟩)
          ({ pipeline with
              inbound := inbound
              session := handled.1
              newOrders := handled.2.orders },
            some (.handled connection ⟨message, clock⟩))
      | (inbound, _) => ({ pipeline with inbound := inbound }, none)

/-- A call of `sendBuffer` that fails ends the program: its runs are those
in which no turn follows. -/
def step (capacity : ℕ) (pipeline : TradingPipeline) :
    Turn → TradingPipeline × Option Happening
  | .receive connection networkBuffer =>
      let received := pipeline.inbound.step capacity
        (.receive connection networkBuffer)
      ({ pipeline with inbound := received.1 },
        received.2.map fun _ => .received connection networkBuffer)
  | .close connection =>
      ({ pipeline with
          inbound := (pipeline.inbound.step capacity (.close connection)).1 },
        none)
  | .advance connection =>
      ({ pipeline with
          inbound := pipeline.inbound.advance capacity connection }, none)
  | .line input =>
      ({ pipeline with session := (pipeline.session.step (.line input)).1 },
        some (.line input))
  | .dispatch clock => pipeline.dispatch clock
  | .send answer =>
      ({ pipeline with
          orderSender := pipeline.orderSender.run fun _ => answer },
        (pipeline.orderSender.point.poll? fun _ => answer).map .sent)

section Run

variable (wiring : Wiring) (turns : List Turn)

def after : TradingPipeline :=
  RunHistory.exec (step wiring.capacity) (initial wiring) turns

def happenings : List Happening :=
  (RunHistory.outputs (step wiring.capacity) (initial wiring)
    turns).reduceOption

end Run

/-- The bytes on the order connection. -/
def wire (pipeline : TradingPipeline) : List UInt8 :=
  pipeline.orderSender.sender.clientConnection.sent

/-! ## The steps of the dispatcher -/

/-- What a step of the dispatcher can be. -/
inductive Dispatches (pipeline : TradingPipeline) (clock : ClockReadings) :
    TradingPipeline × Option Happening → Prop
  | pushes {order : NewOrder} {later : List NewOrder}
      (horders : pipeline.newOrders = order :: later)
      (hroom : pipeline.orderSender.messageQueue.length <
        SenderThread.queueSize) :
      Dispatches pipeline clock
        ({ pipeline with
            newOrders := later
            orderSender.messageQueue :=
              pipeline.orderSender.messageQueue ++ [.newOrder order] },
          none)
  | retries (horders : pipeline.newOrders ≠ [])
      (hfull : ¬ pipeline.orderSender.messageQueue.length <
        SenderThread.queueSize) :
      Dispatches pipeline clock (pipeline, none)
  | handles {connection : Connection} {message : MDMessage}
      (horders : pipeline.newOrders = [])
      (hpoint : pipeline.inbound.dispatcher = .handling connection message) :
      Dispatches pipeline clock
        ({ pipeline with
            inbound := pipeline.inbound.dispatch.1
            session := (pipeline.session.step (.message ⟨message, clock⟩)).1
            newOrders :=
              (pipeline.session.step
                (.message ⟨message, clock⟩)).2.orders },
          some (.handled connection ⟨message, clock⟩))
  | polls (horders : pipeline.newOrders = [])
      (hpoint : ∀ connection message,
        pipeline.inbound.dispatcher ≠ .handling connection message)
      (hquiet : pipeline.inbound.dispatch.2 = none) :
      Dispatches pipeline clock
        ({ pipeline with inbound := pipeline.inbound.dispatch.1 }, none)

theorem inbound_dispatch_quiet {inbound : InboundPipeline}
    (hpoint : ∀ connection message,
      inbound.dispatcher ≠ .handling connection message) :
    inbound.dispatch.2 = none := by
  unfold InboundPipeline.dispatch
  split
  case h_1 => rfl
  case h_2 => split <;> rfl
  case h_3 => split <;> rfl
  case h_4 connection message hhandling =>
    exact absurd hhandling (hpoint connection message)
  case h_5 => rfl

theorem dispatches (pipeline : TradingPipeline) (clock : ClockReadings) :
    Dispatches pipeline clock (pipeline.dispatch clock) := by
  cases horders : pipeline.newOrders with
  | cons order later =>
      by_cases hroom : pipeline.orderSender.messageQueue.length <
          SenderThread.queueSize
      · have hpush : Dispatches pipeline clock _ := .pushes horders hroom
        simpa [dispatch, horders, SenderThread.send, BoundedFifo.push,
          hroom] using hpush
      · have hsame : pipeline.dispatch clock = (pipeline, none) := by
          simp [dispatch, horders, SenderThread.send, BoundedFifo.push,
            hroom]
          rw [← horders]
        rw [hsame]
        exact .retries (by simp [horders]) hroom
  | nil =>
      by_cases hhandling : ∃ connection message,
          pipeline.inbound.dispatcher = .handling connection message
      · rcases hhandling with ⟨connection, message, hpoint⟩
        have hhandle : Dispatches pipeline clock _ :=
          .handles horders hpoint
        simpa [dispatch, horders, InboundPipeline.dispatch, hpoint] using
          hhandle
      · push Not at hhandling
        have hquiet := inbound_dispatch_quiet hhandling
        have hpoll : Dispatches pipeline clock _ :=
          .polls horders hhandling hquiet
        rw [dispatch, horders]
        cases hdispatch : pipeline.inbound.dispatch with
        | mk inbound event =>
            rw [hdispatch] at hquiet hpoll
            rw [show event = none from hquiet]
            simpa [horders] using hpoll

/-! ## The parts of a run -/

/-- The events seen so far explain the inbound threads, the session, and the
orders that were passed to the sender and by it to the connection. -/
structure Explained (wiring : Wiring) (happened : List Happening)
    (pipeline : TradingPipeline) : Prop where
  inbound : ∃ turns,
    pipeline.inbound = InboundPipeline.after wiring.capacity
        wiring.receiverBuffers wiring.constructed turns ∧
      InboundPipeline.events wiring.capacity wiring.receiverBuffers
          wiring.constructed turns =
        inboundEvents happened
  session : pipeline.session =
    Session.after wiring.setup (sessionEvents happened)
  sender : ∃ passed,
    SenderThread.Sends passed (sends happened) pipeline.orderSender ∧
      (Session.emitted wiring.setup (sessionEvents happened)).map
          OrderMessage.newOrder =
        passed ++ pipeline.newOrders.map .newOrder

theorem explained_initial (wiring : Wiring) :
    Explained wiring [] (initial wiring) where
  inbound := ⟨[], rfl, rfl⟩
  session := rfl
  sender := ⟨[], SenderThread.initial_sends _ wiring.connected, rfl⟩

theorem inboundEvents_concat (happened : List Happening)
    (happening : Option Happening) :
    inboundEvents (happened ++ happening.toList) =
      inboundEvents happened ++
        (happening.bind Happening.inbound?).toList := by
  rw [inboundEvents, inboundEvents, List.filterMap_append]
  rcases happening with _ | (_ | _ | _ | _) <;> rfl

theorem sessionEvents_concat (happened : List Happening)
    (happening : Option Happening) :
    sessionEvents (happened ++ happening.toList) =
      sessionEvents happened ++
        (happening.bind Happening.session?).toList := by
  rw [sessionEvents, sessionEvents, List.filterMap_append]
  rcases happening with _ | (_ | _ | _ | _) <;> rfl

theorem sends_concat (happened : List Happening)
    (happening : Option Happening) :
    sends (happened ++ happening.toList) =
      sends happened ++ (happening.bind Happening.poll?).toList := by
  rw [sends, sends, List.filterMap_append]
  rcases happening with _ | (_ | _ | _ | _) <;> rfl

section Step

variable {wiring : Wiring} {happened : List Happening}
  {pipeline : TradingPipeline}
  (hexplained : Explained wiring happened pipeline)
include hexplained

theorem Explained.inbound_moves (turn : InboundPipeline.Turn)
    {happening : Option Happening}
    (hshown : happening.bind Happening.inbound? =
      (pipeline.inbound.step wiring.capacity turn).2) :
    ∃ turns,
      (pipeline.inbound.step wiring.capacity turn).1 =
          InboundPipeline.after wiring.capacity wiring.receiverBuffers
            wiring.constructed turns ∧
        InboundPipeline.events wiring.capacity wiring.receiverBuffers
            wiring.constructed turns =
          inboundEvents (happened ++ happening.toList) := by
  rcases hexplained.inbound with ⟨turns, hafter, hevents⟩
  refine ⟨turns ++ [turn], ?_, ?_⟩
  · rw [InboundPipeline.after, RunHistory.exec_append, hafter]
    rfl
  · rw [InboundPipeline.events, RunHistory.reduceOption_outputs_concat,
      inboundEvents_concat, hshown, hafter, ← hevents]
    rfl

/-- A turn of the inbound threads in which no message is handled. -/
theorem Explained.inbound_turn (turn : InboundPipeline.Turn)
    {happening : Option Happening}
    (hshown : happening.bind Happening.inbound? =
      (pipeline.inbound.step wiring.capacity turn).2)
    (hquiet : happening.bind Happening.session? = none)
    (hpoll : happening.bind Happening.poll? = none) :
    Explained wiring (happened ++ happening.toList)
      { pipeline with
        inbound := (pipeline.inbound.step wiring.capacity turn).1 } := by
  have hsame : sessionEvents (happened ++ happening.toList) =
      sessionEvents happened := by
    rw [sessionEvents_concat, hquiet, Option.toList_none, List.append_nil]
  constructor
  · exact hexplained.inbound_moves turn hshown
  · rw [hsame]
    exact hexplained.session
  · rw [hsame, sends_concat, hpoll, Option.toList_none, List.append_nil]
    exact hexplained.sender

/-- The session takes an event; its orders are added to those left. -/
theorem Explained.session_turn (event : Session.Event)
    {happening : Happening} (hevent : happening.session? = some event)
    {inbound : InboundPipeline}
    (hinbound : ∃ turns,
      inbound = InboundPipeline.after wiring.capacity
          wiring.receiverBuffers wiring.constructed turns ∧
        InboundPipeline.events wiring.capacity wiring.receiverBuffers
            wiring.constructed turns =
          inboundEvents (happened ++ [happening])) :
    Explained wiring (happened ++ [happening])
      { pipeline with
        inbound := inbound
        session := (pipeline.session.step event).1
        newOrders := pipeline.newOrders ++
          (pipeline.session.step event).2.orders } := by
  have hevents : sessionEvents (happened ++ [happening]) =
      sessionEvents happened ++ [event] := by
    have hconcat := sessionEvents_concat happened (some happening)
    rw [Option.bind_some, hevent] at hconcat
    exact hconcat
  constructor
  · exact hinbound
  · rw [hevents, Session.after_concat, ← hexplained.session]
  · have hsame : sends (happened ++ [happening]) = sends happened := by
      refine (sends_concat happened (some happening)).trans ?_
      cases happening with
      | sent poll => contradiction
      | _ => exact List.append_nil _
    rcases hexplained.sender with ⟨passed, hsends, hpassed⟩
    rw [hsame]
    refine ⟨passed, hsends, ?_⟩
    rw [hevents, Session.emitted_concat, ← hexplained.session,
      List.map_append, hpassed, List.append_assoc, List.map_append]

theorem Explained.line (input : String) :
    Explained wiring (happened ++ [.line input])
      { pipeline with
        session := (pipeline.session.step (.line input)).1 } := by
  have hinbound := hexplained.inbound
  have hshown : inboundEvents (happened ++ [.line input]) =
      inboundEvents happened :=
    (inboundEvents_concat happened (some (.line input))).trans
      (List.append_nil _)
  rw [← hshown] at hinbound
  have hturn := hexplained.session_turn (.line input) rfl hinbound
  have hnone : (pipeline.session.step (.line input)).2.orders = [] := rfl
  rw [hnone, List.append_nil] at hturn
  exact hturn

/-- A push that passes an order to the sender. -/
theorem Explained.push {order : NewOrder} {later : List NewOrder}
    (horders : pipeline.newOrders = order :: later)
    (hroom : pipeline.orderSender.messageQueue.length <
      SenderThread.queueSize) :
    Explained wiring happened
      { pipeline with
        newOrders := later
        orderSender.messageQueue :=
          pipeline.orderSender.messageQueue ++ [.newOrder order] } := by
  refine ⟨hexplained.inbound, hexplained.session, ?_⟩
  rcases hexplained.sender with ⟨passed, hsends, hpassed⟩
  have hsent := hsends.send (.newOrder order)
  rw [SenderThread.send, BoundedFifo.push, if_pos hroom] at hsent
  refine ⟨_, hsent, ?_⟩
  rw [hpassed, horders]
  simp

/-- A step of the sender thread. -/
theorem Explained.send (answer : SendAnswer) :
    Explained wiring
      (happened ++
        ((pipeline.orderSender.point.poll? fun _ => answer).map
          Happening.sent).toList)
      { pipeline with
        orderSender := pipeline.orderSender.run fun _ => answer } := by
  rcases hexplained.sender with ⟨passed, hsends, hpassed⟩
  have hrun := hsends.run fun _ => answer
  cases hpoll : pipeline.orderSender.point.poll? fun _ => answer with
  | none =>
      rw [hpoll, Option.toList_none, List.append_nil] at hrun
      rw [Option.map_none, Option.toList_none, List.append_nil]
      exact ⟨hexplained.inbound, hexplained.session, passed, hrun, hpassed⟩
  | some poll =>
      rw [hpoll] at hrun
      have hevents := inboundEvents_concat happened (some (.sent poll))
      have hlines := sessionEvents_concat happened (some (.sent poll))
      have hsent := sends_concat happened (some (.sent poll))
      rw [Option.map_some]
      constructor
      · rw [hevents]
        simpa [Happening.inbound?] using hexplained.inbound
      · rw [hlines]
        simpa [Happening.session?] using hexplained.session
      · rw [hlines, hsent]
        refine ⟨passed, hrun, ?_⟩
        simpa [Happening.session?] using hpassed

theorem Explained.dispatch (clock : ClockReadings) :
    Explained wiring (happened ++ (pipeline.dispatch clock).2.toList)
      (pipeline.dispatch clock).1 := by
  have hdispatches := pipeline.dispatches clock
  generalize pipeline.dispatch clock = outcome at hdispatches ⊢
  cases hdispatches with
  | @pushes order later horders hroom =>
      rw [Option.toList_none, List.append_nil]
      exact hexplained.push horders hroom
  | retries horders hfull =>
      rw [Option.toList_none, List.append_nil]
      exact hexplained
  | @handles connection message horders hpoint =>
      let happening : Happening := .handled connection ⟨message, clock⟩
      have hshown : (some happening).bind Happening.inbound? =
          (pipeline.inbound.step wiring.capacity .dispatch).2 := by
        simp [InboundPipeline.step, InboundPipeline.dispatch, hpoint,
          happening, Happening.inbound?]
      have hmoved := hexplained.inbound_moves .dispatch hshown
      have hturn := hexplained.session_turn (.message ⟨message, clock⟩)
        rfl hmoved
      rw [horders] at hturn
      exact hturn
  | polls horders hpoint hquiet =>
      have hshown : (none : Option Happening).bind Happening.inbound? =
          (pipeline.inbound.step wiring.capacity .dispatch).2 := hquiet.symm
      exact hexplained.inbound_turn .dispatch hshown rfl rfl

theorem Explained.receive (connection : Connection)
    (networkBuffer : List UInt8) :
    Explained wiring
      (happened ++ (step wiring.capacity pipeline
        (.receive connection networkBuffer)).2.toList)
      (step wiring.capacity pipeline
        (.receive connection networkBuffer)).1 := by
  rcases pipeline.inbound.receive_cases wiring.capacity connection
      networkBuffer with hsame | ⟨-, hreceive⟩
  · apply hexplained.inbound_turn (.receive connection networkBuffer) <;>
      rw [step, hsame] <;> rfl
  · apply hexplained.inbound_turn (.receive connection networkBuffer) <;>
      rw [step, hreceive] <;> rfl

theorem Explained.step (turn : Turn) :
    Explained wiring
      (happened ++ (step wiring.capacity pipeline turn).2.toList)
      (step wiring.capacity pipeline turn).1 := by
  cases turn with
  | receive connection networkBuffer =>
      exact hexplained.receive connection networkBuffer
  | close connection =>
      apply hexplained.inbound_turn (.close connection) _ rfl rfl
      rcases pipeline.inbound.close_cases wiring.capacity connection with
        hsame | ⟨-, hclose⟩
      · rw [hsame]
        rfl
      · rw [hclose]
        rfl
  | advance connection =>
      have hshown : (none : Option Happening).bind Happening.inbound? =
          (pipeline.inbound.step wiring.capacity
            (.advance connection)).2 := rfl
      exact hexplained.inbound_turn (.advance connection) hshown rfl rfl
  | line input => exact hexplained.line input
  | dispatch clock => exact hexplained.dispatch clock
  | send answer => exact hexplained.send answer

end Step

theorem after_explained (wiring : Wiring) (turns : List Turn) :
    Explained wiring (happenings wiring turns) (after wiring turns) := by
  induction turns using List.reverseRecOn with
  | nil => exact explained_initial wiring
  | append_singleton earlier turn ih =>
      rw [happenings, RunHistory.reduceOption_outputs_concat, after,
        RunHistory.exec_append]
      exact ih.step turn

def handledOn (connection : Connection) (happened : List Happening) :
    List MDMessage :=
  InboundPipeline.handledOn connection (inboundEvents happened)

def receivedOn (connection : Connection) (happened : List Happening) :
    List (List UInt8) :=
  InboundPipeline.receivedOn connection (inboundEvents happened)

/-! ## The orders and their frames -/

/-- The system has accepted the whole frame in each call of `sendBuffer`. -/
def SendsWhole (happened : List Happening) : Prop :=
  ∀ poll ∈ sends happened, poll.accepted = poll.frame

/-- The orders that were given to `sendBuffer`, and the others. -/
structure Written (wiring : Wiring) (happened : List Happening)
    (pipeline : TradingPipeline) (orders later : List NewOrder) :
    Prop where
  emitted : Session.emitted wiring.setup (sessionEvents happened) =
    orders ++ later
  sent : OrderMessageSender.taken (sends happened) =
    orders.map OrderMessage.newOrder
  wire : pipeline.wire = (sends happened).flatMap Poll.accepted
  unwritten : later.map OrderMessage.newOrder =
    pipeline.orderSender.inHand ++ pipeline.orderSender.messageQueue ++
      pipeline.newOrders.map .newOrder

theorem Written.wire_of_whole {wiring : Wiring} {happened : List Happening}
    {pipeline : TradingPipeline} {orders later : List NewOrder}
    (hwritten : Written wiring happened pipeline orders later)
    (hwhole : SendsWhole happened) :
    pipeline.wire =
      orders.flatMap fun order => (OrderMessage.newOrder order).frame := by
  rw [hwritten.wire, List.flatMap_congr hwhole,
    ← OrderMessageSender.flatMap_frame_taken, hwritten.sent,
    List.flatMap_map]

/-- Every order is given to `sendBuffer`, in the hand or the queue of the
sender, or still to be pushed. -/
theorem Explained.written {wiring : Wiring} {happened : List Happening}
    {pipeline : TradingPipeline}
    (hexplained : Explained wiring happened pipeline) :
    ∃ orders later, Written wiring happened pipeline orders later := by
  rcases hexplained.sender with ⟨passed, hsends, hpassed⟩
  rw [hsends.places, List.append_assoc] at hpassed
  obtain ⟨orders, later, hemitted, hsent, hlater⟩ :=
    List.map_eq_append_iff.mp hpassed
  exact ⟨orders, later, hemitted, hsent.symm, hsends.sent, hlater⟩

/-- No order is with the dispatcher or with the sender. -/
structure Drained (pipeline : TradingPipeline) : Prop where
  newOrders : pipeline.newOrders = []
  messageQueue : pipeline.orderSender.messageQueue = []
  inHand : pipeline.orderSender.inHand = []

theorem Written.eq_of_drained {wiring : Wiring} {happened : List Happening}
    {pipeline : TradingPipeline} {orders later : List NewOrder}
    (hwritten : Written wiring happened pipeline orders later)
    (hdrained : pipeline.Drained) :
    Session.emitted wiring.setup (sessionEvents happened) = orders := by
  have hlater := hwritten.unwritten
  rw [hdrained.newOrders, hdrained.messageQueue, hdrained.inHand,
    List.map_nil, List.append_nil, List.append_nil, List.map_eq_nil_iff]
    at hlater
  rw [hwritten.emitted, hlater, List.append_nil]

def sampleWiring : Wiring where
  setup := Components.sampleSetup
  capacity := 1024
  receiverBuffers := fun _ _ => 0
  constructed := fun _ => 1000
  senderBuffer := fun _ => 0
  fd := 3
  capacity_pos := by decide
  connected := by decide

end TradingPipeline

end Slipstream
