import Slipstream.RingInbound
import Slipstream.RingSender
import Slipstream.TradingPipeline

/-!
# The threads on the rings

The trading pipeline with the calls of both of its queues taken apart into
single steps.  The dispatcher is the producer of the sender's queue: it
stays in `send` until the order it holds is published.

Seen through the contents of the rings, every interleaving of the single
steps is one of threads whose calls are atomic.
-/

namespace Slipstream

/-- The objects shared by the threads. -/
structure RingPipeline where
  inbound : RingInbound
  session : Session
  newOrders : List NewOrder
  orderSender : RingSender

namespace RingPipeline

open TradingPipeline (Turn Happening)

section Code

variable (wiring : Wiring) (inboundSlots : Slots (Connection × MDMessage))
  (orderSlots : Slots OrderMessage)

def initial : RingPipeline where
  inbound := RingInbound.initial inboundSlots wiring.receiverBuffers
    wiring.constructed
  session := Session.initial wiring.setup
  newOrders := []
  orderSender := RingSender.initial orderSlots wiring.senderBuffer wiring.fd

/-- A step of the dispatcher, in `send` or in the loop of `run`. -/
def dispatch (pipeline : RingPipeline) (clock : ClockReadings) :
    RingPipeline × Option Happening :=
  match pipeline.newOrders with
  | order :: later =>
      match pipeline.orderSender.send orderSlots (.newOrder order) with
      | (orderSender, some _) =>
          ({ pipeline with newOrders := later, orderSender := orderSender },
            none)
      | (orderSender, none) =>
          ({ pipeline with orderSender := orderSender }, none)
  | [] =>
      match pipeline.inbound.dispatch wiring.capacity inboundSlots with
      | (inbound, some (.handled connection message)) =>
          let handled := pipeline.session.step (.message ⟨message, clock⟩)
          ({ pipeline with
              inbound := inbound
              session := handled.1
              newOrders := handled.2.orders },
            some (.handled connection ⟨message, clock⟩))
      | (inbound, _) => ({ pipeline with inbound := inbound }, none)

def step (pipeline : RingPipeline) :
    Turn → RingPipeline × Option Happening
  | .receive connection networkBuffer =>
      let received := pipeline.inbound.step wiring.capacity inboundSlots
        (.receive connection networkBuffer)
      ({ pipeline with inbound := received.1 },
        received.2.map fun _ => .received connection networkBuffer)
  | .close connection =>
      ({ pipeline with
          inbound := (pipeline.inbound.step wiring.capacity inboundSlots
            (.close connection)).1 },
        none)
  | .advance connection =>
      ({ pipeline with
          inbound := pipeline.inbound.advance wiring.capacity inboundSlots
            connection }, none)
  | .line input =>
      ({ pipeline with session := (pipeline.session.step (.line input)).1 },
        some (.line input))
  | .dispatch clock => pipeline.dispatch wiring inboundSlots orderSlots clock
  | .send answer =>
      ({ pipeline with
          orderSender := pipeline.orderSender.run orderSlots
            fun _ => answer },
        (pipeline.orderSender.point.poll? fun _ => answer).map .sent)

variable (turns : List Turn)

def after : RingPipeline :=
  RunHistory.exec (step wiring inboundSlots orderSlots)
    (initial wiring inboundSlots orderSlots) turns

def happenings : List Happening :=
  (RunHistory.outputs (step wiring inboundSlots orderSlots)
    (initial wiring inboundSlots orderSlots) turns).reduceOption

end Code

/-- The threads with queues of atomic operations. -/
def view (capacity : ℕ) (pipeline : RingPipeline) : TradingPipeline where
  inbound := pipeline.inbound.view capacity
  session := pipeline.session
  newOrders := pipeline.newOrders
  orderSender := pipeline.orderSender.view

/-- The dispatcher is in `send` with the first order left. -/
structure Matched (capacity : ℕ) (pipeline : RingPipeline) : Prop where
  inbound : pipeline.inbound.Matched capacity
  orderSender : pipeline.orderSender.Matched
    (pipeline.newOrders.head?.map OrderMessage.newOrder)

/-- What a step of the rings is to the threads with atomic queues. -/
structure Steps (capacity : ℕ) (turn : Turn) (before : RingPipeline)
    (after : RingPipeline × Option Happening) : Prop where
  matched : Matched capacity after.1
  follows : RunHistory.Follows (TradingPipeline.step capacity) turn
    (before.view capacity) (after.1.view capacity) after.2

section Matched

variable {wiring : Wiring} {inboundSlots : Slots (Connection × MDMessage)}
  {orderSlots : Slots OrderMessage} {pipeline : RingPipeline}
  (hmatched : Matched wiring.capacity pipeline)
include hmatched

theorem Matched.send {order : NewOrder} {later : List NewOrder}
    (horders : pipeline.newOrders = order :: later)
    (clock : ClockReadings) :
    Steps wiring.capacity (.dispatch clock) pipeline
      (pipeline.dispatch wiring inboundSlots orderSlots clock) := by
  have hsender := hmatched.orderSender
  rw [horders, List.head?_cons, Option.map_some] at hsender
  have hsends := hsender.send orderSlots
  have hview : (pipeline.view wiring.capacity).newOrders = order :: later :=
    horders
  simp only [dispatch, horders]
  cases hstep : pipeline.orderSender.send orderSlots (.newOrder order) with
  | mk orderSender sent =>
      rw [hstep] at hsends
      rcases hsends with ⟨hplace, hfollows⟩
      rcases hplace with ⟨rfl, hafter⟩ | ⟨rfl, hafter⟩
      · refine ⟨⟨hmatched.inbound, hafter⟩, ?_⟩
        · rcases hfollows with ⟨hsame, -⟩ | hsame
          · left
            simp only [view, horders, hsame, and_self]
          · right
            simp only [TradingPipeline.step, TradingPipeline.dispatch, hview]
            simp only [view, hsame]
      · refine ⟨⟨hmatched.inbound, hafter.uncalled⟩, .inr ?_⟩
        rcases hfollows with ⟨-, hquiet⟩ | hsame
        · contradiction
        · simp only [TradingPipeline.step, TradingPipeline.dispatch, hview]
          simp only [view, hsame]

theorem Matched.poll (horders : pipeline.newOrders = [])
    (clock : ClockReadings) :
    Steps wiring.capacity (.dispatch clock) pipeline
      (pipeline.dispatch wiring inboundSlots orderSlots clock) := by
  have hsender := hmatched.orderSender
  rw [horders, List.head?_nil, Option.map_none] at hsender
  have hsteps := RingInbound.Matched.dispatch hmatched.inbound inboundSlots
  have hview : (pipeline.view wiring.capacity).newOrders = [] := horders
  simp only [dispatch, horders]
  cases hdispatch : pipeline.inbound.dispatch wiring.capacity
      inboundSlots with
  | mk inbound event =>
      rw [hdispatch] at hsteps
      rcases hsteps with ⟨hafter, ⟨hsame, hquiet⟩ | hstep⟩
      · obtain rfl : event = none := hquiet
        refine ⟨⟨hafter, hsender⟩, .inl ⟨?_, rfl⟩⟩
        rw [view, view, horders, ← hsame]
      · have hcoarse : (pipeline.view wiring.capacity).inbound.dispatch =
            (inbound.view wiring.capacity, event) := hstep
        rcases event with _ | ⟨connection, networkBuffer⟩ |
          ⟨connection, message⟩
        · refine ⟨⟨hafter, hsender⟩, .inr ?_⟩
          simp only [TradingPipeline.step, TradingPipeline.dispatch, hview,
            hcoarse]
          rfl
        · refine ⟨⟨hafter, hsender⟩, .inr ?_⟩
          simp only [TradingPipeline.step, TradingPipeline.dispatch, hview,
            hcoarse]
          rfl
        · refine ⟨⟨hafter, hsender.uncalled⟩, .inr ?_⟩
          simp only [TradingPipeline.step, TradingPipeline.dispatch, hview,
            hcoarse]
          rfl

/-- The inbound threads take a step, which the session does not see. -/
theorem Matched.inbound_turn (turn : InboundPipeline.Turn)
    {outer : Turn} {shown : Option Happening}
    (hquiet : (pipeline.inbound.step wiring.capacity inboundSlots turn).2 =
      none → shown = none)
    (houter : ∀ coarse : TradingPipeline,
      coarse.inbound.step wiring.capacity turn =
          (((pipeline.inbound.step wiring.capacity inboundSlots
            turn).1.view wiring.capacity),
            (pipeline.inbound.step wiring.capacity inboundSlots turn).2) →
        TradingPipeline.step wiring.capacity coarse outer =
          ({ coarse with
              inbound := (pipeline.inbound.step wiring.capacity inboundSlots
                turn).1.view wiring.capacity }, shown)) :
    Steps wiring.capacity outer pipeline
      ({ pipeline with
          inbound := (pipeline.inbound.step wiring.capacity inboundSlots
            turn).1 }, shown) := by
  obtain ⟨hafter, hfollows⟩ :=
    RingInbound.Matched.step hmatched.inbound inboundSlots turn
  refine ⟨⟨hafter, hmatched.orderSender⟩, ?_⟩
  rcases hfollows with ⟨hsame, hnone⟩ | hstep
  · refine .inl ⟨?_, hquiet hnone⟩
    rw [view, view, hsame]
  · exact .inr (houter (pipeline.view wiring.capacity) hstep)

theorem Matched.step (turn : Turn) :
    Steps wiring.capacity turn pipeline
      (pipeline.step wiring inboundSlots orderSlots turn) := by
  cases turn with
  | receive connection networkBuffer =>
      apply hmatched.inbound_turn (.receive connection networkBuffer)
      · intro hnone
        rw [hnone, Option.map_none]
      · intro coarse hstep
        rw [TradingPipeline.step, hstep]
  | close connection =>
      apply hmatched.inbound_turn (.close connection)
      · exact fun _ => rfl
      · intro coarse hstep
        rw [TradingPipeline.step, hstep]
  | advance connection =>
      apply hmatched.inbound_turn (.advance connection)
      · exact fun _ => rfl
      · intro coarse hstep
        have hadvance :
            coarse.inbound.advance wiring.capacity connection = _ :=
          congrArg Prod.fst hstep
        rw [TradingPipeline.step, hadvance]
  | line input => exact ⟨⟨hmatched.inbound, hmatched.orderSender⟩, .inr rfl⟩
  | dispatch clock =>
      cases horders : pipeline.newOrders with
      | nil => exact hmatched.poll horders clock
      | cons order later => exact hmatched.send horders clock
  | send answer =>
      obtain ⟨hafter, hfollows⟩ :=
        hmatched.orderSender.run orderSlots fun _ => answer
      refine ⟨⟨hmatched.inbound, hafter⟩, ?_⟩
      rcases hfollows with ⟨hsame, hquiet⟩ | hrun
      · refine .inl ⟨?_, ?_⟩
        · simp only [view, RingPipeline.step, hsame]
        · rw [RingPipeline.step, hquiet]
          rfl
      · refine .inr ?_
        simp only [TradingPipeline.step, view, RingPipeline.step, hrun]
        rfl

end Matched

theorem initial_matched (wiring : Wiring)
    (inboundSlots : Slots (Connection × MDMessage))
    (orderSlots : Slots OrderMessage) :
    Matched wiring.capacity (initial wiring inboundSlots orderSlots) :=
  ⟨RingInbound.initial_matched _ _ _ _, RingSender.initial_matched _ _ _ _⟩

theorem initial_view (wiring : Wiring)
    (inboundSlots : Slots (Connection × MDMessage))
    (orderSlots : Slots OrderMessage) :
    (initial wiring inboundSlots orderSlots).view wiring.capacity =
      TradingPipeline.initial wiring := by
  rw [view, initial, RingInbound.initial_view, RingSender.initial_view]
  rfl

/-- Some of the turns, taken with atomic queues, lead to what is seen of the
rings. -/
theorem exists_moves (wiring : Wiring)
    (inboundSlots : Slots (Connection × MDMessage))
    (orderSlots : Slots OrderMessage) (turns : List Turn) :
    Matched wiring.capacity (after wiring inboundSlots orderSlots turns) ∧
      ∃ moves, moves.Sublist turns ∧
        TradingPipeline.after wiring moves =
          (after wiring inboundSlots orderSlots turns).view
            wiring.capacity ∧
        TradingPipeline.happenings wiring moves =
          happenings wiring inboundSlots orderSlots turns := by
  have hinit := initial_matched wiring inboundSlots orderSlots
  have hsteps : ∀ pipeline turn, Matched wiring.capacity pipeline →
      Steps wiring.capacity turn pipeline
        (pipeline.step wiring inboundSlots orderSlots turn) :=
    fun _ turn hmatched => hmatched.step turn
  have hmatched := RunHistory.exec_invariant _
    (fun pipeline turn hmatched => (hsteps pipeline turn hmatched).matched)
    hinit turns
  obtain ⟨moves, hsublist, hstate, hshown⟩ := RunHistory.exec_follows
    (fun pipeline turn hmatched => (hsteps pipeline turn hmatched).matched)
    (fun pipeline turn hmatched => (hsteps pipeline turn hmatched).follows)
    hinit turns
  rw [initial_view] at hstate hshown
  exact ⟨hmatched, moves, hsublist, hstate, hshown⟩

/-- Whatever order the loads and stores of the two rings, the acquisitions
of the lock and the other steps of the receivers, the dispatcher, the console
and the order sender are taken in, these threads do what they would do with
queues whose calls are atomic and made at some of these turns. -/
theorem refines_atomic_queues (wiring : Wiring)
    (inboundSlots : Slots (Connection × MDMessage))
    (orderSlots : Slots OrderMessage) (turns : List Turn) :
    ∃ moves, moves.Sublist turns ∧
      TradingPipeline.after wiring moves =
        (after wiring inboundSlots orderSlots turns).view wiring.capacity ∧
      TradingPipeline.happenings wiring moves =
        happenings wiring inboundSlots orderSlots turns :=
  (exists_moves wiring inboundSlots orderSlots turns).2

end RingPipeline

end Slipstream
