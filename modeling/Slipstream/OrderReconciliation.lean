import Slipstream.ExecutionLedger
import Slipstream.OrderReadback

/-!
# The books and the order connection

The engine books a trade when it accepts it; the order is written later, by
another thread.  At any time the executed quantity of the engine is the
accepted quantity of the orders given to `sendBuffer` and of those on their
way to it, and the id of each of them is the place of its trade among the
trades that were handled.
-/

namespace Slipstream

namespace ExecutionEngine

/-- The id of an order is the place of the trade that it answers. -/
theorem orderStream_answers (config : Config) {calls : List EngineCall}
    (hcount : (handledTrades calls).length < 2 ^ 64) :
    ∀ order ∈ orderStream config calls, ∃ trade,
      (handledTrades calls)[order.clientOrderId.toNat]? = some trade ∧
        order.Answers trade := by
  induction calls using List.reverseRecOn with
  | nil => simp [orderStream]
  | append_singleton before call ih =>
      rw [handledTrades_concat, List.length_append] at hcount
      have hbefore : (handledTrades before).length < 2 ^ 64 := by omega
      intro order horder
      rw [orderStream_concat, List.mem_append] at horder
      rw [handledTrades_concat]
      rcases horder with hold | hnew
      · obtain ⟨trade, hplace, hanswers⟩ := ih hbefore order hold
        have hlt := clientOrderId_lt config hbefore order hold
        exact ⟨trade, (List.getElem?_append_left hlt).trans hplace, hanswers⟩
      · obtain ⟨vwapService, clock, trade, rfl, rfl⟩ :=
          exists_trade_of_mem_perform hnew
        have hid := (answer_answersTrade config hbefore vwapService clock
          trade).clientOrderId
        refine ⟨trade, ?_, answer_answers _ vwapService clock trade⟩
        rw [hid]
        exact List.getElem?_concat_length

end ExecutionEngine

namespace Session

open ExecutionEngine

/-- What an event is to the engine. -/
theorem step_calls (session : Session) (event : Event) :
    ∃ calls,
      (step session event).1.components.executionEngine =
          RunHistory.exec perform session.components.executionEngine calls ∧
        (step session event).2.orders =
          (RunHistory.outputs perform session.components.executionEngine
            calls).reduceOption ∧
        handledTrades calls = event.trade?.toList := by
  cases event with
  | line input =>
      obtain ⟨halted, hcomponents⟩ := runSession_components session input
      simp only [step, hcomponents]
      cases halted with
      | true => exact ⟨[.haltTrading], rfl, rfl, rfl⟩
      | false => exact ⟨[.resumeTrading], rfl, rfl, rfl⟩
  | message delivery =>
      rcases delivery with ⟨message, clock⟩
      cases message with
      | quote quote =>
          exact ⟨[.onQuoteReceived clock.steadyMs], rfl, rfl, rfl⟩
      | trade trade =>
          refine ⟨[.handleTrade (session.components.fed trade) clock trade],
            ?_, ?_, rfl⟩
          · simp only [step, Components.dispatch_trade]
            rfl
          · simp only [step, Components.dispatch_trade, RunHistory.outputs,
              perform]
            cases (session.components.executionEngine.handleTrade
              (session.components.fed trade) clock trade).1 <;> rfl
      | heartbeat heartbeat => exact ⟨[], rfl, rfl, rfl⟩
      | sessionControl control => exact ⟨[], rfl, rfl, rfl⟩

/-- A session is a run of its engine. -/
theorem after_calls (setup : Components.Setup) (events : List Event) :
    ∃ calls,
      (after setup events).components.executionEngine =
          ExecutionEngine.after setup.config calls ∧
        emitted setup events = orderStream setup.config calls ∧
        handledTrades calls = tradesOf events := by
  induction events using List.reverseRecOn with
  | nil => exact ⟨[], rfl, rfl, rfl⟩
  | append_singleton earlier event ih =>
      rcases ih with ⟨before, hengine, horders, htrades⟩
      obtain ⟨calls, hnext, hanswer, htrade⟩ :=
        step_calls (after setup earlier) event
      refine ⟨before ++ calls, ?_, ?_, ?_⟩
      · rw [after_concat, hnext, hengine, ExecutionEngine.after,
          ExecutionEngine.after, RunHistory.exec_append]
      · rw [emitted_concat, hanswer, horders, hengine, orderStream,
          orderStream, RunHistory.outputs_append, List.reduceOption_append]
        rfl
      · rw [tradesOf_concat, ← htrade, ← htrades]
        exact List.filterMap_append

end Session

namespace TradingPipeline

def engine (pipeline : TradingPipeline) : ExecutionEngine :=
  pipeline.session.components.executionEngine

/-- The orders given to `sendBuffer` and those on their way to it, against
the trades handled and the books of the engine. -/
structure Reconciled (wiring : Wiring) (happened : List Happening)
    (pipeline : TradingPipeline) (orders later : List NewOrder) : Prop
    extends Written wiring happened pipeline orders later where
  ids : (orders ++ later).Pairwise fun earlier later =>
    earlier.clientOrderId < later.clientOrderId
  answers : ∀ order ∈ orders ++ later, ∃ trade,
    (Session.tradesOf (sessionEvents happened))[
        order.clientOrderId.toNat]? = some trade ∧
      order.Answers trade
  executed : pipeline.engine.getExecutedQuantity.toNat =
    acceptedQuantity orders + acceptedQuantity later
  handled : pipeline.engine.getCumulativeExecutedQuantity.toNat =
    quantitySum (Session.tradesOf (sessionEvents happened))

theorem Explained.reconciled {wiring : Wiring} {happened : List Happening}
    {pipeline : TradingPipeline}
    (hexplained : Explained wiring happened pipeline)
    (hcount : (Session.tradesOf (sessionEvents happened)).length < 2 ^ 32) :
    ∃ orders later, Reconciled wiring happened pipeline orders later := by
  rcases hexplained.written with ⟨orders, later, hwritten⟩
  obtain ⟨calls, hengine, horders, htrades⟩ := Session.after_calls
    wiring.setup (sessionEvents happened)
  rw [← htrades] at hcount
  have hvolume : ExecutionEngine.marketVolume calls < 2 ^ 64 := by
    have hle := quantitySum_le (ExecutionEngine.handledTrades calls)
    unfold ExecutionEngine.marketVolume
    omega
  have hledger := ExecutionEngine.ledger_of_volume_lt wiring.setup.config
    hvolume
  have hstream : ExecutionEngine.orderStream wiring.setup.config calls =
      orders ++ later := horders.symm.trans hwritten.emitted
  refine ⟨orders, later, hwritten, ?_, ?_, ?_, ?_⟩
  · rw [← hstream]
    exact ExecutionEngine.orderStream_ids_increasing _ (by omega)
  · rw [← hstream, ← htrades]
    exact ExecutionEngine.orderStream_answers _ (by omega)
  · rw [engine, hexplained.session, hengine, ← acceptedQuantity_append,
      ← hstream]
    exact hledger.traded
  · rw [engine, hexplained.session, hengine, ← htrades]
    exact hledger.cumulative

end TradingPipeline

namespace Program

open TradingPipeline (Reconciled SendsWhole sessionEvents sampleWiring)

/-- A step handles at most one trade. -/
theorem length_tradesOf_le (wiring : Wiring) (turns : List Turn) :
    (Session.tradesOf (sessionEvents (happenings wiring turns))).length ≤
      turns.length := by
  calc (Session.tradesOf (sessionEvents (happenings wiring turns))).length
      ≤ (sessionEvents (happenings wiring turns)).length :=
        List.length_filterMap_le _ _
    _ ≤ (happenings wiring turns).length := List.length_filterMap_le _ _
    _ ≤ (RunHistory.outputs (observe wiring.capacity) (initial wiring)
          turns).length := List.length_filterMap_le _ _
    _ = turns.length := RunHistory.length_outputs _ _ turns

/-- Whatever order the threads take their steps in, no order that the engine
has booked is lost, given to `sendBuffer` twice or changed on the way.  If
the system accepts every frame in full, the connection holds exactly the
frames of the orders given. -/
theorem books_reconcile (wiring : Wiring) (turns : List Turn)
    (hcount : (Session.tradesOf
      (sessionEvents (happenings wiring turns))).length < 2 ^ 32) :
    ∃ orders later,
      Reconciled wiring (happenings wiring turns)
          (after wiring turns).pipeline orders later ∧
        (SendsWhole (happenings wiring turns) →
          (after wiring turns).pipeline.wire = orders.flatMap
            fun order => (OrderMessage.newOrder order).frame) := by
  obtain ⟨orders, later, hreconciled⟩ :=
    (after_explained wiring turns).reconciled hcount
  exact ⟨orders, later, hreconciled, hreconciled.toWritten.wire_of_whole⟩

/-- The order of the trade is on the connection. -/
theorem books_reconcile_trade :
    ∃ orders later,
      Reconciled sampleWiring (happenings sampleWiring sampleTurns)
          (after sampleWiring sampleTurns).pipeline orders later ∧
        (after sampleWiring sampleTurns).pipeline.wire = (orders.flatMap
          fun order => (OrderMessage.newOrder order).frame) ∧
        (after sampleWiring sampleTurns).pipeline.wire.length = 54 := by
  obtain ⟨orders, later, hreconciled, hwire⟩ :=
    books_reconcile sampleWiring sampleTurns
      ((length_tradesOf_le sampleWiring sampleTurns).trans_lt
        (by decide +kernel))
  exact ⟨orders, later, hreconciled, hwire sampleTurns_whole,
    by decide +kernel⟩

end Program

end Slipstream
