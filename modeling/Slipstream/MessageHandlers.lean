import Slipstream.ExecutionEngine
import Slipstream.OrderBookService

/-!
# Message handlers

Decoded messages reach the components through a list of handlers; the first
handler that can handle a message receives it, and a message that none can
handle is dropped.  The program installs a quote handler and a trade handler
over one order book, one VWAP service and one execution engine.

A handler returns the orders it hands to the order sender, whose queue is
taken to accept each of them in the end.
-/

namespace Slipstream

/-- The `MessageHandler` interface, over the objects of type `σ` that the
handler points to. -/
structure MessageHandler (σ : Type) where
  canHandleMessage : MDMessage → Bool
  onMessage : σ → ClockReadings → MDMessage → Outcome σ (List NewOrder)

namespace MasterMessageHandler

variable {σ : Type}

def canHandleMessage :
    List (MessageHandler σ) → MDMessage → Bool
  | [], _ => false
  | handler :: rest, message =>
      if handler.canHandleMessage message then true
      else canHandleMessage rest message

def onMessage : List (MessageHandler σ) → σ → ClockReadings → MDMessage →
    Outcome σ (List NewOrder)
  | [], components, _, _ => (.ok [], components)
  | handler :: rest, components, clock, message =>
      if handler.canHandleMessage message then
        handler.onMessage components clock message
      else onMessage rest components clock message

def handler (handlers : List (MessageHandler σ)) : MessageHandler σ where
  canHandleMessage := canHandleMessage handlers
  onMessage := onMessage handlers

theorem onMessage_of_not_canHandle {handlers : List (MessageHandler σ)}
    {message : MDMessage}
    (hcan : canHandleMessage handlers message = false) (components : σ)
    (clock : ClockReadings) :
    onMessage handlers components clock message = (.ok [], components) := by
  induction handlers with
  | nil => rfl
  | cons handler rest ih =>
      simp only [canHandleMessage] at hcan
      split at hcan
      next => contradiction
      next hskip =>
        rw [onMessage, if_neg hskip]
        exact ih hcan

end MasterMessageHandler

/-- The objects that `main` wires together. -/
structure Components where
  orderBookService : OrderBookService
  vwapService : VWAPService
  executionEngine : ExecutionEngine

def quoteMessageHandler : MessageHandler Components where
  canHandleMessage message :=
    match message with
    | .quote _ => true
    | _ => false
  onMessage components clock message :=
    match message with
    | .quote quote =>
        (.ok [],
          { components with
            orderBookService := components.orderBookService.setQuote quote
            executionEngine :=
              components.executionEngine.onQuoteReceived clock.steadyMs })
    | _ =>
        (.error (.logicError "Cannot handle non-quote message"), components)

def tradeMessageHandler : MessageHandler Components where
  canHandleMessage message :=
    match message with
    | .trade _ => true
    | _ => false
  onMessage components clock message :=
    match message with
    | .trade trade =>
        match components.vwapService.handleTrade .overwriteOldest trade with
        | (.error exception, vwapService) =>
            (.error exception,
              { components with vwapService := vwapService })
        | (.ok _, vwapService) =>
            let (newOrder, executionEngine, vwapService) :=
              components.executionEngine.handleTrade vwapService clock trade
            (.ok newOrder.toList,
              { components with
                vwapService := vwapService
                executionEngine := executionEngine })
    | _ =>
        (.error (.logicError "Cannot handle non-quote message"), components)

def masterHandler : MessageHandler Components :=
  MasterMessageHandler.handler [quoteMessageHandler, tradeMessageHandler]

namespace Components

/-- What `main` fixes before the first message: the configured symbol, the
engine parameters, and the contents of uninitialised members. -/
structure Setup where
  symbol : Symbol
  config : ExecutionEngine.Config
  slots : ℕ → Trade
  latestQuote : Quote

def initial (setup : Setup) : Components where
  orderBookService :=
    OrderBookService.initial setup.symbol setup.latestQuote
  vwapService :=
    VWAPService.initial setup.config.vwapWindowMs setup.slots
  executionEngine := ExecutionEngine.initial setup.config

structure Delivery where
  message : MDMessage
  clock : ClockReadings
  deriving DecidableEq

def dispatch (components : Components) (delivery : Delivery) :
    Components × List NewOrder :=
  let outcome := masterHandler.onMessage components delivery.clock
    delivery.message
  (outcome.2, match outcome.1 with
    | .ok orders => orders
    | .error _ => [])

def after (setup : Setup) (stream : List Delivery) : Components :=
  RunHistory.exec dispatch (initial setup) stream

def sent (setup : Setup) (stream : List Delivery) : List (List NewOrder) :=
  RunHistory.outputs dispatch (initial setup) stream

/-! ## Each kind of message -/

/-- The VWAP service as the engine finds it when a trade is judged. -/
def fed (components : Components) (trade : Trade) : VWAPService :=
  (components.vwapService.handleTrade .overwriteOldest trade).2

theorem handleTrade_overwriteOldest (components : Components)
    (trade : Trade) :
    components.vwapService.handleTrade .overwriteOldest trade =
      (.ok (), components.fed trade) := by
  unfold fed VWAPService.handleTrade
  dsimp only
  split <;> rfl

theorem masterHandler_trade (components : Components)
    (clock : ClockReadings) (trade : Trade) :
    masterHandler.onMessage components clock (.trade trade) =
      let judgement := components.executionEngine.handleTrade
        (components.fed trade) clock trade
      (.ok judgement.1.toList,
        { components with
          vwapService := judgement.2.2
          executionEngine := judgement.2.1 }) := by
  simp [masterHandler, MasterMessageHandler.handler,
    MasterMessageHandler.onMessage, quoteMessageHandler,
    tradeMessageHandler, handleTrade_overwriteOldest]

/-- Handling never throws: the master handler calls a handler only with the
messages it can handle, and `OVERWRITE_OLDEST` always makes room. -/
theorem masterHandler_ok (components : Components) (clock : ClockReadings)
    (message : MDMessage) :
    ∃ orders, (masterHandler.onMessage components clock message).1 =
      .ok orders := by
  cases message with
  | quote quote => exact ⟨[], rfl⟩
  | trade trade =>
      rw [masterHandler_trade]
      exact ⟨_, rfl⟩
  | heartbeat heartbeat => exact ⟨[], rfl⟩
  | sessionControl sessionControl => exact ⟨[], rfl⟩

theorem dispatch_quote (components : Components) (quote : Quote)
    (clock : ClockReadings) :
    dispatch components ⟨.quote quote, clock⟩ =
      ({ components with
          orderBookService := components.orderBookService.setQuote quote
          executionEngine :=
            components.executionEngine.onQuoteReceived clock.steadyMs },
        []) := rfl

theorem dispatch_trade (components : Components) (trade : Trade)
    (clock : ClockReadings) :
    dispatch components ⟨.trade trade, clock⟩ =
      let judgement := components.executionEngine.handleTrade
        (components.fed trade) clock trade
      ({ components with
          vwapService := judgement.2.2
          executionEngine := judgement.2.1 },
        judgement.1.toList) := by
  rw [dispatch, masterHandler_trade]

theorem dispatch_other (components : Components) {message : MDMessage}
    (hquote : ∀ quote, message ≠ .quote quote)
    (htrade : ∀ trade, message ≠ .trade trade) (clock : ClockReadings) :
    dispatch components ⟨message, clock⟩ = (components, []) := by
  cases message with
  | quote quote => exact absurd rfl (hquote quote)
  | trade trade => exact absurd rfl (htrade trade)
  | heartbeat heartbeat => rfl
  | sessionControl sessionControl => rfl

end Components

end Slipstream
