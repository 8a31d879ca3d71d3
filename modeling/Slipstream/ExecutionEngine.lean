import Slipstream.OETypes
import Slipstream.VWAPService

/-!
# The execution engine

The engine judges every trade: it accepts it, rejects it, or, while trading
is halted, answers nothing.  Its price tests ask the VWAP service for the
benchmark, which also evicts from the service, so the service is passed
through `handleTrade` together with the engine.

Every clock that a call may read is an input of the call, and each call
reads each clock at most once.
-/

namespace Slipstream

/-- The readings of `ExecutionEngine::getNow`, of `VWAPService::getNow` and
of the steady clock for `tsNs`, as far as a call takes them. -/
structure ClockReadings where
  steadyMs : UInt64
  systemMs : UInt64
  steadyNs : UInt64
  deriving DecidableEq

structure ExecutionEngine where
  quotesReceived : UInt32
  tradingStarted : Bool
  isHalted : Bool
  maxQuantity : UInt64
  participationCap : UInt64
  vwapWindowMs : UInt64
  bandBps : UInt64
  timestampStarted : UInt64
  tradedQuantity : UInt64
  cumulativeTradedQuantity : UInt64
  clientOrderIdCounter : UInt64
  deriving DecidableEq

namespace ExecutionEngine

def minQuotesRequired : UInt32 := 10

/-- The constructor parameters, and the value that the uninitialised
`timestampStarted` happens to hold. -/
structure Config where
  maxQuantity : UInt64
  participationCap : UInt64
  vwapWindowMs : UInt64
  bandBps : UInt64
  timestampStarted : UInt64

def initial (config : Config) : ExecutionEngine where
  quotesReceived := 0
  tradingStarted := false
  isHalted := false
  maxQuantity := config.maxQuantity
  participationCap := config.participationCap
  vwapWindowMs := config.vwapWindowMs
  bandBps := config.bandBps
  timestampStarted := config.timestampStarted
  tradedQuantity := 0
  cumulativeTradedQuantity := 0
  clientOrderIdCounter := 0

def onQuoteReceived (engine : ExecutionEngine) (now : UInt64) :
    ExecutionEngine :=
  let engine := { engine with quotesReceived := engine.quotesReceived + 1 }
  if engine.quotesReceived = 1 ∧ ¬ engine.tradingStarted then
    { engine with timestampStarted := now }
  else engine

def getElapsedTimeMs (engine : ExecutionEngine) (now : UInt64) : UInt64 :=
  now - engine.timestampStarted

def isReadyToTrade (engine : ExecutionEngine) (now : UInt64) :
    Bool × ExecutionEngine :=
  if engine.tradingStarted then (true, engine)
  else
    let ready := engine.quotesReceived ≥ minQuotesRequired &&
      engine.getElapsedTimeMs now ≥ engine.vwapWindowMs
    if ready then (ready, { engine with tradingStarted := true })
    else (ready, engine)

/-- The upper price bound of a buy, in wrapping 64-bit arithmetic. -/
def upperBound (engine : ExecutionEngine) (vwap : UInt64) : UInt64 :=
  vwap * (10000 - engine.bandBps) / 10000

def lowerBound (engine : ExecutionEngine) (vwap : UInt64) : UInt64 :=
  vwap * (10000 + engine.bandBps) / 10000

def shouldBuy (engine : ExecutionEngine) (vwapService : VWAPService)
    (now : UInt64) (trade : Trade) : Bool × VWAPService :=
  let currentPrice := trade.price.toUInt64
  let (vwap, vwapService) := vwapService.getVWAP now
  let shouldBuy : Bool := currentPrice ≤ engine.upperBound vwap
  let canBuy : Bool :=
    engine.cumulativeTradedQuantity + trade.quantity.toUInt64 ≤
        engine.participationCap &&
      engine.tradedQuantity + trade.quantity.toUInt64 ≤ engine.maxQuantity
  (shouldBuy && canBuy, vwapService)

def shouldSell (engine : ExecutionEngine) (vwapService : VWAPService)
    (now : UInt64) (trade : Trade) : Bool × VWAPService :=
  let currentPrice := trade.price.toUInt64
  let (vwap, vwapService) := vwapService.getVWAP now
  let shouldBuy : Bool := currentPrice ≥ engine.lowerBound vwap
  let canBuy : Bool := engine.tradedQuantity ≥ trade.quantity.toUInt64
  (shouldBuy && canBuy, vwapService)

/-- The body shared by `handleBuy` and `handleSell`, which differ in the side
of the order only. -/
def handleAccept (side : OrderSide) (engine : ExecutionEngine)
    (tsNs : UInt64) (trade : Trade) : NewOrder × ExecutionEngine :=
  ({ clientOrderId := engine.clientOrderIdCounter
     symbol := trade.symbol
     status := .accepted
     tsNs := tsNs
     tradeId := trade.id
     side := side
     qty := trade.quantity
     limitPx := trade.price },
   { engine with
     tradedQuantity := engine.tradedQuantity + trade.quantity.toUInt64
     cumulativeTradedQuantity :=
       engine.cumulativeTradedQuantity + trade.quantity.toUInt64
     clientOrderIdCounter := engine.clientOrderIdCounter + 1 })

def handleBuy := handleAccept .buy

def handleSell := handleAccept .sell

def handleReject (engine : ExecutionEngine) (tsNs : UInt64)
    (trade : Trade) : NewOrder × ExecutionEngine :=
  ({ clientOrderId := engine.clientOrderIdCounter
     symbol := trade.symbol
     status := .rejected
     tsNs := tsNs
     tradeId := trade.id
     side := if trade.aggressor = .buy then .buy else .sell
     qty := trade.quantity
     limitPx := trade.price },
   { engine with
     cumulativeTradedQuantity :=
       engine.cumulativeTradedQuantity + trade.quantity.toUInt64
     clientOrderIdCounter := engine.clientOrderIdCounter + 1 })

def handleTrade (engine : ExecutionEngine) (vwapService : VWAPService)
    (clock : ClockReadings) (trade : Trade) :
    Option NewOrder × ExecutionEngine × VWAPService :=
  let (ready, engine) := engine.isReadyToTrade clock.steadyMs
  if !ready then
    let (order, engine) := engine.handleReject clock.steadyNs trade
    (some order, engine, vwapService)
  else if engine.isHalted then
    let (_, engine) := engine.handleReject clock.steadyNs trade
    (none, engine, vwapService)
  else
    match trade.aggressor with
    | .buy =>
        let (buy, vwapService) :=
          engine.shouldBuy vwapService clock.systemMs trade
        let (order, engine) :=
          if buy then engine.handleBuy clock.steadyNs trade
          else engine.handleReject clock.steadyNs trade
        (some order, engine, vwapService)
    | .sell =>
        let (sell, vwapService) :=
          engine.shouldSell vwapService clock.systemMs trade
        let (order, engine) :=
          if sell then engine.handleSell clock.steadyNs trade
          else engine.handleReject clock.steadyNs trade
        (some order, engine, vwapService)
    | .unknown =>
        let (order, engine) := engine.handleReject clock.steadyNs trade
        (some order, engine, vwapService)

def getExecutedQuantity (engine : ExecutionEngine) : UInt64 :=
  engine.tradedQuantity

def getCumulativeExecutedQuantity (engine : ExecutionEngine) : UInt64 :=
  engine.cumulativeTradedQuantity

def haltTrading (engine : ExecutionEngine) : ExecutionEngine :=
  { engine with isHalted := true }

def resumeTrading (engine : ExecutionEngine) : ExecutionEngine :=
  { engine with isHalted := false }

/-! ## What a trade does to the engine -/

def ready (engine : ExecutionEngine) (now : UInt64) : Bool :=
  (engine.isReadyToTrade now).1

/-- A trade whose quantity and price tests are made and pass. -/
def accepts (engine : ExecutionEngine) (vwapService : VWAPService)
    (clock : ClockReadings) (trade : Trade) : Bool :=
  engine.ready clock.steadyMs && !engine.isHalted &&
    match trade.aggressor with
    | .buy => (engine.shouldBuy vwapService clock.systemMs trade).1
    | .sell => (engine.shouldSell vwapService clock.systemMs trade).1
    | .unknown => false

def suppresses (engine : ExecutionEngine) (clock : ClockReadings) : Bool :=
  engine.ready clock.steadyMs && engine.isHalted

def readsVWAP (engine : ExecutionEngine) (clock : ClockReadings)
    (trade : Trade) : Bool :=
  engine.ready clock.steadyMs && !engine.isHalted &&
    trade.aggressor ≠ .unknown

/-- The order built for a trade, whether or not it is returned. -/
def answer (engine : ExecutionEngine) (vwapService : VWAPService)
    (clock : ClockReadings) (trade : Trade) : NewOrder where
  clientOrderId := engine.clientOrderIdCounter
  symbol := trade.symbol
  status :=
    if engine.accepts vwapService clock trade then .accepted else .rejected
  tsNs := clock.steadyNs
  tradeId := trade.id
  side := if trade.aggressor = .buy then .buy else .sell
  qty := trade.quantity
  limitPx := trade.price

def judged (engine : ExecutionEngine) (vwapService : VWAPService)
    (clock : ClockReadings) (trade : Trade) : ExecutionEngine :=
  { engine with
    tradingStarted := engine.ready clock.steadyMs
    tradedQuantity :=
      if engine.accepts vwapService clock trade then
        engine.tradedQuantity + trade.quantity.toUInt64
      else engine.tradedQuantity
    cumulativeTradedQuantity :=
      engine.cumulativeTradedQuantity + trade.quantity.toUInt64
    clientOrderIdCounter := engine.clientOrderIdCounter + 1 }

section Judged

variable (engine : ExecutionEngine) (vwapService : VWAPService)
  (clock : ClockReadings) (trade : Trade)

@[simp] theorem judged_tradingStarted :
    (engine.judged vwapService clock trade).tradingStarted =
      engine.ready clock.steadyMs := rfl

@[simp] theorem judged_tradedQuantity :
    (engine.judged vwapService clock trade).tradedQuantity =
      if engine.accepts vwapService clock trade then
        engine.tradedQuantity + trade.quantity.toUInt64
      else engine.tradedQuantity := rfl

end Judged

theorem onQuoteReceived_eq (engine : ExecutionEngine) (now : UInt64) :
    engine.onQuoteReceived now =
      { engine with
        quotesReceived := engine.quotesReceived + 1
        timestampStarted :=
          if engine.quotesReceived + 1 = 1 ∧ ¬ engine.tradingStarted then
            now
          else engine.timestampStarted } := by
  unfold onQuoteReceived
  dsimp only
  split <;> rfl

theorem isReadyToTrade_eq (engine : ExecutionEngine) (now : UInt64) :
    engine.isReadyToTrade now =
      (engine.ready now,
        { engine with tradingStarted := engine.ready now }) := by
  unfold ready isReadyToTrade
  cases hstarted : engine.tradingStarted with
  | true => simp [← hstarted]
  | false =>
      simp only [Bool.false_eq_true, if_false]
      split
      next hready => rw [hready]
      next hready => rw [Bool.eq_false_iff.mpr hready, ← hstarted]

/-- Readiness without the state that the call leaves behind. -/
theorem ready_eq (engine : ExecutionEngine) (now : UInt64) :
    engine.ready now =
      (engine.tradingStarted ||
        (engine.quotesReceived ≥ minQuotesRequired &&
          engine.getElapsedTimeMs now ≥ engine.vwapWindowMs)) := by
  unfold ready isReadyToTrade
  cases hstarted : engine.tradingStarted with
  | true => simp
  | false =>
      simp only [Bool.false_eq_true, if_false, Bool.false_or]
      split <;> rfl

theorem ready_of_started {engine : ExecutionEngine} {now : UInt64}
    (hstarted : engine.tradingStarted = true) : engine.ready now = true := by
  simp [ready, isReadyToTrade, hstarted]

@[simp] theorem shouldBuy_flags (engine : ExecutionEngine)
    (started halted : Bool) (vwapService : VWAPService) (now : UInt64)
    (trade : Trade) :
    ({ engine with tradingStarted := started, isHalted := halted } :
        ExecutionEngine).shouldBuy vwapService now trade =
      engine.shouldBuy vwapService now trade := rfl

@[simp] theorem shouldSell_flags (engine : ExecutionEngine)
    (started halted : Bool) (vwapService : VWAPService) (now : UInt64)
    (trade : Trade) :
    ({ engine with tradingStarted := started, isHalted := halted } :
        ExecutionEngine).shouldSell vwapService now trade =
      engine.shouldSell vwapService now trade := rfl

/-- Every path of `handleTrade` in one equation: the order returned and the
engine left behind. -/
theorem handleTrade_eq (engine : ExecutionEngine)
    (vwapService : VWAPService) (clock : ClockReadings) (trade : Trade) :
    (engine.handleTrade vwapService clock trade).1 =
        (if engine.suppresses clock then none
          else some (engine.answer vwapService clock trade)) ∧
      (engine.handleTrade vwapService clock trade).2.1 =
        engine.judged vwapService clock trade := by
  unfold handleTrade
  rw [isReadyToTrade_eq]
  cases hready : engine.ready clock.steadyMs with
  | false =>
      simp [suppresses, answer, judged, accepts, handleReject, hready]
  | true =>
      cases hhalted : engine.isHalted with
      | true =>
          simp [suppresses, judged, accepts, handleReject, hready, hhalted]
      | false =>
          cases haggressor : trade.aggressor with
          | buy =>
              cases hbuy :
                  (engine.shouldBuy vwapService clock.systemMs trade).1 <;>
                simp [suppresses, answer, judged, accepts, handleReject,
                  handleBuy, handleAccept, hready, hhalted, haggressor, hbuy]
          | sell =>
              cases hsell :
                  (engine.shouldSell vwapService clock.systemMs trade).1 <;>
                simp [suppresses, answer, judged, accepts, handleReject,
                  handleSell, handleAccept, hready, hhalted, haggressor,
                  hsell]
          | unknown =>
              simp [suppresses, answer, judged, accepts, handleReject,
                hready, hhalted, haggressor]

/-- A trade goes unanswered only while a ready engine is halted. -/
theorem handleTrade_eq_none_iff (engine : ExecutionEngine)
    (vwapService : VWAPService) (clock : ClockReadings) (trade : Trade) :
    (engine.handleTrade vwapService clock trade).1 = none ↔
      engine.isHalted = true ∧
        (engine.isReadyToTrade clock.steadyMs).1 = true := by
  rw [(engine.handleTrade_eq vwapService clock trade).1]
  have hsuppresses : engine.suppresses clock = true ↔
      engine.isHalted = true ∧
        (engine.isReadyToTrade clock.steadyMs).1 = true := by
    rw [suppresses, Bool.and_eq_true, and_comm]
    rfl
  rw [← hsuppresses]
  split
  next htrue => exact iff_of_true rfl htrue
  next hfalse => exact iff_of_false (by simp) hfalse

theorem eq_answer_of_handleTrade {engine : ExecutionEngine}
    {vwapService : VWAPService} {clock : ClockReadings} {trade : Trade}
    {order : NewOrder}
    (hreturned : (engine.handleTrade vwapService clock trade).1 =
      some order) :
    order = engine.answer vwapService clock trade := by
  rw [(engine.handleTrade_eq vwapService clock trade).1] at hreturned
  split at hreturned
  next => contradiction
  next => exact (Option.some.inj hreturned).symm

theorem handleTrade_vwapService (engine : ExecutionEngine)
    (vwapService : VWAPService) (clock : ClockReadings) (trade : Trade) :
    (engine.handleTrade vwapService clock trade).2.2 =
      if engine.readsVWAP clock trade then
        (vwapService.getVWAP clock.systemMs).2
      else vwapService := by
  unfold handleTrade
  rw [isReadyToTrade_eq]
  cases hready : engine.ready clock.steadyMs with
  | false => simp [readsVWAP, hready]
  | true =>
      cases hhalted : engine.isHalted with
      | true => simp [readsVWAP, hready, hhalted]
      | false =>
          cases haggressor : trade.aggressor <;>
            simp [readsVWAP, hready, hhalted, haggressor, shouldBuy,
              shouldSell]

end ExecutionEngine

end Slipstream
