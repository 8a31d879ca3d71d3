import Mathlib.Data.List.ReduceOption
import Slipstream.ExecutionEngine

/-!
# The ledger of an engine run

A run is any sequence of quotes, trades, halts and resumptions on a freshly
constructed engine.  Between the calls the rest of the program may do
anything to the VWAP service, so every trade carries the service as the call
finds it.

The hidden counters of the engine are functions of the visible history: the
cumulative quantity is the volume of all trades, the traded quantity is the
volume of the accepted orders, and the order id counts the trades.
-/

namespace Slipstream
namespace ExecutionEngine

inductive EngineCall where
  | onQuoteReceived (now : UInt64)
  | handleTrade (vwapService : VWAPService) (clock : ClockReadings)
      (trade : Trade)
  | haltTrading
  | resumeTrading

def EngineCall.trade? : EngineCall → Option Trade
  | .handleTrade _ _ trade => some trade
  | _ => none

theorem EngineCall.no_trade_or_handleTrade (call : EngineCall) :
    call.trade? = none ∨ ∃ vwapService clock trade,
      call = .handleTrade vwapService clock trade := by
  cases call with
  | handleTrade vwapService clock trade =>
      exact .inr ⟨vwapService, clock, trade, rfl⟩
  | onQuoteReceived now => exact .inl rfl
  | haltTrading => exact .inl rfl
  | resumeTrading => exact .inl rfl

def perform (engine : ExecutionEngine) :
    EngineCall → ExecutionEngine × Option NewOrder
  | .onQuoteReceived now => (engine.onQuoteReceived now, none)
  | .handleTrade vwapService clock trade =>
      let result := engine.handleTrade vwapService clock trade
      (result.2.1, result.1)
  | .haltTrading => (engine.haltTrading, none)
  | .resumeTrading => (engine.resumeTrading, none)

def after (config : Config) (calls : List EngineCall) : ExecutionEngine :=
  RunHistory.exec perform (initial config) calls

def orderStream (config : Config) (calls : List EngineCall) :
    List NewOrder :=
  (RunHistory.outputs perform (initial config) calls).reduceOption

def handledTrades (calls : List EngineCall) : List Trade :=
  calls.filterMap EngineCall.trade?

def marketVolume (calls : List EngineCall) : ℕ :=
  quantitySum (handledTrades calls)

section Concat

variable (config : Config) (calls : List EngineCall) (call : EngineCall)

theorem after_concat :
    after config (calls ++ [call]) =
      (perform (after config calls) call).1 := by
  simp [after]

theorem orderStream_concat :
    orderStream config (calls ++ [call]) =
      orderStream config calls ++
        (perform (after config calls) call).2.toList := by
  unfold orderStream
  rw [RunHistory.outputs_append, List.reduceOption_append]
  cases horder : (perform (after config calls) call).2 with
  | none =>
      rw [after] at horder
      simp [horder]
  | some order =>
      rw [after] at horder
      simp [horder]

theorem handledTrades_concat :
    handledTrades (calls ++ [call]) =
      handledTrades calls ++ call.trade?.toList := by
  unfold handledTrades
  rw [List.filterMap_append]
  cases htrade : call.trade? <;> simp [htrade]

theorem marketVolume_concat :
    marketVolume (calls ++ [call]) =
      marketVolume calls + quantitySum call.trade?.toList := by
  rw [marketVolume, handledTrades_concat, quantitySum_append]
  rfl

end Concat

theorem marketVolume_handleTrade (calls : List EngineCall)
    (vwapService : VWAPService) (clock : ClockReadings) (trade : Trade) :
    marketVolume (calls ++ [.handleTrade vwapService clock trade]) =
      marketVolume calls + trade.quantity.toNat := by
  simp [marketVolume_concat, EngineCall.trade?]

theorem marketVolume_le_concat (calls : List EngineCall)
    (call : EngineCall) :
    marketVolume calls ≤ marketVolume (calls ++ [call]) := by
  rw [marketVolume_concat]
  omega

theorem marketVolume_le_of_isPrefix {before calls : List EngineCall}
    (hpre : before <+: calls) :
    marketVolume before ≤ marketVolume calls := by
  rcases hpre with ⟨later, rfl⟩
  simp [marketVolume, handledTrades]

/-! ## Calls without a trade -/

section NoTrade

variable {call : EngineCall} (htrade : call.trade? = none)
include htrade

theorem perform_order_of_no_trade (engine : ExecutionEngine) :
    (perform engine call).2 = none := by
  cases call with
  | handleTrade vwapService clock trade => simp [EngineCall.trade?] at htrade
  | onQuoteReceived now => rfl
  | haltTrading => rfl
  | resumeTrading => rfl

theorem tradedQuantity_perform_of_no_trade {engine : ExecutionEngine} :
    (perform engine call).1.tradedQuantity = engine.tradedQuantity := by
  cases call with
  | handleTrade vwapService clock trade => simp [EngineCall.trade?] at htrade
  | onQuoteReceived now => rw [perform, onQuoteReceived_eq]
  | haltTrading => rfl
  | resumeTrading => rfl

theorem cumulativeTradedQuantity_perform_of_no_trade
    {engine : ExecutionEngine} :
    (perform engine call).1.cumulativeTradedQuantity =
      engine.cumulativeTradedQuantity := by
  cases call with
  | handleTrade vwapService clock trade => simp [EngineCall.trade?] at htrade
  | onQuoteReceived now => rw [perform, onQuoteReceived_eq]
  | haltTrading => rfl
  | resumeTrading => rfl

theorem orderStream_concat_of_no_trade (config : Config)
    (calls : List EngineCall) :
    orderStream config (calls ++ [call]) = orderStream config calls := by
  simp [orderStream_concat, perform_order_of_no_trade htrade]

theorem marketVolume_concat_of_no_trade (calls : List EngineCall) :
    marketVolume (calls ++ [call]) = marketVolume calls := by
  simp [marketVolume_concat, htrade]

end NoTrade

/-! ## The order returned for a trade -/

theorem not_suppresses_of_accepts {engine : ExecutionEngine}
    {vwapService : VWAPService} {clock : ClockReadings} {trade : Trade}
    (haccepts : engine.accepts vwapService clock trade = true) :
    engine.suppresses clock = false := by
  unfold accepts at haccepts
  unfold suppresses
  cases hhalted : engine.isHalted <;> simp_all

theorem perform_handleTrade (engine : ExecutionEngine)
    (vwapService : VWAPService) (clock : ClockReadings) (trade : Trade) :
    perform engine (.handleTrade vwapService clock trade) =
      (engine.judged vwapService clock trade,
        if engine.suppresses clock then none
        else some (engine.answer vwapService clock trade)) := by
  rcases handleTrade_eq engine vwapService clock trade with ⟨horder, hengine⟩
  rw [perform, horder, hengine]

theorem exists_trade_of_mem_perform {engine : ExecutionEngine}
    {call : EngineCall} {order : NewOrder}
    (horder : order ∈ (perform engine call).2.toList) :
    ∃ vwapService clock trade,
      call = .handleTrade vwapService clock trade ∧
        order = engine.answer vwapService clock trade := by
  cases call with
  | onQuoteReceived now => simp [perform] at horder
  | haltTrading => simp [perform] at horder
  | resumeTrading => simp [perform] at horder
  | handleTrade vwapService clock trade =>
      rw [perform_handleTrade] at horder
      split at horder
      next => simp at horder
      next => exact ⟨vwapService, clock, trade, rfl, by simpa using horder⟩

theorem acceptedQuantity_perform (engine : ExecutionEngine)
    (vwapService : VWAPService) (clock : ClockReadings) (trade : Trade) :
    acceptedQuantity
        (perform engine (.handleTrade vwapService clock trade)).2.toList =
      if engine.accepts vwapService clock trade
      then trade.quantity.toNat else 0 := by
  rw [perform_handleTrade]
  cases haccepts : engine.accepts vwapService clock trade with
  | true =>
      simp [not_suppresses_of_accepts haccepts, acceptedQuantity_singleton,
        answer, haccepts]
  | false =>
      cases engine.suppresses clock <;>
        simp [acceptedQuantity_singleton, answer, haccepts]

theorem sideQuantity_perform (side : OrderSide) (engine : ExecutionEngine)
    (vwapService : VWAPService) (clock : ClockReadings) (trade : Trade) :
    sideQuantity side
        (perform engine (.handleTrade vwapService clock trade)).2.toList =
      if engine.accepts vwapService clock trade ∧
          (if trade.aggressor = .buy then OrderSide.buy else .sell) = side
      then trade.quantity.toNat else 0 := by
  rw [perform_handleTrade]
  cases haccepts : engine.accepts vwapService clock trade with
  | true =>
      simp [not_suppresses_of_accepts haccepts, sideQuantity_singleton,
        answer, haccepts]
  | false =>
      cases engine.suppresses clock <;>
        simp [sideQuantity_singleton, answer, haccepts]

/-! ## The counters -/

/-- The two quantity counters hold the exact sums they stand for. -/
structure Ledger (config : Config) (calls : List EngineCall) : Prop where
  cumulative :
    (after config calls).cumulativeTradedQuantity.toNat =
      marketVolume calls
  traded :
    (after config calls).tradedQuantity.toNat =
      acceptedQuantity (orderStream config calls)
  traded_le :
    acceptedQuantity (orderStream config calls) ≤ marketVolume calls

theorem ledger_nil (config : Config) : Ledger config [] where
  cumulative := rfl
  traded := rfl
  traded_le := Nat.le_refl 0

theorem toNat_add_quantity (counter : UInt64) (quantity : UInt32)
    (hfits : counter.toNat + quantity.toNat < 2 ^ 64) :
    (counter + quantity.toUInt64).toNat =
      counter.toNat + quantity.toNat := by
  rw [UInt64.toNat_add, UInt32.toNat_toUInt64, Nat.mod_eq_of_lt hfits]

theorem Ledger.concat_of_no_trade {config : Config}
    {calls : List EngineCall} {call : EngineCall}
    (hledger : Ledger config calls) (htrade : call.trade? = none) :
    Ledger config (calls ++ [call]) := by
  constructor
  · rw [after_concat, cumulativeTradedQuantity_perform_of_no_trade htrade,
      marketVolume_concat_of_no_trade htrade calls, hledger.cumulative]
  · rw [after_concat, tradedQuantity_perform_of_no_trade htrade,
      orderStream_concat_of_no_trade htrade config calls, hledger.traded]
  · rw [orderStream_concat_of_no_trade htrade config calls,
      marketVolume_concat_of_no_trade htrade calls]
    exact hledger.traded_le

theorem Ledger.concat {config : Config} {calls : List EngineCall}
    {call : EngineCall} (hledger : Ledger config calls)
    (hvolume : marketVolume (calls ++ [call]) < 2 ^ 64) :
    Ledger config (calls ++ [call]) := by
  rcases call.no_trade_or_handleTrade with
    htrade | ⟨vwapService, clock, trade, rfl⟩
  · exact hledger.concat_of_no_trade htrade
  · have hsum := marketVolume_handleTrade calls vwapService clock trade
    have hle := hledger.traded_le
    have haccepted :
        acceptedQuantity (orderStream config
          (calls ++ [.handleTrade vwapService clock trade])) =
        acceptedQuantity (orderStream config calls) +
          if (after config calls).accepts vwapService clock trade
          then trade.quantity.toNat else 0 := by
      rw [orderStream_concat, acceptedQuantity_append,
        acceptedQuantity_perform]
    have hcumulative := toNat_add_quantity
      (after config calls).cumulativeTradedQuantity trade.quantity
      (by rw [hledger.cumulative]; omega)
    have htraded := toNat_add_quantity
      (after config calls).tradedQuantity trade.quantity
      (by rw [hledger.traded]; omega)
    constructor
    · rw [after_concat, perform_handleTrade, hsum]
      exact hcumulative.trans (by rw [hledger.cumulative])
    · rw [after_concat, perform_handleTrade, haccepted]
      simp only [judged]
      split
      next => rw [htraded, hledger.traded]
      next => rw [hledger.traded, add_zero]
    · rw [haccepted, hsum]
      split <;> omega

theorem ledger_of_volume_lt (config : Config) {calls : List EngineCall}
    (hvolume : marketVolume calls < 2 ^ 64) : Ledger config calls := by
  induction calls using List.reverseRecOn with
  | nil => exact ledger_nil config
  | append_singleton before call ih =>
      have hbefore := marketVolume_le_concat before call
      exact (ih (by omega)).concat hvolume

/-! ## Order ids -/

theorem clientOrderIdCounter_eq (config : Config) {calls : List EngineCall}
    (hcount : (handledTrades calls).length < 2 ^ 64) :
    (after config calls).clientOrderIdCounter.toNat =
      (handledTrades calls).length := by
  induction calls using List.reverseRecOn with
  | nil => rfl
  | append_singleton before call ih =>
      rw [handledTrades_concat, List.length_append] at hcount ⊢
      have hbefore := ih (by omega)
      rw [after_concat]
      cases call with
      | onQuoteReceived now =>
          rw [perform, onQuoteReceived_eq]
          exact hbefore
      | haltTrading => exact hbefore
      | resumeTrading => exact hbefore
      | handleTrade vwapService clock trade =>
          rw [perform_handleTrade]
          simp only [judged, EngineCall.trade?, Option.toList_some,
            List.length_singleton] at hcount ⊢
          rw [UInt64.toNat_add, hbefore]
          exact Nat.mod_eq_of_lt hcount

/-- The order that the `n`-th trade may receive. -/
structure AnswersTrade (n : ℕ) (trade : Trade) (order : NewOrder) :
    Prop where
  clientOrderId : order.clientOrderId.toNat = n
  tradeId : order.tradeId = trade.id
  symbol : order.symbol = trade.symbol
  qty : order.qty = trade.quantity
  limitPx : order.limitPx = trade.price
  side : order.side = .buy ↔ trade.aggressor = .buy

theorem answer_answersTrade (config : Config) {before : List EngineCall}
    (hcount : (handledTrades before).length < 2 ^ 64)
    (vwapService : VWAPService) (clock : ClockReadings) (trade : Trade) :
    AnswersTrade (handledTrades before).length trade
      ((after config before).answer vwapService clock trade) where
  clientOrderId := clientOrderIdCounter_eq config hcount
  tradeId := rfl
  symbol := rfl
  qty := rfl
  limitPx := rfl
  side := by
    simp only [answer]
    split
    next hbuy => simp [hbuy]
    next hother => simp [hother]

theorem clientOrderId_lt (config : Config) {calls : List EngineCall}
    (hcount : (handledTrades calls).length < 2 ^ 64) :
    ∀ order ∈ orderStream config calls,
      order.clientOrderId.toNat < (handledTrades calls).length := by
  induction calls using List.reverseRecOn with
  | nil => simp [orderStream]
  | append_singleton before call ih =>
      rw [handledTrades_concat, List.length_append] at hcount ⊢
      have hbefore : (handledTrades before).length < 2 ^ 64 := by omega
      intro order horder
      rw [orderStream_concat, List.mem_append] at horder
      rcases horder with hold | hnew
      · have hlt := ih hbefore order hold
        omega
      · obtain ⟨vwapService, clock, trade, rfl, rfl⟩ :=
          exists_trade_of_mem_perform hnew
        rw [(answer_answersTrade config hbefore vwapService clock
          trade).clientOrderId]
        simp [EngineCall.trade?]

theorem orderStream_ids_increasing (config : Config)
    {calls : List EngineCall}
    (hcount : (handledTrades calls).length < 2 ^ 64) :
    (orderStream config calls).Pairwise
      (fun earlier later => earlier.clientOrderId < later.clientOrderId) := by
  induction calls using List.reverseRecOn with
  | nil => exact List.Pairwise.nil
  | append_singleton before call ih =>
      rw [handledTrades_concat, List.length_append] at hcount
      have hbefore : (handledTrades before).length < 2 ^ 64 := by omega
      rw [orderStream_concat, List.pairwise_append]
      refine ⟨ih hbefore, ?_, ?_⟩
      · cases (perform (after config before) call).2 <;> simp
      · intro earlier hearlier later hlater
        have hlt := clientOrderId_lt config hbefore earlier hearlier
        obtain ⟨vwapService, clock, trade, rfl, rfl⟩ :=
          exists_trade_of_mem_perform hlater
        rw [UInt64.lt_iff_toNat_lt, (answer_answersTrade config hbefore
          vwapService clock trade).clientOrderId]
        exact hlt

theorem length_orderStream_le (config : Config) (calls : List EngineCall) :
    (orderStream config calls).length ≤ (handledTrades calls).length := by
  induction calls using List.reverseRecOn with
  | nil => exact Nat.le_refl 0
  | append_singleton before call ih =>
      rw [orderStream_concat, handledTrades_concat, List.length_append,
        List.length_append]
      have hcall : (perform (after config before) call).2.toList.length ≤
          call.trade?.toList.length := by
        cases call with
        | handleTrade vwapService clock trade =>
            rw [perform_handleTrade]
            split <;> simp [EngineCall.trade?]
        | onQuoteReceived now => simp [perform]
        | haltTrading => simp [perform]
        | resumeTrading => simp [perform]
      omega

/-- The hidden counters and the returned orders of every run with fewer than
`2^32` trades. -/
theorem ledger_and_order_stream (config : Config) (calls : List EngineCall)
    (hcount : (handledTrades calls).length < 2 ^ 32) :
    (after config calls).cumulativeTradedQuantity.toNat =
        marketVolume calls ∧
      (after config calls).tradedQuantity.toNat =
        acceptedQuantity (orderStream config calls) ∧
      (after config calls).tradedQuantity ≤
        (after config calls).cumulativeTradedQuantity ∧
      (∀ before vwapService clock trade,
        before ++ [.handleTrade vwapService clock trade] <+: calls →
        let engine := after config before
        let returned := (engine.handleTrade vwapService clock trade).1
        (returned = none ↔
          engine.isHalted = true ∧
            (engine.isReadyToTrade clock.steadyMs).1 = true) ∧
        ∀ order, returned = some order →
          AnswersTrade (handledTrades before).length trade order) ∧
      (orderStream config calls).Pairwise
        (fun earlier later =>
          earlier.clientOrderId < later.clientOrderId) ∧
      (orderStream config calls).length ≤ (handledTrades calls).length := by
  have hvolume : marketVolume calls < 2 ^ 64 := by
    have hle := quantitySum_le (handledTrades calls)
    unfold marketVolume
    omega
  have hledger := ledger_of_volume_lt config hvolume
  refine ⟨hledger.cumulative, hledger.traded, ?_, ?_,
    orderStream_ids_increasing config (by omega),
    length_orderStream_le config calls⟩
  · rw [UInt64.le_iff_toNat_le, hledger.traded, hledger.cumulative]
    exact hledger.traded_le
  · intro before vwapService clock trade hpre
    have hbefore : (handledTrades before).length < 2 ^ 64 := by
      have hshorter := (hpre.sublist.filterMap EngineCall.trade?).length_le
      simp only [List.filterMap_append, List.length_append] at hshorter
      unfold handledTrades at hcount ⊢
      omega
    refine ⟨handleTrade_eq_none_iff _ _ _ _, ?_⟩
    intro order hreturned
    rw [eq_answer_of_handleTrade hreturned]
    exact answer_answersTrade config hbefore vwapService clock trade

/-! ## An opening sequence -/

def openingQuotes : List EngineCall :=
  List.replicate 10 (.onQuoteReceived 0)

def sampleTrade (aggressor : TradeAggressor) (quantity : UInt32)
    (price : Int64) : Trade where
  symbol := List.Vector.replicate 12 65
  timestampNs := 0
  quantity := quantity
  price := price
  aggressor := aggressor
  id := 1

/-- A trade judged at time `reading` by an engine whose VWAP service has
been fed that trade and nothing else. -/
def sampleCall (reading : UInt64) (trade : Trade) : EngineCall :=
  .handleTrade
    (VWAPService.handleTrade .overwriteOldest
      (VWAPService.initial reading fun _ => trade) trade).2
    ⟨reading, 0, 0⟩ trade

theorem ledger_and_order_stream_opening :
    let config : Config := ⟨100, 1000, 5, 0, 0⟩
    let calls := openingQuotes ++
      [.haltTrading, sampleCall 5 (sampleTrade .sell 3 90), .resumeTrading,
        sampleCall 5 (sampleTrade .buy 7 90)]
    (after config calls).cumulativeTradedQuantity.toNat =
        marketVolume calls ∧
      (after config calls).tradedQuantity.toNat =
        acceptedQuantity (orderStream config calls) := by
  intro config calls
  have hledger := ledger_and_order_stream config calls (by decide)
  exact ⟨hledger.1, hledger.2.1⟩

end ExecutionEngine

end Slipstream
