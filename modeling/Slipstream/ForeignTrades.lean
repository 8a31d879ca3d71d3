import Slipstream.DispatchRuns

/-!
# Trades of other symbols

The trade handler passes every trade to the VWAP service and to the engine.
A foreign trade therefore always receives an order of its own, and it can
change the answers to later trades of the configured symbol.
-/

namespace Slipstream

/-- The fields of an order that say what was decided about the trade. -/
structure Decision where
  status : OrderStatus
  side : OrderSide
  qty : UInt32
  limitPx : Int64
  tradeId : Int64
  deriving DecidableEq

def NewOrder.decision (order : NewOrder) : Decision where
  status := order.status
  side := order.side
  qty := order.qty
  limitPx := order.limitPx
  tradeId := order.tradeId

def foreignTrade (symbol : Symbol) : MDMessage → Bool
  | .trade trade => trade.symbol ≠ symbol
  | _ => false

namespace Components

/-! ## Deleting foreign trades -/

def withoutForeignTrades (symbol : Symbol) (stream : List Delivery) :
    List Delivery :=
  stream.filter fun delivery => !foreignTrade symbol delivery.message

/-- The decisions sent for each message that the deletion keeps, in the run
over the whole stream. -/
def keptDecisions (setup : Setup) (stream : List Delivery) :
    List (List Decision) :=
  ((stream.zip (sent setup stream)).filter fun answered =>
      !foreignTrade setup.symbol answered.1.message).map fun answered =>
    answered.2.map NewOrder.decision

/-- Without the foreign trades, the remaining messages are answered by the
same decisions. -/
def OwnOrdersUnchanged (setup : Setup) (stream : List Delivery) : Prop :=
  keptDecisions setup stream =
    (sent setup (withoutForeignTrades setup.symbol stream)).map
      (List.map NewOrder.decision)

def NoForeignOrders (setup : Setup) (stream : List Delivery) : Prop :=
  ∀ answered ∈ stream.zip (sent setup stream),
    foreignTrade setup.symbol answered.1.message = true → answered.2 = []

instance (setup : Setup) (stream : List Delivery) :
    Decidable (OwnOrdersUnchanged setup stream) :=
  inferInstanceAs (Decidable (_ = _))

instance (setup : Setup) (stream : List Delivery) :
    Decidable (NoForeignOrders setup stream) :=
  inferInstanceAs (Decidable (∀ answered ∈ _, _ → _))

theorem keptDecisions_concat (setup : Setup) (stream : List Delivery)
    {delivery : Delivery}
    (hown : foreignTrade setup.symbol delivery.message = false) :
    keptDecisions setup (stream ++ [delivery]) =
      keptDecisions setup stream ++
        [(dispatch (after setup stream) delivery).2.map
          NewOrder.decision] := by
  unfold keptDecisions
  rw [sent_concat, List.zip_append (length_sent setup stream).symm]
  simp [hown]

theorem withoutForeignTrades_concat (symbol : Symbol)
    (stream : List Delivery) {delivery : Delivery}
    (hown : foreignTrade symbol delivery.message = false) :
    withoutForeignTrades symbol (stream ++ [delivery]) =
      withoutForeignTrades symbol stream ++ [delivery] := by
  simp [withoutForeignTrades, hown]

theorem keptDecisions_of_no_foreign (setup : Setup) {stream : List Delivery}
    (hown : ∀ delivery ∈ stream,
      foreignTrade setup.symbol delivery.message = false) :
    keptDecisions setup stream =
      (sent setup stream).map (List.map NewOrder.decision) := by
  induction stream using List.reverseRecOn with
  | nil => rfl
  | append_singleton before delivery ih =>
      have hlast := hown delivery (by simp)
      have hbefore := ih fun earlier hearlier => hown earlier (by
        simp [hearlier])
      rw [keptDecisions_concat setup before hlast, hbefore, sent_concat]
      simp

theorem withoutForeignTrades_of_no_foreign {symbol : Symbol}
    {stream : List Delivery}
    (hown : ∀ delivery ∈ stream,
      foreignTrade symbol delivery.message = false) :
    withoutForeignTrades symbol stream = stream := by
  unfold withoutForeignTrades
  rw [List.filter_eq_self]
  intro delivery hdelivery
  simp [hown delivery hdelivery]

theorem not_noForeignOrders (setup : Setup) {stream : List Delivery}
    {delivery : Delivery} (hdelivery : delivery ∈ stream)
    (hforeign : foreignTrade setup.symbol delivery.message = true) :
    ¬ NoForeignOrders setup stream := by
  intro hnone
  obtain ⟨before, later, rfl⟩ := List.append_of_mem hdelivery
  rcases delivery with ⟨message, clock⟩
  cases message with
  | quote quote => simp [foreignTrade] at hforeign
  | heartbeat heartbeat => simp [foreignTrade] at hforeign
  | sessionControl sessionControl =>
      simp [foreignTrade] at hforeign
  | trade trade =>
      have hanswered :
          (⟨.trade trade, clock⟩,
            (dispatch (after setup before) ⟨.trade trade, clock⟩).2) ∈
          (before ++ ⟨.trade trade, clock⟩ :: later).zip
            (sent setup (before ++ ⟨.trade trade, clock⟩ :: later)) := by
        unfold sent
        rw [RunHistory.outputs_append, List.zip_append (by simp)]
        simp [after]
      have hempty := hnone _ hanswered hforeign
      rw [dispatch_trade_orders (after_running setup before)] at hempty
      simp at hempty

theorem separated_iff_no_foreign_trade (setup : Setup)
    (stream : List Delivery) :
    OwnOrdersUnchanged setup stream ∧ NoForeignOrders setup stream ↔
      ∀ delivery ∈ stream,
        foreignTrade setup.symbol delivery.message = false := by
  constructor
  · rintro ⟨-, hnone⟩ delivery hdelivery
    by_contra hforeign
    exact not_noForeignOrders setup hdelivery
      (Bool.eq_true_of_not_eq_false hforeign) hnone
  · intro hown
    constructor
    · rw [OwnOrdersUnchanged, keptDecisions_of_no_foreign setup hown,
        withoutForeignTrades_of_no_foreign hown]
    · intro answered hanswered hforeign
      have hmem := (List.of_mem_zip hanswered).1
      rw [hown answered.1 hmem] at hforeign
      contradiction

/-! ## An own sell after a foreign buy -/

theorem warmUp_rejects_sell (setup : Setup) (quoted symbol : Symbol) :
    (after setup (warmUp quoted)).executionEngine.accepts
      ((after setup (warmUp quoted)).fed (unitTrade symbol .sell))
      ⟨setup.config.vwapWindowMs, 0, 0⟩ (unitTrade symbol .sell) =
        false := by
  by_contra haccepts
  have hinventory := ExecutionEngine.sell_limit_of_accepts
    (Bool.eq_true_of_not_eq_false haccepts) rfl
  rw [after_warmUp_engine] at hinventory
  simp [ExecutionEngine.initial, unitTrade] at hinventory

/-- The components after a warm-up and one buy of a unit. -/
def boughtUnit (setup : Setup) (quoted foreign : Symbol) : Components :=
  after setup (warmUp quoted ++ [unitDelivery setup foreign .buy])

section BoughtUnit

variable (setup : Setup) (quoted foreign : Symbol)

theorem boughtUnit_engine :
    (boughtUnit setup quoted foreign).executionEngine =
      (after setup (warmUp quoted)).executionEngine.judged
        (unitService setup (unitTrade foreign .buy))
        ⟨setup.config.vwapWindowMs, 0, 0⟩ (unitTrade foreign .buy) := by
  rw [boughtUnit, after_concat, unitDelivery, dispatch_trade_engine,
    fed_after_warmUp]

theorem boughtUnit_running :
    (boughtUnit setup quoted foreign).executionEngine.isHalted = false := by
  rw [boughtUnit]
  exact after_running setup _

theorem boughtUnit_ready :
    (boughtUnit setup quoted foreign).executionEngine.ready
      setup.config.vwapWindowMs = true := by
  apply ExecutionEngine.ready_of_started
  rw [boughtUnit_engine, ExecutionEngine.judged_tradingStarted]
  exact warmUp_ready setup quoted

theorem boughtUnit_vwapService :
    (boughtUnit setup quoted foreign).vwapService =
      unitService setup (unitTrade foreign .buy) := by
  have hfresh := unitService_fresh setup foreign .buy
  rw [boughtUnit, after_concat, unitDelivery, dispatch_trade,
    fed_after_warmUp]
  dsimp only
  rw [ExecutionEngine.handleTrade_vwapService, VWAPService.getVWAP_snd,
    VWAPService.removeOldTrades_of_fresh (.inr hfresh), ite_self]

theorem boughtUnit_fed (symbol : Symbol) :
    (boughtUnit setup quoted foreign).fed (unitTrade symbol .sell) =
      (unitService setup (unitTrade foreign .buy)).addTrade
        (unitTrade symbol .sell) := by
  have hfresh := unitService_fresh setup foreign .buy
  rw [fed, boughtUnit_vwapService,
    VWAPService.handleTrade_of_fresh (.inr hfresh)
      (unitService_not_full setup _)]

theorem boughtUnit_getVWAP (symbol : Symbol) :
    (((boughtUnit setup quoted foreign).fed
      (unitTrade symbol .sell)).getVWAP 0).1 = 0 := by
  rw [boughtUnit_fed]
  apply VWAPService.getVWAP_eq_zero_of_free
  · simp [unitService, unitTrade, VWAPService.addTrade,
      VWAPService.initial, VWAPService.bufferSize]
  · exact (congrArg (· + _) (unitService_free setup foreign .buy)).trans rfl

end BoughtUnit

theorem boughtUnit_accepts_sell {setup : Setup}
    (hcap : setup.config.participationCap ≠ 0)
    (hmax : setup.config.maxQuantity ≠ 0)
    (quoted foreign symbol : Symbol) :
    (boughtUnit setup quoted foreign).executionEngine.accepts
      ((boughtUnit setup quoted foreign).fed (unitTrade symbol .sell))
      ⟨setup.config.vwapWindowMs, 0, 0⟩ (unitTrade symbol .sell) =
        true := by
  refine ExecutionEngine.accepts_sell_of_zero
    (boughtUnit_ready setup quoted foreign)
    (boughtUnit_running setup quoted foreign)
    (boughtUnit_getVWAP setup quoted foreign symbol) rfl ?_
  rw [boughtUnit_engine, ExecutionEngine.judged_tradedQuantity,
    warmUp_accepts_buy hcap hmax quoted foreign, if_pos rfl,
    after_warmUp_engine]
  simp [ExecutionEngine.initial, unitTrade]

theorem warmUp_own (symbol quoted : Symbol) :
    ∀ delivery ∈ warmUp quoted,
      foreignTrade symbol delivery.message = false := by
  intro delivery hdelivery
  rw [List.eq_of_mem_replicate hdelivery]
  rfl

theorem foreign_trades_interfere {setup : Setup}
    (hcap : setup.config.participationCap ≠ 0)
    (hmax : setup.config.maxQuantity ≠ 0) :
    ∃ stream, ¬ OwnOrdersUnchanged setup stream := by
  let foreign := otherSymbol setup.symbol
  let ownSell := unitDelivery setup setup.symbol .sell
  have hown : foreignTrade setup.symbol ownSell.message = false := by
    simp [ownSell, unitDelivery, unitTrade, foreignTrade]
  have hforeign : foreignTrade setup.symbol
      (unitDelivery setup foreign .buy).message = true := by
    simpa [unitDelivery, unitTrade, foreignTrade] using
      otherSymbol_ne setup.symbol
  have hdeleted : withoutForeignTrades setup.symbol
      (warmUp setup.symbol ++ [unitDelivery setup foreign .buy]) =
        warmUp setup.symbol := by
    rw [withoutForeignTrades, List.filter_append]
    simpa [hforeign] using warmUp_own setup.symbol setup.symbol
  refine ⟨(warmUp setup.symbol ++ [unitDelivery setup foreign .buy]) ++
    [ownSell], ?_⟩
  intro hunchanged
  rw [OwnOrdersUnchanged, keptDecisions_concat _ _ hown,
    withoutForeignTrades_concat _ _ hown, hdeleted, sent_concat,
    List.map_append] at hunchanged
  have hlast := List.append_inj_right' hunchanged (by simp)
  have haccepts := boughtUnit_accepts_sell hcap hmax setup.symbol foreign
    setup.symbol
  have hrejects := warmUp_rejects_sell setup setup.symbol setup.symbol
  simp only [ownSell, unitDelivery,
    dispatch_trade_orders (after_running setup _), List.map_cons,
    List.map_nil, List.cons.injEq, and_true, NewOrder.decision,
    Decision.mk.injEq, ExecutionEngine.answer] at hlast
  rw [boughtUnit, unitDelivery] at haccepts
  rw [haccepts, hrejects] at hlast
  simp at hlast

/-- Foreign trades stay without influence and without an order exactly in
the streams that have none, and every configuration that can trade has a
stream in which they change the answer to an own trade. -/
theorem foreign_trades_separated_iff (setup : Setup) :
    (∀ stream,
      OwnOrdersUnchanged setup stream ∧ NoForeignOrders setup stream ↔
        ∀ delivery ∈ stream,
          foreignTrade setup.symbol delivery.message = false) ∧
    (setup.config.participationCap ≠ 0 → setup.config.maxQuantity ≠ 0 →
      ∃ stream, ¬ OwnOrdersUnchanged setup stream) :=
  ⟨separated_iff_no_foreign_trade setup, foreign_trades_interfere⟩

set_option maxRecDepth 8000 in
/-- A foreign trade for `100` at `50` drags the VWAP below the price of an
own buy, which is accepted without it and rejected after it; the foreign
trade itself is answered by a rejected order. -/
theorem foreign_trade_rejects_own_buy :
    let foreign : Trade :=
      { symbol := List.Vector.replicate 12 66
        timestampNs := 0, quantity := 100, price := 50
        aggressor := .sell, id := 1 }
    let own : Trade :=
      { symbol := List.Vector.replicate 12 65
        timestampNs := 0, quantity := 10, price := 100
        aggressor := .buy, id := 2 }
    let stream := warmUp sampleSetup.symbol ++
      [⟨.trade foreign, ⟨5, 0, 0⟩⟩, ⟨.trade own, ⟨5, 0, 0⟩⟩]
    ¬ OwnOrdersUnchanged sampleSetup stream ∧
      ¬ NoForeignOrders sampleSetup stream := by
  decide

end Components

end Slipstream
