import Slipstream.ExecutionLimits
import Slipstream.MessageHandlers
import Slipstream.VWAPRing

/-!
# Runs of the dispatched components

Only trades and quotes reach the engine, and no message halts it.  Every
trade that is dispatched is therefore answered by one order.  The second
half follows one short run for any configuration: ten quotes, then unit
trades at price zero.
-/

namespace Slipstream

namespace Components

section Concat

variable (setup : Setup) (stream : List Delivery) (delivery : Delivery)

theorem after_concat :
    after setup (stream ++ [delivery]) =
      (dispatch (after setup stream) delivery).1 := by
  simp [after]

theorem sent_concat :
    sent setup (stream ++ [delivery]) =
      sent setup stream ++ [(dispatch (after setup stream) delivery).2] := by
  simp [sent, after]

theorem length_sent : (sent setup stream).length = stream.length := by
  simp [sent]

end Concat

/-! ## The effect of a message on the engine -/

theorem dispatch_trade_engine (components : Components) (trade : Trade)
    (clock : ClockReadings) :
    (dispatch components ⟨.trade trade, clock⟩).1.executionEngine =
      components.executionEngine.judged (components.fed trade) clock
        trade := by
  rw [dispatch_trade]
  exact (ExecutionEngine.handleTrade_eq _ _ _ _).2

/-- An engine that is not halted answers a trade of any symbol. -/
theorem dispatch_trade_orders {components : Components}
    (hrunning : components.executionEngine.isHalted = false) (trade : Trade)
    (clock : ClockReadings) :
    (dispatch components ⟨.trade trade, clock⟩).2 =
      [components.executionEngine.answer (components.fed trade) clock
        trade] := by
  rw [dispatch_trade]
  dsimp only
  rw [(ExecutionEngine.handleTrade_eq _ _ _ _).1]
  simp [ExecutionEngine.suppresses, hrunning]

/-- No message halts or resumes trading. -/
theorem dispatch_isHalted (components : Components) (delivery : Delivery) :
    (dispatch components delivery).1.executionEngine.isHalted =
      components.executionEngine.isHalted := by
  rcases delivery with ⟨message, clock⟩
  cases message with
  | quote quote =>
      rw [dispatch_quote, ExecutionEngine.onQuoteReceived_eq]
  | trade trade =>
      rw [dispatch_trade_engine]
      rfl
  | heartbeat heartbeat => rfl
  | sessionControl sessionControl => rfl

theorem after_running (setup : Setup) (stream : List Delivery) :
    (after setup stream).executionEngine.isHalted = false :=
  RunHistory.exec_invariant dispatch
    (motive := fun components =>
      components.executionEngine.isHalted = false)
    (fun components delivery hrunning =>
      (dispatch_isHalted components delivery).trans hrunning)
    rfl stream

/-! ## Trades at price zero in a warmed-up system -/

def warmUp (symbol : Symbol) : List Delivery :=
  List.replicate 10
    ⟨.quote
      { symbol := symbol
        timestampNs := 0
        bidQuantity := 0
        bidPrice := 0
        askQuantity := 0
        askPrice := 0 }, ⟨0, 0, 0⟩⟩

def unitTrade (symbol : Symbol) (aggressor : TradeAggressor) : Trade where
  symbol := symbol
  timestampNs := 0
  quantity := 1
  price := 0
  aggressor := aggressor
  id := 1

/-- A unit trade at price zero, handled when the warm-up time is over. -/
def unitDelivery (setup : Setup) (symbol : Symbol)
    (aggressor : TradeAggressor) : Delivery :=
  ⟨.trade (unitTrade symbol aggressor), ⟨setup.config.vwapWindowMs, 0, 0⟩⟩

def otherSymbol (symbol : Symbol) : Symbol :=
  symbol.map (· + 1)

theorem otherSymbol_ne (symbol : Symbol) : otherSymbol symbol ≠ symbol := by
  intro heq
  have hhead := congrArg (fun bytes : Symbol => bytes.get 0) heq
  simp only [otherSymbol, List.Vector.get_map] at hhead
  have hnat := congrArg UInt8.toNat hhead
  rw [UInt8.toNat_add, UInt8.toNat_one] at hnat
  have hbyte := (symbol.get 0).toNat_lt
  omega

theorem after_warmUp_engine (setup : Setup) (symbol : Symbol) :
    (after setup (warmUp symbol)).executionEngine =
      { ExecutionEngine.initial setup.config with
        quotesReceived := 10
        timestampStarted := 0 } := by
  simp [after, warmUp, List.replicate, dispatch_quote, initial,
    ExecutionEngine.onQuoteReceived, ExecutionEngine.initial]

theorem after_warmUp_vwapService (setup : Setup) (symbol : Symbol) :
    (after setup (warmUp symbol)).vwapService =
      VWAPService.initial setup.config.vwapWindowMs setup.slots := by
  simp [after, warmUp, List.replicate, dispatch_quote, initial]

theorem warmUp_ready (setup : Setup) (symbol : Symbol) :
    (after setup (warmUp symbol)).executionEngine.ready
      setup.config.vwapWindowMs = true := by
  simp [after_warmUp_engine, ExecutionEngine.ready,
    ExecutionEngine.isReadyToTrade, ExecutionEngine.getElapsedTimeMs,
    ExecutionEngine.minQuotesRequired, ExecutionEngine.initial]

def unitService (setup : Setup) (trade : Trade) : VWAPService :=
  (VWAPService.initial setup.config.vwapWindowMs setup.slots).addTrade trade

section UnitService

variable (setup : Setup) (symbol : Symbol) (aggressor : TradeAggressor)

theorem unitService_fresh :
    ((unitService setup (unitTrade symbol aggressor)).trades
      (unitService setup (unitTrade symbol aggressor)).tail).timestampNs =
        0 := rfl

theorem unitService_free :
    (unitService setup (unitTrade symbol aggressor)).totalPricedQuantity =
      0 := rfl

theorem unitService_not_full (trade : Trade) :
    ¬ (unitService setup trade).Full := by
  simp [VWAPService.Full, unitService, VWAPService.addTrade,
    VWAPService.initial, VWAPService.bufferSize]

theorem fed_after_warmUp (quoted : Symbol) (trade : Trade) :
    (after setup (warmUp quoted)).fed trade = unitService setup trade := by
  rw [fed, after_warmUp_vwapService]
  have hroom : ¬ (VWAPService.initial setup.config.vwapWindowMs
      setup.slots).Full := by
    simp [VWAPService.Full, VWAPService.initial]
  rw [VWAPService.handleTrade_of_fresh (.inl rfl) hroom, unitService]

theorem getVWAP_unitService :
    ((unitService setup (unitTrade symbol aggressor)).getVWAP 0).1 = 0 :=
  VWAPService.getVWAP_eq_zero_of_free
    (.inr (unitService_fresh setup symbol aggressor))
    (unitService_free setup symbol aggressor)

end UnitService

/-- After the warm-up a system whose limits are not zero buys a first unit
of any symbol, whatever symbol the quotes were for. -/
theorem warmUp_accepts_buy {setup : Setup}
    (hcap : setup.config.participationCap ≠ 0)
    (hmax : setup.config.maxQuantity ≠ 0) (quoted symbol : Symbol) :
    (after setup (warmUp quoted)).executionEngine.accepts
      (unitService setup (unitTrade symbol .buy))
      ⟨setup.config.vwapWindowMs, 0, 0⟩ (unitTrade symbol .buy) = true := by
  refine ExecutionEngine.accepts_buy_of_zero (warmUp_ready setup quoted)
    (after_running setup _) (getVWAP_unitService setup symbol .buy) rfl rfl
    ?_ ?_
  · rw [after_warmUp_engine]
    simpa [ExecutionEngine.initial, unitTrade] using
      ExecutionEngine.one_le_of_ne_zero hcap
  · rw [after_warmUp_engine]
    simpa [ExecutionEngine.initial, unitTrade] using
      ExecutionEngine.one_le_of_ne_zero hmax

def sampleSetup : Setup where
  symbol := List.Vector.replicate 12 65
  config := ⟨1000, 1000, 5, 0, 0⟩
  slots := fun _ => ExecutionEngine.sampleTrade .unknown 0 0
  latestQuote := ⟨List.Vector.replicate 12 0, 0, 0, 0, 0, 0⟩

end Components

end Slipstream
