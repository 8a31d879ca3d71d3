import Slipstream.PriceBand

/-!
# The required edge in exact arithmetic

An accepted order should be better than the benchmark by the band of the
engine.  The engine computes its price bounds in wrapping unsigned
arithmetic and compares them with the price read as an unsigned number.

For a buy this can only tighten the bound, except that a band above 10000
turns the factor `10000 - bandBps` into a huge one.  For a sell each of the
rounding, the wrapped product and the conversion of a negative price gives
way.  A window without quantity has the benchmark zero, which every sell
and every buy at price zero beats.
-/

namespace Slipstream
namespace ExecutionEngine

/-- The trade is answered by an accepted order of the given side. -/
def Executes (engine : ExecutionEngine) (vwapService : VWAPService)
    (clock : ClockReadings) (trade : Trade) (side : OrderSide) : Prop :=
  ∃ order, (engine.handleTrade vwapService clock trade).1 = some order ∧
    order.status = .accepted ∧ order.side = side

def BuyEdge (bandBps vwap price : ℤ) : Prop :=
  10000 * price ≤ vwap * (10000 - bandBps)

def SellEdge (bandBps vwap price : ℤ) : Prop :=
  10000 * price ≥ vwap * (10000 + bandBps)

/-- The prices that the sell test lets through without the required edge:
the negative ones, and those from the computed bound up to the edge. -/
def SellGap (bandBps vwap price : ℤ) : Prop :=
  price < 0 ∨
    vwap * (10000 + bandBps) % 2 ^ 64 < 10000 * (price + 1) ∧
      10000 * price < vwap * (10000 + bandBps)

section Executes

variable {engine : ExecutionEngine} {vwapService : VWAPService}
  {clock : ClockReadings} {trade : Trade}

theorem executes_iff {side : OrderSide} :
    engine.Executes vwapService clock trade side ↔
      engine.accepts vwapService clock trade = true ∧
        (engine.answer vwapService clock trade).side = side := by
  constructor
  · rintro ⟨order, horder, hstatus, hside⟩
    rw [eq_answer_of_handleTrade horder] at hstatus hside
    exact ⟨by simpa [answer] using hstatus, hside⟩
  · rintro ⟨haccepts, hside⟩
    refine ⟨engine.answer vwapService clock trade, ?_, ?_, hside⟩
    · rw [(engine.handleTrade_eq vwapService clock trade).1,
        not_suppresses_of_accepts haccepts]
      rfl
    · simp [answer, haccepts]

theorem executes_buy_iff :
    engine.Executes vwapService clock trade .buy ↔
      trade.aggressor = .buy ∧
        engine.accepts vwapService clock trade = true := by
  rw [executes_iff, and_comm]
  refine and_congr_left fun _ => ?_
  simp [answer]

theorem executes_sell_iff :
    engine.Executes vwapService clock trade .sell ↔
      trade.aggressor = .sell ∧
        engine.accepts vwapService clock trade = true := by
  rw [executes_iff, and_comm]
  refine and_congr_left fun haccepts => ?_
  rcases aggressor_of_accepts haccepts with hbuy | hsell
  · simp [answer, hbuy]
  · simp [answer, hsell]

end Executes

/-! ## The bounds of the engine and signed prices -/

section Bounds

variable {engine : ExecutionEngine} {vwap : UInt64} {price : Int64}

/-- A price below the upper bound is not negative, and keeps the edge unless
the factor of the bound wraps. -/
theorem buyEdge_iff_of_le_upperBound
    (hle : price.toUInt64 ≤ engine.upperBound vwap) :
    BuyEdge engine.bandBps.toNat vwap.toNat price.toInt ↔
      engine.bandBps ≤ 10000 ∨ vwap = 0 := by
  rw [le_upperBound_iff_residue] at hle
  have hprice := WordResidues.toNat_toUInt64 price
  have hlower := price.le_toInt
  have hupper := price.toInt_lt
  have hexact : (price.toUInt64.toNat : ℤ) = price.toInt := by omega
  have hband : engine.bandBps ≤ 10000 ↔ engine.bandBps.toNat ≤ 10000 := by
    rw [UInt64.le_iff_toNat_le]
    rfl
  have hvwap : vwap = 0 ↔ vwap.toNat = 0 := by
    rw [← UInt64.toNat_inj]
    rfl
  rw [hexact] at hle
  rw [hband, hvwap, BuyEdge]
  constructor
  · intro hedge
    by_contra! hwide
    have hnegative : (vwap.toNat : ℤ) * (10000 - engine.bandBps.toNat) < 0 :=
      Int.mul_neg_of_pos_of_neg (by omega) (by omega)
    omega
  · rintro (hnarrow | hzero)
    · have hnonneg : 0 ≤ (vwap.toNat : ℤ) * (10000 - engine.bandBps.toNat) :=
        mul_nonneg (by omega) (by omega)
      omega
    · rw [hzero] at hle ⊢
      simpa using hle

/-- A negative price passes every lower bound. -/
theorem lowerBound_le_iff_price :
    engine.lowerBound vwap ≤ price.toUInt64 ↔
      price.toInt < 0 ∨
        vwap.toNat * (10000 + engine.bandBps.toNat) % 2 ^ 64 <
          10000 * (price.toInt + 1) := by
  have hprice := WordResidues.toNat_toUInt64 price
  have hlower := price.le_toInt
  have hupper := price.toInt_lt
  rw [lowerBound_le_iff_residue]
  omega

theorem sellEdge_of_lowerBound_iff :
    (engine.lowerBound vwap ≤ price.toUInt64 →
        SellEdge engine.bandBps.toNat vwap.toNat price.toInt) ↔
      ¬ SellGap engine.bandBps.toNat vwap.toNat price.toInt := by
  have hnonneg : 0 ≤ (vwap.toNat : ℤ) * (10000 + engine.bandBps.toNat) :=
    mul_nonneg (by omega) (by omega)
  rw [lowerBound_le_iff_price, SellEdge, SellGap]
  omega

end Bounds

end ExecutionEngine

namespace Components

open ExecutionEngine

/-- The trade is answered by an accepted order of the given side when it is
dispatched. -/
def Executes (components : Components) (trade : Trade)
    (clock : ClockReadings) (side : OrderSide) : Prop :=
  components.executionEngine.Executes (components.fed trade) clock trade side

theorem dispatch_bandBps (components : Components) (delivery : Delivery) :
    (dispatch components delivery).1.executionEngine.bandBps =
      components.executionEngine.bandBps := by
  rcases delivery with ⟨message, clock⟩
  cases message with
  | quote quote =>
      rw [dispatch_quote, ExecutionEngine.onQuoteReceived_eq]
  | trade trade =>
      rw [dispatch_trade_engine]
      rfl
  | heartbeat heartbeat => rfl
  | sessionControl sessionControl => rfl

theorem after_bandBps (setup : Setup) (stream : List Delivery) :
    (after setup stream).executionEngine.bandBps = setup.config.bandBps :=
  RunHistory.exec_invariant dispatch
    (motive := fun components =>
      components.executionEngine.bandBps = setup.config.bandBps)
    (fun components delivery hband =>
      (dispatch_bandBps components delivery).trans hband)
    rfl stream

/-! ## Empty trades after the opening -/

section EmptyTrades

variable (setup : Setup)

def emptyBuy : Trade := pricedTrade setup.symbol 0 0 .buy

def negativeSell : Trade :=
  { pricedTrade setup.symbol 0 0 .sell with price := -1 }

theorem opening_executes_emptyBuy
    (hcap : setup.config.participationCap ≠ 0) :
    (after setup (pricedOpening setup)).Executes (emptyBuy setup) ⟨0, 0, 0⟩
      .buy := by
  have hquantity : (after setup
      (pricedOpening setup)).executionEngine.passesQuantityTests
        (emptyBuy setup) = true := by
    have hone := ExecutionEngine.one_le_of_ne_zero hcap
    rw [after_pricedOpening_engine, after_warmUp_engine]
    simpa [passesQuantityTests, emptyBuy, judged, accepts, pricedTrade,
      ExecutionEngine.initial] using hone
  refine executes_buy_iff.mpr ⟨rfl, (accepts_buy_iff rfl).mpr
    ⟨ExecutionEngine.ready_of_started (pricedOpening_started setup),
      after_running setup _, hquantity, ?_⟩⟩
  rw [UInt64.le_iff_toNat_le]
  exact Nat.zero_le _

theorem opening_executes_negativeSell :
    (after setup (pricedOpening setup)).Executes (negativeSell setup)
      ⟨0, 0, 0⟩ .sell := by
  have hquantity : (after setup
      (pricedOpening setup)).executionEngine.passesQuantityTests
        (negativeSell setup) = true := by
    simp [passesQuantityTests, negativeSell, pricedTrade]
  have hnegative : (negativeSell setup).price.toInt < 0 :=
    Int.negSucc_lt_zero 0
  exact executes_sell_iff.mpr ⟨rfl, (accepts_sell_iff rfl).mpr
    ⟨ExecutionEngine.ready_of_started (pricedOpening_started setup),
      after_running setup _, hquantity,
      lowerBound_le_iff_price.mpr (.inl hnegative)⟩⟩

end EmptyTrades

/-! ## The edge of a buy -/

def KeepsBuyEdge (components : Components) (trade : Trade)
    (clock : ClockReadings) : Prop :=
  components.Executes trade clock .buy →
    BuyEdge components.executionEngine.bandBps.toNat
      (components.benchmark trade clock).toNat trade.price.toInt

theorem buyEdge_iff_of_executes {engine : ExecutionEngine}
    {vwapService : VWAPService} {clock : ClockReadings} {trade : Trade}
    (hexecutes : engine.Executes vwapService clock trade .buy) :
    BuyEdge engine.bandBps.toNat
        (vwapService.getVWAP clock.systemMs).1.toNat trade.price.toInt ↔
      engine.bandBps ≤ 10000 ∨
        (vwapService.getVWAP clock.systemMs).1 = 0 := by
  rcases executes_buy_iff.mp hexecutes with ⟨hbuy, haccepts⟩
  rcases (accepts_buy_iff hbuy).mp haccepts with ⟨_, _, _, hle⟩
  exact buyEdge_iff_of_le_upperBound hle

/-- An accepted buy has the required edge exactly when the band is at most
10000 or the benchmark is zero, in any state.  A configuration that can buy
keeps the edge in all its runs exactly when its band is at most 10000. -/
theorem buy_edge_iff (engine : ExecutionEngine) (vwapService : VWAPService)
    (clock : ClockReadings) (trade : Trade) (setup : Setup) :
    (engine.Executes vwapService clock trade .buy →
      (BuyEdge engine.bandBps.toNat
          (vwapService.getVWAP clock.systemMs).1.toNat
          trade.price.toInt ↔
        engine.bandBps ≤ 10000 ∨
          (vwapService.getVWAP clock.systemMs).1 = 0)) ∧
      (setup.config.participationCap ≠ 0 →
        ((∀ stream trade clock,
            KeepsBuyEdge (after setup stream) trade clock) ↔
          setup.config.bandBps ≤ 10000)) := by
  refine ⟨buyEdge_iff_of_executes, fun hcap => ⟨fun hall => ?_,
    fun hband => ?_⟩⟩
  · have hexecutes := opening_executes_emptyBuy setup hcap
    have hpriced : (((after setup (pricedOpening setup)).fed
        (emptyBuy setup)).getVWAP 0).1 = 10000 :=
      benchmark_after_pricedOpening setup rfl rfl
    have hedge := hall (pricedOpening setup) (emptyBuy setup) ⟨0, 0, 0⟩
      hexecutes
    rcases (buyEdge_iff_of_executes hexecutes).mp hedge with hnarrow | hzero
    · rwa [after_bandBps] at hnarrow
    · exact absurd (hpriced.symm.trans hzero) (by decide)
  · intro stream trade clock hexecutes
    refine (buyEdge_iff_of_executes hexecutes).mpr (.inl ?_)
    rwa [after_bandBps]

/-- A required edge of 101 percent. -/
def wideBand : Setup :=
  { sampleSetup with config := ⟨1000, 1000, 5, mainBandBps 101, 0⟩ }

def dearBuy : Trade := pricedTrade wideBand.symbol 1 1000000 .buy

set_option maxRecDepth 4000 in
/-- A buy at almost twice the benchmark, instead of none at all. -/
theorem buy_without_edge :
    (after wideBand (pricedOpening wideBand)).benchmark dearBuy
        ⟨5, 0, 0⟩ = 505000 ∧
      (after wideBand (pricedOpening wideBand)).Executes dearBuy ⟨5, 0, 0⟩
        .buy ∧
      ¬ BuyEdge (after wideBand
          (pricedOpening wideBand)).executionEngine.bandBps.toNat
        505000 dearBuy.price.toInt := by
  refine ⟨by decide, executes_buy_iff.mpr ⟨rfl, by decide⟩, ?_⟩
  rw [after_bandBps]
  unfold BuyEdge
  decide

/-! ## The edge of a sell -/

/-- In any state, an un-halted ready engine whose inventory covers a sell
accepts it without the required edge exactly when its price lies in the gap.
No configuration keeps the edge in all its runs. -/
theorem sell_edge_iff (engine : ExecutionEngine)
    (vwapService : VWAPService) (clock : ClockReadings) (trade : Trade)
    (setup : Setup) :
    ((engine.Executes vwapService clock trade .sell →
        SellEdge engine.bandBps.toNat
          (vwapService.getVWAP clock.systemMs).1.toNat
          trade.price.toInt) ↔
      (trade.aggressor = .sell →
        engine.ready clock.steadyMs = true →
        engine.isHalted = false →
        engine.passesQuantityTests trade = true →
        ¬ SellGap engine.bandBps.toNat
          (vwapService.getVWAP clock.systemMs).1.toNat
          trade.price.toInt)) ∧
      ∃ stream trade clock,
        (after setup stream).Executes trade clock .sell ∧
          ¬ SellEdge (after setup stream).executionEngine.bandBps.toNat
            ((after setup stream).benchmark trade clock).toNat
            trade.price.toInt := by
  constructor
  · rw [← sellEdge_of_lowerBound_iff, executes_sell_iff, and_imp]
    refine imp_congr_right fun hsell => ?_
    rw [accepts_sell_iff hsell]
    tauto
  · refine ⟨pricedOpening setup, negativeSell setup, ⟨0, 0, 0⟩,
      opening_executes_negativeSell setup, ?_⟩
    have hprice : (negativeSell setup).price.toInt = -1 := rfl
    have hnonneg : 0 ≤ (((after setup (pricedOpening setup)).benchmark
        (negativeSell setup) ⟨0, 0, 0⟩).toNat : ℤ) *
          (10000 + (after setup
            (pricedOpening setup)).executionEngine.bandBps.toNat) :=
      mul_nonneg (by omega) (by omega)
    rw [SellEdge, hprice]
    omega

/-- A unit at price 10001 is all that the window holds. -/
def unevenOpening : List Delivery :=
  warmUp oneBasisPoint.symbol ++
    [⟨.trade (pricedTrade oneBasisPoint.symbol 1 10001 .unknown),
      ⟨5, 0, 0⟩⟩]

def roundedSell : Trade := pricedTrade oneBasisPoint.symbol 0 10101 .sell

set_option maxRecDepth 4000 in
/-- With a band of one percent and a benchmark of 10001 the edge is
10101.01, and a sell at 10101 is accepted. -/
theorem sell_without_edge :
    (after oneBasisPoint unevenOpening).benchmark roundedSell ⟨5, 0, 0⟩ =
        10001 ∧
      (after oneBasisPoint unevenOpening).Executes roundedSell ⟨5, 0, 0⟩
        .sell ∧
      ¬ SellEdge (after oneBasisPoint
          unevenOpening).executionEngine.bandBps.toNat
        10001 roundedSell.price.toInt := by
  refine ⟨by decide, executes_sell_iff.mpr ⟨rfl, by decide⟩, ?_⟩
  rw [after_bandBps]
  unfold SellEdge
  decide

end Components

end Slipstream
