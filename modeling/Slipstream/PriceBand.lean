import Slipstream.DispatchRuns
import Slipstream.WordResidues

/-!
# The price band

The option `--band-bps` is documented in basis points of 0.01%.  `main` hands
the engine a hundred times the option, and the engine divides by 10000, so a
band of `b` basis points acts as one of `b` percent.  The judgement of a trade
agrees with the documented band exactly when its price does not lie between
the documented limit and the limit in the units of the engine.
-/

namespace Slipstream

/-- `static_cast<uint64_t>(bandBps * 100)` for a whole number of basis
points. -/
def mainBandBps (b : ℕ) : UInt64 :=
  UInt64.ofNat (b * 100)

namespace PriceBand

/-- The documented limits, in exact arithmetic. -/
def Documented (b vwap price : ℕ) : TradeAggressor → Prop
  | .buy => 10000 * price ≤ (10000 - b) * vwap
  | .sell => (10000 + b) * vwap ≤ 10000 * price
  | .unknown => False

/-- From 101 basis points on, `10000 - bandBps` wraps around. -/
def buyLimit (b vwap : ℕ) : ℕ :=
  if b ≤ 100 then (10000 - 100 * b) * vwap
  else (2 ^ 64 - (100 * b - 10000) * vwap) % 2 ^ 64

/-- The limits of the engine.  Its division rounds down, which is exact for a
buy and gives way by less than one price unit for a sell. -/
def Enforced (b vwap price : ℕ) : TradeAggressor → Prop
  | .buy => 10000 * price ≤ buyLimit b vwap
  | .sell => (10000 + 100 * b) * vwap ≤ 10000 * price + 9999
  | .unknown => False

/-- The prices between the documented limit and the limit of the engine. -/
def BetweenLimits (b vwap price : ℕ) : TradeAggressor → Prop
  | .buy =>
      min ((10000 - b) * vwap) (buyLimit b vwap) < 10000 * price ∧
        10000 * price ≤ max ((10000 - b) * vwap) (buyLimit b vwap)
  | .sell =>
      ((10000 + b) * vwap ≤ 10000 * price ∧
          10000 * price + 9999 < (10000 + 100 * b) * vwap) ∨
        (10000 * price < (10000 + b) * vwap ∧
          (10000 + 100 * b) * vwap ≤ 10000 * price + 9999)
  | .unknown => False

theorem enforced_iff_documented_iff (b vwap price : ℕ)
    (aggressor : TradeAggressor) :
    (Enforced b vwap price aggressor ↔ Documented b vwap price aggressor) ↔
      ¬ BetweenLimits b vwap price aggressor := by
  cases aggressor with
  | buy =>
      simp only [Enforced, Documented, BetweenLimits]
      omega
  | sell =>
      simp only [Enforced, Documented, BetweenLimits]
      omega
  | unknown => simp [Enforced, Documented, BetweenLimits]

theorem not_betweenLimits_zero (vwap price : ℕ)
    (aggressor : TradeAggressor) :
    ¬ BetweenLimits 0 vwap price aggressor := by
  cases aggressor with
  | buy =>
      rw [BetweenLimits, buyLimit, if_pos (Nat.zero_le 100)]
      omega
  | sell =>
      rw [BetweenLimits]
      omega
  | unknown => exact id

end PriceBand

namespace ExecutionEngine

open PriceBand

/-! ## The bounds of the engine as residues -/

section Residues

variable {engine : ExecutionEngine} {vwap : UInt64} (price : UInt64)

theorem le_upperBound_iff_residue :
    price ≤ engine.upperBound vwap ↔
      10000 * (price.toNat : ℤ) ≤
        vwap.toNat * (10000 - engine.bandBps.toNat) % 2 ^ 64 := by
  have hfull : (10000 : UInt64).toNat = 10000 := rfl
  have hfactor := WordResidues.toNat_sub 10000 engine.bandBps
  rw [hfull] at hfactor
  have hproduct := WordResidues.toNat_mul_of_residue (a := vwap) hfactor
  rw [UInt64.le_iff_toNat_le, upperBound, UInt64.toNat_div, hfull,
    Nat.le_div_iff_mul_le (by decide)]
  push_cast at hproduct
  omega

theorem lowerBound_le_iff_residue :
    engine.lowerBound vwap ≤ price ↔
      vwap.toNat * (10000 + engine.bandBps.toNat) % 2 ^ 64 <
        10000 * ((price.toNat : ℤ) + 1) := by
  have hfull : (10000 : UInt64).toNat = 10000 := rfl
  have hfactor := WordResidues.toNat_add 10000 engine.bandBps
  rw [hfull] at hfactor
  have hproduct := WordResidues.toNat_mul_of_residue (a := vwap) hfactor
  rw [UInt64.le_iff_toNat_le, lowerBound, UInt64.toNat_div, hfull]
  push_cast at hproduct
  omega

end Residues

/-! ## The bounds of the engine as limits -/

section Bounds

theorem toNat_mainBandBps {b : ℕ} (hb : b < 10000) :
    (mainBandBps b).toNat = 100 * b := by
  rw [mainBandBps, Nat.mul_comm]
  exact UInt64.toNat_ofNat_of_lt' (by simp [UInt64.size]; omega)

variable {engine : ExecutionEngine} {b : ℕ}
  (hband : engine.bandBps = mainBandBps b) (hb : b < 10000) {vwap : UInt64}
  (hvwap : vwap.toNat * 2000000 < 2 ^ 64)

include hb hvwap in
theorem buyLimit_eq_residue :
    (buyLimit b vwap.toNat : ℤ) =
      vwap.toNat * (10000 - (100 * b : ℕ)) % 2 ^ 64 := by
  by_cases hsmall : b ≤ 100
  · obtain ⟨factor, hfactor⟩ :=
      Nat.exists_eq_add_of_le (by omega : 100 * b ≤ 10000)
    have hproduct : vwap.toNat * factor ≤ vwap.toNat * 2000000 :=
      Nat.mul_le_mul_left _ (by omega)
    have hexact : (10000 : ℤ) - (100 * b : ℕ) = factor := by omega
    have hlimit : 10000 - 100 * b = factor := by omega
    rw [buyLimit, if_pos hsmall, hlimit, hexact, Nat.mul_comm]
    push_cast
    rw [Int.emod_eq_of_lt (by positivity) (by omega)]
  · obtain ⟨factor, hfactor⟩ :=
      Nat.exists_eq_add_of_le (by omega : 10000 ≤ 100 * b)
    have hproduct : vwap.toNat * factor ≤ vwap.toNat * 2000000 :=
      Nat.mul_le_mul_left _ (by omega)
    have hexact : (vwap.toNat : ℤ) * (10000 - (100 * b : ℕ)) =
        -((vwap.toNat * factor : ℕ) : ℤ) := by
      rw [hfactor]
      push_cast
      ring
    have hlimit : 100 * b - 10000 = factor := by omega
    rw [buyLimit, if_neg hsmall, hlimit, Nat.mul_comm factor, hexact]
    omega

include hband hb hvwap

theorem le_upperBound_iff (price : UInt64) :
    price ≤ engine.upperBound vwap ↔
      10000 * price.toNat ≤ buyLimit b vwap.toNat := by
  rw [le_upperBound_iff_residue, hband, toNat_mainBandBps hb,
    ← buyLimit_eq_residue hb hvwap]
  omega

theorem lowerBound_le_iff (price : UInt64) :
    engine.lowerBound vwap ≤ price ↔
      (10000 + 100 * b) * vwap.toNat ≤ 10000 * price.toNat + 9999 := by
  have hproduct : vwap.toNat * (10000 + 100 * b) ≤
      vwap.toNat * 2000000 := Nat.mul_le_mul_left _ (by omega)
  have hexact : (vwap.toNat : ℤ) * (10000 + (100 * b : ℕ)) =
      (vwap.toNat * (10000 + 100 * b) : ℕ) := by
    push_cast
    ring
  rw [lowerBound_le_iff_residue, hband, toNat_mainBandBps hb, hexact,
    Nat.mul_comm (10000 + 100 * b)]
  omega

end Bounds

/-- The quantity tests of `shouldBuy` and `shouldSell`. -/
def passesQuantityTests (engine : ExecutionEngine) (trade : Trade) : Bool :=
  match trade.aggressor with
  | .buy =>
      engine.cumulativeTradedQuantity + trade.quantity.toUInt64 ≤
          engine.participationCap &&
        engine.tradedQuantity + trade.quantity.toUInt64 ≤ engine.maxQuantity
  | .sell => engine.tradedQuantity ≥ trade.quantity.toUInt64
  | .unknown => false

section Accepts

variable {engine : ExecutionEngine} {vwapService : VWAPService}
  {clock : ClockReadings} {trade : Trade}

theorem accepts_buy_iff (hbuy : trade.aggressor = .buy) :
    engine.accepts vwapService clock trade = true ↔
      engine.ready clock.steadyMs = true ∧ engine.isHalted = false ∧
        engine.passesQuantityTests trade = true ∧
        trade.price.toUInt64 ≤
          engine.upperBound (vwapService.getVWAP clock.systemMs).1 := by
  simp only [accepts, hbuy, shouldBuy, passesQuantityTests,
    Bool.and_eq_true, Bool.not_eq_true', decide_eq_true_eq]
  tauto

theorem accepts_sell_iff (hsell : trade.aggressor = .sell) :
    engine.accepts vwapService clock trade = true ↔
      engine.ready clock.steadyMs = true ∧ engine.isHalted = false ∧
        engine.passesQuantityTests trade = true ∧
        engine.lowerBound (vwapService.getVWAP clock.systemMs).1 ≤
          trade.price.toUInt64 := by
  simp only [accepts, hsell, shouldSell, passesQuantityTests,
    Bool.and_eq_true, Bool.not_eq_true', decide_eq_true_eq]
  tauto

end Accepts

theorem accepts_iff_enforced {engine : ExecutionEngine} {b : ℕ}
    (hband : engine.bandBps = mainBandBps b) (hb : b < 10000)
    {vwapService : VWAPService} {clock : ClockReadings} {trade : Trade}
    (hready : engine.ready clock.steadyMs = true)
    (hrunning : engine.isHalted = false) (hprice : 0 ≤ trade.price)
    (hquantity : engine.passesQuantityTests trade = true)
    (hvwap : (vwapService.getVWAP clock.systemMs).1.toNat * 2000000 <
      2 ^ 64) :
    engine.accepts vwapService clock trade = true ↔
      Enforced b (vwapService.getVWAP clock.systemMs).1.toNat
        trade.price.toNatClampNeg trade.aggressor := by
  rw [← Int64.toNat_toUInt64_of_le hprice]
  cases haggressor : trade.aggressor with
  | buy =>
      rw [accepts_buy_iff haggressor,
        le_upperBound_iff hband hb hvwap trade.price.toUInt64]
      simp only [hready, hrunning, hquantity, true_and, Enforced]
  | sell =>
      rw [accepts_sell_iff haggressor,
        lowerBound_le_iff hband hb hvwap trade.price.toUInt64]
      simp only [hready, hrunning, hquantity, true_and, Enforced]
  | unknown =>
      simp [passesQuantityTests, haggressor] at hquantity

end ExecutionEngine

namespace Components

open PriceBand

/-- The value `getVWAP` returns while a trade is judged. -/
def benchmark (components : Components) (trade : Trade)
    (clock : ClockReadings) : UInt64 :=
  ((components.fed trade).getVWAP clock.systemMs).1

structure BandCase (b : ℕ) (components : Components) (trade : Trade)
    (clock : ClockReadings) : Prop where
  band : components.executionEngine.bandBps = mainBandBps b
  ready : components.executionEngine.ready clock.steadyMs = true
  running : components.executionEngine.isHalted = false
  price : 0 ≤ trade.price
  quantity : components.executionEngine.passesQuantityTests trade = true
  vwap : (components.benchmark trade clock).toNat * 2000000 < 2 ^ 64

def AnswersAccepted (components : Components) (trade : Trade)
    (clock : ClockReadings) : Prop :=
  ∃ order ∈ (dispatch components ⟨.trade trade, clock⟩).2,
    order.status = .accepted

def JudgedAsDocumented (b : ℕ) (components : Components) (trade : Trade)
    (clock : ClockReadings) : Prop :=
  components.AnswersAccepted trade clock ↔
    Documented b (components.benchmark trade clock).toNat
      trade.price.toNatClampNeg trade.aggressor

theorem answersAccepted_iff {components : Components}
    (hrunning : components.executionEngine.isHalted = false) (trade : Trade)
    (clock : ClockReadings) :
    components.AnswersAccepted trade clock ↔
      components.executionEngine.accepts (components.fed trade) clock
        trade = true := by
  rw [AnswersAccepted, dispatch_trade_orders hrunning]
  simp [ExecutionEngine.answer]

theorem judgedAsDocumented_iff {b : ℕ} (hb : b < 10000)
    {components : Components} {trade : Trade} {clock : ClockReadings}
    (hcase : BandCase b components trade clock) :
    JudgedAsDocumented b components trade clock ↔
      ¬ BetweenLimits b (components.benchmark trade clock).toNat
        trade.price.toNatClampNeg trade.aggressor := by
  rw [JudgedAsDocumented, answersAccepted_iff hcase.running,
    ExecutionEngine.accepts_iff_enforced hcase.band hb hcase.ready
      hcase.running hcase.price hcase.quantity hcase.vwap]
  exact enforced_iff_documented_iff _ _ _ _

/-! ## A sell between the limits -/

def pricedTrade (symbol : Symbol) (quantity : UInt32) (price : ℕ)
    (aggressor : TradeAggressor) : Trade where
  symbol := symbol
  timestampNs := 0
  quantity := quantity
  price := Int64.ofNat price
  aggressor := aggressor
  id := 1

/-- Trading is started by one unit at price one, of no known side. -/
def pricedOpening (setup : Setup) : List Delivery :=
  warmUp setup.symbol ++
    [⟨.trade (pricedTrade setup.symbol 1 10000 .unknown),
      ⟨setup.config.vwapWindowMs, 0, 0⟩⟩]

/-- An empty sell at the documented limit. -/
def limitSell (setup : Setup) (b : ℕ) : Trade :=
  pricedTrade setup.symbol 0 (10000 + b) .sell

section PricedOpening

variable (setup : Setup)

theorem after_pricedOpening_vwapService :
    (after setup (pricedOpening setup)).vwapService =
      unitService setup (pricedTrade setup.symbol 1 10000 .unknown) := by
  rw [pricedOpening, after_concat, dispatch_trade, fed_after_warmUp]
  dsimp only
  rw [ExecutionEngine.handleTrade_vwapService]
  simp [ExecutionEngine.readsVWAP, pricedTrade]

theorem after_pricedOpening_engine :
    (after setup (pricedOpening setup)).executionEngine =
      (after setup (warmUp setup.symbol)).executionEngine.judged
        (unitService setup (pricedTrade setup.symbol 1 10000 .unknown))
        ⟨setup.config.vwapWindowMs, 0, 0⟩
        (pricedTrade setup.symbol 1 10000 .unknown) := by
  rw [pricedOpening, after_concat, dispatch_trade_engine, fed_after_warmUp]

theorem pricedOpening_started :
    (after setup (pricedOpening setup)).executionEngine.tradingStarted =
      true := by
  rw [after_pricedOpening_engine, ExecutionEngine.judged_tradingStarted]
  exact warmUp_ready setup setup.symbol

theorem fed_after_pricedOpening {trade : Trade}
    (hstamp : trade.timestampNs = 0) :
    (after setup (pricedOpening setup)).fed trade =
      (unitService setup (pricedTrade setup.symbol 1 10000
        .unknown)).addTrade trade := by
  have hfresh : ((unitService setup (pricedTrade setup.symbol 1 10000
      .unknown)).trades (unitService setup (pricedTrade setup.symbol 1 10000
        .unknown)).tail).timestampNs = trade.timestampNs := by
    rw [hstamp]
    rfl
  rw [fed, after_pricedOpening_vwapService,
    VWAPService.handleTrade_of_fresh (.inr hfresh)
      (unitService_not_full setup _)]

/-- An empty trade leaves the average at the price of the opening trade. -/
theorem benchmark_after_pricedOpening {trade : Trade}
    (hstamp : trade.timestampNs = 0) (hempty : trade.quantity = 0) :
    (after setup (pricedOpening setup)).benchmark trade ⟨0, 0, 0⟩ =
      10000 := by
  have hfresh : (((unitService setup (pricedTrade setup.symbol 1 10000
      .unknown)).addTrade trade).trades
        ((unitService setup (pricedTrade setup.symbol 1 10000
          .unknown)).addTrade trade).tail).timestampNs = 0 := rfl
  rw [benchmark, fed_after_pricedOpening setup hstamp, VWAPService.getVWAP,
    VWAPService.removeOldTrades_of_fresh (.inr hfresh)]
  have hquantity : ((unitService setup (pricedTrade setup.symbol 1 10000
      .unknown)).addTrade trade).totalQuantity = 1 := by
    simp [VWAPService.addTrade, unitService, VWAPService.initial,
      pricedTrade, hempty]
  have hpriced : ((unitService setup (pricedTrade setup.symbol 1 10000
      .unknown)).addTrade trade).totalPricedQuantity = 10000 := by
    simp [VWAPService.addTrade, unitService, VWAPService.initial,
      pricedTrade, VWAPService.pricedQuantity128, hempty]
  rw [VWAPService.quotient, hquantity, hpriced]
  rfl

theorem limitSell_price {b : ℕ} (hb : b < 10000) :
    0 ≤ (limitSell setup b).price ∧
      (limitSell setup b).price.toNatClampNeg = 10000 + b := by
  have hint : (limitSell setup b).price.toInt = 10000 + b := by
    rw [limitSell, pricedTrade, Int64.toInt_ofNat_of_lt (by omega)]
    rfl
  constructor
  · rw [Int64.le_iff_toInt_le, hint]
    exact Int.natCast_nonneg (10000 + b)
  · rw [Int64.toNatClampNeg, hint]
    rfl

theorem limitSell_bandCase {b : ℕ} (hb : b < 10000)
    (hband : setup.config.bandBps = mainBandBps b) :
    BandCase b (after setup (pricedOpening setup)) (limitSell setup b)
      ⟨0, 0, 0⟩ where
  band := by
    rw [after_pricedOpening_engine, after_warmUp_engine]
    exact hband
  ready := ExecutionEngine.ready_of_started (pricedOpening_started setup)
  running := after_running setup _
  price := (limitSell_price setup hb).1
  quantity := by
    simp [ExecutionEngine.passesQuantityTests, limitSell, pricedTrade]
  vwap := by
    rw [benchmark_after_pricedOpening setup rfl rfl]
    decide

theorem limitSell_betweenLimits {b : ℕ} (hb : b < 10000) (hpos : 0 < b) :
    BetweenLimits b
      ((after setup (pricedOpening setup)).benchmark (limitSell setup b)
        ⟨0, 0, 0⟩).toNat
      (limitSell setup b).price.toNatClampNeg
      (limitSell setup b).aggressor := by
  have hunit : (10000 : UInt64).toNat = 10000 := rfl
  rw [benchmark_after_pricedOpening setup rfl rfl,
    (limitSell_price setup hb).2, hunit]
  refine .inl ⟨by omega, by omega⟩

end PricedOpening

/-- The code keeps the documented band away from the prices between the two
limits, and only there.  For a band of zero no such price exists, and for
every other band some run reaches one. -/
theorem price_band_iff (b : ℕ) (hb : b < 10000) :
    (∀ components trade clock, BandCase b components trade clock →
      (JudgedAsDocumented b components trade clock ↔
        ¬ BetweenLimits b (components.benchmark trade clock).toNat
          trade.price.toNatClampNeg trade.aggressor)) ∧
      ∀ setup, setup.config.bandBps = mainBandBps b →
        ((∀ stream trade clock, BandCase b (after setup stream) trade clock →
            JudgedAsDocumented b (after setup stream) trade clock) ↔
          b = 0) := by
  constructor
  · intro components trade clock hcase
    exact judgedAsDocumented_iff hb hcase
  · intro setup hband
    constructor
    · intro hall
      by_contra hne
      have hcase := limitSell_bandCase setup hb hband
      have hdocumented := hall _ _ _ hcase
      rw [judgedAsDocumented_iff hb hcase] at hdocumented
      exact hdocumented
        (limitSell_betweenLimits setup hb (Nat.pos_of_ne_zero hne))
    · intro hzero stream trade clock hcase
      rw [judgedAsDocumented_iff hb hcase, hzero]
      exact not_betweenLimits_zero _ _ _

/-- A band of one basis point. -/
def oneBasisPoint : Setup :=
  { sampleSetup with config := ⟨1000, 1000, 5, mainBandBps 1, 0⟩ }

theorem price_band_one_basis_point :
    1 < 10000 ∧
      ∃ stream trade clock,
        BandCase 1 (after oneBasisPoint stream) trade clock ∧
          ¬ JudgedAsDocumented 1 (after oneBasisPoint stream) trade
            clock := by
  have hone : ¬ (1 : ℕ) = 0 := one_ne_zero
  rw [← (price_band_iff 1 (by decide)).2 oneBasisPoint rfl] at hone
  simp only [not_forall] at hone
  rcases hone with ⟨stream, trade, clock, hcase, hmissed⟩
  exact ⟨by decide, stream, trade, clock, hcase, hmissed⟩

/-- At a benchmark of 10000 a sell at 10001 has the edge of one basis point,
and is rejected. -/
theorem price_band_missed :
    BandCase 1 (after oneBasisPoint (pricedOpening oneBasisPoint))
        (limitSell oneBasisPoint 1) ⟨0, 0, 0⟩ ∧
      (limitSell oneBasisPoint 1).aggressor = .sell ∧
      10000 * (limitSell oneBasisPoint 1).price.toNatClampNeg ≥
        (10000 + 1) * ((after oneBasisPoint
          (pricedOpening oneBasisPoint)).benchmark
            (limitSell oneBasisPoint 1) ⟨0, 0, 0⟩).toNat ∧
      ¬ (after oneBasisPoint (pricedOpening oneBasisPoint)).AnswersAccepted
        (limitSell oneBasisPoint 1) ⟨0, 0, 0⟩ := by
  have hcase := limitSell_bandCase oneBasisPoint (b := 1) (by decide) rfl
  have hprice := (limitSell_price oneBasisPoint (b := 1) (by decide)).2
  have hgap := limitSell_betweenLimits oneBasisPoint (b := 1) (by decide)
    Nat.one_pos
  have hdocumented : Documented 1 ((after oneBasisPoint
      (pricedOpening oneBasisPoint)).benchmark (limitSell oneBasisPoint 1)
        ⟨0, 0, 0⟩).toNat (limitSell oneBasisPoint 1).price.toNatClampNeg
          (limitSell oneBasisPoint 1).aggressor := by
    rw [benchmark_after_pricedOpening oneBasisPoint rfl rfl, hprice]
    exact le_of_eq (Nat.mul_comm (10000 + 1) 10000)
  refine ⟨hcase, rfl, hdocumented, ?_⟩
  intro haccepted
  exact (judgedAsDocumented_iff (by decide) hcase).mp
    (iff_of_true haccepted hdocumented) hgap

end Components

end Slipstream
