import Slipstream.ExecutionEdge

/-!
# Execution without a benchmark

`getVWAP` answers zero when its window carries no quantity, and the price
tests take that for a benchmark.  Whether the window carries quantity
depends on two clocks: the judged trade joins the window under its own
timestamp and may be evicted again by the reading of the local clock.
-/

namespace Slipstream
namespace Components

open ExecutionEngine

/-- Some quantity is left after the eviction that the price test makes. -/
def HasBenchmark (components : Components) (trade : Trade)
    (clock : ClockReadings) : Prop :=
  ((components.fed trade).getVWAP clock.systemMs).2.totalQuantity > 0

def BackedExecution (components : Components) (trade : Trade)
    (clock : ClockReadings) : Prop :=
  ∀ side, components.Executes trade clock side →
    components.HasBenchmark trade clock

/-- A ready engine with room for the quantity judges the trade against an
empty window, and the trade is not a buy that costs something. -/
structure JudgedUnbacked (components : Components) (trade : Trade)
    (clock : ClockReadings) : Prop where
  empty : ¬ components.HasBenchmark trade clock
  ready : components.executionEngine.ready clock.steadyMs = true
  quantity : components.executionEngine.passesQuantityTests trade = true
  free : trade.aggressor = .buy → trade.price = 0

section Judged

variable {components : Components} {trade : Trade} {clock : ClockReadings}

theorem exists_executes_iff :
    (∃ side, components.Executes trade clock side) ↔
      components.executionEngine.accepts (components.fed trade) clock
        trade = true := by
  constructor
  · rintro ⟨side, hexecutes⟩
    exact (executes_iff.mp hexecutes).1
  · exact fun haccepts => ⟨_, executes_iff.mpr ⟨haccepts, rfl⟩⟩

theorem benchmark_eq_zero
    (hempty : ¬ components.HasBenchmark trade clock) :
    ((components.fed trade).getVWAP clock.systemMs).1 = 0 := by
  rw [HasBenchmark, VWAPService.getVWAP_snd,
    VWAPService.not_pos_iff_eq_zero] at hempty
  simp [VWAPService.getVWAP, hempty]

/-- Against an empty window the price test is passed by every sell and by a
buy at price zero. -/
theorem accepts_iff_of_empty
    (hrunning : components.executionEngine.isHalted = false)
    (hempty : ¬ components.HasBenchmark trade clock) :
    components.executionEngine.accepts (components.fed trade) clock trade =
        true ↔
      JudgedUnbacked components trade clock := by
  have hzero := benchmark_eq_zero hempty
  constructor
  · intro haccepts
    rcases aggressor_of_accepts haccepts with hbuy | hsell
    · rcases (accepts_buy_iff hbuy).mp haccepts with
        ⟨hready, _, hquantity, hle⟩
      refine ⟨hempty, hready, hquantity, fun _ => ?_⟩
      rw [hzero, le_upperBound_iff_residue] at hle
      have hprice := WordResidues.toNat_toUInt64 trade.price
      have hlower := trade.price.le_toInt
      have hupper := trade.price.toInt_lt
      have hnone : (0 : UInt64).toNat = 0 := rfl
      rw [hnone, Nat.cast_zero, zero_mul, Int.zero_emod] at hle
      apply Int64.toInt_inj.mp
      rw [Int64.toInt_zero]
      omega
    · rcases (accepts_sell_iff hsell).mp haccepts with
        ⟨hready, _, hquantity, _⟩
      exact ⟨hempty, hready, hquantity, by simp [hsell]⟩
  · rintro ⟨-, hready, hquantity, hfree⟩
    cases haggressor : trade.aggressor with
    | buy =>
        rw [accepts_buy_iff haggressor, hfree haggressor,
          UInt64.le_iff_toNat_le]
        exact ⟨hready, hrunning, hquantity, Nat.zero_le _⟩
    | sell =>
        rw [accepts_sell_iff haggressor, hzero, UInt64.le_iff_toNat_le]
        refine ⟨hready, hrunning, hquantity, ?_⟩
        simp [lowerBound]
    | unknown => simp [passesQuantityTests, haggressor] at hquantity

theorem backedExecution_iff
    (hrunning : components.executionEngine.isHalted = false) :
    BackedExecution components trade clock ↔
      ¬ JudgedUnbacked components trade clock := by
  constructor
  · intro hbacked hunbacked
    have haccepts :=
      (accepts_iff_of_empty hrunning hunbacked.empty).mpr hunbacked
    obtain ⟨side, hexecutes⟩ := exists_executes_iff.mpr haccepts
    exact hunbacked.empty (hbacked side hexecutes)
  · intro hjudged side hexecutes
    by_contra hempty
    exact hjudged ((accepts_iff_of_empty hrunning hempty).mp
      (exists_executes_iff.mp ⟨side, hexecutes⟩))

end Judged

/-! ## A sell of quantity zero -/

section EmptySell

variable (setup : Setup)

def emptySell : Trade := pricedTrade setup.symbol 0 1 .sell

/-- The empty trade is all that the window holds. -/
theorem warmUp_judgedUnbacked :
    JudgedUnbacked (after setup (warmUp setup.symbol)) (emptySell setup)
      ⟨setup.config.vwapWindowMs, 0, 0⟩ where
  empty := by
    have hfresh : ((unitService setup (emptySell setup)).trades
        (unitService setup (emptySell setup)).tail).timestampNs = 0 := rfl
    have hquantity : (unitService setup (emptySell setup)).totalQuantity =
        0 := rfl
    rw [HasBenchmark, fed_after_warmUp, VWAPService.getVWAP_snd,
      VWAPService.removeOldTrades_of_fresh (.inr hfresh), hquantity]
    decide
  ready := warmUp_ready setup setup.symbol
  quantity := by
    simp [passesQuantityTests, emptySell, pricedTrade]
  free := nofun

end EmptySell

/-- In every run the accepted orders are backed by a benchmark exactly when
no trade is judged against an empty window, except the buys that cost
something.  No configuration has only such runs. -/
theorem benchmark_required_iff (setup : Setup) :
    (∀ stream,
      (∀ before trade clock, before ++ [⟨.trade trade, clock⟩] <+: stream →
          BackedExecution (after setup before) trade clock) ↔
        ∀ before trade clock, before ++ [⟨.trade trade, clock⟩] <+: stream →
          ¬ JudgedUnbacked (after setup before) trade clock) ∧
      ∃ before trade clock,
        ¬ BackedExecution (after setup before) trade clock := by
  constructor
  · intro stream
    refine forall₃_congr fun before trade clock => ?_
    refine forall_congr' fun _ => ?_
    exact backedExecution_iff (after_running setup before)
  · refine ⟨warmUp setup.symbol, emptySell setup,
      ⟨setup.config.vwapWindowMs, 0, 0⟩, ?_⟩
    rw [backedExecution_iff (after_running setup _), not_not]
    exact warmUp_judgedUnbacked setup

/-- One unit is bought, and the window passes. -/
def boughtStream : List Delivery :=
  warmUp sampleSetup.symbol ++
    [unitDelivery sampleSetup sampleSetup.symbol .buy]

/-- A late sell at price one. -/
def staleSell : Trade := pricedTrade sampleSetup.symbol 1 1 .sell

set_option maxRecDepth 4000 in
theorem sell_without_benchmark :
    (after sampleSetup boughtStream).Executes staleSell ⟨5, 6, 0⟩ .sell ∧
      ¬ HasBenchmark (after sampleSetup boughtStream) staleSell
        ⟨5, 6, 0⟩ := by
  refine ⟨executes_sell_iff.mpr ⟨rfl, by decide⟩, ?_⟩
  unfold HasBenchmark
  decide

end Components

end Slipstream
