import Slipstream.ExecutionLedger

/-!
# Limits on the executed quantity

A buy is tested against the participation cap and the maximum quantity, a
sell against the executed quantity only, and both raise the executed
quantity.  The cap test compares volumes with `participationCap` itself
instead of taking it as a fraction.

Each of the three intended limits is a run property that only an accepted
trade can break.  Hence a run keeps the limit exactly when every accepted
trade leaves room for itself in the state it finds, and a configuration
keeps the limit in all runs only if it leaves nothing to be bought or the
limit is vacuous.
-/

namespace Slipstream
namespace ExecutionEngine

/-! ## What the acceptance tests establish -/

section Accepts

variable {engine : ExecutionEngine} {vwapService : VWAPService}
  {clock : ClockReadings} {trade : Trade}

theorem aggressor_of_accepts
    (haccepts : engine.accepts vwapService clock trade = true) :
    trade.aggressor = .buy ∨ trade.aggressor = .sell := by
  unfold accepts at haccepts
  cases haggressor : trade.aggressor <;> simp_all

theorem buy_limits_of_accepts
    (haccepts : engine.accepts vwapService clock trade = true)
    (hbuy : trade.aggressor = .buy) :
    engine.cumulativeTradedQuantity + trade.quantity.toUInt64 ≤
        engine.participationCap ∧
      engine.tradedQuantity + trade.quantity.toUInt64 ≤
        engine.maxQuantity := by
  simp only [accepts, hbuy, shouldBuy, Bool.and_eq_true,
    decide_eq_true_eq] at haccepts
  exact haccepts.2.2

theorem sell_limit_of_accepts
    (haccepts : engine.accepts vwapService clock trade = true)
    (hsell : trade.aggressor = .sell) :
    trade.quantity.toUInt64 ≤ engine.tradedQuantity := by
  simp only [accepts, hsell, shouldSell, Bool.and_eq_true,
    decide_eq_true_eq] at haccepts
  exact haccepts.2.2

end Accepts

structure HasLimits (config : Config) (engine : ExecutionEngine) : Prop where
  maxQuantity : engine.maxQuantity = config.maxQuantity
  participationCap : engine.participationCap = config.participationCap

theorem perform_hasLimits {config : Config} (engine : ExecutionEngine)
    (call : EngineCall) (hlimits : HasLimits config engine) :
    HasLimits config (perform engine call).1 := by
  cases call with
  | onQuoteReceived now =>
      rw [perform, onQuoteReceived_eq]
      exact ⟨hlimits.maxQuantity, hlimits.participationCap⟩
  | handleTrade vwapService clock trade =>
      rw [perform_handleTrade]
      exact ⟨hlimits.maxQuantity, hlimits.participationCap⟩
  | haltTrading => exact ⟨hlimits.maxQuantity, hlimits.participationCap⟩
  | resumeTrading => exact ⟨hlimits.maxQuantity, hlimits.participationCap⟩

theorem after_hasLimits (config : Config) (calls : List EngineCall) :
    HasLimits config (after config calls) :=
  RunHistory.exec_invariant perform perform_hasLimits ⟨rfl, rfl⟩ calls

/-! ## Run properties that only trades can break -/

/-- A run property that calls without a trade preserve holds at every
prefix exactly when each trade preserves it. -/
theorem forall_prefix_iff_forall_trade {calls : List EngineCall}
    {Good : List EngineCall → Prop}
    {Guard : List EngineCall → VWAPService → ClockReadings → Trade → Prop}
    (hnil : Good [])
    (hquiet : ∀ before call, call.trade? = none → Good before →
      Good (before ++ [call]))
    (hstep : ∀ before vwapService clock trade,
      before ++ [.handleTrade vwapService clock trade] <+: calls →
      Good before →
        (Good (before ++ [.handleTrade vwapService clock trade]) ↔
          Guard before vwapService clock trade)) :
    (∀ before, before <+: calls → Good before) ↔
      ∀ before vwapService clock trade,
        before ++ [.handleTrade vwapService clock trade] <+: calls →
          Guard before vwapService clock trade := by
  have hiff : (∀ before, before <+: calls → Good before) ↔
      ∀ before call, before ++ [call] <+: calls →
        ∀ vwapService clock trade,
          call = .handleTrade vwapService clock trade →
            Guard before vwapService clock trade := by
    apply RunHistory.forall_prefix_iff_forall_step hnil
    intro before call hpre hgood
    rcases call.no_trade_or_handleTrade with
      htrade | ⟨vwapService, clock, trade, rfl⟩
    · refine iff_of_true (hquiet before call htrade hgood) ?_
      rintro vwapService clock trade rfl
      simp [EngineCall.trade?] at htrade
    · rw [hstep before vwapService clock trade hpre hgood]
      constructor
      · rintro hguard _ _ _ ⟨⟩
        exact hguard
      · intro hguard
        exact hguard vwapService clock trade rfl
  rw [hiff]
  constructor
  · intro hguard before vwapService clock trade hpre
    exact hguard before _ hpre vwapService clock trade rfl
  · rintro hguard before _ hpre vwapService clock trade rfl
    exact hguard before vwapService clock trade hpre

theorem executed_handleTrade (config : Config) {before : List EngineCall}
    {vwapService : VWAPService} {clock : ClockReadings} {trade : Trade}
    (hvolume : marketVolume
      (before ++ [.handleTrade vwapService clock trade]) < 2 ^ 64) :
    (after config (before ++ [.handleTrade vwapService clock trade])
        ).getExecutedQuantity.toNat =
      (after config before).getExecutedQuantity.toNat +
        if (after config before).accepts vwapService clock trade
        then trade.quantity.toNat else 0 := by
  have hbefore := marketVolume_le_concat before
    (.handleTrade vwapService clock trade)
  unfold getExecutedQuantity
  rw [(ledger_of_volume_lt config hvolume).traded,
    (ledger_of_volume_lt config (hbefore.trans_lt hvolume)).traded,
    orderStream_concat, acceptedQuantity_append, acceptedQuantity_perform]

/-! ## Nothing to buy -/

theorem executed_eq_zero {config : Config}
    (hclosed : config.participationCap = 0 ∨ config.maxQuantity = 0)
    {calls : List EngineCall} (hvolume : marketVolume calls < 2 ^ 64) :
    (after config calls).getExecutedQuantity.toNat = 0 := by
  induction calls using List.reverseRecOn with
  | nil => rfl
  | append_singleton before call ih =>
      have hbefore := marketVolume_le_concat before call
      have hzero := ih (by omega)
      rcases call.no_trade_or_handleTrade with
        htrade | ⟨vwapService, clock, trade, rfl⟩
      · rwa [after_concat, getExecutedQuantity,
          tradedQuantity_perform_of_no_trade htrade]
      · rw [executed_handleTrade config hvolume, hzero, zero_add]
        split
        next haccepts =>
          have hlimits := after_hasLimits config before
          have hledger := ledger_of_volume_lt config
            (hbefore.trans_lt hvolume)
          have hsum := marketVolume_handleTrade before vwapService clock
            trade
          unfold getExecutedQuantity at hzero
          rcases aggressor_of_accepts haccepts with hbuy | hsell
          · rcases buy_limits_of_accepts haccepts hbuy with ⟨hcap, hmax⟩
            rw [hlimits.participationCap, UInt64.le_iff_toNat_le,
              toNat_add_quantity _ _ (by rw [hledger.cumulative]; omega)]
              at hcap
            rw [hlimits.maxQuantity, UInt64.le_iff_toNat_le,
              toNat_add_quantity _ _ (by omega)] at hmax
            rcases hclosed with hclosed | hclosed
            · rw [hclosed, UInt64.toNat_zero] at hcap
              omega
            · rw [hclosed, UInt64.toNat_zero] at hmax
              omega
          · have hinventory := sell_limit_of_accepts haccepts hsell
            rw [UInt64.le_iff_toNat_le, UInt32.toNat_toUInt64] at hinventory
            omega
        next => rfl

/-! ## Buying once and selling on -/

/-- A unit trade at price zero, judged at the end of the warm-up by an
engine whose VWAP service has seen no trade. -/
def unitCall (config : Config) (aggressor : TradeAggressor) : EngineCall :=
  .handleTrade
    (VWAPService.initial config.vwapWindowMs fun _ => sampleTrade .buy 1 0)
    ⟨config.vwapWindowMs, 0, 0⟩ (sampleTrade aggressor 1 0)

def sellingRun (config : Config) (sales : ℕ) : List EngineCall :=
  openingQuotes ++ unitCall config .buy ::
    List.replicate sales (unitCall config .sell)

theorem sellingRun_succ (config : Config) (sales : ℕ) :
    sellingRun config (sales + 1) =
      sellingRun config sales ++ [unitCall config .sell] := by
  simp [sellingRun, List.replicate_succ']

theorem one_le_of_ne_zero {limit : UInt64} (hlimit : limit ≠ 0) :
    1 ≤ limit := by
  rw [UInt64.le_iff_toNat_le, UInt64.toNat_one]
  have hne : limit.toNat ≠ 0 := fun hzero =>
    hlimit (UInt64.toNat_inj.mp (by simpa using hzero))
  omega

theorem getVWAP_initial (rollingWindowSizeMs : UInt64) (slots : ℕ → Trade) :
    ((VWAPService.initial rollingWindowSizeMs slots).getVWAP 0).1 = 0 := rfl

section ZeroPrice

variable {engine : ExecutionEngine} {vwapService : VWAPService}
  {clock : ClockReadings} {trade : Trade}

theorem accepts_buy_of_zero
    (hready : engine.ready clock.steadyMs = true)
    (hrunning : engine.isHalted = false)
    (hvwap : (vwapService.getVWAP clock.systemMs).1 = 0)
    (hbuy : trade.aggressor = .buy) (hprice : trade.price = 0)
    (hcap : engine.cumulativeTradedQuantity + trade.quantity.toUInt64 ≤
      engine.participationCap)
    (hmax : engine.tradedQuantity + trade.quantity.toUInt64 ≤
      engine.maxQuantity) :
    engine.accepts vwapService clock trade = true := by
  have hzero : Int64.toUInt64 0 = 0 := rfl
  simp [accepts, hready, hrunning, hbuy, shouldBuy, upperBound, hvwap,
    hprice, hzero, hcap, hmax]

theorem accepts_sell_of_zero
    (hready : engine.ready clock.steadyMs = true)
    (hrunning : engine.isHalted = false)
    (hvwap : (vwapService.getVWAP clock.systemMs).1 = 0)
    (hsell : trade.aggressor = .sell)
    (hinventory : trade.quantity.toUInt64 ≤ engine.tradedQuantity) :
    engine.accepts vwapService clock trade = true := by
  simp [accepts, hready, hrunning, hsell, shouldSell, lowerBound, hvwap,
    hinventory]

end ZeroPrice

/-- A warmed-up run that has bought `bought` units and sold `sold` units. -/
structure UnitTrades (config : Config) (bought sold : ℕ)
    (calls : List EngineCall) : Prop where
  ready : (after config calls).ready config.vwapWindowMs = true
  running : (after config calls).isHalted = false
  volume : marketVolume calls = bought + sold
  bought : sideQuantity .buy (orderStream config calls) = bought
  sold : sideQuantity .sell (orderStream config calls) = sold

section UnitTrades

variable {config : Config} {bought sold : ℕ} {calls : List EngineCall}

theorem UnitTrades.executed (hunits : UnitTrades config bought sold calls)
    (hfits : bought + sold < 2 ^ 64) :
    (after config calls).getExecutedQuantity.toNat = bought + sold := by
  have hledger := ledger_of_volume_lt config
    (hunits.volume.trans_lt hfits)
  rw [getExecutedQuantity, hledger.traded, acceptedQuantity_eq_buy_add_sell,
    hunits.bought, hunits.sold]

theorem ready_after_unitCall (hready : (after config calls).ready
      config.vwapWindowMs = true) (aggressor : TradeAggressor) :
    (after config (calls ++ [unitCall config aggressor])).ready
      config.vwapWindowMs = true := by
  rw [after_concat, unitCall, perform_handleTrade]
  exact ready_of_started hready

theorem running_after_unitCall
    (hrunning : (after config calls).isHalted = false)
    (aggressor : TradeAggressor) :
    (after config (calls ++ [unitCall config aggressor])).isHalted =
      false := by
  rw [after_concat, unitCall, perform_handleTrade]
  exact hrunning

theorem UnitTrades.concat (hunits : UnitTrades config bought sold calls)
    (aggressor : TradeAggressor)
    (haccepts : (after config calls).accepts
      (VWAPService.initial config.vwapWindowMs fun _ => sampleTrade .buy 1 0)
      ⟨config.vwapWindowMs, 0, 0⟩ (sampleTrade aggressor 1 0) = true) :
    UnitTrades config
      (bought + if aggressor = .buy then 1 else 0)
      (sold + if aggressor = .buy then 0 else 1)
      (calls ++ [unitCall config aggressor]) := by
  constructor
  · exact ready_after_unitCall hunits.ready aggressor
  · exact running_after_unitCall hunits.running aggressor
  · rw [unitCall, marketVolume_handleTrade, hunits.volume]
    split <;> simp [sampleTrade] <;> omega
  · rw [orderStream_concat, unitCall, sideQuantity_append,
      sideQuantity_perform, haccepts, hunits.bought]
    by_cases hbuy : aggressor = .buy <;> simp [hbuy, sampleTrade]
  · rw [orderStream_concat, unitCall, sideQuantity_append,
      sideQuantity_perform, haccepts, hunits.sold]
    by_cases hbuy : aggressor = .buy <;> simp [hbuy, sampleTrade]

theorem UnitTrades.buy (hunits : UnitTrades config 0 0 calls)
    (hcap : config.participationCap ≠ 0) (hmax : config.maxQuantity ≠ 0) :
    UnitTrades config 1 0 (calls ++ [unitCall config .buy]) := by
  have hledger := ledger_of_volume_lt config
    (hunits.volume.trans_lt (by norm_num))
  have hlimits := after_hasLimits config calls
  have hcumulative : (after config calls).cumulativeTradedQuantity = 0 :=
    UInt64.toNat_inj.mp (hledger.cumulative.trans hunits.volume)
  have htraded : (after config calls).tradedQuantity = 0 :=
    UInt64.toNat_inj.mp (hunits.executed (by norm_num))
  have hvwap := getVWAP_initial config.vwapWindowMs
    (fun _ => sampleTrade .buy 1 0)
  refine hunits.concat .buy ?_
  refine accepts_buy_of_zero hunits.ready hunits.running hvwap rfl rfl ?_ ?_
  · rw [hcumulative, hlimits.participationCap]
    simpa [sampleTrade] using one_le_of_ne_zero hcap
  · rw [htraded, hlimits.maxQuantity]
    simpa [sampleTrade] using one_le_of_ne_zero hmax

theorem UnitTrades.sell (hunits : UnitTrades config bought sold calls)
    (hpositive : 0 < bought) (hfits : bought + sold < 2 ^ 64) :
    UnitTrades config bought (sold + 1)
      (calls ++ [unitCall config .sell]) := by
  have hinventory : 1 ≤ (after config calls).tradedQuantity := by
    rw [UInt64.le_iff_toNat_le, ← getExecutedQuantity,
      hunits.executed hfits, UInt64.toNat_one]
    omega
  have hvwap := getVWAP_initial config.vwapWindowMs
    (fun _ => sampleTrade .buy 1 0)
  refine hunits.concat .sell ?_
  refine accepts_sell_of_zero hunits.ready hunits.running hvwap rfl ?_
  simpa [sampleTrade] using hinventory

end UnitTrades

theorem openingQuotes_unitTrades (config : Config) :
    UnitTrades config 0 0 openingQuotes where
  ready := by
    simp [after, openingQuotes, perform, onQuoteReceived, initial, ready,
      isReadyToTrade, getElapsedTimeMs, minQuotesRequired, List.replicate]
  running := by
    simp [after, openingQuotes, perform, onQuoteReceived, initial,
      List.replicate]
  volume := rfl
  bought := by
    simp [orderStream, openingQuotes, perform, List.replicate,
      List.reduceOption]
  sold := by
    simp [orderStream, openingQuotes, perform, List.replicate,
      List.reduceOption]

theorem sellingRun_unitTrades {config : Config}
    (hcap : config.participationCap ≠ 0) (hmax : config.maxQuantity ≠ 0)
    (sales : ℕ) (hsales : sales < 2 ^ 64) :
    UnitTrades config 1 sales (sellingRun config sales) := by
  induction sales with
  | zero => exact (openingQuotes_unitTrades config).buy hcap hmax
  | succ sales ih =>
      rw [sellingRun_succ]
      exact (ih (by omega)).sell Nat.one_pos (by omega)

/-! ## The participation cap -/

/-- The executed quantity is within `participationCap / 10000` of the market
volume. -/
def WithinCap (config : Config) (calls : List EngineCall) : Prop :=
  (after config calls).getExecutedQuantity.toNat * 10000 ≤
    config.participationCap.toNat * marketVolume calls

instance (config : Config) (calls : List EngineCall) :
    Decidable (WithinCap config calls) :=
  inferInstanceAs (Decidable (_ ≤ _))

theorem executed_le_marketVolume (config : Config)
    {calls : List EngineCall} (hvolume : marketVolume calls < 2 ^ 64) :
    (after config calls).getExecutedQuantity.toNat ≤ marketVolume calls := by
  have hledger := ledger_of_volume_lt config hvolume
  rw [getExecutedQuantity, hledger.traded]
  exact hledger.traded_le

theorem withinCap_all_runs_iff (config : Config) :
    (∀ calls, marketVolume calls < 2 ^ 64 → WithinCap config calls) ↔
      config.participationCap = 0 ∨ config.maxQuantity = 0 ∨
        10000 ≤ config.participationCap := by
  constructor
  · intro hall
    by_contra! hopen
    rcases hopen with ⟨hcap, hmax, hfraction⟩
    have hunits := sellingRun_unitTrades hcap hmax 0 (by norm_num)
    have hwithin := hall (sellingRun config 0)
      (hunits.volume.trans_lt (by norm_num))
    rw [WithinCap, hunits.executed (by norm_num), hunits.volume] at hwithin
    rw [UInt64.le_iff_toNat_le] at hfraction
    have hconstant : (10000 : UInt64).toNat = 10000 := by simp
    omega
  · rintro (hcap | hmax | hfraction) calls hvolume
    · rw [WithinCap, executed_eq_zero (.inl hcap) hvolume]
      omega
    · rw [WithinCap, executed_eq_zero (.inr hmax) hvolume]
      omega
    · have hle := executed_le_marketVolume config hvolume
      rw [UInt64.le_iff_toNat_le] at hfraction
      rw [WithinCap, Nat.mul_comm]
      exact Nat.mul_le_mul hfraction hle

theorem withinCap_run_iff (config : Config) (calls : List EngineCall)
    (hvolume : marketVolume calls < 2 ^ 64) :
    (∀ before, before <+: calls → WithinCap config before) ↔
      ∀ before vwapService clock trade,
        before ++ [.handleTrade vwapService clock trade] <+: calls →
        (after config before).accepts vwapService clock trade = true →
        ((after config before).getExecutedQuantity.toNat +
            trade.quantity.toNat) * 10000 ≤
          config.participationCap.toNat *
            (marketVolume before + trade.quantity.toNat) := by
  apply forall_prefix_iff_forall_trade
  · simp [WithinCap, after, initial, getExecutedQuantity]
  · intro before call htrade hwithin
    rwa [WithinCap, after_concat, getExecutedQuantity,
      tradedQuantity_perform_of_no_trade htrade,
      marketVolume_concat_of_no_trade htrade]
  · intro before vwapService clock trade hpre hwithin
    have hsum := marketVolume_le_of_isPrefix hpre
    rw [WithinCap, executed_handleTrade config (hsum.trans_lt hvolume),
      marketVolume_handleTrade]
    cases haccepts : (after config before).accepts vwapService clock trade
    with
    | true => simp
    | false =>
        refine iff_of_true ?_ (by simp)
        calc
          _ = (after config before).getExecutedQuantity.toNat * 10000 := by
            simp
          _ ≤ config.participationCap.toNat * marketVolume before := hwithin
          _ ≤ _ := Nat.mul_le_mul_left _ (Nat.le_add_right _ _)

/-- The configurations that keep the cap in every run, and what a run of any
other configuration must meet at each accepted trade. -/
theorem participation_cap_iff (config : Config) :
    ((∀ calls, marketVolume calls < 2 ^ 64 → WithinCap config calls) ↔
      config.participationCap = 0 ∨ config.maxQuantity = 0 ∨
        10000 ≤ config.participationCap) ∧
    ∀ calls, marketVolume calls < 2 ^ 64 →
      ((∀ before, before <+: calls → WithinCap config before) ↔
        ∀ before vwapService clock trade,
          before ++ [.handleTrade vwapService clock trade] <+: calls →
          (after config before).accepts vwapService clock trade = true →
          ((after config before).getExecutedQuantity.toNat +
              trade.quantity.toNat) * 10000 ≤
            config.participationCap.toNat *
              (marketVolume before + trade.quantity.toNat)) :=
  ⟨withinCap_all_runs_iff config, withinCap_run_iff config⟩

/-- With a cap of one tenth and a maximum of `1000`, a first trade for `100`
is bought in full, although it is the whole market volume. -/
theorem participation_cap_exceeded :
    ¬ ∀ (config : Config) (calls : List EngineCall),
      marketVolume calls < 2 ^ 64 →
      ∀ before, before <+: calls → WithinCap config before := by
  intro hall
  have hwithin := hall ⟨1000, 1000, 5, 0, 0⟩
    (openingQuotes ++ [sampleCall 5 (sampleTrade .buy 100 90)])
    (by decide) _ (List.prefix_refl _)
  revert hwithin
  decide

/-! ## The maximum quantity -/

def WithinMaximum (config : Config) (calls : List EngineCall) : Prop :=
  (after config calls).getExecutedQuantity ≤ config.maxQuantity

instance (config : Config) (calls : List EngineCall) :
    Decidable (WithinMaximum config calls) :=
  inferInstanceAs (Decidable (_ ≤ _))

theorem withinMaximum_all_runs_iff (config : Config) :
    (∀ calls, marketVolume calls < 2 ^ 64 → WithinMaximum config calls) ↔
      config.participationCap = 0 ∨ config.maxQuantity = 0 ∨
        config.maxQuantity.toNat + 1 = 2 ^ 64 := by
  constructor
  · intro hall
    by_contra! hopen
    rcases hopen with ⟨hcap, hmax, hroom⟩
    have hbound := config.maxQuantity.toNat_lt
    have hfits : 1 + config.maxQuantity.toNat < 2 ^ 64 := by omega
    have hunits := sellingRun_unitTrades hcap hmax
      config.maxQuantity.toNat hbound
    have hwithin := hall _ (hunits.volume.trans_lt hfits)
    rw [WithinMaximum, UInt64.le_iff_toNat_le, hunits.executed hfits]
      at hwithin
    omega
  · rintro (hcap | hmax | hlargest) calls hvolume <;>
      rw [WithinMaximum, UInt64.le_iff_toNat_le]
    · rw [executed_eq_zero (.inl hcap) hvolume]
      exact Nat.zero_le _
    · rw [executed_eq_zero (.inr hmax) hvolume]
      exact Nat.zero_le _
    · have hbound := (after config calls).getExecutedQuantity.toNat_lt
      omega

theorem withinMaximum_run_iff (config : Config) (calls : List EngineCall)
    (hvolume : marketVolume calls < 2 ^ 64) :
    (∀ before, before <+: calls → WithinMaximum config before) ↔
      ∀ before vwapService clock trade,
        before ++ [.handleTrade vwapService clock trade] <+: calls →
        trade.aggressor = .sell →
        (after config before).accepts vwapService clock trade = true →
        (after config before).getExecutedQuantity.toNat +
          trade.quantity.toNat ≤ config.maxQuantity.toNat := by
  apply forall_prefix_iff_forall_trade
  · rw [WithinMaximum, UInt64.le_iff_toNat_le]
    exact Nat.zero_le _
  · intro before call htrade hwithin
    rwa [WithinMaximum, after_concat, getExecutedQuantity,
      tradedQuantity_perform_of_no_trade htrade]
  · intro before vwapService clock trade hpre hwithin
    have hsum := marketVolume_le_of_isPrefix hpre
    rw [WithinMaximum, UInt64.le_iff_toNat_le] at hwithin ⊢
    rw [executed_handleTrade config (hsum.trans_lt hvolume)]
    cases haccepts : (after config before).accepts vwapService clock trade
    with
    | false => simpa using hwithin
    | true =>
        rcases aggressor_of_accepts haccepts with hbuy | hsell
        · refine iff_of_true ?_ (by simp [hbuy])
          rcases buy_limits_of_accepts haccepts hbuy with ⟨-, hmax⟩
          have hfits := executed_le_marketVolume config
            ((marketVolume_le_concat before _).trans_lt
              (hsum.trans_lt hvolume))
          rw [marketVolume_handleTrade] at hsum
          rw [(after_hasLimits config before).maxQuantity,
            UInt64.le_iff_toNat_le, toNat_add_quantity _ _ (by
              rw [getExecutedQuantity] at hfits
              omega)] at hmax
          exact hmax
        · simp [hsell]

/-- The configurations that keep the maximum in every run, and the test,
missing for sells, that any other run must meet at each accepted sell. -/
theorem maximum_quantity_iff (config : Config) :
    ((∀ calls, marketVolume calls < 2 ^ 64 → WithinMaximum config calls) ↔
      config.participationCap = 0 ∨ config.maxQuantity = 0 ∨
        config.maxQuantity.toNat + 1 = 2 ^ 64) ∧
    ∀ calls, marketVolume calls < 2 ^ 64 →
      ((∀ before, before <+: calls → WithinMaximum config before) ↔
        ∀ before vwapService clock trade,
          before ++ [.handleTrade vwapService clock trade] <+: calls →
          trade.aggressor = .sell →
          (after config before).accepts vwapService clock trade = true →
          (after config before).getExecutedQuantity.toNat +
            trade.quantity.toNat ≤ config.maxQuantity.toNat) :=
  ⟨withinMaximum_all_runs_iff config, withinMaximum_run_iff config⟩

/-- A maximum of `10` is filled by one buy and then doubled by one sell. -/
theorem maximum_quantity_exceeded :
    ¬ ∀ (config : Config) (calls : List EngineCall),
      marketVolume calls < 2 ^ 64 →
      ∀ before, before <+: calls → WithinMaximum config before := by
  intro hall
  have hwithin := hall ⟨10, 1000, 5, 0, 0⟩
    (openingQuotes ++ [sampleCall 5 (sampleTrade .buy 10 90),
      sampleCall 6 (sampleTrade .sell 10 90)])
    (by decide) _ (List.prefix_refl _)
  revert hwithin
  decide

/-! ## The inventory -/

def Covered (config : Config) (calls : List EngineCall) : Prop :=
  sideQuantity .sell (orderStream config calls) ≤
    sideQuantity .buy (orderStream config calls)

instance (config : Config) (calls : List EngineCall) :
    Decidable (Covered config calls) :=
  inferInstanceAs (Decidable (_ ≤ _))

theorem covered_all_runs_iff (config : Config) :
    (∀ calls, marketVolume calls < 2 ^ 64 → Covered config calls) ↔
      config.participationCap = 0 ∨ config.maxQuantity = 0 := by
  constructor
  · intro hall
    by_contra! hopen
    rcases hopen with ⟨hcap, hmax⟩
    have hunits := sellingRun_unitTrades hcap hmax 2 (by norm_num)
    have hcovered := hall _ (hunits.volume.trans_lt (by norm_num))
    rw [Covered, hunits.sold, hunits.bought] at hcovered
    omega
  · intro hclosed calls hvolume
    have hexecuted := executed_eq_zero hclosed hvolume
    rw [getExecutedQuantity, (ledger_of_volume_lt config hvolume).traded,
      acceptedQuantity_eq_buy_add_sell] at hexecuted
    rw [Covered]
    omega

theorem covered_run_iff (config : Config) (calls : List EngineCall) :
    (∀ before, before <+: calls → Covered config before) ↔
      ∀ before vwapService clock trade,
        before ++ [.handleTrade vwapService clock trade] <+: calls →
        trade.aggressor = .sell →
        (after config before).accepts vwapService clock trade = true →
        sideQuantity .sell (orderStream config before) +
            trade.quantity.toNat ≤
          sideQuantity .buy (orderStream config before) := by
  apply forall_prefix_iff_forall_trade
  · exact Nat.le_refl 0
  · intro before call htrade hcovered
    rwa [Covered, orderStream_concat_of_no_trade htrade]
  · intro before vwapService clock trade _ hcovered
    rw [Covered] at hcovered ⊢
    rw [orderStream_concat, sideQuantity_append, sideQuantity_append,
      sideQuantity_perform, sideQuantity_perform]
    cases haccepts : (after config before).accepts vwapService clock trade
    with
    | false => simpa using hcovered
    | true =>
        rcases aggressor_of_accepts haccepts with hbuy | hsell
        · simp only [hbuy]
          simp
          omega
        · simp [hsell]

/-- The configurations under which nothing is ever oversold, and the
inventory test that any other run must meet at each accepted sell. -/
theorem no_overselling_iff (config : Config) :
    ((∀ calls, marketVolume calls < 2 ^ 64 → Covered config calls) ↔
      config.participationCap = 0 ∨ config.maxQuantity = 0) ∧
    ∀ calls, marketVolume calls < 2 ^ 64 →
      ((∀ before, before <+: calls → Covered config before) ↔
        ∀ before vwapService clock trade,
          before ++ [.handleTrade vwapService clock trade] <+: calls →
          trade.aggressor = .sell →
          (after config before).accepts vwapService clock trade = true →
          sideQuantity .sell (orderStream config before) +
              trade.quantity.toNat ≤
            sideQuantity .buy (orderStream config before)) :=
  ⟨covered_all_runs_iff config, fun calls _ => covered_run_iff config calls⟩

/-- Seven units are bought once and sold twice. -/
theorem no_overselling_violated :
    ¬ ∀ (config : Config) (calls : List EngineCall),
      marketVolume calls < 2 ^ 64 →
      ∀ before, before <+: calls → Covered config before := by
  intro hall
  have hcovered := hall ⟨100, 1000, 5, 0, 0⟩
    (openingQuotes ++ [sampleCall 5 (sampleTrade .buy 7 90),
      sampleCall 6 (sampleTrade .sell 7 90),
      sampleCall 7 (sampleTrade .sell 7 90)])
    (by decide) _ (List.prefix_refl _)
  revert hcovered
  decide

end ExecutionEngine

end Slipstream
