import Slipstream.VWAPAverage

/-!
# The VWAP as a weighted mean

A mean of prices lies between the smallest and the largest of them.  The
value that `getVWAP` returns does so whenever the sum of the priced
quantities is not negative.  A negative sum is held modulo `2^128` and is
divided as a large positive number, so that the result has nothing to do
with the mean.
-/

namespace Slipstream
namespace VWAPService

/-- The value is at least the smallest and at most the largest price of the
trades of positive quantity. -/
def WithinPrices (value : ℤ) (trades : List Trade) : Prop :=
  (∃ trade ∈ trades, 0 < trade.quantity ∧ trade.price.toInt ≤ value) ∧
    ∃ trade ∈ trades, 0 < trade.quantity ∧ value ≤ trade.price.toInt

instance (value : ℤ) (trades : List Trade) :
    Decidable (WithinPrices value trades) :=
  inferInstanceAs (Decidable (_ ∧ _))

/-- What `getVWAP` at `now` returns if some quantity is left. -/
def ReturnsMean (service : VWAPService) (now : UInt64) : Prop :=
  (service.getVWAP now).2.totalQuantity > 0 →
    WithinPrices (service.getVWAP now).1.toNat (service.getVWAP now).2.live

instance (service : VWAPService) (now : UInt64) :
    Decidable (ReturnsMean service now) :=
  inferInstanceAs (Decidable (_ → _))

/-- The mean of a negative sum after the conversion to 128 bits and the
truncation to 64 bits. -/
def wrappedMean (trades : List Trade) : ℤ :=
  (pricedSum trades + 2 ^ 128) / quantitySum trades % 2 ^ 64

theorem withinPrices_mean {trades : List Trade}
    (hquantity : 0 < quantitySum trades) :
    WithinPrices (pricedSum trades / quantitySum trades) trades :=
  ⟨WeightedMean.exists_value_le_floorMean hquantity,
    WeightedMean.exists_floorMean_le_value hquantity⟩

theorem exists_negative_price {trades : List Trade}
    (hnegative : pricedSum trades < 0) :
    ∃ trade ∈ trades, 0 < trade.quantity ∧ trade.price.toInt < 0 := by
  by_contra! hnone
  have hle : (quantitySum trades : ℤ) * 0 ≤ pricedSum trades :=
    WeightedMean.totalWeight_mul_le_weightedSum fun trade htrade hpos =>
      hnone trade htrade (UInt32.lt_iff_toNat_lt.mpr hpos)
  omega

section Reached

variable {service : VWAPService} {now : UInt64}

theorem returnsMean_of_nonneg
    (hcoherent : (service.removeOldTrades now).Coherent)
    (hnonneg : 0 ≤ pricedSum (service.removeOldTrades now).live) :
    ReturnsMean service now := by
  rw [ReturnsMean, getVWAP_snd, hcoherent.totalQuantity_pos_iff]
  intro hpos
  rw [getVWAP_toNat hcoherent hnonneg hpos.ne']
  exact withinPrices_mean hpos

/-- The wrapped mean is not negative, so it exceeds the negative price that
a negative sum needs. -/
theorem returnsMean_iff_of_negative
    (hcoherent : (service.removeOldTrades now).Coherent)
    (hnegative : pricedSum (service.removeOldTrades now).live < 0) :
    ReturnsMean service now ↔
      ∃ trade ∈ (service.removeOldTrades now).live, 0 < trade.quantity ∧
        wrappedMean (service.removeOldTrades now).live ≤
          trade.price.toInt := by
  have hlower := le_pricedSum (service.removeOldTrades now).live
  have hsmall := hcoherent.quantitySum_live_lt
  have hpos : 0 < quantitySum (service.removeOldTrades now).live := by
    rcases Nat.eq_zero_or_pos
      (quantitySum (service.removeOldTrades now).live) with hzero | hpos
    · rw [pricedSum_eq_zero_of_quantitySum_eq_zero hzero] at hnegative
      omega
    · exact hpos
  have hwrapped :
      pricedSum (service.removeOldTrades now).live % 2 ^ 128 =
        pricedSum (service.removeOldTrades now).live + 2 ^ 128 := by
    omega
  have hvalue : ((service.getVWAP now).1.toNat : ℤ) =
      wrappedMean (service.removeOldTrades now).live := by
    rw [getVWAP_toInt hcoherent hpos.ne', hwrapped, wrappedMean]
  rw [ReturnsMean, getVWAP_snd, hcoherent.totalQuantity_pos_iff,
    imp_iff_right hpos, hvalue, WithinPrices, and_iff_right]
  obtain ⟨trade, htrade, hquantity, hprice⟩ := exists_negative_price hnegative
  have hnonneg : 0 ≤ wrappedMean (service.removeOldTrades now).live :=
    Int.emod_nonneg _ (by decide)
  exact ⟨trade, htrade, hquantity, by omega⟩

end Reached

/-- A run in which every `getVWAP` finds a nonnegative sum of priced
quantities returns means only.  For a negative sum the value is in range
only if the wrapped mean happens not to exceed the largest price. -/
theorem vwap_within_prices (window : UInt64) (slots : ℕ → Trade)
    (calls : List ServiceCall) :
    ((∀ before now, before ++ [.getVWAP now] <+: calls →
        0 ≤ pricedSum
          ((after window slots before).removeOldTrades now).live) →
      ∀ before now, before ++ [.getVWAP now] <+: calls →
        ReturnsMean (after window slots before) now) ∧
      ∀ before now, before ++ [.getVWAP now] <+: calls →
        pricedSum ((after window slots before).removeOldTrades now).live <
            0 →
          (ReturnsMean (after window slots before) now ↔
            ∃ trade ∈
              ((after window slots before).removeOldTrades now).live,
              0 < trade.quantity ∧
                wrappedMean
                    ((after window slots before).removeOldTrades now).live ≤
                  trade.price.toInt) := by
  have hcoherent (before : List ServiceCall) (now : UInt64) :
      ((after window slots before).removeOldTrades now).Coherent :=
    (after_coherent window slots before).removeOldTrades now
  constructor
  · intro hnonneg before now hpre
    exact returnsMean_of_nonneg (hcoherent before now)
      (hnonneg before now hpre)
  · intro before now _ hnegative
    exact returnsMean_iff_of_negative (hcoherent before now) hnegative

/-- Three units at price `-1`. -/
def negativeCalls : List ServiceCall :=
  [.handleTrade .overwriteOldest (sampleTrade 0 3 (-1))]

theorem vwap_of_negative_price :
    ((after 10 (fun _ => sampleTrade 0 0 0) negativeCalls).getVWAP 0).1 =
        6148914691236517204 ∧
      ¬ ReturnsMean (after 10 (fun _ => sampleTrade 0 0 0) negativeCalls)
        0 := by
  decide

end VWAPService

end Slipstream
