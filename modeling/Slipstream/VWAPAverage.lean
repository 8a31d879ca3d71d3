import Slipstream.VWAPWindow
import Slipstream.WeightedMean

/-!
# The incremental VWAP and its definition

Below capacity `getVWAP` answers with the volume-weighted average price of
all trades in the window, recomputed from the whole history.  The invariant
splits the history into a dropped part, which is outside the window for
every later clock reading, and the live trades.  Expired trades may survive
eviction only when no quantity is left, and then they have no weight.
-/

namespace Slipstream
namespace VWAPService

/-- The volume-weighted average price, rounded down, of the trades in the
window; zero when they carry no quantity. -/
def windowVWAP (window now : UInt64) (passed : List Trade) : ℤ :=
  let inside := passed.filter fun trade => InWindow window now trade
  if quantitySum inside = 0 then 0
  else pricedSum inside / quantitySum inside

/-- The head never meets the tail after a trade was handled, so the ring
never holds `bufferSize` entries. -/
def BelowCapacity (window : UInt64) (slots : ℕ → Trade)
    (calls : List ServiceCall) : Prop :=
  ∀ before policy trade,
    before ++ [.handleTrade policy trade] <+: calls →
      (after window slots (before ++ [.handleTrade policy trade])).head ≠
        (after window slots (before ++ [.handleTrade policy trade])).tail

/-- The history is a dropped part followed by the live trades, and no
dropped trade is in the window of any reading at or after the last call. -/
structure Tracks (window : UInt64) (slots : ℕ → Trade)
    (calls : List ServiceCall) : Prop where
  notFull : ¬ (after window slots calls).Full
  split : ∃ dropped,
    passedTrades calls = dropped ++ (after window slots calls).live ∧
      ∀ now, (∀ call ∈ calls, call.stamp ≤ now) →
        ∀ trade ∈ dropped, ¬ InWindow window now trade

section Invariant

variable {window : UInt64} {slots : ℕ → Trade}

theorem tracks_nil : Tracks window slots [] where
  notFull := by
    rintro ⟨_, hpos⟩
    simp [after, initial] at hpos
  split := ⟨[], rfl, by simp⟩

theorem settle_eq_self_of_ne {service : VWAPService} {trades : List Trade}
    (hindices : service.head ≠ service.tail)
    (hcoherent : service.Coherent) (hlive : service.live = settle trades) :
    settle trades = trades := by
  unfold settle at hlive ⊢
  split
  next hzero =>
    rw [if_pos hzero] at hlive
    have hcount : service.liveCount = 0 := by
      rw [← length_live, hlive]
      rfl
    rw [liveCount, if_neg hindices,
      CyclicSegment.gap_eq_zero_iff hcoherent.tail_lt] at hcount
    exact absurd hcount.symm hindices
  next => rfl

theorem Tracks.evicted {calls : List ServiceCall}
    (htracks : Tracks window slots calls) {stamp : UInt64}
    (hpast : ∀ trade ∈ (after window slots calls).live,
      trade.timestampNs ≤ stamp) :
    ∃ dropped,
      passedTrades calls =
        dropped ++ evict window stamp (after window slots calls).live ∧
      ∀ now, stamp ≤ now → (∀ call ∈ calls, call.stamp ≤ now) →
        ∀ trade ∈ dropped, ¬ InWindow window now trade := by
  obtain ⟨dropped, hsplit, hdropped⟩ := htracks.split
  obtain ⟨removed, hremoved, hout⟩ := evict_split_not_inWindow hpast
  refine ⟨dropped ++ removed, ?_, ?_⟩
  · rw [List.append_assoc, ← hremoved]
    exact hsplit
  · intro now hstamp hcalls trade htrade
    rcases List.mem_append.mp htrade with hold | hnew
    · exact hdropped now hcalls trade hold
    · exact not_inWindow_mono hstamp (hout trade hnew)

theorem Tracks.getVWAP {calls : List ServiceCall} {now : UInt64}
    (htracks : Tracks window slots calls)
    (hchronological : Chronological (calls ++ [.getVWAP now])) :
    Tracks window slots (calls ++ [.getVWAP now]) := by
  rcases (after_coherent window slots calls).removeOldTrades_spec
      htracks.notFull now with ⟨_, hnotFull, _, hlive⟩
  have hstate : after window slots (calls ++ [.getVWAP now]) =
      (after window slots calls).removeOldTrades now := by
    rw [after_concat, serve, getVWAP_snd]
  obtain ⟨dropped, hsplit, hdropped⟩ :=
    htracks.evicted (live_past window slots hchronological)
  refine ⟨by rwa [hstate], dropped, ?_, ?_⟩
  · rw [hstate, hlive, after_window, passedTrades_append,
      passedTrades_getVWAP, List.append_nil]
    exact hsplit
  · intro later hcalls
    rw [List.forall_mem_append] at hcalls
    exact hdropped later (hcalls.2 _ List.mem_cons_self) hcalls.1

theorem Tracks.handleTrade {calls : List ServiceCall}
    {policy : OverflowPolicy} {trade : Trade}
    (htracks : Tracks window slots calls)
    (hchronological : Chronological (calls ++ [.handleTrade policy trade]))
    (hindices :
      (after window slots (calls ++ [.handleTrade policy trade])).head ≠
        (after window slots (calls ++ [.handleTrade policy trade])).tail) :
    Tracks window slots (calls ++ [.handleTrade policy trade]) := by
  have hcoherent := after_coherent window slots calls
  rcases hcoherent.removeOldTrades_spec htracks.notFull trade.timestampNs with
    ⟨hevicted, hevictedNotFull, _, hlive⟩
  have hstate : after window slots (calls ++ [.handleTrade policy trade]) =
      ((after window slots calls).removeOldTrades
        trade.timestampNs).addTrade trade := by
    rw [after_concat, serve,
      handleTrade_of_not_full hcoherent htracks.notFull]
  have hadded := hevicted.live_addTrade hevictedNotFull trade
  rw [hstate] at hindices
  rw [settle_eq_self_of_ne hindices
    (hevicted.addTrade hevictedNotFull trade) hadded, hlive,
    after_window] at hadded
  obtain ⟨dropped, hsplit, hdropped⟩ :=
    htracks.evicted (live_past window slots hchronological)
  refine ⟨?_, dropped, ?_, ?_⟩
  · rw [hstate]
    exact fun hfull => hindices hfull.1
  · rw [hstate, hadded, passedTrades_append, passedTrades_handleTrade,
      ← List.append_assoc]
    exact congrArg (· ++ [trade]) hsplit
  · intro later hcalls
    rw [List.forall_mem_append] at hcalls
    exact hdropped later (hcalls.2 _ List.mem_cons_self) hcalls.1

theorem tracks_of_belowCapacity {calls : List ServiceCall}
    (hchronological : Chronological calls)
    (hcapacity : BelowCapacity window slots calls) :
    Tracks window slots calls := by
  induction calls using List.reverseRecOn with
  | nil => exact tracks_nil
  | append_singleton before call ih =>
      have htracks : Tracks window slots before :=
        ih ((chronological_concat_iff before call).mp hchronological).1
          (fun earlier policy trade hpre =>
            hcapacity earlier policy trade
              (hpre.trans (List.prefix_append before [call])))
      cases call with
      | getVWAP now => exact htracks.getVWAP hchronological
      | handleTrade policy trade =>
          exact htracks.handleTrade hchronological
            (hcapacity before policy trade (List.prefix_refl _))

end Invariant

theorem belowCapacity_of_length_lt (window : UInt64) (slots : ℕ → Trade)
    {calls : List ServiceCall}
    (hlength : (passedTrades calls).length < bufferSize) :
    BelowCapacity window slots calls := by
  intro before policy trade hpre
  have hcoherent := after_coherent window slots before
  have hpassed : (passedTrades before).length + 1 < bufferSize := by
    rcases hpre with ⟨later, rfl⟩
    simp only [passedTrades_append, passedTrades_handleTrade,
      List.length_append, List.length_singleton] at hlength
    omega
  have hnotFull : ¬ (after window slots before).Full :=
    not_full_of_length_lt window slots (by omega)
  rcases hcoherent.removeOldTrades_spec hnotFull trade.timestampNs with
    ⟨hevicted, hevictedNotFull, _⟩
  have hcount : ((after window slots before).removeOldTrades
      trade.timestampNs).liveCount + 1 < bufferSize := by
    have hsuffix :=
      (live_removeOldTrades_suffix hcoherent trade.timestampNs).length_le
    have hsublist :=
      (live_sublist_passedTrades window slots before).length_le
    rw [length_live] at hsuffix
    omega
  have hgap := hevicted.addTrade_gap hevictedNotFull trade
  rw [if_pos hcount] at hgap
  rw [after_concat, serve, handleTrade_of_not_full hcoherent hnotFull]
  intro hsame
  dsimp only at hsame
  rw [hsame, (CyclicSegment.gap_eq_zero_iff (hevicted.addTrade
    hevictedNotFull trade).tail_lt).mpr rfl] at hgap
  omega

/-! ## The quotient -/

theorem pricedSum_nonneg {trades : List Trade}
    (hprices : ∀ trade ∈ trades, 0 ≤ trade.price.toInt) :
    0 ≤ pricedSum trades := by
  apply List.sum_nonneg
  intro value hvalue
  obtain ⟨trade, htrade, rfl⟩ := List.mem_map.mp hvalue
  exact mul_nonneg (Int.natCast_nonneg _) (hprices trade htrade)

theorem pricedSum_le (trades : List Trade) :
    pricedSum trades ≤ quantitySum trades * (2 ^ 63 - 1) := by
  refine WeightedMean.weightedSum_le_totalWeight_mul fun trade _ _ => ?_
  have hlt := trade.price.toInt_lt
  omega

theorem le_pricedSum (trades : List Trade) :
    (quantitySum trades : ℤ) * -2 ^ 63 ≤ pricedSum trades :=
  WeightedMean.totalWeight_mul_le_weightedSum fun trade _ _ =>
    trade.price.le_toInt

theorem quotient_toInt {service : VWAPService}
    (hcoherent : service.Coherent) :
    (service.quotient.toNat : ℤ) =
      pricedSum service.live % 2 ^ 128 / quantitySum service.live := by
  have hquantity := hcoherent.quantitySum_live_lt
  have hpriced : (service.totalPricedQuantity.toNat : ℤ) =
      pricedSum service.live % 2 ^ 128 := by
    rw [hcoherent.totalPricedQuantity_eq, BitVec.toNat_ofInt]
    exact Int.toNat_of_nonneg (Int.emod_nonneg _ (by decide))
  have htotal : (service.totalQuantity.toBitVec.setWidth 128).toNat =
      quantitySum service.live := by
    rw [BitVec.toNat_setWidth, UInt64.toNat_toBitVec,
      hcoherent.totalQuantity_eq, Nat.mod_eq_of_lt (by omega)]
  rw [quotient, BitVec.toNat_udiv, htotal, Int.natCast_div, hpriced]

/-- With a nonnegative sum neither the 128-bit accumulator nor the 64-bit
return value loses anything. -/
theorem quotient_toNat {service : VWAPService}
    (hcoherent : service.Coherent)
    (hnonneg : 0 ≤ pricedSum service.live) :
    (service.quotient.toNat : ℤ) =
        pricedSum service.live / quantitySum service.live ∧
      service.quotient.toNat < 2 ^ 63 := by
  have hle := pricedSum_le service.live
  have hquantity := hcoherent.quantitySum_live_lt
  have hvalue : (service.quotient.toNat : ℤ) =
      pricedSum service.live / quantitySum service.live := by
    rw [quotient_toInt hcoherent, Int.emod_eq_of_lt hnonneg (by omega)]
  refine ⟨hvalue, ?_⟩
  have hbound : (service.quotient.toNat : ℤ) ≤ 2 ^ 63 - 1 := by
    rw [hvalue]
    rcases Nat.eq_zero_or_pos (quantitySum service.live) with hzero | hpos
    · simp [hzero]
    · apply Int.ediv_le_of_le_mul (by omega)
      rwa [mul_comm]
  omega

theorem windowVWAP_of_split
    {window now : UInt64} {passed dropped kept : List Trade}
    (hsplit : passed = dropped ++ kept)
    (hdropped : ∀ trade ∈ dropped, ¬ InWindow window now trade) :
    windowVWAP window now passed = windowVWAP window now kept := by
  have hfilter : dropped.filter (fun trade => InWindow window now trade) =
      [] := by
    rw [List.filter_eq_nil_iff]
    intro trade htrade
    simpa using hdropped trade htrade
  unfold windowVWAP
  rw [hsplit, List.filter_append, hfilter, List.nil_append]

theorem windowVWAP_of_quantitySum_eq_zero
    {window now : UInt64} {trades : List Trade}
    (hzero : quantitySum trades = 0) :
    windowVWAP window now trades = 0 := by
  rw [quantitySum_eq_zero_iff] at hzero
  have hinside : quantitySum
      (trades.filter fun trade => InWindow window now trade) = 0 := by
    rw [quantitySum_eq_zero_iff]
    intro trade htrade
    exact hzero trade (List.mem_filter.mp htrade).1
  simp only [windowVWAP, hinside, if_true]

theorem windowVWAP_of_forall_inWindow
    {window now : UInt64} {trades : List Trade}
    (hin : ∀ trade ∈ trades, InWindow window now trade)
    (hquantity : quantitySum trades ≠ 0) :
    windowVWAP window now trades =
      pricedSum trades / quantitySum trades := by
  have hfilter : trades.filter (fun trade => InWindow window now trade) =
      trades := by
    rw [List.filter_eq_self]
    intro trade htrade
    simpa using hin trade htrade
  simp only [windowVWAP, hfilter, if_neg hquantity]

theorem getVWAP_toInt {service : VWAPService} {now : UInt64}
    (hcoherent : (service.removeOldTrades now).Coherent)
    (hquantity : quantitySum (service.removeOldTrades now).live ≠ 0) :
    ((service.getVWAP now).1.toNat : ℤ) =
      pricedSum (service.removeOldTrades now).live % 2 ^ 128 /
        quantitySum (service.removeOldTrades now).live % 2 ^ 64 := by
  have htotal : (service.removeOldTrades now).totalQuantity ≠ 0 := by
    rw [ne_eq, hcoherent.totalQuantity_eq_zero_iff]
    exact hquantity
  rw [← quotient_toInt hcoherent, getVWAP]
  simp [if_neg htotal]

theorem getVWAP_toNat {service : VWAPService} {now : UInt64}
    (hcoherent : (service.removeOldTrades now).Coherent)
    (hnonneg : 0 ≤ pricedSum (service.removeOldTrades now).live)
    (hquantity : quantitySum (service.removeOldTrades now).live ≠ 0) :
    ((service.getVWAP now).1.toNat : ℤ) =
      pricedSum (service.removeOldTrades now).live /
        quantitySum (service.removeOldTrades now).live := by
  rcases quotient_toNat hcoherent hnonneg with ⟨hvalue, hbound⟩
  rw [getVWAP_toInt hcoherent hquantity, ← quotient_toInt hcoherent,
    ← hvalue]
  omega

/-- Below capacity every `getVWAP` of a chronological run answers with the
average over the trades in the window, and the 128-bit quotient fits the
return type. -/
theorem getVWAP_eq_windowVWAP
    (window : UInt64) (slots : ℕ → Trade) (calls : List ServiceCall)
    (hchronological : Chronological calls)
    (hprices : ∀ trade ∈ passedTrades calls, 0 ≤ trade.price.toInt)
    (hcapacity : BelowCapacity window slots calls) :
    ∀ before now, before ++ [.getVWAP now] <+: calls →
      (((after window slots before).getVWAP now).1.toNat : ℤ) =
          windowVWAP window now (passedTrades before) ∧
        ((after window slots before).getVWAP now).2.quotient.toNat <
          2 ^ 64 := by
  intro before now hpre
  have hchron := hchronological.of_isPrefix hpre
  have hbefore : before <+: calls :=
    (List.prefix_append before _).trans hpre
  have htracks : Tracks window slots before :=
    tracks_of_belowCapacity (hchronological.of_isPrefix hbefore)
      (fun earlier policy trade h =>
        hcapacity earlier policy trade (h.trans hbefore))
  have hcoherent := after_coherent window slots before
  rcases hcoherent.removeOldTrades_spec htracks.notFull now with
    ⟨hevicted, _, _, hlive⟩
  have hlivePast : ∀ trade ∈ (after window slots before).live,
      trade.timestampNs ≤ now := live_past window slots hchron
  obtain ⟨dropped, hsplit, hdropped⟩ := htracks.evicted hlivePast
  rw [after_window] at hlive
  rw [← hlive] at hsplit
  have hpast := ((chronological_concat_iff before _).mp hchron).2
  have hwindow := windowVWAP_of_split hsplit
    (hdropped now (UInt64.le_refl now) hpast)
  have hnonneg : 0 ≤ pricedSum
      ((after window slots before).removeOldTrades now).live := by
    apply pricedSum_nonneg
    intro trade htrade
    apply hprices
    rcases hbefore with ⟨later, hcalls⟩
    rw [← hcalls, passedTrades_append, hsplit]
    simp [htrade]
  constructor
  · rw [hwindow]
    by_cases hzero : quantitySum
        ((after window slots before).removeOldTrades now).live = 0
    · rw [windowVWAP_of_quantitySum_eq_zero hzero,
        getVWAP_eq_zero_of_quantitySum hcoherent hzero]
      rfl
    · rw [getVWAP_toNat hevicted hnonneg hzero,
        windowVWAP_of_forall_inWindow _ hzero]
      rcases evict_empty_or_inWindow (live_ordered window slots hchron)
        hlivePast with hempty | hin
      · rw [hlive] at hzero
        exact absurd hempty hzero
      · rwa [hlive]
  · rw [getVWAP_snd]
    exact (quotient_toNat hevicted hnonneg).2.trans (by decide)

def sampleTrade (timestampNs : UInt64) (quantity : UInt32)
    (price : Int64) : Trade where
  symbol := List.Vector.replicate 12 65
  timestampNs := timestampNs
  quantity := quantity
  price := price
  aggressor := .unknown
  id := 0

/-- A trade that expires, an expired one without quantity, and two that are
averaged. -/
def sampleCalls : List ServiceCall :=
  [.handleTrade .throw (sampleTrade 0 7 90), .getVWAP 5,
    .handleTrade .rejectNew (sampleTrade 6 0 80),
    .handleTrade .overwriteOldest (sampleTrade 14 1 100),
    .handleTrade .throw (sampleTrade 15 2 103), .getVWAP 20]

theorem getVWAP_eq_windowVWAP_sample :
    (((after 10 (fun _ => sampleTrade 0 0 0)
        (sampleCalls.take 5)).getVWAP 20).1.toNat : ℤ) =
      windowVWAP 10 20 (passedTrades (sampleCalls.take 5)) ∧
    ((after 10 (fun _ => sampleTrade 0 0 0)
        (sampleCalls.take 5)).getVWAP 20).2.quotient.toNat < 2 ^ 64 := by
  refine getVWAP_eq_windowVWAP 10 (fun _ => sampleTrade 0 0 0) sampleCalls
    ?_ ?_ ?_ (sampleCalls.take 5) 20 (List.prefix_refl _)
  · simp [Chronological, sampleCalls, sampleTrade, ServiceCall.stamp]
  · decide
  · exact belowCapacity_of_length_lt 10 _ (by decide)

end VWAPService

end Slipstream
