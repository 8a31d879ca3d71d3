import Slipstream.VWAPWindow

/-!
# Freshness of the counted trades

After `getVWAP` every counted trade of positive quantity should lie in the
rolling window.  On a ring that is not full the eviction loop achieves this.
On a full ring the loop guard `head != tail` fails at once and nothing is
evicted, so freshness holds exactly when the oldest counted trade happens to
be in the window.  The run at the end fills the ring and then lets the
window pass.
-/

namespace Slipstream
namespace VWAPService

/-- What `getVWAP` at `now` owes its caller, given the trades passed to the
service so far. -/
structure FreshAt (service : VWAPService) (passed : List Trade)
    (now : UInt64) : Prop where
  counted : ∀ trade ∈ (service.getVWAP now).2.live, 0 < trade.quantity →
    InWindow service.rollingWindowSizeMs now trade
  empty : (∀ trade ∈ passed, 0 < trade.quantity →
      ¬ InWindow service.rollingWindowSizeMs now trade) →
    (service.getVWAP now).1 = 0

/-- If the ring is full, its oldest trade of positive quantity has not yet
left the window. -/
def FullRingInWindow (service : VWAPService) (now : UInt64) : Prop :=
  service.Full →
    ∀ trade, service.live.find? (fun trade => 0 < trade.quantity) =
        some trade →
      InWindow service.rollingWindowSizeMs now trade

theorem quantitySum_eq_zero_iff_not_pos (trades : List Trade) :
    quantitySum trades = 0 ↔ ∀ trade ∈ trades, ¬ 0 < trade.quantity := by
  rw [quantitySum_eq_zero_iff]
  refine forall₂_congr fun trade _ => ?_
  rw [UInt32.lt_iff_toNat_lt]
  change _ ↔ ¬ 0 < trade.quantity.toNat
  omega

theorem forall_inWindow_iff_find
    (window now : UInt64) {trades : List Trade}
    (hordered : trades.Pairwise
      (fun older newer => older.timestampNs ≤ newer.timestampNs)) :
    (∀ trade ∈ trades, 0 < trade.quantity → InWindow window now trade) ↔
      ∀ trade, trades.find? (fun trade => 0 < trade.quantity) =
          some trade →
        InWindow window now trade := by
  induction trades with
  | nil => simp
  | cons oldest rest ih =>
      rcases List.pairwise_cons.mp hordered with ⟨hnewer, hrest⟩
      by_cases hpos : 0 < oldest.quantity
      · simp only [List.find?_cons, hpos, decide_true, Option.some.injEq,
          forall_eq']
        constructor
        · intro hall
          exact hall oldest List.mem_cons_self hpos
        · intro holdest trade htrade _
          rcases List.mem_cons.mp htrade with rfl | hmem
          · exact holdest
          · exact inWindow_of_le (hnewer trade hmem) holdest
      · simp only [List.find?_cons, hpos, decide_false]
        rw [← ih hrest]
        constructor
        · intro hall trade hmem
          exact hall trade (List.mem_cons_of_mem oldest hmem)
        · intro hall trade htrade htradePos
          rcases List.mem_cons.mp htrade with rfl | hmem
          · exact absurd htradePos hpos
          · exact hall trade hmem htradePos

section Reached

variable {window now : UInt64} {slots : ℕ → Trade}
  {before : List ServiceCall}

theorem freshAt_of_counted
    (hcounted : ∀ trade ∈ ((after window slots before).getVWAP now).2.live,
      0 < trade.quantity → InWindow window now trade) :
    FreshAt (after window slots before) (passedTrades before) now := by
  have hwindow := after_window window slots before
  have hcoherent := after_coherent window slots before
  refine ⟨by rwa [hwindow], ?_⟩
  intro hnone
  rw [hwindow] at hnone
  apply getVWAP_eq_zero_of_quantitySum hcoherent
  rw [quantitySum_eq_zero_iff_not_pos]
  intro trade htrade hpos
  have hpassed : trade ∈ passedTrades before :=
    (live_sublist_passedTrades window slots before).subset
      ((live_removeOldTrades_suffix hcoherent now).subset htrade)
  exact hnone trade hpassed hpos
    (hcounted trade (by rwa [getVWAP_snd]) hpos)

theorem freshAt_of_not_full
    (hchronological : Chronological (before ++ [.getVWAP now]))
    (hnotFull : ¬ (after window slots before).Full) :
    FreshAt (after window slots before) (passedTrades before) now := by
  have hcoherent := after_coherent window slots before
  rcases hcoherent.removeOldTrades_spec hnotFull now with ⟨_, _, _, hlive⟩
  rw [after_window] at hlive
  apply freshAt_of_counted
  intro trade htrade hpos
  rw [getVWAP_snd, hlive] at htrade
  rcases evict_empty_or_inWindow (live_ordered window slots hchronological)
    (live_past window slots hchronological) with hzero | hin
  · rw [quantitySum_eq_zero_iff_not_pos] at hzero
    exact absurd hpos (hzero trade htrade)
  · exact hin trade htrade

theorem freshAt_iff
    (hchronological : Chronological (before ++ [.getVWAP now])) :
    FreshAt (after window slots before) (passedTrades before) now ↔
      FullRingInWindow (after window slots before) now := by
  by_cases hfull : (after window slots before).Full
  · have hsame : ((after window slots before).getVWAP now).2 =
        after window slots before := by
      rw [getVWAP_snd, removeOldTrades_of_full hfull]
    have hdecide := forall_inWindow_iff_find window now
      (live_ordered window slots hchronological)
    constructor
    · intro hfresh _
      have hcounted := hfresh.counted
      rw [hsame, after_window] at hcounted
      rw [after_window]
      exact hdecide.mp hcounted
    · intro hfront
      apply freshAt_of_counted
      rw [hsame]
      have hfind := hfront hfull
      rw [after_window] at hfind
      exact hdecide.mpr hfind
  · exact iff_of_true (freshAt_of_not_full hchronological hfull)
      (fun h => absurd h hfull)

end Reached

/-- In a chronological run every `getVWAP` leaves only fresh trades counted
exactly when none is called on a full ring whose oldest trade of positive
quantity has left the window. -/
theorem window_fresh_iff_full_ring_inWindow
    (window : UInt64) (slots : ℕ → Trade) (calls : List ServiceCall)
    (hchronological : Chronological calls) :
    (∀ before now, before ++ [.getVWAP now] <+: calls →
      FreshAt (after window slots before) (passedTrades before) now) ↔
    ∀ before now, before ++ [.getVWAP now] <+: calls →
      FullRingInWindow (after window slots before) now := by
  refine forall₂_congr fun before now => ?_
  refine forall_congr' fun hpre => ?_
  exact freshAt_iff (hchronological.of_isPrefix hpre)

/-! ## A ring filled and left to expire -/

def agedTrade : Trade where
  symbol := List.Vector.replicate 12 65
  timestampNs := 0
  quantity := 1
  price := 1012300
  aggressor := .buy
  id := 1

theorem window_fresh_iff_full_ring_inWindow_short_run :
    let calls := [.handleTrade .overwriteOldest agedTrade, .getVWAP 7]
    (∀ before now, before ++ [.getVWAP now] <+: calls →
      FreshAt (after 10 (fun _ => agedTrade) before)
        (passedTrades before) now) ↔
    ∀ before now, before ++ [.getVWAP now] <+: calls →
      FullRingInWindow (after 10 (fun _ => agedTrade) before) now :=
  window_fresh_iff_full_ring_inWindow 10 (fun _ => agedTrade)
    [.handleTrade .overwriteOldest agedTrade, .getVWAP 7]
    (by simp [Chronological, ServiceCall.stamp, agedTrade])

def agedCalls (count : ℕ) : List ServiceCall :=
  List.replicate count (.handleTrade .overwriteOldest agedTrade)

theorem live_after_agedCalls (window : UInt64) (slots : ℕ → Trade)
    {count : ℕ} (hcount : count ≤ bufferSize) :
    (after window slots (agedCalls count)).live =
      List.replicate count agedTrade := by
  have hquantity : quantitySum (List.replicate count agedTrade) = count := by
    simp [quantitySum, agedTrade]
  have hstamps : ∀ trade ∈ List.replicate count agedTrade,
      trade.timestampNs = 0 := by
    intro trade htrade
    rw [List.eq_of_mem_replicate htrade]
    rfl
  have hlive := live_after_simultaneous window slots .overwriteOldest hstamps
    (by rwa [List.length_replicate])
  rw [List.map_replicate] at hlive
  rw [agedCalls, hlive, settle, if_neg]
  rw [List.length_replicate, hquantity]
  simp only [bufferSize]
  omega

/-- A ring filled at time `0` with a window of 10 ms still counts all its
trades at time `1000`. -/
theorem full_ring_not_fresh :
    Chronological (agedCalls 1024 ++ [.getVWAP 1000]) ∧
      ¬ FreshAt (after 10 (fun _ => agedTrade) (agedCalls 1024))
        (passedTrades (agedCalls 1024)) 1000 := by
  have hchronological : Chronological (agedCalls 1024 ++ [.getVWAP 1000]) := by
    rw [chronological_concat_iff]
    constructor
    · unfold Chronological agedCalls
      rw [List.map_replicate, List.pairwise_replicate]
      exact Or.inr (UInt64.le_refl _)
    · intro call hcall
      rw [List.eq_of_mem_replicate hcall]
      decide
  refine ⟨hchronological, ?_⟩
  have hlive : (after 10 (fun _ => agedTrade) (agedCalls 1024)).live =
      List.replicate 1024 agedTrade :=
    live_after_agedCalls 10 (fun _ => agedTrade) le_rfl
  have hfull : (after 10 (fun _ => agedTrade) (agedCalls 1024)).Full := by
    rw [(after_coherent _ _ _).full_iff_liveCount, ← length_live, hlive,
      List.length_replicate]
    rfl
  rw [freshAt_iff hchronological]
  intro hfront
  have hin := hfront hfull agedTrade (by
    rw [hlive, List.replicate_succ, List.find?_cons]
    rfl)
  rw [after_window] at hin
  revert hin
  decide

end VWAPService

end Slipstream
