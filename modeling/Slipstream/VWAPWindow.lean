import Slipstream.VWAPRing

/-!
# The rolling window over chronological runs

In a run whose trade timestamps and clock readings never decrease, the live
trades are always a sublist of the trades passed so far and stand in the
order of their timestamps.  Two consequences are drawn.

Below capacity the incremental service computes exactly the volume-weighted
average of its definition, recomputed from the whole history.  At capacity
the window is no longer maintained: a full ring is not evicted from, and
freshness of the counted trades then depends on the oldest counted one.
-/

namespace Slipstream
namespace VWAPService

/-- The age of the trade, as an exact integer, is at most the window. -/
def InWindow (window now : UInt64) (trade : Trade) : Prop :=
  (now.toNat : ℤ) - trade.timestampNs.toNat ≤ window.toNat

instance (window now : UInt64) (trade : Trade) :
    Decidable (InWindow window now trade) :=
  inferInstanceAs (Decidable (_ ≤ _))

/-- For a trade that is not ahead of the clock the wrapping age test is
exact. -/
theorem expired_eq_false_iff {window now : UInt64} {trade : Trade}
    (hpast : trade.timestampNs ≤ now) :
    expired window now trade = false ↔ InWindow window now trade := by
  have hage := UInt64.toNat_sub_of_le _ _ hpast
  rw [UInt64.le_iff_toNat_le] at hpast
  simp only [expired, InWindow, Bool.not_eq_false', decide_eq_true_eq,
    UInt64.le_iff_toNat_le, hage]
  omega

theorem not_inWindow_of_expired {window now : UInt64} {trade : Trade}
    (hpast : trade.timestampNs ≤ now)
    (hexpired : expired window now trade = true) :
    ¬ InWindow window now trade := by
  rw [← expired_eq_false_iff hpast, hexpired]
  simp

theorem not_inWindow_mono {window earlier later : UInt64} {trade : Trade}
    (hle : earlier ≤ later) (hout : ¬ InWindow window earlier trade) :
    ¬ InWindow window later trade := by
  rw [UInt64.le_iff_toNat_le] at hle
  unfold InWindow at hout ⊢
  omega

theorem inWindow_of_le {window now : UInt64} {older newer : Trade}
    (hle : older.timestampNs ≤ newer.timestampNs)
    (hin : InWindow window now older) : InWindow window now newer := by
  rw [UInt64.le_iff_toNat_le] at hle
  unfold InWindow at hin ⊢
  omega

/-! ## Order of the live trades -/

@[simp] theorem passedTrades_append (before later : List ServiceCall) :
    passedTrades (before ++ later) =
      passedTrades before ++ passedTrades later := by
  simp [passedTrades]

@[simp] theorem passedTrades_handleTrade
    (policy : OverflowPolicy) (trade : Trade) :
    passedTrades [.handleTrade policy trade] = [trade] := rfl

@[simp] theorem passedTrades_getVWAP (now : UInt64) :
    passedTrades [.getVWAP now] = [] := rfl

theorem after_concat (window : UInt64) (slots : ℕ → Trade)
    (before : List ServiceCall) (call : ServiceCall) :
    after window slots (before ++ [call]) =
      (serve (after window slots before) call).1 := by
  simp [after]

theorem chronological_concat_iff
    (before : List ServiceCall) (call : ServiceCall) :
    Chronological (before ++ [call]) ↔
      Chronological before ∧
        ∀ earlier ∈ before, earlier.stamp ≤ call.stamp := by
  simp [Chronological, List.pairwise_append]

theorem Chronological.of_isPrefix {calls before : List ServiceCall}
    (hchronological : Chronological calls) (hpre : before <+: calls) :
    Chronological before :=
  List.Pairwise.sublist (hpre.sublist.map ServiceCall.stamp)
    hchronological

theorem ServiceCall.stamp_of_trade? {call : ServiceCall} {trade : Trade}
    (htrade : call.trade? = some trade) :
    call.stamp = trade.timestampNs := by
  cases call with
  | handleTrade policy passed =>
      rw [← Option.some.inj htrade]
      rfl
  | getVWAP now => contradiction

theorem timestamp_le_of_chronological
    {before : List ServiceCall} {call : ServiceCall}
    (hchronological : Chronological (before ++ [call]))
    {trade : Trade} (hmem : trade ∈ passedTrades before) :
    trade.timestampNs ≤ call.stamp := by
  obtain ⟨earlier, hearlier, htrade⟩ := List.mem_filterMap.mp hmem
  rw [← ServiceCall.stamp_of_trade? htrade]
  exact ((chronological_concat_iff before call).mp hchronological).2
    earlier hearlier

theorem passedTrades_ordered {calls : List ServiceCall}
    (hchronological : Chronological calls) :
    (passedTrades calls).Pairwise
      (fun older newer => older.timestampNs ≤ newer.timestampNs) := by
  have hcalls : calls.Pairwise
      (fun earlier later => earlier.stamp ≤ later.stamp) :=
    List.pairwise_map.mp hchronological
  refine hcalls.filterMap ServiceCall.trade? ?_
  intro earlier later hle older holder newer hnewer
  rwa [ServiceCall.stamp_of_trade? holder,
    ServiceCall.stamp_of_trade? hnewer] at hle

theorem live_handleTrade_sublist {service : VWAPService}
    (hcoherent : service.Coherent) (policy : OverflowPolicy)
    (trade : Trade) :
    (service.handleTrade policy trade).2.live.Sublist
      (service.live ++ [trade]) := by
  by_cases hfull : service.Full
  · rw [handleTrade_of_full hfull]
    cases policy with
    | rejectNew => exact List.sublist_append_left service.live [trade]
    | throw => exact List.sublist_append_left service.live [trade]
    | overwriteOldest =>
        obtain ⟨oldest, rest, hlive⟩ :=
          List.exists_cons_of_ne_nil (live_ne_nil_of_full hfull)
        rcases hcoherent.dropTail_spec hlive with
          ⟨_, hrest, hdropped, hnotFull⟩
        dsimp only
        rw [hdropped.live_addTrade hnotFull, hrest, hlive]
        exact (settle_suffix _).sublist.trans
          (List.sublist_cons_self oldest (rest ++ [trade]))
  · rw [handleTrade_of_not_full hcoherent hfull]
    rcases hcoherent.removeOldTrades_spec hfull trade.timestampNs with
      ⟨hevicted, hnotFull, _, hlive⟩
    dsimp only
    rw [hevicted.live_addTrade hnotFull, hlive]
    exact (settle_suffix _).sublist.trans
      ((evict_suffix _ _ _).sublist.append_right [trade])

theorem live_removeOldTrades_suffix {service : VWAPService}
    (hcoherent : service.Coherent) (now : UInt64) :
    (service.removeOldTrades now).live <:+ service.live := by
  by_cases hfull : service.Full
  · rw [removeOldTrades_of_full hfull]
  · rcases hcoherent.removeOldTrades_spec hfull now with ⟨_, _, _, hlive⟩
    rw [hlive]
    exact evict_suffix _ _ _

theorem live_sublist_passedTrades (window : UInt64) (slots : ℕ → Trade)
    (calls : List ServiceCall) :
    (after window slots calls).live.Sublist (passedTrades calls) := by
  induction calls using List.reverseRecOn with
  | nil => exact (List.Sublist.refl [])
  | append_singleton before call ih =>
      have hcoherent := after_coherent window slots before
      rw [after_concat, passedTrades_append]
      cases call with
      | handleTrade policy trade =>
          exact (live_handleTrade_sublist hcoherent policy trade).trans
            (ih.append_right [trade])
      | getVWAP now =>
          rw [serve, getVWAP_snd, passedTrades_getVWAP, List.append_nil]
          exact (live_removeOldTrades_suffix hcoherent now).sublist.trans ih

theorem not_full_of_length_lt (window : UInt64) (slots : ℕ → Trade)
    {calls : List ServiceCall}
    (hlength : (passedTrades calls).length < bufferSize) :
    ¬ (after window slots calls).Full := by
  intro hfull
  have hle := (live_sublist_passedTrades window slots calls).length_le
  rw [length_live, liveCount_of_full hfull] at hle
  omega

theorem after_window (window : UInt64) (slots : ℕ → Trade)
    (calls : List ServiceCall) :
    (after window slots calls).rollingWindowSizeMs = window := by
  apply RunHistory.exec_invariant
    (motive := fun state : VWAPService => state.rollingWindowSizeMs = window)
  · intro service call hwindow
    cases call with
    | getVWAP now =>
        rw [serve, getVWAP_snd, removeOldTrades_window, hwindow]
    | handleTrade policy trade =>
        have hevicted := removeOldTrades_window service trade.timestampNs
        simp only [serve, handleTrade]
        split
        next =>
          cases policy with
          | rejectNew => exact hevicted.trans hwindow
          | throw => exact hevicted.trans hwindow
          | overwriteOldest =>
              simp only [addTrade, removeOldestTrade, dropTail]
              split <;> exact hevicted.trans hwindow
        next => exact hevicted.trans hwindow
  · rfl

/-! ## Eviction from an ordered queue -/

/-- In a queue ordered by time, eviction leaves either no quantity at all or
only trades in the window. -/
theorem evict_empty_or_inWindow
    {window now : UInt64} {trades : List Trade}
    (hordered : trades.Pairwise
      (fun older newer => older.timestampNs ≤ newer.timestampNs))
    (hpast : ∀ trade ∈ trades, trade.timestampNs ≤ now) :
    quantitySum (evict window now trades) = 0 ∨
      ∀ trade ∈ evict window now trades, InWindow window now trade := by
  have hsuffix := evict_suffix window now trades
  cases hevict : evict window now trades with
  | nil => exact Or.inl rfl
  | cons oldest rest =>
      rcases quantitySum_eq_zero_or_front_not_expired hevict with
        hzero | hfront
      · exact Or.inl hzero
      · right
        rw [hevict] at hsuffix
        have holdestPast : oldest.timestampNs ≤ now :=
          hpast oldest (hsuffix.subset List.mem_cons_self)
        have holdestIn := (expired_eq_false_iff holdestPast).mp hfront
        have hrest := (List.pairwise_cons.mp
          (hordered.sublist hsuffix.sublist)).1
        intro trade htrade
        rcases List.mem_cons.mp htrade with rfl | hmem
        · exact holdestIn
        · exact inWindow_of_le (hrest trade hmem) holdestIn

theorem evict_split_not_inWindow
    {window now : UInt64} {trades : List Trade}
    (hpast : ∀ trade ∈ trades, trade.timestampNs ≤ now) :
    ∃ dropped, trades = dropped ++ evict window now trades ∧
      ∀ trade ∈ dropped, ¬ InWindow window now trade := by
  obtain ⟨dropped, hsplit, hexpired⟩ := evict_split window now trades
  refine ⟨dropped, hsplit, ?_⟩
  intro trade htrade
  have hmem : trade ∈ trades := by
    rw [hsplit]
    exact List.mem_append_left _ htrade
  exact not_inWindow_of_expired (hpast trade hmem) (hexpired trade htrade)

/-! ## The queue met by a chronological call -/

section Reached

variable (window : UInt64) (slots : ℕ → Trade)
  {before : List ServiceCall} {call : ServiceCall}

theorem live_past (hchronological : Chronological (before ++ [call])) :
    ∀ trade ∈ (after window slots before).live,
      trade.timestampNs ≤ call.stamp := by
  intro trade htrade
  exact timestamp_le_of_chronological hchronological
    ((live_sublist_passedTrades window slots before).subset htrade)

theorem live_ordered (hchronological : Chronological (before ++ [call])) :
    (after window slots before).live.Pairwise
      (fun older newer => older.timestampNs ≤ newer.timestampNs) :=
  (passedTrades_ordered
    ((chronological_concat_iff before call).mp hchronological).1).sublist
      (live_sublist_passedTrades window slots before)

end Reached

/-! ## Trades of one instant -/

theorem evict_eq_self_of_simultaneous (window : UInt64) {stamp : UInt64}
    {trades : List Trade}
    (hstamps : ∀ trade ∈ trades, trade.timestampNs = stamp) :
    evict window stamp trades = trades := by
  cases trades with
  | nil => rfl
  | cons oldest rest =>
      have hfresh : expired window stamp oldest = false := by
        simp [expired, hstamps oldest List.mem_cons_self]
      rw [evict, if_neg]
      simp [hfresh]

/-- Trades of one instant all stay in the ring as long as they fit. -/
theorem live_after_simultaneous (window : UInt64) (slots : ℕ → Trade)
    (policy : OverflowPolicy) {stamp : UInt64} {trades : List Trade}
    (hstamps : ∀ trade ∈ trades, trade.timestampNs = stamp)
    (hlength : trades.length ≤ bufferSize) :
    (after window slots (trades.map (.handleTrade policy))).live =
      settle trades := by
  induction trades using List.reverseRecOn with
  | nil => rfl
  | append_singleton before trade ih =>
      let calls : List ServiceCall := before.map (.handleTrade policy)
      rw [List.length_append, List.length_singleton] at hlength
      have hbefore : ∀ earlier ∈ before, earlier.timestampNs = stamp :=
        fun earlier hearlier =>
          hstamps earlier (List.mem_append_left _ hearlier)
      have hlive : (after window slots calls).live = before := by
        rw [ih hbefore (by omega), settle_of_lt (by omega)]
      have hcoherent := after_coherent window slots calls
      have hnotFull : ¬ (after window slots calls).Full := by
        intro hfull
        have hcount := liveCount_of_full hfull
        rw [← length_live, hlive] at hcount
        omega
      rcases hcoherent.removeOldTrades_spec hnotFull trade.timestampNs with
        ⟨hevicted, hevictedNotFull, _, hkept⟩
      rw [hlive, hstamps trade (by simp),
        evict_eq_self_of_simultaneous _ hbefore] at hkept
      rw [List.map_append, List.map_singleton, after_concat, serve,
        handleTrade_of_not_full hcoherent hnotFull]
      dsimp only
      rw [hevicted.live_addTrade hevictedNotFull, hstamps trade (by simp),
        hkept]

theorem getVWAP_eq_zero_of_quantitySum {service : VWAPService}
    (hcoherent : service.Coherent) {now : UInt64}
    (hzero : quantitySum (service.removeOldTrades now).live = 0) :
    (service.getVWAP now).1 = 0 := by
  have htotal := (hcoherent.removeOldTrades now).totalQuantity_eq_zero_iff.mpr
    hzero
  simp [getVWAP, htotal]

end VWAPService

end Slipstream
