import Slipstream.VWAPWindow

/-!
# What the eviction loop takes out

Every iteration of the loop takes the oldest live trade out of the ring, and
the loop is left by its own tests.  Together with the sums over the live
trades this gives the representation of the service in every reachable
state: both totals are sums over the live trades, and no addition to or
subtraction from the total quantity ever wraps around.

The age test of the loop is made in wrapping arithmetic.  It is exact for
trades that are not ahead of the reading, but a trade stamped a little later
than the reading passes for a very old one.
-/

namespace Slipstream
namespace VWAPService

/-! ## The iterations of the loop -/

/-- The states from which `removeOldTrades` executes an iteration. -/
def evictions (now : UInt64) (service : VWAPService) : List VWAPService :=
  BoundedLoop.trail (removeOldTradesBody now) bufferSize service

def oldest (service : VWAPService) : Trade :=
  service.trades service.tail

/-- The trades that `removeOldTrades` takes out, in the order of removal. -/
def evicted (now : UInt64) (service : VWAPService) : List Trade :=
  (evictions now service).map oldest

theorem trail_append_live {service : VWAPService}
    (hcoherent : service.Coherent) (hnotFull : ¬ service.Full)
    (now : UInt64) (fuel : ℕ) :
    (BoundedLoop.trail (removeOldTradesBody now) fuel service).map oldest ++
        (BoundedLoop.loop (removeOldTradesBody now) fuel service).live =
      service.live := by
  induction fuel generalizing service with
  | zero => rfl
  | succ fuel ih =>
      cases hbody : removeOldTradesBody now service with
      | none =>
          rw [BoundedLoop.trail_of_exit _ hbody,
            BoundedLoop.loop_of_exit _ hbody]
          rfl
      | some next =>
          rcases hcoherent.live_of_removeOldTradesBody hnotFull hbody with
            ⟨hlive, hnext, hnextNotFull⟩
          rw [BoundedLoop.trail_succ_of_continue _ hbody,
            BoundedLoop.loop_succ_of_continue _ hbody, List.map_cons,
            List.cons_append, ih hnext hnextNotFull, hlive]
          rfl

theorem evictions_of_full {service : VWAPService} (hfull : service.Full)
    (now : UInt64) : evictions now service = [] := by
  apply BoundedLoop.trail_of_exit
  simp [removeOldTradesBody, hfull.1]

theorem evicted_append_live {service : VWAPService}
    (hcoherent : service.Coherent) (now : UInt64) :
    evicted now service ++ (service.removeOldTrades now).live =
      service.live := by
  by_cases hfull : service.Full
  · rw [evicted, evictions_of_full hfull, removeOldTrades_of_full hfull]
    rfl
  · exact trail_append_live hcoherent hfull now bufferSize

theorem Coherent.oldest_le {service : VWAPService}
    (hcoherent : service.Coherent) (hne : service.live ≠ []) :
    service.oldest.quantity.toNat ≤ service.totalQuantity.toNat := by
  rw [hcoherent.totalQuantity_eq, hcoherent.live_eq_cons hne,
    quantitySum_cons]
  exact Nat.le_add_right _ _

theorem Coherent.oldest_le_of_evictions {service : VWAPService}
    (hcoherent : service.Coherent) {now : UInt64} {state : VWAPService}
    (hstate : state ∈ evictions now service) :
    state.oldest.quantity.toNat ≤ state.totalQuantity.toNat := by
  by_cases hfull : service.Full
  · rw [evictions_of_full hfull] at hstate
    contradiction
  · have hstep : ∀ state next, state.Coherent ∧ ¬ state.Full →
        removeOldTradesBody now state = some next →
        next.Coherent ∧ ¬ next.Full := by
      rintro state next ⟨hreached, hnotFull⟩ hbody
      exact (hreached.live_of_removeOldTradesBody hnotFull hbody).2
    rcases BoundedLoop.trail_induction hstep ⟨hcoherent, hfull⟩ bufferSize
        state hstate with ⟨⟨hreached, hnotFull⟩, next, hbody⟩
    apply hreached.oldest_le
    rw [(hreached.live_of_removeOldTradesBody hnotFull hbody).1]
    exact List.cons_ne_nil _ _

/-! ## The updates of the totals -/

/-- The states in which a call takes the slot at `tail` out of the
totals. -/
def subtractions (service : VWAPService) : ServiceCall → List VWAPService
  | .getVWAP now => evictions now service
  | .handleTrade policy trade =>
      let service' := service.removeOldTrades trade.timestampNs
      evictions trade.timestampNs service ++
        if service'.Full ∧ policy = .overwriteOldest then [service'] else []

/-- The states in which a call adds its trade to the totals. -/
def additions (service : VWAPService) : ServiceCall → List VWAPService
  | .getVWAP _ => []
  | .handleTrade policy trade =>
      let service' := service.removeOldTrades trade.timestampNs
      if service'.Full then
        if policy = .overwriteOldest then [service'.removeOldestTrade]
        else []
      else [service']

theorem Coherent.subtraction_exact {service : VWAPService}
    (hcoherent : service.Coherent) {call : ServiceCall}
    {state : VWAPService} (hstate : state ∈ subtractions service call) :
    state.oldest.quantity.toNat ≤ state.totalQuantity.toNat := by
  cases call with
  | getVWAP now => exact hcoherent.oldest_le_of_evictions hstate
  | handleTrade policy trade =>
      rcases List.mem_append.mp hstate with hevicted | hoverwritten
      · exact hcoherent.oldest_le_of_evictions hevicted
      · split at hoverwritten
        next hguard =>
          rw [List.mem_singleton.mp hoverwritten]
          exact (hcoherent.removeOldTrades _).oldest_le
            (live_ne_nil_of_full hguard.1)
        next => contradiction

theorem Coherent.addition_exact {service : VWAPService}
    (hcoherent : service.Coherent) {call : ServiceCall}
    {state : VWAPService} (hstate : state ∈ additions service call)
    (trade : Trade) :
    state.totalQuantity.toNat + trade.quantity.toNat < 2 ^ 64 := by
  have hreached : state.Coherent := by
    cases call with
    | getVWAP now => contradiction
    | handleTrade policy trade =>
        have hevicted := hcoherent.removeOldTrades trade.timestampNs
        simp only [additions] at hstate
        split at hstate
        next hfull =>
          split at hstate
          next =>
            obtain ⟨oldest, rest, hlive⟩ :=
              List.exists_cons_of_ne_nil (live_ne_nil_of_full hfull)
            rw [List.mem_singleton.mp hstate, removeOldestTrade_of_full hfull]
            exact (hevicted.dropTail_spec hlive).2.2.1
          next => contradiction
        next =>
          rw [List.mem_singleton.mp hstate]
          exact hevicted
  have hsum := hreached.quantitySum_live_lt
  have hquantity := trade.quantity.toNat_lt
  rw [hreached.totalQuantity_eq]
  omega

/-- The representation of the service in every reachable state: the indices
and the sums, the exactness of every update of the total quantity in every
call, and what an eviction does. -/
theorem ring_representation (window : UInt64) (slots : ℕ → Trade)
    (calls : List ServiceCall) :
    let service := after window slots calls
    service.Coherent ∧
      (∀ call, ∀ state ∈ subtractions service call,
        state.oldest.quantity.toNat ≤ state.totalQuantity.toNat) ∧
      (∀ policy trade,
        ∀ state ∈ additions service (.handleTrade policy trade),
          state.totalQuantity.toNat + trade.quantity.toNat < 2 ^ 64) ∧
      ∀ now,
        evicted now service ++ (service.removeOldTrades now).live =
            service.live ∧
          (evictions now service).length ≤ 1024 ∧
          removeOldTradesBody now (service.removeOldTrades now) = none := by
  intro service
  have hcoherent : service.Coherent := after_coherent window slots calls
  refine ⟨hcoherent, ?_, ?_, ?_⟩
  · intro call state hstate
    exact hcoherent.subtraction_exact hstate
  · intro policy trade state hstate
    exact hcoherent.addition_exact hstate trade
  · intro now
    exact ⟨evicted_append_live hcoherent now,
      BoundedLoop.length_trail_le _ _ _,
      hcoherent.removeOldTrades_exits now⟩

/-! ## Premature eviction -/

/-- Eviction by ages taken as exact integers. -/
def evictExact (window now : UInt64) : List Trade → List Trade
  | [] => []
  | oldest :: rest =>
      if 0 < quantitySum (oldest :: rest) ∧ ¬ InWindow window now oldest then
        evictExact window now rest
      else oldest :: rest

/-- Some quantity is left and the oldest trade is stamped later than `now`,
by less than `2^64 - window`. -/
def FrontAhead (window now : UInt64) : List Trade → Prop
  | [] => False
  | oldest :: rest =>
      0 < quantitySum (oldest :: rest) ∧
        now.toNat < oldest.timestampNs.toNat ∧
        oldest.timestampNs.toNat - now.toNat + window.toNat < 2 ^ 64

theorem not_inWindow_iff {window now : UInt64} {trade : Trade} :
    ¬ InWindow window now trade ↔
      trade.timestampNs.toNat + window.toNat < now.toNat := by
  unfold InWindow
  omega

theorem expired_eq_true_iff {window now : UInt64} {trade : Trade} :
    expired window now trade = true ↔
      ¬ InWindow window now trade ∨
        now.toNat < trade.timestampNs.toNat ∧
          trade.timestampNs.toNat - now.toNat + window.toNat < 2 ^ 64 := by
  have hnow := now.toNat_lt
  have hstamp := trade.timestampNs.toNat_lt
  rw [not_inWindow_iff]
  simp only [expired, Bool.not_eq_true', decide_eq_false_iff_not,
    UInt64.le_iff_toNat_le, UInt64.toNat_sub]
  omega

/-- Eviction takes out only trades older than the window, exactly when the
trade at which exact eviction stops is not ahead of the reading. -/
theorem evict_mature_iff {window now : UInt64} {trades dropped : List Trade}
    (hsplit : dropped ++ evict window now trades = trades) :
    (∀ trade ∈ dropped, ¬ InWindow window now trade) ↔
      ¬ FrontAhead window now (evictExact window now trades) := by
  induction trades generalizing dropped with
  | nil =>
      rw [(List.append_eq_nil_iff.mp hsplit).1]
      simp [evictExact, FrontAhead]
  | cons first rest ih =>
      by_cases hguard : 0 < quantitySum (first :: rest) ∧
          expired window now first = true
      · rw [evict, if_pos hguard] at hsplit
        cases dropped with
        | nil =>
            have hlength := (evict_suffix window now rest).length_le
            have hsame := congrArg List.length hsplit
            simp only [List.nil_append, List.length_cons] at hsame
            omega
        | cons removed others =>
            rw [List.cons_append, List.cons.injEq] at hsplit
            rcases hsplit with ⟨rfl, hrest⟩
            rw [List.forall_mem_cons]
            by_cases hin : InWindow window now removed
            · have hahead := (expired_eq_true_iff.mp hguard.2).resolve_left
                (not_not_intro hin)
              rw [evictExact, if_neg (fun h => h.2 hin)]
              simp only [hin, not_true_eq_false, false_and, false_iff,
                not_not]
              exact ⟨hguard.1, hahead⟩
            · rw [evictExact, if_pos ⟨hguard.1, hin⟩, ← ih hrest]
              exact and_iff_right hin
      · rw [evict, if_neg hguard] at hsplit
        have hnone : dropped = [] := by
          simpa using congrArg List.length hsplit
        rw [hnone, evictExact, if_neg]
        · simp only [List.not_mem_nil, false_implies, implies_true, true_iff]
          rintro ⟨hpos, hahead⟩
          exact hguard ⟨hpos, expired_eq_true_iff.mpr (.inr hahead)⟩
        · rintro ⟨hpos, hout⟩
          exact hguard ⟨hpos, expired_eq_true_iff.mpr (.inl hout)⟩

theorem evicted_mature_iff {service : VWAPService}
    (hcoherent : service.Coherent) (now : UInt64) :
    (∀ trade ∈ evicted now service,
        trade.timestampNs.toNat + service.rollingWindowSizeMs.toNat <
          now.toNat) ↔
      service.Full ∨ ¬ FrontAhead service.rollingWindowSizeMs now
        (evictExact service.rollingWindowSizeMs now service.live) := by
  simp only [← not_inWindow_iff]
  by_cases hfull : service.Full
  · simp [evicted, evictions_of_full hfull, hfull]
  · have hsplit := evicted_append_live hcoherent now
    rcases hcoherent.removeOldTrades_spec hfull now with ⟨_, _, _, hlive⟩
    rw [hlive] at hsplit
    rw [evict_mature_iff hsplit]
    simp [hfull]

/-- A trade of quantity one, stamped one millisecond after the reading
`0`. -/
def aheadTrade : Trade where
  symbol := List.Vector.replicate 12 65
  timestampNs := 1
  quantity := 1
  price := 100
  aggressor := .unknown
  id := 0

theorem live_after_aheadTrade (window : UInt64) (slots : ℕ → Trade) :
    (after window slots [.handleTrade .overwriteOldest aheadTrade]).live =
      [aheadTrade] := by
  have hinitial := initial_coherent window slots
  have hroom : ¬ (initial window slots).Full := by
    simp [Full, initial]
  have hafter : after window slots
      [.handleTrade .overwriteOldest aheadTrade] =
        (initial window slots).addTrade aheadTrade := by
    simp [after, serve, handleTrade_of_fresh (.inl rfl) hroom]
  have hempty : (initial window slots).live = [] := rfl
  rw [hafter, hinitial.live_addTrade hroom, hempty]
  exact settle_of_lt (by simp [bufferSize])

theorem window_eq_max_of_mature {window : UInt64}
    (hmature : ∀ slots calls now,
      ∀ trade ∈ evicted now (after window slots calls),
        trade.timestampNs.toNat + window.toNat < now.toNat) :
    window.toNat = 2 ^ 64 - 1 := by
  by_contra hsmall
  have hbound := window.toNat_lt
  let slots : ℕ → Trade := fun _ => aheadTrade
  have hcoherent := after_coherent window slots
    [.handleTrade .overwriteOldest aheadTrade]
  have hlive := live_after_aheadTrade window slots
  have hstays := hmature slots [.handleTrade .overwriteOldest aheadTrade] 0
  have hwindow := after_window window slots
    [.handleTrade .overwriteOldest aheadTrade]
  have hmatured := evicted_mature_iff hcoherent 0
  rw [hwindow, hlive] at hmatured
  have hin : InWindow window 0 aheadTrade := by
    simp only [InWindow, aheadTrade, UInt64.toNat_zero, UInt64.toNat_one]
    omega
  rcases hmatured.mp hstays with hfull | hbehind
  · have hcount := liveCount_of_full hfull
    rw [← length_live, hlive] at hcount
    simp [bufferSize] at hcount
  · rw [evictExact, if_neg (fun h => h.2 hin)] at hbehind
    apply hbehind
    simp only [FrontAhead, aheadTrade, quantitySum_cons, quantitySum_nil,
      UInt64.toNat_zero, UInt64.toNat_one, UInt32.toNat_one]
    omega

/-- An eviction takes out only trades that are older than the window exactly
when the ring is full or no trade ahead of the reading is reached; and only
the largest window excludes such evictions from every run. -/
theorem no_premature_eviction_iff (window : UInt64) :
    (∀ slots calls now,
      let service := after window slots calls
      (∀ trade ∈ evicted now service,
          trade.timestampNs.toNat + window.toNat < now.toNat) ↔
        service.Full ∨
          ¬ FrontAhead window now (evictExact window now service.live)) ∧
    ((∀ slots calls now,
        ∀ trade ∈ evicted now (after window slots calls),
          trade.timestampNs.toNat + window.toNat < now.toNat) ↔
      window.toNat = 2 ^ 64 - 1) := by
  have hpoint : ∀ slots calls now,
      let service := after window slots calls
      (∀ trade ∈ evicted now service,
          trade.timestampNs.toNat + window.toNat < now.toNat) ↔
        service.Full ∨
          ¬ FrontAhead window now (evictExact window now service.live) := by
    intro slots calls now service
    have hmature := evicted_mature_iff (after_coherent window slots calls) now
    rwa [after_window window slots calls] at hmature
  refine ⟨hpoint, window_eq_max_of_mature, ?_⟩
  intro hmax slots calls now
  apply (hpoint slots calls now).mpr
  right
  cases evictExact window now (after window slots calls).live with
  | nil => exact not_false
  | cons front rest =>
      rintro ⟨_, hahead, hage⟩
      omega

/-- With a window of a second, a trade stamped five milliseconds after the
reading is evicted. -/
theorem later_trade_evicted :
    let trade := { aheadTrade with timestampNs := 2005 }
    let service := after 1000 (fun _ => aheadTrade)
      [.handleTrade .overwriteOldest trade]
    trade ∈ evicted 2000 service ∧
      ¬ trade.timestampNs.toNat + 1000 < (2000 : UInt64).toNat := by
  decide

end VWAPService

end Slipstream
