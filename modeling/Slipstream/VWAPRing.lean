import Slipstream.CyclicSegment
import Slipstream.VWAPService

/-!
# The VWAP ring as a queue of trades

The abstract view of the service is a list of trades, oldest first.
Eviction drops expired trades from its old end as long as some quantity is
left, and a new trade joins at the young end.  The ring refines this queue
as long as the overflow test does not hold; a full ring is never evicted
from, because the eviction loop reads coinciding indices as an empty ring.

One more event separates the ring from a plain queue: a ring filled with
trades of quantity zero is indistinguishable from an empty one and is
forgotten.  Both running totals survive this, because the forgotten trades
contribute nothing to them.
-/

namespace Slipstream
namespace VWAPService

open CyclicSegment

/-! ## The abstract queue -/

/-- Drop expired trades from the old end while some quantity is left. -/
def evict (rollingWindowSizeMs now : UInt64) : List Trade → List Trade
  | [] => []
  | oldest :: rest =>
      if 0 < quantitySum (oldest :: rest) ∧
          expired rollingWindowSizeMs now oldest then
        evict rollingWindowSizeMs now rest
      else oldest :: rest

/-- A ring filled with trades of quantity zero reads as empty. -/
def settle (trades : List Trade) : List Trade :=
  if trades.length = bufferSize ∧ quantitySum trades = 0 then []
  else trades

theorem evict_split (window now : UInt64) (trades : List Trade) :
    ∃ dropped, trades = dropped ++ evict window now trades ∧
      ∀ trade ∈ dropped, expired window now trade = true := by
  induction trades with
  | nil => exact ⟨[], rfl, by simp⟩
  | cons oldest rest ih =>
      by_cases hguard : 0 < quantitySum (oldest :: rest) ∧
          expired window now oldest = true
      · rcases ih with ⟨dropped, hsplit, hdropped⟩
        refine ⟨oldest :: dropped, ?_, ?_⟩
        · rw [evict, if_pos hguard, List.cons_append, ← hsplit]
        · intro trade htrade
          rcases List.mem_cons.mp htrade with rfl | hmem
          · exact hguard.2
          · exact hdropped trade hmem
      · exact ⟨[], by rw [evict, if_neg hguard]; rfl, by simp⟩

theorem evict_suffix (window now : UInt64) (trades : List Trade) :
    evict window now trades <:+ trades := by
  obtain ⟨dropped, hsplit, _⟩ := evict_split window now trades
  exact ⟨dropped, hsplit.symm⟩

theorem quantitySum_eq_zero_or_front_not_expired
    {window now : UInt64} {trades : List Trade}
    {oldest : Trade} {rest : List Trade}
    (hevict : evict window now trades = oldest :: rest) :
    quantitySum (oldest :: rest) = 0 ∨
      expired window now oldest = false := by
  induction trades with
  | nil => simp [evict] at hevict
  | cons first others ih =>
      rw [evict] at hevict
      split at hevict
      next => exact ih hevict
      next hguard =>
        rw [← hevict]
        injection hevict with hfirst hothers
        subst hfirst
        by_cases hzero : quantitySum (first :: others) = 0
        · exact Or.inl hzero
        · right
          have hpos := Nat.pos_of_ne_zero hzero
          simpa only [hpos, true_and, Bool.not_eq_true] using hguard

theorem settle_of_lt {trades : List Trade}
    (hlength : trades.length < bufferSize) : settle trades = trades := by
  unfold settle
  rw [if_neg]
  intro h
  omega

@[simp] theorem quantitySum_settle (trades : List Trade) :
    quantitySum (settle trades) = quantitySum trades := by
  unfold settle
  split
  next h => simp [h.2]
  next => rfl

@[simp] theorem pricedSum_settle (trades : List Trade) :
    pricedSum (settle trades) = pricedSum trades := by
  unfold settle
  split
  next h => simp [pricedSum_eq_zero_of_quantitySum_eq_zero h.2]
  next => rfl

theorem settle_suffix (trades : List Trade) : settle trades <:+ trades := by
  unfold settle
  split
  next => exact List.nil_suffix
  next => exact List.suffix_refl trades

/-! ## Reading the queue out of the ring -/

def liveCount (service : VWAPService) : ℕ :=
  if service.head = service.tail then
    if service.totalQuantity = 0 then 0 else bufferSize
  else gap bufferSize service.tail service.head

/-- The trades counted in the totals, oldest first. -/
def live (service : VWAPService) : List Trade :=
  segment bufferSize service.trades service.tail service.liveCount

/-- The indices are in range and both totals are the sums over the live
trades, the first exactly and the second modulo `2^128`. -/
structure Coherent (service : VWAPService) : Prop where
  head_lt : service.head < bufferSize
  tail_lt : service.tail < bufferSize
  totalQuantity_eq :
    service.totalQuantity.toNat = quantitySum service.live
  totalPricedQuantity_eq :
    service.totalPricedQuantity = BitVec.ofInt 128 (pricedSum service.live)

theorem initial_coherent (window : UInt64) (slots : ℕ → Trade) :
    (initial window slots).Coherent where
  head_lt := by simp [initial, bufferSize]
  tail_lt := by simp [initial, bufferSize]
  totalQuantity_eq := rfl
  totalPricedQuantity_eq := rfl

theorem pricedQuantity128_eq (trade : Trade) :
    pricedQuantity128 trade = BitVec.ofInt 128 trade.pricedQuantity := by
  unfold pricedQuantity128 Trade.pricedQuantity
  rw [BitVec.ofInt_mul, BitVec.ofInt_natCast]

theorem not_pos_iff_eq_zero (quantity : UInt64) :
    ¬ quantity > 0 ↔ quantity = 0 := by
  rw [gt_iff_lt, UInt64.lt_iff_toNat_lt, ← UInt64.toNat_inj]
  simp

theorem liveCount_of_not_full {service : VWAPService}
    (hnotFull : ¬ service.Full) :
    service.liveCount = gap bufferSize service.tail service.head := by
  unfold liveCount
  split
  next heq =>
    have hzero : service.totalQuantity = 0 := by
      rw [← not_pos_iff_eq_zero]
      exact fun hpos => hnotFull ⟨heq, hpos⟩
    simp [hzero, heq, gap]
  next => rfl

theorem liveCount_of_full {service : VWAPService} (hfull : service.Full) :
    service.liveCount = bufferSize := by
  have hpos : service.totalQuantity ≠ 0 := by
    rw [ne_eq, ← not_pos_iff_eq_zero]
    exact fun hnot => hnot hfull.2
  simp [liveCount, hfull.1, hpos]

@[simp] theorem length_live (service : VWAPService) :
    service.live.length = service.liveCount := by
  simp [live]

theorem removeOldTradesBody_eq_some {now : UInt64}
    {service next : VWAPService}
    (hbody : removeOldTradesBody now service = some next) :
    (service.head ≠ service.tail ∧ service.totalQuantity > 0) ∧
      expired service.rollingWindowSizeMs now
        (service.trades service.tail) = true ∧
      service.dropTail = next := by
  unfold removeOldTradesBody at hbody
  split at hbody
  next hguard =>
    split at hbody
    next hexpired => exact ⟨hguard, hexpired, Option.some.inj hbody⟩
    next => contradiction
  next => contradiction

namespace Coherent

variable {service : VWAPService}

theorem liveCount_lt_of_not_full (hcoherent : service.Coherent)
    (hnotFull : ¬ service.Full) : service.liveCount < bufferSize := by
  rw [liveCount_of_not_full hnotFull]
  exact gap_lt hcoherent.tail_lt hcoherent.head_lt

theorem full_iff_liveCount (hcoherent : service.Coherent) :
    service.Full ↔ service.liveCount = bufferSize := by
  constructor
  · exact liveCount_of_full
  · intro hcount
    by_contra hnotFull
    have hlt := hcoherent.liveCount_lt_of_not_full hnotFull
    omega

theorem liveCount_le (hcoherent : service.Coherent) :
    service.liveCount ≤ bufferSize := by
  by_cases hfull : service.Full
  · exact (liveCount_of_full hfull).le
  · exact (hcoherent.liveCount_lt_of_not_full hfull).le

theorem totalQuantity_eq_zero_iff (hcoherent : service.Coherent) :
    service.totalQuantity = 0 ↔ quantitySum service.live = 0 := by
  rw [← UInt64.toNat_inj, hcoherent.totalQuantity_eq]
  rfl

theorem totalQuantity_pos_iff (hcoherent : service.Coherent) :
    service.totalQuantity > 0 ↔ 0 < quantitySum service.live := by
  rw [gt_iff_lt, UInt64.lt_iff_toNat_lt, hcoherent.totalQuantity_eq]
  rfl

theorem quantitySum_live_lt (hcoherent : service.Coherent) :
    quantitySum service.live < 2 ^ 43 := by
  have hsum := quantitySum_le service.live
  have hcount := hcoherent.liveCount_le
  rw [length_live] at hsum
  unfold bufferSize at hcount
  omega

theorem liveCount_eq_succ (hcoherent : service.Coherent)
    (hne : service.live ≠ []) :
    service.liveCount =
      gap bufferSize ((service.tail + 1) % bufferSize) service.head + 1 := by
  by_cases hfull : service.Full
  · rw [liveCount_of_full hfull, hfull.1,
      gap_next_start_self hcoherent.tail_lt (by simp [bufferSize])]
  · have hcount := liveCount_of_not_full hfull
    have hpos : service.liveCount ≠ 0 := by
      rw [← length_live]
      exact fun hzero => hne (List.length_eq_zero_iff.mp hzero)
    have hindices : service.tail ≠ service.head := by
      rw [ne_eq, ← gap_eq_zero_iff hcoherent.tail_lt, ← hcount]
      exact hpos
    rw [hcount,
      gap_next_start hcoherent.tail_lt hcoherent.head_lt hindices]

theorem live_eq_cons (hcoherent : service.Coherent)
    (hne : service.live ≠ []) :
    service.live = service.trades service.tail ::
      segment bufferSize service.trades ((service.tail + 1) % bufferSize)
        (gap bufferSize ((service.tail + 1) % bufferSize) service.head) := by
  unfold live
  rw [hcoherent.liveCount_eq_succ hne, segment_succ]

theorem dropTail_spec (hcoherent : service.Coherent)
    {oldest : Trade} {rest : List Trade}
    (hlive : service.live = oldest :: rest) :
    service.trades service.tail = oldest ∧
      service.dropTail.live = rest ∧
      service.dropTail.Coherent ∧ ¬ service.dropTail.Full := by
  have hcons := hcoherent.live_eq_cons (by simp [hlive])
  rw [hlive] at hcons
  injection hcons with holdest hrest
  have htailLt : (service.tail + 1) % bufferSize < bufferSize :=
    Nat.mod_lt _ (by simp [bufferSize])
  have hquantity : service.dropTail.totalQuantity.toNat =
      quantitySum rest := by
    have htotal := hcoherent.totalQuantity_eq
    rw [hlive, quantitySum_cons] at htotal
    simp only [dropTail, ← holdest]
    rw [UInt64.toNat_sub_of_le, UInt32.toNat_toUInt64]
    · omega
    · rw [UInt64.le_iff_toNat_le, UInt32.toNat_toUInt64]
      omega
  have hpriced : service.dropTail.totalPricedQuantity =
      BitVec.ofInt 128 (pricedSum rest) := by
    simp only [dropTail, ← holdest]
    rw [hcoherent.totalPricedQuantity_eq, hlive, pricedSum_cons,
      BitVec.ofInt_add, pricedQuantity128_eq, BitVec.add_comm,
      BitVec.add_sub_cancel]
  have hnotFull : ¬ service.dropTail.Full := by
    rintro ⟨hsame, hpos⟩
    have hzero : gap bufferSize ((service.tail + 1) % bufferSize)
        service.head = 0 :=
      (gap_eq_zero_iff htailLt).mpr hsame.symm
    rw [hzero, segment_zero] at hrest
    rw [gt_iff_lt, UInt64.lt_iff_toNat_lt, hquantity, hrest] at hpos
    simp at hpos
  have hliveRest : service.dropTail.live = rest := by
    unfold live
    rw [liveCount_of_not_full hnotFull]
    exact hrest.symm
  refine ⟨holdest.symm, hliveRest, ⟨hcoherent.head_lt, htailLt, ?_, ?_⟩,
    hnotFull⟩
  · rw [hquantity, hliveRest]
  · rw [hpriced, hliveRest]

theorem addTrade_totalQuantity (hcoherent : service.Coherent)
    (trade : Trade) :
    (service.addTrade trade).totalQuantity.toNat =
      quantitySum (service.live ++ [trade]) := by
  have hsum := hcoherent.quantitySum_live_lt
  have htrade := trade.quantity.toNat_lt
  simp only [addTrade, UInt64.toNat_add, UInt32.toNat_toUInt64,
    hcoherent.totalQuantity_eq, quantitySum_append, quantitySum_cons,
    quantitySum_nil]
  omega

theorem addTrade_totalPricedQuantity (hcoherent : service.Coherent)
    (trade : Trade) :
    (service.addTrade trade).totalPricedQuantity =
      BitVec.ofInt 128 (pricedSum (service.live ++ [trade])) := by
  simp only [addTrade, hcoherent.totalPricedQuantity_eq,
    pricedQuantity128_eq, pricedSum_append, pricedSum_cons,
    pricedSum_nil, BitVec.ofInt_add, add_zero]

theorem addTrade_cells (hcoherent : service.Coherent)
    (hnotFull : ¬ service.Full) (trade : Trade) :
    segment bufferSize (service.addTrade trade).trades
        (service.addTrade trade).tail (service.liveCount + 1) =
      service.live ++ [trade] := by
  have hcountLt := hcoherent.liveCount_lt_of_not_full hnotFull
  have hhead : (service.tail + service.liveCount) % bufferSize =
      service.head := by
    rw [liveCount_of_not_full hnotFull]
    exact start_add_gap hcoherent.tail_lt hcoherent.head_lt
  simp only [addTrade, ← hhead]
  exact segment_push hcoherent.tail_lt hcountLt service.trades trade

theorem addTrade_gap (hcoherent : service.Coherent)
    (hnotFull : ¬ service.Full) (trade : Trade) :
    gap bufferSize (service.addTrade trade).tail
        (service.addTrade trade).head =
      if service.liveCount + 1 < bufferSize
      then service.liveCount + 1 else 0 := by
  rw [liveCount_of_not_full hnotFull]
  exact gap_next_stop hcoherent.tail_lt hcoherent.head_lt

theorem live_addTrade (hcoherent : service.Coherent)
    (hnotFull : ¬ service.Full) (trade : Trade) :
    (service.addTrade trade).live = settle (service.live ++ [trade]) := by
  have hgap := hcoherent.addTrade_gap hnotFull trade
  have hcells := hcoherent.addTrade_cells hnotFull trade
  have hcountLt := hcoherent.liveCount_lt_of_not_full hnotFull
  have htailLt : (service.addTrade trade).tail < bufferSize :=
    hcoherent.tail_lt
  by_cases hroom : service.liveCount + 1 < bufferSize
  · rw [if_pos hroom] at hgap
    have hcount : (service.addTrade trade).liveCount =
        service.liveCount + 1 := by
      have hindices : (service.addTrade trade).head ≠
          (service.addTrade trade).tail := by
        intro hsame
        rw [hsame, (gap_eq_zero_iff htailLt).mpr rfl] at hgap
        omega
      rw [liveCount, if_neg hindices, hgap]
    rw [settle_of_lt (by simpa using hroom), live, hcount, hcells]
  · rw [if_neg hroom] at hgap
    have hindices := ((gap_eq_zero_iff htailLt).mp hgap).symm
    have hlast : bufferSize = service.liveCount + 1 := by omega
    have htotal : (service.addTrade trade).totalQuantity = 0 ↔
        quantitySum (service.live ++ [trade]) = 0 := by
      rw [← UInt64.toNat_inj, hcoherent.addTrade_totalQuantity]
      rfl
    by_cases hzero : quantitySum (service.live ++ [trade]) = 0
    · have hcount : (service.addTrade trade).liveCount = 0 := by
        rw [liveCount, if_pos hindices, if_pos (htotal.mpr hzero)]
      rw [live, hcount, settle, if_pos ⟨by simp [hlast], hzero⟩]
      rfl
    · have hcount : (service.addTrade trade).liveCount =
          service.liveCount + 1 := by
        rw [liveCount, if_pos hindices,
          if_neg (fun h => hzero (htotal.mp h)), hlast]
      rw [live, hcount, hcells, settle, if_neg (fun h => hzero h.2)]

theorem addTrade (hcoherent : service.Coherent)
    (hnotFull : ¬ service.Full) (trade : Trade) :
    (service.addTrade trade).Coherent where
  head_lt := Nat.mod_lt _ (by simp [bufferSize])
  tail_lt := hcoherent.tail_lt
  totalQuantity_eq := by
    rw [hcoherent.addTrade_totalQuantity,
      hcoherent.live_addTrade hnotFull, quantitySum_settle]
  totalPricedQuantity_eq := by
    rw [hcoherent.addTrade_totalPricedQuantity,
      hcoherent.live_addTrade hnotFull, pricedSum_settle]

/-- The loop guard holds exactly when some quantity is counted and the ring
is not full. -/
theorem loopGuard_iff (hcoherent : service.Coherent)
    (hnotFull : ¬ service.Full) :
    (service.head ≠ service.tail ∧ service.totalQuantity > 0) ↔
      0 < quantitySum service.live := by
  rw [← hcoherent.totalQuantity_pos_iff]
  constructor
  · exact fun hguard => hguard.2
  · exact fun hpos => ⟨fun hsame => hnotFull ⟨hsame, hpos⟩, hpos⟩

/-- An iteration of the loop takes the oldest live trade out. -/
theorem live_of_removeOldTradesBody (hcoherent : service.Coherent)
    (hnotFull : ¬ service.Full) {now : UInt64} {next : VWAPService}
    (hbody : removeOldTradesBody now service = some next) :
    service.live = service.trades service.tail :: next.live ∧
      next.Coherent ∧ ¬ next.Full := by
  rcases removeOldTradesBody_eq_some hbody with ⟨hguard, _, rfl⟩
  have hpos := (hcoherent.loopGuard_iff hnotFull).mp hguard
  cases hlive : service.live with
  | nil => simp [hlive] at hpos
  | cons oldest rest =>
      rcases hcoherent.dropTail_spec hlive with
        ⟨holdest, hrest, hdropped, hdroppedNotFull⟩
      rw [holdest, hrest]
      exact ⟨rfl, hdropped, hdroppedNotFull⟩

theorem removeOldTradesBody_some (hcoherent : service.Coherent)
    (hnotFull : ¬ service.Full) {now : UInt64} {next : VWAPService}
    (hbody : removeOldTradesBody now service = some next) :
    (next.Coherent ∧ ¬ next.Full ∧
      next.rollingWindowSizeMs = service.rollingWindowSizeMs ∧
      evict service.rollingWindowSizeMs now next.live =
        evict service.rollingWindowSizeMs now service.live) ∧
    next.live.length < service.live.length := by
  rcases hcoherent.live_of_removeOldTradesBody hnotFull hbody with
    ⟨hlive, hnext, hnextNotFull⟩
  rcases removeOldTradesBody_eq_some hbody with ⟨hguard, hexpired, rfl⟩
  have hpos := (hcoherent.loopGuard_iff hnotFull).mp hguard
  rw [hlive] at hpos
  rw [hlive]
  refine ⟨⟨hnext, hnextNotFull, rfl, ?_⟩, ?_⟩
  · rw [evict, if_pos ⟨hpos, hexpired⟩]
  · rw [List.length_cons]
    exact Nat.lt_succ_self _

theorem evict_eq_self_of_exit (hcoherent : service.Coherent)
    (hnotFull : ¬ service.Full) {now : UInt64}
    (hexit : removeOldTradesBody now service = none) :
    evict service.rollingWindowSizeMs now service.live = service.live := by
  cases hlive : service.live with
  | nil => rfl
  | cons oldest rest =>
      rcases hcoherent.dropTail_spec hlive with ⟨holdest, _⟩
      rw [evict, if_neg]
      rintro ⟨hpos, hexpired⟩
      rw [← hlive] at hpos
      have hguard := (hcoherent.loopGuard_iff hnotFull).mpr hpos
      rw [removeOldTradesBody, if_pos hguard, holdest,
        if_pos hexpired] at hexit
      contradiction

/-- The loop is left by its own tests, never because the fuel ran out. -/
theorem removeOldTrades_exits (hcoherent : service.Coherent)
    (now : UInt64) :
    removeOldTradesBody now (service.removeOldTrades now) = none := by
  by_cases hfull : service.Full
  · have hexit : removeOldTradesBody now service = none := by
      simp [removeOldTradesBody, hfull.1]
    rwa [removeOldTrades, BoundedLoop.loop_of_exit _ hexit]
  · have hstep : ∀ state next, state.Coherent ∧ ¬ state.Full →
        removeOldTradesBody now state = some next →
        (next.Coherent ∧ ¬ next.Full) ∧
          next.live.length < state.live.length := by
      rintro state next ⟨hstate, hnotFull⟩ hbody
      rcases hstate.removeOldTradesBody_some hnotFull hbody with
        ⟨⟨hnext, hnextNotFull, _⟩, hshorter⟩
      exact ⟨⟨hnext, hnextNotFull⟩, hshorter⟩
    have hfuel : service.live.length ≤ bufferSize := by
      rw [length_live]
      exact hcoherent.liveCount_le
    exact BoundedLoop.loop_exits hstep ⟨hcoherent, hfull⟩ hfuel

/-- Eviction on a ring that is not full. -/
theorem removeOldTrades_spec (hcoherent : service.Coherent)
    (hnotFull : ¬ service.Full) (now : UInt64) :
    (service.removeOldTrades now).Coherent ∧
      ¬ (service.removeOldTrades now).Full ∧
      (service.removeOldTrades now).rollingWindowSizeMs =
        service.rollingWindowSizeMs ∧
      (service.removeOldTrades now).live =
        evict service.rollingWindowSizeMs now service.live := by
  let window := service.rollingWindowSizeMs
  let Reached (state : VWAPService) : Prop :=
    state.Coherent ∧ ¬ state.Full ∧ state.rollingWindowSizeMs = window ∧
      evict window now state.live = evict window now service.live
  have hstep : ∀ state next, Reached state →
      removeOldTradesBody now state = some next → Reached next := by
    rintro state next ⟨hstate, hstateNotFull, hwindow, hevict⟩ hbody
    rcases hstate.removeOldTradesBody_some hstateNotFull hbody with
      ⟨⟨hnext, hnextNotFull, hsame, hrest⟩, _⟩
    rw [hwindow] at hrest
    exact ⟨hnext, hnextNotFull, hsame.trans hwindow, hrest.trans hevict⟩
  have hinit : Reached service := ⟨hcoherent, hnotFull, rfl, rfl⟩
  obtain ⟨hfinal, hfinalNotFull, hwindow, hevict⟩ :
      Reached (service.removeOldTrades now) :=
    BoundedLoop.loop_induction hstep hinit bufferSize
  have hexit := hcoherent.removeOldTrades_exits now
  refine ⟨hfinal, hfinalNotFull, hwindow, ?_⟩
  rw [← hevict, ← hwindow]
  exact (hfinal.evict_eq_self_of_exit hfinalNotFull hexit).symm

end Coherent

theorem removeOldTrades_of_fresh {service : VWAPService} {now : UInt64}
    (hfresh : service.head = service.tail ∨
      (service.trades service.tail).timestampNs = now) :
    service.removeOldTrades now = service := by
  apply BoundedLoop.loop_of_exit
  rcases hfresh with hempty | hstamp
  · simp [removeOldTradesBody, hempty]
  · simp [removeOldTradesBody, expired, hstamp]

theorem removeOldTrades_of_full {service : VWAPService}
    (hfull : service.Full) (now : UInt64) :
    service.removeOldTrades now = service :=
  removeOldTrades_of_fresh (.inl hfull.1)

theorem removeOldTrades_window (service : VWAPService) (now : UInt64) :
    (service.removeOldTrades now).rollingWindowSizeMs =
      service.rollingWindowSizeMs := by
  apply BoundedLoop.loop_induction
    (motive := fun state : VWAPService =>
      state.rollingWindowSizeMs = service.rollingWindowSizeMs)
  · intro state next hstate hbody
    rcases removeOldTradesBody_eq_some hbody with ⟨_, _, rfl⟩
    exact hstate
  · rfl

/-! ## The operations -/

theorem handleTrade_of_not_full {service : VWAPService}
    (hcoherent : service.Coherent) (hnotFull : ¬ service.Full)
    (policy : OverflowPolicy) (trade : Trade) :
    service.handleTrade policy trade =
      (.ok (),
        (service.removeOldTrades trade.timestampNs).addTrade trade) := by
  rcases hcoherent.removeOldTrades_spec hnotFull trade.timestampNs with
    ⟨_, hevicted, _⟩
  simp only [handleTrade, if_neg hevicted]

theorem handleTrade_of_fresh {service : VWAPService} {trade : Trade}
    (hfresh : service.head = service.tail ∨
      (service.trades service.tail).timestampNs = trade.timestampNs)
    (hroom : ¬ service.Full) (policy : OverflowPolicy) :
    service.handleTrade policy trade = (.ok (), service.addTrade trade) := by
  simp only [handleTrade, removeOldTrades_of_fresh hfresh, if_neg hroom]

theorem removeOldestTrade_of_full {service : VWAPService}
    (hfull : service.Full) :
    service.removeOldestTrade = service.dropTail := by
  have hnonempty : ¬ (service.head = service.tail ∧
      service.totalQuantity = 0) := by
    rintro ⟨_, hzero⟩
    exact (not_pos_iff_eq_zero _).mpr hzero hfull.2
  rw [removeOldestTrade, if_neg hnonempty]

/-- A full ring is not evicted from before the policy is applied. -/
theorem handleTrade_of_full {service : VWAPService}
    (hfull : service.Full) (policy : OverflowPolicy) (trade : Trade) :
    service.handleTrade policy trade =
      match policy with
      | .rejectNew => (.ok (), service)
      | .overwriteOldest => (.ok (), service.dropTail.addTrade trade)
      | .throw => (.error (.runtimeError "Buffer overflow"), service) := by
  have holdest := removeOldestTrade_of_full hfull
  unfold handleTrade
  rw [removeOldTrades_of_full hfull]
  cases policy with
  | rejectNew =>
      dsimp only
      rw [if_pos hfull]
  | overwriteOldest =>
      dsimp only
      rw [if_pos hfull, holdest]
  | throw =>
      dsimp only
      rw [if_pos hfull]

theorem live_ne_nil_of_full {service : VWAPService}
    (hfull : service.Full) : service.live ≠ [] := by
  intro hnil
  have hlength := congrArg List.length hnil
  rw [length_live, liveCount_of_full hfull] at hlength
  simp [bufferSize] at hlength

theorem Coherent.handleTrade {service : VWAPService}
    (hcoherent : service.Coherent) (policy : OverflowPolicy)
    (trade : Trade) : (service.handleTrade policy trade).2.Coherent := by
  by_cases hfull : service.Full
  · rw [handleTrade_of_full hfull]
    cases policy with
    | rejectNew => exact hcoherent
    | throw => exact hcoherent
    | overwriteOldest =>
        obtain ⟨oldest, rest, hlive⟩ :=
          List.exists_cons_of_ne_nil (live_ne_nil_of_full hfull)
        rcases hcoherent.dropTail_spec hlive with ⟨_, _, hdropped, hnotFull⟩
        exact hdropped.addTrade hnotFull trade
  · rw [handleTrade_of_not_full hcoherent hfull]
    rcases hcoherent.removeOldTrades_spec hfull trade.timestampNs with
      ⟨hevicted, hnotFull, _⟩
    exact hevicted.addTrade hnotFull trade

theorem getVWAP_snd (service : VWAPService) (now : UInt64) :
    (service.getVWAP now).2 = service.removeOldTrades now := by
  unfold getVWAP
  dsimp only
  split <;> rfl

theorem getVWAP_eq_zero_of_free {service : VWAPService} {now : UInt64}
    (hfresh : service.head = service.tail ∨
      (service.trades service.tail).timestampNs = now)
    (hfree : service.totalPricedQuantity = 0) :
    (service.getVWAP now).1 = 0 := by
  rw [getVWAP, removeOldTrades_of_fresh hfresh]
  simp [quotient, hfree]

theorem Coherent.removeOldTrades {service : VWAPService}
    (hcoherent : service.Coherent) (now : UInt64) :
    (service.removeOldTrades now).Coherent := by
  by_cases hfull : service.Full
  · rwa [removeOldTrades_of_full hfull]
  · exact (hcoherent.removeOldTrades_spec hfull now).1

theorem Coherent.serve {service : VWAPService}
    (hcoherent : service.Coherent) (call : ServiceCall) :
    (serve service call).1.Coherent := by
  cases call with
  | handleTrade policy trade => exact hcoherent.handleTrade policy trade
  | getVWAP now =>
      rw [VWAPService.serve, getVWAP_snd]
      exact hcoherent.removeOldTrades now

theorem after_coherent (window : UInt64) (slots : ℕ → Trade)
    (calls : List ServiceCall) : (after window slots calls).Coherent :=
  RunHistory.exec_invariant VWAPService.serve
    (fun _ call hcoherent => hcoherent.serve call)
    (initial_coherent window slots) calls

end VWAPService

end Slipstream
