import Slipstream.VWAPAverage

/-!
# The overflow policies

The three policies differ on a full ring only.  There the call does not
evict, so rejecting and throwing leave the service as it was.  Overwriting
exchanges the oldest trade for the new one; when no quantity is left after
that, the ring reads as empty and all its trades are forgotten.
-/

namespace Slipstream
namespace VWAPService

section Full

variable {service : VWAPService}

theorem handleTrade_error_iff {policy : OverflowPolicy} {trade : Trade}
    (hcoherent : service.Coherent) :
    (∃ exception,
        (service.handleTrade policy trade).1 = .error exception) ↔
      policy = .throw ∧ service.Full := by
  by_cases hfull : service.Full
  · rw [handleTrade_of_full hfull]
    cases policy <;> simp [hfull]
  · rw [handleTrade_of_not_full hcoherent hfull]
    simp [hfull]

/-- Overwriting on a full ring drops the oldest trade and appends the new
one. -/
theorem live_overwriteOldest_of_full (hcoherent : service.Coherent)
    (hfull : service.Full) (trade : Trade) :
    (service.handleTrade .overwriteOldest trade).2.live =
      settle (service.live.tail ++ [trade]) := by
  obtain ⟨oldest, rest, hlive⟩ :=
    List.exists_cons_of_ne_nil (live_ne_nil_of_full hfull)
  rcases hcoherent.dropTail_spec hlive with ⟨_, hrest, hdropped, hnotFull⟩
  rw [handleTrade_of_full hfull]
  dsimp only
  rw [hdropped.live_addTrade hnotFull, hrest, hlive, List.tail_cons]

theorem length_tail_append_of_full (hfull : service.Full) (trade : Trade) :
    (service.live.tail ++ [trade]).length = bufferSize := by
  rw [List.length_append, List.length_tail, length_live,
    liveCount_of_full hfull]
  rfl

end Full

/-- In every reachable state: off a full ring the policies agree, on a full
ring each does what its name says, and only `THROW` throws. -/
theorem overflow_policies (window : UInt64) (slots : ℕ → Trade)
    (calls : List ServiceCall) (trade : Trade) :
    let service := after window slots calls
    (¬ service.Full → ∀ policy,
      service.handleTrade policy trade =
        (.ok (),
          (service.removeOldTrades trade.timestampNs).addTrade trade)) ∧
      (service.Full →
        service.live.length = 1024 ∧
        service.handleTrade .throw trade =
          (.error (.runtimeError "Buffer overflow"), service) ∧
        service.handleTrade .rejectNew trade = (.ok (), service) ∧
        ∃ overwritten,
          service.handleTrade .overwriteOldest trade =
              (.ok (), overwritten) ∧
            overwritten.live =
              if quantitySum (service.live.tail ++ [trade]) = 0 then []
              else service.live.tail ++ [trade]) ∧
      ∀ policy exception,
        (service.handleTrade policy trade).1 = .error exception →
          policy = .throw ∧ service.Full := by
  intro service
  have hcoherent : service.Coherent := after_coherent window slots calls
  refine ⟨fun hnotFull policy => ?_, fun hfull => ?_,
    fun policy exception herror => ?_⟩
  · exact handleTrade_of_not_full hcoherent hnotFull policy trade
  · have hoverwritten := live_overwriteOldest_of_full hcoherent hfull trade
    simp only [settle, length_tail_append_of_full hfull, true_and]
      at hoverwritten
    refine ⟨?_, handleTrade_of_full hfull .throw trade,
      handleTrade_of_full hfull .rejectNew trade,
      (service.handleTrade .overwriteOldest trade).2, ?_, hoverwritten⟩
    · rw [length_live, liveCount_of_full hfull]
      rfl
    · rw [handleTrade_of_full hfull]
  · exact (handleTrade_error_iff hcoherent).mp ⟨exception, herror⟩

/-! ## A ring that is forgotten -/

/-- A full ring whose oldest trade alone carries quantity. -/
def hollowTrades : List Trade :=
  sampleTrade 0 1 100 :: List.replicate 1023 (sampleTrade 0 0 100)

def hollowCalls : List ServiceCall :=
  hollowTrades.map (.handleTrade .overwriteOldest)

theorem live_after_hollowCalls (window : UInt64) (slots : ℕ → Trade) :
    (after window slots hollowCalls).live = hollowTrades := by
  have hstamps : ∀ trade ∈ hollowTrades, trade.timestampNs = 0 := by
    intro trade htrade
    rcases List.mem_cons.mp htrade with rfl | hempty
    · rfl
    · rw [List.eq_of_mem_replicate hempty]
      rfl
  have hlength : hollowTrades.length = bufferSize := by
    rw [hollowTrades, List.length_cons, List.length_replicate]
    rfl
  rw [hollowCalls, live_after_simultaneous window slots _ hstamps
    hlength.le, settle, if_neg]
  rintro ⟨_, hzero⟩
  have holdest : (sampleTrade 0 1 100).quantity.toNat = 1 := rfl
  rw [hollowTrades, quantitySum_cons, holdest] at hzero
  omega

/-- Overwriting the only trade of positive quantity by an empty one leaves
no live trade. -/
theorem overwrite_forgets_ring :
    let service := after 10 (fun _ => sampleTrade 0 0 0) hollowCalls
    service.Full ∧
      (service.handleTrade .overwriteOldest (sampleTrade 0 0 100)).2.live ≠
        service.live.tail ++ [sampleTrade 0 0 100] := by
  intro service
  have hcoherent : service.Coherent := after_coherent _ _ _
  have hlive : service.live = hollowTrades := live_after_hollowCalls _ _
  have hfull : service.Full := by
    rw [hcoherent.full_iff_liveCount, ← length_live, hlive, hollowTrades,
      List.length_cons, List.length_replicate]
    rfl
  refine ⟨hfull, ?_⟩
  have hempty : quantitySum (hollowTrades.tail ++ [sampleTrade 0 0 100]) =
      0 := by
    rw [quantitySum_eq_zero_iff, hollowTrades, List.tail_cons]
    intro trade htrade
    rcases List.mem_append.mp htrade with hold | hnew
    · rw [List.eq_of_mem_replicate hold]
      rfl
    · rw [List.mem_singleton.mp hnew]
      rfl
  have hlength := length_tail_append_of_full hfull (sampleTrade 0 0 100)
  rw [hlive] at hlength
  rw [live_overwriteOldest_of_full hcoherent hfull, hlive, settle,
    if_pos ⟨hlength, hempty⟩]
  simp

end VWAPService

end Slipstream
