import Slipstream.ExecutionLedger

/-!
# Readiness as a condition on the history

The engine keeps a quote counter, the reading of the clock at its first
quote and a latch that is never released.  Over a run with fewer than `2^32`
quotes and a steady clock these three amount to one condition on the calls
so far: ten quotes, and a full window since the first of them.
-/

namespace Slipstream
namespace ExecutionEngine

def EngineCall.quoteReading? : EngineCall → Option UInt64
  | .onQuoteReceived now => some now
  | _ => none

/-- The reading of the steady clock in milliseconds during the call. -/
def EngineCall.reading? : EngineCall → Option UInt64
  | .onQuoteReceived now => some now
  | .handleTrade _ clock _ => some clock.steadyMs
  | _ => none

def quoteReadings (calls : List EngineCall) : List UInt64 :=
  calls.filterMap EngineCall.quoteReading?

def readings (calls : List EngineCall) : List UInt64 :=
  calls.filterMap EngineCall.reading?

/-- The clock does not run backwards along the calls. -/
def Steady (calls : List EngineCall) : Prop :=
  (readings calls).Pairwise (· ≤ ·)

/-- Ten quotes were received, and the window has passed since the first. -/
def PlainlyReady (window : UInt64) (calls : List EngineCall)
    (now : UInt64) : Prop :=
  10 ≤ (quoteReadings calls).length ∧
    ∃ first, (quoteReadings calls).head? = some first ∧
      (now.toNat : ℤ) - first.toNat ≥ window.toNat

section History

variable {window now : UInt64} {calls : List EngineCall}

theorem quoteReadings_concat (calls : List EngineCall)
    (call : EngineCall) :
    quoteReadings (calls ++ [call]) =
      quoteReadings calls ++ call.quoteReading?.toList := by
  unfold quoteReadings
  rw [List.filterMap_append]
  cases hreading : call.quoteReading? <;> simp [hreading]

theorem readings_concat (calls : List EngineCall) (call : EngineCall) :
    readings (calls ++ [call]) = readings calls ++ call.reading?.toList := by
  unfold readings
  rw [List.filterMap_append]
  cases hreading : call.reading? <;> simp [hreading]

theorem mem_readings_of_mem_quoteReadings {reading : UInt64}
    (hmem : reading ∈ quoteReadings calls) : reading ∈ readings calls := by
  obtain ⟨call, hcall, hreading⟩ := List.mem_filterMap.mp hmem
  refine List.mem_filterMap.mpr ⟨call, hcall, ?_⟩
  cases call <;> simp_all [EngineCall.quoteReading?, EngineCall.reading?]

theorem length_quoteReadings_le_concat (calls : List EngineCall)
    (call : EngineCall) :
    (quoteReadings calls).length ≤
      (quoteReadings (calls ++ [call])).length := by
  rw [quoteReadings_concat, List.length_append]
  exact Nat.le_add_right _ _

theorem PlainlyReady.later (hready : PlainlyReady window calls now)
    {later : UInt64} (hle : now ≤ later) :
    PlainlyReady window calls later := by
  rcases hready with ⟨hcount, first, hfirst, hpassed⟩
  rw [UInt64.le_iff_toNat_le] at hle
  exact ⟨hcount, first, hfirst, by omega⟩

theorem PlainlyReady.concat (hready : PlainlyReady window calls now)
    (call : EngineCall) : PlainlyReady window (calls ++ [call]) now := by
  rcases hready with ⟨hcount, first, hfirst, hpassed⟩
  refine ⟨hcount.trans (length_quoteReadings_le_concat calls call), first,
    ?_, hpassed⟩
  rw [quoteReadings_concat, List.head?_append, hfirst]
  rfl

end History

/-- What the counter, the first reading and the latch say about the calls so
far. -/
structure Warmth (config : Config) (calls : List EngineCall)
    (engine : ExecutionEngine) : Prop where
  window : engine.vwapWindowMs = config.vwapWindowMs
  count : engine.quotesReceived.toNat = (quoteReadings calls).length
  first : ∀ reading, (quoteReadings calls).head? = some reading →
    engine.timestampStarted = reading
  latch : engine.tradingStarted = true →
    10 ≤ (quoteReadings calls).length ∧
      ∀ now, (∀ reading ∈ readings calls, reading ≤ now) →
        PlainlyReady config.vwapWindowMs calls now

namespace Warmth

variable {config : Config} {calls : List EngineCall}
  {engine : ExecutionEngine}

theorem plain_tests_iff (hwarmth : Warmth config calls engine)
    {now : UInt64} (hpast : ∀ reading ∈ readings calls, reading ≤ now) :
    (engine.quotesReceived ≥ minQuotesRequired ∧
        engine.getElapsedTimeMs now ≥ engine.vwapWindowMs) ↔
      PlainlyReady config.vwapWindowMs calls now := by
  have hten : engine.quotesReceived ≥ minQuotesRequired ↔
      10 ≤ (quoteReadings calls).length := by
    rw [ge_iff_le, UInt32.le_iff_toNat_le, hwarmth.count]
    rfl
  rw [hten, PlainlyReady]
  refine and_congr_right fun hcount => ?_
  obtain ⟨first, rest, hreadings⟩ :=
    List.exists_cons_of_length_pos (by omega : 0 < (quoteReadings calls).length)
  have hfirst : (quoteReadings calls).head? = some first := by
    rw [hreadings]
    rfl
  have hle : first ≤ now := by
    apply hpast
    apply mem_readings_of_mem_quoteReadings
    rw [hreadings]
    exact List.mem_cons_self
  rw [getElapsedTimeMs, hwarmth.first first hfirst, hwarmth.window,
    ge_iff_le, UInt64.le_iff_toNat_le, UInt64.toNat_sub_of_le _ _ hle, hfirst]
  rw [UInt64.le_iff_toNat_le] at hle
  simp only [Option.some.injEq, exists_eq_left']
  omega

theorem ready_iff (hwarmth : Warmth config calls engine) {now : UInt64}
    (hpast : ∀ reading ∈ readings calls, reading ≤ now) :
    engine.ready now = true ↔
      PlainlyReady config.vwapWindowMs calls now := by
  have hplain := hwarmth.plain_tests_iff hpast
  rw [ready_eq, Bool.or_eq_true, Bool.and_eq_true, decide_eq_true_eq,
    decide_eq_true_eq, hplain]
  constructor
  · rintro (hstarted | hready)
    · exact (hwarmth.latch hstarted).2 now hpast
    · exact hready
  · exact Or.inr

/-- Without its latch the engine would give the same answer. -/
theorem ready_without_latch (hwarmth : Warmth config calls engine)
    {now : UInt64} (hpast : ∀ reading ∈ readings calls, reading ≤ now) :
    ({ engine with tradingStarted := false } : ExecutionEngine).ready now =
      engine.ready now := by
  have hunlatched : Warmth config calls
      { engine with tradingStarted := false } :=
    ⟨hwarmth.window, hwarmth.count, hwarmth.first, by simp⟩
  rw [Bool.eq_iff_iff, hunlatched.ready_iff hpast, hwarmth.ready_iff hpast]

theorem onQuoteReceived (hwarmth : Warmth config calls engine)
    {now : UInt64} (hcount : (quoteReadings calls).length + 1 < 2 ^ 32) :
    Warmth config (calls ++ [.onQuoteReceived now])
      (engine.onQuoteReceived now) := by
  have hreadings : quoteReadings (calls ++ [.onQuoteReceived now]) =
      quoteReadings calls ++ [now] := quoteReadings_concat calls _
  have hnext : (engine.quotesReceived + 1).toNat =
      (quoteReadings calls).length + 1 := by
    rw [UInt32.toNat_add, hwarmth.count, UInt32.toNat_one,
      Nat.mod_eq_of_lt hcount]
  rw [onQuoteReceived_eq]
  refine ⟨hwarmth.window, ?_, ?_, ?_⟩
  · rw [hnext, hreadings, List.length_append, List.length_singleton]
  · intro reading hfirst
    rw [hreadings] at hfirst
    cases hold : quoteReadings calls with
    | nil =>
        have hunlatched : engine.tradingStarted ≠ true := by
          intro hstarted
          have hten := (hwarmth.latch hstarted).1
          simp [hold] at hten
        have hone : engine.quotesReceived + 1 = 1 := by
          rw [← UInt32.toNat_inj, hnext, hold]
          rfl
        rw [hold] at hfirst
        simpa [hone, hunlatched] using hfirst
    | cons first rest =>
        have hone : engine.quotesReceived + 1 ≠ 1 := by
          rw [ne_eq, ← UInt32.toNat_inj, hnext, hold]
          simp
        rw [hold] at hfirst
        have hfirst : first = reading := by simpa using hfirst
        rw [if_neg (fun h => hone h.1), ← hfirst]
        exact hwarmth.first first (by rw [hold]; rfl)
  · intro hstarted
    rcases hwarmth.latch hstarted with ⟨hten, hlatch⟩
    refine ⟨hten.trans (length_quoteReadings_le_concat calls _), ?_⟩
    intro later hpast
    rw [readings_concat, List.forall_mem_append] at hpast
    exact (hlatch later hpast.1).concat _

theorem handleTrade (hwarmth : Warmth config calls engine)
    (vwapService : VWAPService) (clock : ClockReadings) (trade : Trade)
    (hpast : ∀ reading ∈ readings calls, reading ≤ clock.steadyMs) :
    Warmth config (calls ++ [.handleTrade vwapService clock trade])
      (engine.judged vwapService clock trade) := by
  have hreadings : quoteReadings
      (calls ++ [.handleTrade vwapService clock trade]) =
        quoteReadings calls := by
    rw [quoteReadings_concat]
    exact List.append_nil _
  refine ⟨hwarmth.window, ?_, ?_, ?_⟩
  · rw [hreadings]
    exact hwarmth.count
  · rw [hreadings]
    exact hwarmth.first
  · rw [judged_tradingStarted, hwarmth.ready_iff hpast]
    intro hready
    refine ⟨hready.1.trans (length_quoteReadings_le_concat calls _), ?_⟩
    intro later hlater
    rw [readings_concat, List.forall_mem_append] at hlater
    have hle : clock.steadyMs ≤ later := hlater.2 _ List.mem_cons_self
    exact (hready.later hle).concat _

/-- Halting and resuming have no part in readiness. -/
theorem unread (hwarmth : Warmth config calls engine) {call : EngineCall}
    (hreading : call.reading? = none) :
    Warmth config (calls ++ [call]) (perform engine call).1 := by
  have hquotes : quoteReadings (calls ++ [call]) = quoteReadings calls := by
    rw [quoteReadings_concat]
    cases call <;> simp_all [EngineCall.reading?, EngineCall.quoteReading?]
  have hreadings : readings (calls ++ [call]) = readings calls := by
    simp [readings_concat, hreading]
  have hkept : Warmth config (calls ++ [call]) engine := by
    refine ⟨hwarmth.window, hwarmth.count.trans (by rw [hquotes]),
      by simpa only [hquotes] using hwarmth.first, fun hstarted => ?_⟩
    simpa only [hquotes, hreadings, PlainlyReady] using
      hwarmth.latch hstarted
  cases call with
  | onQuoteReceived now => contradiction
  | handleTrade vwapService clock trade => contradiction
  | haltTrading =>
      exact ⟨hkept.window, hkept.count, hkept.first, hkept.latch⟩
  | resumeTrading =>
      exact ⟨hkept.window, hkept.count, hkept.first, hkept.latch⟩

end Warmth

theorem initial_warmth (config : Config) :
    Warmth config [] (initial config) where
  window := rfl
  count := rfl
  first := nofun
  latch := nofun

theorem past_of_steady {before : List EngineCall} {call : EngineCall}
    (hclock : Steady (before ++ [call])) {now : UInt64}
    (hnow : call.reading? = some now) :
    ∀ reading ∈ readings before, reading ≤ now := by
  rw [Steady, readings_concat, hnow, List.pairwise_append] at hclock
  intro reading hreading
  exact hclock.2.2 reading hreading now List.mem_cons_self

theorem after_warmth (config : Config) {calls : List EngineCall}
    (hquotes : (quoteReadings calls).length < 2 ^ 32)
    (hclock : Steady calls) : Warmth config calls (after config calls) := by
  induction calls using List.reverseRecOn with
  | nil => exact initial_warmth config
  | append_singleton before call ih =>
      have hbefore : Warmth config before (after config before) := by
        refine ih ((length_quoteReadings_le_concat before call).trans_lt
          hquotes) ?_
        rw [Steady, readings_concat] at hclock
        exact (List.pairwise_append.mp hclock).1
      rw [after_concat]
      cases call with
      | onQuoteReceived now =>
          apply hbefore.onQuoteReceived
          simpa [quoteReadings_concat, EngineCall.quoteReading?] using hquotes
      | handleTrade vwapService clock trade =>
          rw [perform_handleTrade]
          exact hbefore.handleTrade vwapService clock trade
            (past_of_steady hclock rfl)
      | haltTrading => exact hbefore.unread rfl
      | resumeTrading => exact hbefore.unread rfl

/-- Every readiness test that a trade makes has the result of the plain
condition, with or without the latch.  It reads `timestampStarted` only
after the first quote has set it, and no order is accepted before the
condition holds. -/
theorem readiness_fast_path (config : Config) (calls : List EngineCall)
    (hquotes : (quoteReadings calls).length < 2 ^ 32)
    (hclock : Steady calls) :
    ∀ before vwapService clock trade,
      before ++ [.handleTrade vwapService clock trade] <+: calls →
        let engine := after config before
        let plain :=
          PlainlyReady config.vwapWindowMs before clock.steadyMs
        ((engine.isReadyToTrade clock.steadyMs).1 = true ↔ plain) ∧
          (({ engine with tradingStarted := false } :
              ExecutionEngine).isReadyToTrade clock.steadyMs).1 =
            (engine.isReadyToTrade clock.steadyMs).1 ∧
          (engine.quotesReceived ≥ minQuotesRequired →
            (quoteReadings before).head? = some engine.timestampStarted) ∧
          ∀ order,
            (engine.handleTrade vwapService clock trade).1 = some order →
              order.status = .accepted → plain := by
  intro before vwapService clock trade hpre engine plain
  have hbefore : before <+: calls :=
    (List.prefix_append before _).trans hpre
  have hcount : (quoteReadings before).length < 2 ^ 32 :=
    ((hbefore.filterMap EngineCall.quoteReading?).length_le).trans_lt hquotes
  have hsteady : Steady (before ++ [.handleTrade vwapService clock trade]) :=
    hclock.sublist (hpre.filterMap EngineCall.reading?).sublist
  have hpast : ∀ reading ∈ readings before, reading ≤ clock.steadyMs :=
    past_of_steady hsteady rfl
  have hwarmth : Warmth config before engine := by
    apply after_warmth config hcount
    rw [Steady, readings_concat] at hsteady
    exact (List.pairwise_append.mp hsteady).1
  refine ⟨hwarmth.ready_iff hpast, hwarmth.ready_without_latch hpast, ?_, ?_⟩
  · intro hten
    have hnonempty : 0 < (quoteReadings before).length := by
      rw [← hwarmth.count]
      rw [ge_iff_le, UInt32.le_iff_toNat_le] at hten
      exact Nat.lt_of_lt_of_le (by decide) hten
    obtain ⟨first, rest, hreadings⟩ :=
      List.exists_cons_of_length_pos hnonempty
    have hfirst : (quoteReadings before).head? = some first := by
      rw [hreadings]
      rfl
    rw [hfirst, hwarmth.first first hfirst]
  · intro order horder haccepted
    rw [eq_answer_of_handleTrade horder] at haccepted
    have haccepts : engine.accepts vwapService clock trade = true := by
      simpa [answer] using haccepted
    rw [accepts, Bool.and_eq_true, Bool.and_eq_true] at haccepts
    exact (hwarmth.ready_iff hpast).mp haccepts.1.1

/-- A trade before the first quote, ten quotes at time 2, and a trade when
the window of 5 ms has passed. -/
theorem readiness_fast_path_opening :
    let config : Config := ⟨100, 1000, 5, 0, 9⟩
    let before := sampleCall 1 (sampleTrade .buy 7 90) ::
      List.replicate 10 (.onQuoteReceived 2)
    ((after config before).isReadyToTrade 7).1 = true ↔
      PlainlyReady 5 before 7 := by
  intro config before
  exact (readiness_fast_path config
    (before ++ [sampleCall 7 (sampleTrade .buy 7 90)]) (by decide)
    (by simp [Steady, before, readings, sampleCall, EngineCall.reading?])
    before _ _ _ (List.prefix_refl _)).1

end ExecutionEngine

end Slipstream
