import Slipstream.OrderReadback
import Slipstream.VWAPWindow

/-!
# Queries of the VWAP service

`getVWAP` evicts before it answers.  In a chronological run this leaves no
trace: whatever call comes next evicts the same trades, and more, before it
does anything else.

The engine asks for the benchmark only while it is ready and not halted, and
only for trades with an aggressor.  So none of this, nor any console line or
quote, has an influence on the benchmark of a trade; it depends on the trades
alone.
-/

namespace Slipstream

namespace VWAPService

theorem expired_mono {window now later : UInt64} {trade : Trade}
    (hpast : trade.timestampNs ≤ now) (hle : now ≤ later)
    (hexpired : expired window now trade = true) :
    expired window later trade = true := by
  have hout := not_inWindow_mono hle (not_inWindow_of_expired hpast hexpired)
  rw [← expired_eq_false_iff (UInt64.le_trans hpast hle)] at hout
  simpa using hout

/-- Eviction at a later time makes up for an earlier one, wherever it
stopped. -/
theorem removeOldTrades_removeOldTrades {service : VWAPService}
    (hcoherent : service.Coherent) {now later : UInt64}
    (hpast : ∀ trade ∈ service.live, trade.timestampNs ≤ now)
    (hle : now ≤ later) :
    (service.removeOldTrades now).removeOldTrades later =
      service.removeOldTrades later := by
  by_cases hfull : service.Full
  · rw [removeOldTrades_of_full hfull now]
  · have hstep : ∀ state next,
        (state.Coherent ∧ ¬ state.Full ∧
          ∀ trade ∈ state.live, trade.timestampNs ≤ now) →
        removeOldTradesBody now state = some next →
        (next.Coherent ∧ ¬ next.Full ∧
          ∀ trade ∈ next.live, trade.timestampNs ≤ now) ∧
          removeOldTradesBody later state = some next := by
      rintro state next ⟨hstate, hnotFull, hlive⟩ hbody
      obtain ⟨hcons, hnext, hnextNotFull⟩ :=
        hstate.live_of_removeOldTradesBody hnotFull hbody
      rcases removeOldTradesBody_eq_some hbody with ⟨hguard, hexpired, rfl⟩
      rw [hcons, List.forall_mem_cons] at hlive
      refine ⟨⟨hnext, hnextNotFull, hlive.2⟩, ?_⟩
      have hlater := expired_mono hlive.1 hle hexpired
      rw [removeOldTradesBody, if_pos hguard, if_pos hlater]
    exact BoundedLoop.loop_loop hstep ⟨hcoherent, hfull, hpast⟩ bufferSize
      (hcoherent.removeOldTrades_exits later)

/-- A call evicts before it does anything else. -/
theorem serve_eq_of_evicted {service other : VWAPService}
    {call : ServiceCall}
    (hevicted : service.removeOldTrades call.stamp =
      other.removeOldTrades call.stamp) :
    serve service call = serve other call := by
  cases call with
  | handleTrade policy trade =>
      rw [ServiceCall.stamp] at hevicted
      simp only [serve, handleTrade, hevicted]
  | getVWAP now =>
      rw [ServiceCall.stamp] at hevicted
      simp only [serve, getVWAP, hevicted]

def ServiceCall.isTrade : ServiceCall → Bool
  | .handleTrade _ _ => true
  | .getVWAP _ => false

def withoutQueries (calls : List ServiceCall) : List ServiceCall :=
  calls.filter ServiceCall.isTrade

section Queries

variable (window : UInt64) (slots : ℕ → Trade)

theorem evicted_withoutQueries {calls : List ServiceCall}
    {call : ServiceCall} (hchronological : Chronological (calls ++ [call])) :
    (after window slots calls).removeOldTrades call.stamp =
      (after window slots (withoutQueries calls)).removeOldTrades
        call.stamp := by
  induction calls using List.reverseRecOn generalizing call with
  | nil => rfl
  | append_singleton earlier last ih =>
      obtain ⟨hbefore, hstamps⟩ :=
        (chronological_concat_iff _ call).mp hchronological
      have hevicted := ih hbefore
      rw [after_concat]
      cases last with
      | handleTrade policy trade =>
          have hkept : withoutQueries
              (earlier ++ [.handleTrade policy trade]) =
                withoutQueries earlier ++ [.handleTrade policy trade] := by
            simp [withoutQueries, ServiceCall.isTrade]
          rw [hkept, after_concat, serve_eq_of_evicted hevicted]
      | getVWAP now =>
          have hdropped : withoutQueries (earlier ++ [.getVWAP now]) =
              withoutQueries earlier := by
            simp [withoutQueries, ServiceCall.isTrade]
          have hle : now ≤ call.stamp := hstamps (.getVWAP now) (by simp)
          have hpast : ∀ trade ∈ (after window slots earlier).live,
              trade.timestampNs ≤ now :=
            live_past window slots hbefore
          rw [serve, getVWAP_snd, hdropped]
          dsimp only
          rw [removeOldTrades_removeOldTrades
            (after_coherent window slots earlier) hpast hle]
          apply ih
          rw [chronological_concat_iff] at hbefore ⊢
          refine ⟨hbefore.1, fun other hother => ?_⟩
          exact hstamps other (List.mem_append_left _ hother)

/-- Each call of a chronological run answers, and leaves the service, as if
no query had been made before. -/
theorem queries_leave_no_trace {calls : List ServiceCall}
    {call : ServiceCall} (hchronological : Chronological (calls ++ [call])) :
    serve (after window slots calls) call =
      serve (after window slots (withoutQueries calls)) call :=
  serve_eq_of_evicted (evicted_withoutQueries window slots hchronological)

end Queries

end VWAPService

namespace Session

def Event.stamps : Event → List UInt64
  | .message ⟨.trade trade, clock⟩ => [trade.timestampNs, clock.systemMs]
  | _ => []

/-- The timestamps of the trades and the clocks at which they are handled. -/
def stamps (events : List Event) : List UInt64 :=
  events.flatMap Event.stamps

theorem stamps_concat (events : List Event) (event : Event) :
    stamps (events ++ [event]) = stamps events ++ event.stamps := by
  simp [stamps]

def tradeCalls (trades : List Trade) : List VWAPService.ServiceCall :=
  trades.map (.handleTrade .overwriteOldest)

/-- The calls that have brought the VWAP service of a session into its
state. -/
structure Serves (setup : Components.Setup) (events : List Event)
    (calls : List VWAPService.ServiceCall) (service : VWAPService) :
    Prop where
  service : service = VWAPService.after setup.config.vwapWindowMs
    setup.slots calls
  trades : VWAPService.withoutQueries calls = tradeCalls (tradesOf events)
  stamps : (calls.map VWAPService.ServiceCall.stamp).Sublist (stamps events)

section Serves

variable {setup : Components.Setup} {events : List Event}
  {calls : List VWAPService.ServiceCall} {service : VWAPService}
  (hserves : Serves setup events calls service)
include hserves

/-- An event that the VWAP service does not notice. -/
theorem Serves.quiet {event : Event} (htrade : event.trade? = none) :
    Serves setup (events ++ [event]) calls service := by
  refine ⟨hserves.service, ?_, ?_⟩
  · rw [tradesOf_concat, htrade, Option.toList_none, List.append_nil]
    exact hserves.trades
  · rw [stamps_concat]
    exact hserves.stamps.trans (List.sublist_append_left _ _)

theorem Serves.trade (trade : Trade) (clock : ClockReadings) {reads : Bool} :
    ∃ later,
      Serves setup (events ++ [.message ⟨.trade trade, clock⟩]) later
        (if reads then
          ((service.handleTrade .overwriteOldest trade).2.getVWAP
            clock.systemMs).2
        else (service.handleTrade .overwriteOldest trade).2) := by
  let passed : VWAPService.ServiceCall := .handleTrade .overwriteOldest trade
  have hfed : (service.handleTrade .overwriteOldest trade).2 =
      VWAPService.after setup.config.vwapWindowMs setup.slots
        (calls ++ [passed]) := by
    rw [VWAPService.after_concat, ← hserves.service]
    rfl
  have htrades : tradeCalls
      (tradesOf (events ++ [.message ⟨.trade trade, clock⟩])) =
        VWAPService.withoutQueries calls ++ [passed] := by
    rw [tradesOf_concat, tradeCalls, List.map_append, hserves.trades]
    rfl
  have hstamps :
      Session.stamps (events ++ [.message ⟨.trade trade, clock⟩]) =
        Session.stamps events ++ [trade.timestampNs, clock.systemMs] :=
    stamps_concat events _
  cases reads with
  | false =>
      refine ⟨calls ++ [passed], hfed, ?_, ?_⟩
      · rw [htrades, VWAPService.withoutQueries, List.filter_append]
        rfl
      · rw [hstamps, List.map_append]
        apply hserves.stamps.append
        exact List.sublist_append_left [trade.timestampNs] _
  | true =>
      refine ⟨calls ++ [passed] ++ [.getVWAP clock.systemMs], ?_, ?_, ?_⟩
      · rw [VWAPService.after_concat, ← hfed]
        rfl
      · rw [htrades, VWAPService.withoutQueries, List.filter_append,
          List.filter_append, List.append_assoc]
        rfl
      · rw [hstamps, List.append_assoc, List.map_append]
        exact hserves.stamps.append (List.Sublist.refl _)

end Serves

theorem after_serves (setup : Components.Setup) (events : List Event) :
    ∃ calls, Serves setup events calls
      (after setup events).components.vwapService := by
  induction events using List.reverseRecOn with
  | nil => exact ⟨[], rfl, rfl, List.Sublist.slnil⟩
  | append_singleton earlier event ih =>
      rcases ih with ⟨calls, hserves⟩
      rw [after_concat]
      cases event with
      | line input =>
          obtain ⟨halted, hcomponents⟩ :=
            runSession_components (after setup earlier) input
          rw [step]
          dsimp only
          rw [hcomponents]
          exact ⟨calls, hserves.quiet rfl⟩
      | message delivery =>
          rcases delivery with ⟨message, clock⟩
          cases message with
          | trade trade =>
              obtain ⟨later, hlater⟩ := hserves.trade trade clock
              refine ⟨later, ?_⟩
              rw [step, Components.dispatch_trade]
              dsimp only
              rw [ExecutionEngine.handleTrade_vwapService]
              exact hlater
          | quote quote => exact ⟨calls, hserves.quiet rfl⟩
          | heartbeat heartbeat => exact ⟨calls, hserves.quiet rfl⟩
          | sessionControl control => exact ⟨calls, hserves.quiet rfl⟩

/-- If timestamps and clocks do not decrease, the service in which the engine
looks up the benchmark of a trade is one that was given the trades and
nothing else. -/
theorem benchmark_of_trades (setup : Components.Setup)
    {events : List Event} {trade : Trade}
    (hchronological : (stamps events ++ [trade.timestampNs]).Pairwise
      (· ≤ ·)) :
    (after setup events).components.fed trade =
      VWAPService.after setup.config.vwapWindowMs setup.slots
        (tradeCalls (tradesOf events ++ [trade])) := by
  obtain ⟨calls, hserves⟩ := after_serves setup events
  have hcalls : VWAPService.Chronological
      (calls ++ [.handleTrade .overwriteOldest trade]) := by
    rw [VWAPService.Chronological, List.map_append]
    exact hchronological.sublist
      (hserves.stamps.append (List.Sublist.refl _))
  have htrace := VWAPService.queries_leave_no_trace
    setup.config.vwapWindowMs setup.slots hcalls
  rw [← hserves.service, hserves.trades] at htrace
  have htrades : tradeCalls (tradesOf events ++ [trade]) =
      tradeCalls (tradesOf events) ++
        [.handleTrade .overwriteOldest trade] := List.map_append
  rw [htrades, VWAPService.after_concat]
  exact congrArg Prod.fst htrace

/-- A trade, a halted session, and another trade 3 ms later. -/
theorem benchmark_of_trades_halted :
    let first : Trade :=
      { ExecutionEngine.sampleTrade .buy 7 90 with timestampNs := 1000 }
    let second : Trade :=
      { ExecutionEngine.sampleTrade .sell 3 95 with timestampNs := 1003 }
    let events : List Event :=
      [.message ⟨.trade first, ⟨0, 1002, 0⟩⟩, .line "HALT"]
    (after Components.sampleSetup events).components.fed second =
      VWAPService.after Components.sampleSetup.config.vwapWindowMs
        Components.sampleSetup.slots (tradeCalls [first, second]) := by
  intro first second events
  have hchronological : (stamps events ++ [second.timestampNs]).Pairwise
      (· ≤ ·) := by
    simp [events, stamps, Event.stamps, first, second]
  exact benchmark_of_trades Components.sampleSetup hchronological

end Session

end Slipstream
