import Slipstream.DispatchRuns

/-!
# The race between quotes and trades

Quotes and trades arrive on two connections, and the order in which the two
receivers reach the inbound queue is not determined.  Once trading has
started a quote changes the order book and one counter of the engine that no
trade reads any more.  Quotes then commute with trades, and a run is
determined by the list of quotes and the list of trades alone.
-/

namespace Slipstream

namespace ExecutionEngine

/-- What is left of `onQuoteReceived` once trading has started. -/
def counted (engine : ExecutionEngine) : ExecutionEngine :=
  { engine with quotesReceived := engine.quotesReceived + 1 }

theorem onQuoteReceived_of_started {engine : ExecutionEngine}
    (hstarted : engine.tradingStarted = true) (now : UInt64) :
    engine.onQuoteReceived now = engine.counted := by
  simp [onQuoteReceived_eq, counted, hstarted]

section Counted

variable {engine : ExecutionEngine} (hstarted : engine.tradingStarted = true)
  (vwapService : VWAPService) (clock : ClockReadings) (trade : Trade)
include hstarted

theorem counted_ready (now : UInt64) :
    engine.counted.ready now = engine.ready now := by
  have hcounted : engine.counted.tradingStarted = true := hstarted
  rw [ready_of_started hstarted, ready_of_started hcounted]

theorem counted_accepts :
    engine.counted.accepts vwapService clock trade =
      engine.accepts vwapService clock trade := by
  rw [accepts, accepts, counted_ready hstarted]
  rfl

theorem counted_judged :
    engine.counted.judged vwapService clock trade =
      (engine.judged vwapService clock trade).counted := by
  rw [judged, judged, counted_ready hstarted, counted_accepts hstarted]
  rfl

theorem counted_answer :
    engine.counted.answer vwapService clock trade =
      engine.answer vwapService clock trade := by
  rw [answer, answer, counted_accepts hstarted]
  rfl

theorem handleTrade_counted :
    engine.counted.handleTrade vwapService clock trade =
      let result := engine.handleTrade vwapService clock trade
      (result.1, result.2.1.counted, result.2.2) := by
  rcases handleTrade_eq engine vwapService clock trade with ⟨horder, hengine⟩
  rcases handleTrade_eq engine.counted vwapService clock trade with
    ⟨horderCounted, hengineCounted⟩
  have hsuppresses : engine.counted.suppresses clock =
      engine.suppresses clock := by
    rw [suppresses, suppresses, counted_ready hstarted]
    rfl
  have hreads : engine.counted.readsVWAP clock trade =
      engine.readsVWAP clock trade := by
    rw [readsVWAP, readsVWAP, counted_ready hstarted]
    rfl
  refine Prod.ext ?_ (Prod.ext ?_ ?_)
  · rw [horderCounted, hsuppresses, counted_answer hstarted]
    exact horder.symm
  · rw [hengineCounted, counted_judged hstarted]
    exact (congrArg counted hengine).symm
  · rw [handleTrade_vwapService, hreads]
    exact (handleTrade_vwapService engine vwapService clock trade).symm

end Counted

end ExecutionEngine

namespace Components

def Started (components : Components) : Prop :=
  components.executionEngine.tradingStarted = true

def Delivery.quote? (delivery : Delivery) : Option Quote :=
  match delivery.message with
  | .quote quote => some quote
  | _ => none

def Delivery.trade? (delivery : Delivery) :
    Option (Trade × ClockReadings) :=
  match delivery.message with
  | .trade trade => some (trade, delivery.clock)
  | _ => none

def quoted (components : Components) (quote : Quote) : Components :=
  { components with
    orderBookService := components.orderBookService.setQuote quote
    executionEngine := components.executionEngine.counted }

def tradeDelivery (timed : Trade × ClockReadings) : Delivery :=
  ⟨.trade timed.1, timed.2⟩

/-- What a message that is not a trade leaves behind. -/
def absorbed (components : Components) (delivery : Delivery) : Components :=
  match delivery.quote? with
  | some quote => components.quoted quote
  | none => components

theorem eq_tradeDelivery {delivery : Delivery}
    (hloud : delivery.trade?.isNone = false) :
    ∃ timed, delivery = tradeDelivery timed := by
  rcases delivery with ⟨message, clock⟩
  cases message with
  | trade trade => exact ⟨(trade, clock), rfl⟩
  | quote quote => simp [Delivery.trade?] at hloud
  | heartbeat heartbeat => simp [Delivery.trade?] at hloud
  | sessionControl sessionControl => simp [Delivery.trade?] at hloud

theorem dispatch_quote_of_started {components : Components}
    (hstarted : components.Started) (quote : Quote)
    (clock : ClockReadings) :
    dispatch components ⟨.quote quote, clock⟩ =
      (components.quoted quote, []) := by
  rw [dispatch_quote,
    ExecutionEngine.onQuoteReceived_of_started hstarted]
  rfl

theorem dispatch_started (components : Components) (delivery : Delivery)
    (hstarted : components.Started) :
    (dispatch components delivery).1.Started := by
  rcases delivery with ⟨message, clock⟩
  cases message with
  | quote quote =>
      rw [dispatch_quote_of_started hstarted]
      exact hstarted
  | trade trade =>
      rw [Started, dispatch_trade_engine]
      exact ExecutionEngine.ready_of_started hstarted
  | heartbeat heartbeat => exact hstarted
  | sessionControl sessionControl => exact hstarted

theorem dispatch_quiet {components : Components}
    (hstarted : components.Started) {delivery : Delivery}
    (hquiet : delivery.trade?.isNone = true) :
    dispatch components delivery = (components.absorbed delivery, []) := by
  rcases delivery with ⟨message, clock⟩
  cases message with
  | trade trade => simp [Delivery.trade?] at hquiet
  | quote quote => exact dispatch_quote_of_started hstarted quote clock
  | heartbeat heartbeat => rfl
  | sessionControl sessionControl => rfl

theorem dispatch_quoted_trade {components : Components}
    (hstarted : components.Started) (quote : Quote)
    (timed : Trade × ClockReadings) :
    dispatch (components.quoted quote) (tradeDelivery timed) =
      let judgement := dispatch components (tradeDelivery timed)
      (judgement.1.quoted quote, judgement.2) := by
  rw [tradeDelivery, dispatch_trade, dispatch_trade]
  have hfed : (components.quoted quote).fed timed.1 =
      components.fed timed.1 := rfl
  have hengine : (components.quoted quote).executionEngine =
      components.executionEngine.counted := rfl
  rw [hfed, hengine, ExecutionEngine.handleTrade_counted hstarted]
  rfl

theorem dispatch_absorbed_trade {components : Components}
    (hstarted : components.Started) (delivery : Delivery)
    (timed : Trade × ClockReadings) :
    dispatch (components.absorbed delivery) (tradeDelivery timed) =
      let judgement := dispatch components (tradeDelivery timed)
      (judgement.1.absorbed delivery, judgement.2) := by
  unfold absorbed
  cases delivery.quote? with
  | none => rfl
  | some quote => exact dispatch_quoted_trade hstarted quote timed

/-- Every message but a trade may be handled later. -/
theorem dispatch_commutes :
    RunHistory.Commutes dispatch
      (fun delivery => delivery.trade?.isNone) Started where
  preserved components delivery := dispatch_started components delivery
  silent components quiet hstarted hquiet := by
    rw [dispatch_quiet hstarted hquiet]
  state components quiet loud hstarted hquiet hloud := by
    obtain ⟨timed, rfl⟩ := eq_tradeDelivery hloud
    have hafter := dispatch_started components (tradeDelivery timed) hstarted
    rw [dispatch_quiet hstarted hquiet, dispatch_quiet hafter hquiet,
      dispatch_absorbed_trade hstarted]
  output components quiet loud hstarted hquiet hloud := by
    obtain ⟨timed, rfl⟩ := eq_tradeDelivery hloud
    rw [dispatch_quiet hstarted hquiet, dispatch_absorbed_trade hstarted]

/-- A stream that carries these quotes and these trades, each list in its
order.  Messages of other kinds may stand anywhere. -/
structure Interleaves (quotes : List Quote)
    (trades : List (Trade × ClockReadings)) (stream : List Delivery) :
    Prop where
  quotes : stream.filterMap Delivery.quote? = quotes
  trades : stream.filterMap Delivery.trade? = trades

theorem filter_trades (stream : List Delivery) :
    (stream.filter fun delivery => !delivery.trade?.isNone) =
      (stream.filterMap Delivery.trade?).map tradeDelivery := by
  induction stream with
  | nil => rfl
  | cons delivery rest ih =>
      rcases delivery with ⟨message, clock⟩
      cases message with
      | trade trade =>
          exact congrArg (tradeDelivery (trade, clock) :: ·) ih
      | quote quote => exact ih
      | heartbeat heartbeat => exact ih
      | sessionControl sessionControl => exact ih

theorem exec_without_trades {components : Components}
    (hstarted : components.Started) (stream : List Delivery) :
    RunHistory.exec dispatch components
        (stream.filter fun delivery => delivery.trade?.isNone) =
      (stream.filterMap Delivery.quote?).foldl quoted components := by
  induction stream generalizing components with
  | nil => rfl
  | cons delivery rest ih =>
      rcases delivery with ⟨message, clock⟩
      cases message with
      | trade trade => exact ih hstarted
      | heartbeat heartbeat => exact ih hstarted
      | sessionControl sessionControl => exact ih hstarted
      | quote quote =>
          have hquoted : (components.quoted quote).Started := hstarted
          have hstep := dispatch_quote_of_started hstarted quote clock
          simp only [Delivery.trade?, Delivery.quote?, List.filter_cons,
            Option.isNone_none, if_true, RunHistory.exec_cons, hstep]
          exact ih hquoted

/-- The run and its orders in terms of the two lists: all trades first, then
all quotes. -/
theorem exec_of_interleaves {components : Components}
    (hstarted : components.Started) {quotes : List Quote}
    {trades : List (Trade × ClockReadings)} {stream : List Delivery}
    (hinterleaves : Interleaves quotes trades stream) :
    RunHistory.exec dispatch components stream =
        quotes.foldl quoted
          (RunHistory.exec dispatch components
            (trades.map tradeDelivery)) ∧
      (RunHistory.outputs dispatch components stream).flatten =
        (RunHistory.outputs dispatch components
          (trades.map tradeDelivery)).flatten := by
  rcases dispatch_commutes.exec_quiet_last hstarted stream with
    ⟨hstate, horders⟩
  rw [filter_trades, hinterleaves.trades] at hstate horders
  have htraded : (RunHistory.exec dispatch components
      (trades.map tradeDelivery)).Started :=
    RunHistory.exec_invariant dispatch dispatch_started hstarted _
  rw [exec_without_trades htraded, hinterleaves.quotes] at hstate
  exact ⟨hstate, horders⟩

/-- Once trading has started, two interleavings of the same quotes and the
same trades end in the same state and emit the same orders. -/
theorem quote_trade_race {components : Components}
    (hstarted : components.executionEngine.tradingStarted = true)
    {quotes : List Quote} {trades : List (Trade × ClockReadings)}
    {first second : List Delivery}
    (hfirst : Interleaves quotes trades first)
    (hsecond : Interleaves quotes trades second) :
    RunHistory.exec dispatch components first =
        RunHistory.exec dispatch components second ∧
      (RunHistory.outputs dispatch components first).flatten =
        (RunHistory.outputs dispatch components second).flatten := by
  rcases exec_of_interleaves hstarted hfirst with ⟨hfirstState, hfirstOrders⟩
  rcases exec_of_interleaves hstarted hsecond with
    ⟨hsecondState, hsecondOrders⟩
  exact ⟨hfirstState.trans hsecondState.symm,
    hfirstOrders.trans hsecondOrders.symm⟩

set_option maxRecDepth 8000 in
theorem quote_trade_race_two_orders :
    let quote : Quote := ⟨sampleSetup.symbol, 0, 1, 90, 1, 91⟩
    let trade := unitTrade sampleSetup.symbol .buy
    let components := after sampleSetup (warmUp sampleSetup.symbol ++
      [unitDelivery sampleSetup sampleSetup.symbol .unknown])
    RunHistory.exec dispatch components
        [⟨.quote quote, ⟨6, 0, 0⟩⟩, ⟨.trade trade, ⟨7, 0, 0⟩⟩] =
      RunHistory.exec dispatch components
        [⟨.trade trade, ⟨7, 0, 0⟩⟩, ⟨.quote quote, ⟨8, 0, 0⟩⟩] := by
  intro quote trade components
  have hstarted : components.executionEngine.tradingStarted = true := by
    decide
  have hquoteFirst : Interleaves [quote] [(trade, ⟨7, 0, 0⟩)]
      [⟨.quote quote, ⟨6, 0, 0⟩⟩, ⟨.trade trade, ⟨7, 0, 0⟩⟩] := ⟨rfl, rfl⟩
  have htradeFirst : Interleaves [quote] [(trade, ⟨7, 0, 0⟩)]
      [⟨.trade trade, ⟨7, 0, 0⟩⟩, ⟨.quote quote, ⟨8, 0, 0⟩⟩] := ⟨rfl, rfl⟩
  exact (quote_trade_race hstarted hquoteFirst htradeFirst).1

end Components

end Slipstream
