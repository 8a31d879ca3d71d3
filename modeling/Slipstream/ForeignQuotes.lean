import Slipstream.DispatchRuns

/-!
# Quotes of other symbols

The order book ignores the quotes of other symbols, but the quote handler
reports every quote to the engine.  A foreign quote therefore separates the
two quote counters for the rest of the run.
-/

namespace Slipstream

def foreignQuote (symbol : Symbol) : MDMessage → Bool
  | .quote quote => quote.symbol ≠ symbol
  | _ => false

def ownQuote (symbol : Symbol) : MDMessage → Bool
  | .quote quote => quote.symbol = symbol
  | _ => false

def isQuote : MDMessage → Bool
  | .quote _ => true
  | _ => false

namespace Components

/-! ## Counting quotes -/

def quoteCount (stream : List Delivery) : ℕ :=
  stream.countP fun delivery => isQuote delivery.message

def ownQuoteCount (symbol : Symbol) (stream : List Delivery) : ℕ :=
  stream.countP fun delivery => ownQuote symbol delivery.message

theorem ownQuoteCount_le (symbol : Symbol) (stream : List Delivery) :
    ownQuoteCount symbol stream ≤ quoteCount stream := by
  apply List.countP_mono_left
  intro delivery _ hown
  cases hmessage : delivery.message <;> simp_all [ownQuote, isQuote]

/-- What the two quote counters and the readiness latch say about the
messages handled so far. -/
structure QuoteCounts (setup : Setup) (stream : List Delivery) : Prop where
  engine : (after setup stream).executionEngine.quotesReceived.toNat =
    quoteCount stream
  orderBook : (after setup stream).orderBookService.getQuotesReceived.toNat =
    ownQuoteCount setup.symbol stream
  symbol : (after setup stream).orderBookService.symbol = setup.symbol
  started : (after setup stream).executionEngine.tradingStarted = true →
    10 ≤ quoteCount stream

theorem ten_le_of_ready {setup : Setup} {stream : List Delivery}
    (hcounts : QuoteCounts setup stream) {now : UInt64}
    (hready : (after setup stream).executionEngine.ready now = true) :
    10 ≤ quoteCount stream := by
  simp only [ExecutionEngine.ready_eq, Bool.or_eq_true, Bool.and_eq_true,
    decide_eq_true_eq] at hready
  rcases hready with hstarted | ⟨hquotes, -⟩
  · exact hcounts.started hstarted
  · rw [ge_iff_le, UInt32.le_iff_toNat_le, hcounts.engine] at hquotes
    exact hquotes

theorem QuoteCounts.quote {setup : Setup} {before : List Delivery}
    (hcounts : QuoteCounts setup before) (quote : Quote)
    (clock : ClockReadings)
    (hcount : quoteCount (before ++ [⟨.quote quote, clock⟩]) < 2 ^ 32) :
    QuoteCounts setup (before ++ [⟨.quote quote, clock⟩]) := by
  have hall : quoteCount (before ++ [⟨.quote quote, clock⟩]) =
      quoteCount before + 1 := by
    simp [quoteCount, isQuote]
  have hle := ownQuoteCount_le setup.symbol before
  rw [hall] at hcount
  constructor
  · rw [after_concat, dispatch_quote, ExecutionEngine.onQuoteReceived_eq,
      UInt32.toNat_add, hcounts.engine, hall, UInt32.toNat_one,
      Nat.mod_eq_of_lt hcount]
  · rw [after_concat, dispatch_quote, OrderBookService.getQuotesReceived,
      OrderBookService.setQuote_quotesReceived, hcounts.symbol]
    by_cases hsymbol : quote.symbol = setup.symbol
    · rw [if_pos hsymbol, UInt64.toNat_add,
        ← OrderBookService.getQuotesReceived, hcounts.orderBook,
        UInt64.toNat_one, Nat.mod_eq_of_lt (by omega)]
      simp [ownQuoteCount, ownQuote, hsymbol]
    · rw [if_neg hsymbol, ← OrderBookService.getQuotesReceived,
        hcounts.orderBook]
      simp [ownQuoteCount, ownQuote, hsymbol]
  · rw [after_concat, dispatch_quote, OrderBookService.setQuote_symbol,
      hcounts.symbol]
  · rw [after_concat, dispatch_quote, ExecutionEngine.onQuoteReceived_eq,
      hall]
    intro hstarted
    have hten := hcounts.started hstarted
    omega

theorem QuoteCounts.trade {setup : Setup} {before : List Delivery}
    (hcounts : QuoteCounts setup before) (trade : Trade)
    (clock : ClockReadings) :
    QuoteCounts setup (before ++ [⟨.trade trade, clock⟩]) := by
  have hall : quoteCount (before ++ [⟨.trade trade, clock⟩]) =
      quoteCount before := by
    simp [quoteCount, isQuote]
  have hown : ownQuoteCount setup.symbol
      (before ++ [⟨.trade trade, clock⟩]) =
        ownQuoteCount setup.symbol before := by
    simp [ownQuoteCount, ownQuote]
  have hbook : (after setup
      (before ++ [⟨.trade trade, clock⟩])).orderBookService =
        (after setup before).orderBookService := by
    rw [after_concat, dispatch_trade]
  constructor
  · rw [after_concat, dispatch_trade_engine, hall]
    exact hcounts.engine
  · rw [hbook, hown, hcounts.orderBook]
  · rw [hbook, hcounts.symbol]
  · rw [after_concat, dispatch_trade_engine, hall,
      ExecutionEngine.judged_tradingStarted]
    exact ten_le_of_ready hcounts

theorem QuoteCounts.unhandled {setup : Setup} {before : List Delivery}
    (hcounts : QuoteCounts setup before) {message : MDMessage}
    (hquote : ∀ quote, message ≠ .quote quote)
    (htrade : ∀ trade, message ≠ .trade trade) (clock : ClockReadings) :
    QuoteCounts setup (before ++ [⟨message, clock⟩]) := by
  have hafter : after setup (before ++ [⟨message, clock⟩]) =
      after setup before := by
    rw [after_concat, dispatch_other _ hquote htrade]
  have hall : quoteCount (before ++ [⟨message, clock⟩]) =
      quoteCount before := by
    cases message <;> simp_all [quoteCount, isQuote]
  have hown : ownQuoteCount setup.symbol (before ++ [⟨message, clock⟩]) =
      ownQuoteCount setup.symbol before := by
    cases message <;> simp_all [ownQuoteCount, ownQuote]
  constructor
  · rw [hafter, hall, hcounts.engine]
  · rw [hafter, hown, hcounts.orderBook]
  · rw [hafter, hcounts.symbol]
  · rw [hafter, hall]
    exact hcounts.started

theorem quoteCounts (setup : Setup) {stream : List Delivery}
    (hcount : quoteCount stream < 2 ^ 32) : QuoteCounts setup stream := by
  induction stream using List.reverseRecOn with
  | nil =>
      exact ⟨rfl, rfl, rfl, by simp [after, initial,
        ExecutionEngine.initial]⟩
  | append_singleton before delivery ih =>
      rcases delivery with ⟨message, clock⟩
      have hshorter : quoteCount before ≤
          quoteCount (before ++ [⟨message, clock⟩]) := by
        simp [quoteCount]
      have hcounts := ih (by omega)
      cases message with
      | quote quote => exact hcounts.quote quote clock hcount
      | trade trade => exact hcounts.trade trade clock
      | heartbeat heartbeat =>
          exact hcounts.unhandled (by simp) (by simp) clock
      | sessionControl sessionControl =>
          exact hcounts.unhandled (by simp) (by simp) clock

def CountersAgree (setup : Setup) (stream : List Delivery) : Prop :=
  ∀ before, before <+: stream →
    (after setup before).executionEngine.quotesReceived.toNat =
        (after setup before).orderBookService.getQuotesReceived.toNat ∧
      (after setup before).orderBookService.getQuotesReceived.toNat =
        ownQuoteCount setup.symbol before

def NoEarlyAcceptance (setup : Setup) (stream : List Delivery) : Prop :=
  ∀ before delivery, before ++ [delivery] <+: stream →
    ∀ order ∈ (dispatch (after setup before) delivery).2,
      order.status = .accepted →
        10 ≤ (after setup before).orderBookService.getQuotesReceived.toNat

theorem quoteCount_le_of_isPrefix {before stream : List Delivery}
    (hpre : before <+: stream) :
    quoteCount before ≤ quoteCount stream :=
  hpre.sublist.countP_le

theorem quoteCount_eq_own_add_foreign (symbol : Symbol)
    (stream : List Delivery) :
    quoteCount stream = ownQuoteCount symbol stream +
      stream.countP fun delivery => foreignQuote symbol delivery.message := by
  induction stream with
  | nil => rfl
  | cons delivery rest ih =>
      unfold quoteCount ownQuoteCount at ih ⊢
      rw [List.countP_cons, List.countP_cons, List.countP_cons, ih]
      cases delivery.message with
      | quote quote =>
          by_cases hsymbol : quote.symbol = symbol <;>
            simp [isQuote, ownQuote, foreignQuote, hsymbol] <;> omega
      | trade trade => simp [isQuote, ownQuote, foreignQuote]
      | heartbeat heartbeat => simp [isQuote, ownQuote, foreignQuote]
      | sessionControl sessionControl =>
          simp [isQuote, ownQuote, foreignQuote]

theorem ownQuoteCount_eq_iff (symbol : Symbol) (stream : List Delivery) :
    ownQuoteCount symbol stream = quoteCount stream ↔
      ∀ delivery ∈ stream, foreignQuote symbol delivery.message = false := by
  rw [quoteCount_eq_own_add_foreign symbol stream, Nat.left_eq_add,
    List.countP_eq_zero]
  simp

theorem ten_le_of_accepted {setup : Setup} {before : List Delivery}
    (hcounts : QuoteCounts setup before) {delivery : Delivery}
    {order : NewOrder}
    (horder : order ∈ (dispatch (after setup before) delivery).2)
    (hstatus : order.status = .accepted) : 10 ≤ quoteCount before := by
  rcases delivery with ⟨message, clock⟩
  cases message with
  | quote quote => simp [dispatch_quote] at horder
  | heartbeat heartbeat => simp [dispatch_other] at horder
  | sessionControl sessionControl => simp [dispatch_other] at horder
  | trade trade =>
      rw [dispatch_trade_orders (after_running setup before),
        List.mem_singleton] at horder
      rw [horder, ExecutionEngine.answer] at hstatus
      have haccepts : (after setup before).executionEngine.accepts
          ((after setup before).fed trade) clock trade = true := by
        by_contra hrejects
        simp [hrejects] at hstatus
      simp only [ExecutionEngine.accepts, Bool.and_eq_true] at haccepts
      exact ten_le_of_ready hcounts haccepts.1.1

theorem countersAgree_iff (setup : Setup) {stream : List Delivery}
    (hcount : quoteCount stream < 2 ^ 32) :
    CountersAgree setup stream ↔
      ∀ delivery ∈ stream,
        foreignQuote setup.symbol delivery.message = false := by
  rw [← ownQuoteCount_eq_iff]
  constructor
  · intro hagree
    have hcounts := quoteCounts setup hcount
    have hend := (hagree stream (List.prefix_refl stream)).1
    rw [hcounts.engine, hcounts.orderBook] at hend
    exact hend.symm
  · intro hown before hpre
    have hshorter := quoteCount_le_of_isPrefix hpre
    have hcounts := quoteCounts setup (hshorter.trans_lt hcount)
    have hbefore : ownQuoteCount setup.symbol before = quoteCount before := by
      rw [ownQuoteCount_eq_iff] at hown ⊢
      intro delivery hdelivery
      exact hown delivery (hpre.subset hdelivery)
    rw [hcounts.engine, hcounts.orderBook, hbefore]
    exact ⟨rfl, rfl⟩

theorem noEarlyAcceptance_of_own (setup : Setup) {stream : List Delivery}
    (hcount : quoteCount stream < 2 ^ 32)
    (hagree : CountersAgree setup stream) :
    NoEarlyAcceptance setup stream := by
  intro before delivery hpre order horder hstatus
  have hbefore : before <+: stream :=
    (List.prefix_append before [delivery]).trans hpre
  have hshorter := quoteCount_le_of_isPrefix hbefore
  have hcounts := quoteCounts setup (hshorter.trans_lt hcount)
  have hten := ten_le_of_accepted hcounts horder hstatus
  rw [← (hagree before hbefore).1, hcounts.engine]
  exact hten

theorem exists_early_acceptance {setup : Setup}
    (hcap : setup.config.participationCap ≠ 0)
    (hmax : setup.config.maxQuantity ≠ 0) :
    ∃ stream, quoteCount stream < 2 ^ 32 ∧
      ¬ NoEarlyAcceptance setup stream := by
  let foreign := otherSymbol setup.symbol
  let ownBuy := unitDelivery setup setup.symbol .buy
  have hcount : quoteCount (warmUp foreign) < 2 ^ 32 := by
    simp [quoteCount, warmUp, isQuote, List.replicate]
  have hquotes := quoteCounts setup hcount
  refine ⟨warmUp foreign ++ [ownBuy], ?_, ?_⟩
  · simp [quoteCount, warmUp, isQuote, List.replicate, ownBuy, unitDelivery]
  intro hnone
  have hbook : ownQuoteCount setup.symbol (warmUp foreign) = 0 := by
    rw [ownQuoteCount, List.countP_eq_zero]
    intro delivery hdelivery
    rw [List.eq_of_mem_replicate hdelivery]
    simpa [ownQuote] using otherSymbol_ne setup.symbol
  have haccepts := warmUp_accepts_buy hcap hmax foreign setup.symbol
  have hten := hnone (warmUp foreign) ownBuy (List.prefix_refl _)
  simp only [ownBuy, unitDelivery,
    dispatch_trade_orders (after_running setup _)] at hten
  have hearly := hten _ (List.mem_singleton.mpr rfl) (by
    rw [fed_after_warmUp]
    simp [ExecutionEngine.answer, haccepts])
  rw [hquotes.orderBook, hbook] at hearly
  omega

/-- Readiness counts the quotes of the configured symbol exactly in the
streams without foreign quotes, and every configuration that can trade has a
stream in which it accepts an order on foreign quotes alone. -/
theorem readiness_counts_own_quotes_iff (setup : Setup) :
    (∀ stream, quoteCount stream < 2 ^ 32 →
      (CountersAgree setup stream ∧ NoEarlyAcceptance setup stream ↔
        ∀ delivery ∈ stream,
          foreignQuote setup.symbol delivery.message = false)) ∧
    (setup.config.participationCap ≠ 0 → setup.config.maxQuantity ≠ 0 →
      ∃ stream, quoteCount stream < 2 ^ 32 ∧
        ¬ NoEarlyAcceptance setup stream) := by
  constructor
  · intro stream hcount
    rw [← countersAgree_iff setup hcount]
    exact and_iff_left_of_imp (noEarlyAcceptance_of_own setup hcount)
  · exact exists_early_acceptance

set_option maxRecDepth 8000 in
/-- Ten quotes of another symbol and one trade: the engine has counted ten
quotes, the order book none, and the order is accepted. -/
theorem foreign_quotes_open_trading :
    let quoted := warmUp (List.Vector.replicate 12 66)
    let own : Delivery :=
      ⟨.trade
        { symbol := List.Vector.replicate 12 65
          timestampNs := 0, quantity := 10, price := 100
          aggressor := .buy, id := 2 }, ⟨5, 0, 0⟩⟩
    ¬ CountersAgree sampleSetup (quoted ++ [own]) ∧
      ¬ NoEarlyAcceptance sampleSetup (quoted ++ [own]) := by
  intro quoted own
  constructor
  · intro hagree
    have hcounters := (hagree quoted (List.prefix_append _ _)).1
    revert hcounters
    decide
  · intro hnone
    have hten := hnone quoted own (List.prefix_refl _)
    revert hten
    decide

end Components

end Slipstream
