import Slipstream.GCMDTypes

/-!
# The order book service

The service remembers the latest quote of one configured symbol and counts
the quotes it took; quotes of any other symbol are ignored.
-/

namespace Slipstream

structure OrderBookService where
  symbol : Symbol
  latestQuote : Quote
  quotesReceived : UInt64
  deriving DecidableEq

namespace OrderBookService

/-- The constructor.  `latestQuote` is what the uninitialised member happens
to hold. -/
def construct (symbol : List UInt8) (latestQuote : Quote) :
    Except Exception OrderBookService :=
  if hsize : symbol.length = 12 then
    .ok { symbol := ⟨symbol, hsize⟩
          latestQuote := latestQuote
          quotesReceived := 0 }
  else
    .error (.invalidArgument "Symbol must be exactly 12 characters (ISIN)")

def getQuote (service : OrderBookService) : Quote :=
  service.latestQuote

def setQuote (service : OrderBookService) (quote : Quote) :
    OrderBookService :=
  if quote.symbol ≠ service.symbol then service
  else
    { service with
      latestQuote := quote
      quotesReceived := service.quotesReceived + 1 }

def getQuotesReceived (service : OrderBookService) : UInt64 :=
  service.quotesReceived

def initial (symbol : Symbol) (latestQuote : Quote) : OrderBookService where
  symbol := symbol
  latestQuote := latestQuote
  quotesReceived := 0

theorem construct_eq_ok_iff (symbol : List UInt8) (latestQuote : Quote)
    (service : OrderBookService) :
    construct symbol latestQuote = .ok service ↔
      ∃ hsize : symbol.length = 12,
        service = initial ⟨symbol, hsize⟩ latestQuote := by
  unfold construct
  split
  next hsize =>
    constructor
    · intro hok
      exact ⟨hsize, (Except.ok.inj hok).symm⟩
    · rintro ⟨_, rfl⟩
      rfl
  next hsize => simp [hsize]

@[simp] theorem setQuote_symbol (service : OrderBookService)
    (quote : Quote) : (service.setQuote quote).symbol = service.symbol := by
  unfold setQuote
  split <;> rfl

theorem setQuote_quotesReceived (service : OrderBookService)
    (quote : Quote) :
    (service.setQuote quote).quotesReceived =
      if quote.symbol = service.symbol then service.quotesReceived + 1
      else service.quotesReceived := by
  unfold setQuote
  by_cases hsymbol : quote.symbol = service.symbol <;> simp [hsymbol]

end OrderBookService

end Slipstream
