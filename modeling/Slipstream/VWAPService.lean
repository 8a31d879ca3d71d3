import Slipstream.GCMDTypes
import Slipstream.RunHistory

/-!
# The rolling VWAP service

The service keeps the trades of a rolling time window in a ring of
`bufferSize` slots together with two running totals, and evicts expired
trades lazily.  The head and tail indices coincide both for an empty ring
and for a full one; the code tells the two apart by the total quantity.

Counters and timestamps have the widths of the source: `uint64_t` for the
total quantity and all clocks, an unsigned 128-bit integer for the priced
quantity.  Signed prices enter the latter by conversion modulo `2^128`.
-/

namespace Slipstream

inductive OverflowPolicy where
  | rejectNew
  | overwriteOldest
  | throw
  deriving DecidableEq, Repr

structure VWAPService where
  totalPricedQuantity : BitVec 128
  totalQuantity : UInt64
  rollingWindowSizeMs : UInt64
  trades : ℕ → Trade
  head : ℕ
  tail : ℕ

namespace VWAPService

def bufferSize : ℕ := 1024

/-- The constructed service.  The ring is not initialised, so its slots hold
arbitrary trades. -/
def initial (rollingWindowSizeMs : UInt64) (slots : ℕ → Trade) :
    VWAPService where
  totalPricedQuantity := 0
  totalQuantity := 0
  rollingWindowSizeMs := rollingWindowSizeMs
  trades := slots
  head := 0
  tail := 0

/-- `static_cast<unsigned __int128>(trade.quantity) * trade.price`. -/
def pricedQuantity128 (trade : Trade) : BitVec 128 :=
  BitVec.ofNat 128 trade.quantity.toNat * BitVec.ofInt 128 trade.price.toInt

def addTrade (service : VWAPService) (trade : Trade) : VWAPService :=
  { service with
    trades := Function.update service.trades service.head trade
    head := (service.head + 1) % bufferSize
    totalQuantity := service.totalQuantity + trade.quantity.toUInt64
    totalPricedQuantity :=
      service.totalPricedQuantity + pricedQuantity128 trade }

/-- The statements shared by `removeOldTrades` and `removeOldestTrade`: take
the slot at `tail` out of both totals and advance `tail`. -/
def dropTail (service : VWAPService) : VWAPService :=
  let oldestTrade := service.trades service.tail
  { service with
    totalQuantity := service.totalQuantity - oldestTrade.quantity.toUInt64
    totalPricedQuantity :=
      service.totalPricedQuantity - pricedQuantity128 oldestTrade
    tail := (service.tail + 1) % bufferSize }

/-- The age test of the eviction loop, in wrapping 64-bit arithmetic. -/
def expired (rollingWindowSizeMs currentTimestamp : UInt64)
    (trade : Trade) : Bool :=
  !(currentTimestamp - trade.timestampNs ≤ rollingWindowSizeMs)

def removeOldTradesBody (currentTimestamp : UInt64)
    (service : VWAPService) : Option VWAPService :=
  if service.head ≠ service.tail ∧ service.totalQuantity > 0 then
    if expired service.rollingWindowSizeMs currentTimestamp
        (service.trades service.tail) then
      some service.dropTail
    else none
  else none

def removeOldTrades (service : VWAPService) (currentTimestamp : UInt64) :
    VWAPService :=
  BoundedLoop.loop (removeOldTradesBody currentTimestamp) bufferSize service

def removeOldestTrade (service : VWAPService) : VWAPService :=
  if service.head = service.tail ∧ service.totalQuantity = 0 then service
  else service.dropTail

def Full (service : VWAPService) : Prop :=
  service.head = service.tail ∧ service.totalQuantity > 0

instance (service : VWAPService) : Decidable service.Full :=
  inferInstanceAs (Decidable (_ ∧ _))

def handleTrade (policy : OverflowPolicy) (service : VWAPService)
    (trade : Trade) : Outcome VWAPService Unit :=
  let service := service.removeOldTrades trade.timestampNs
  if service.Full then
    match policy with
    | .rejectNew => (.ok (), service)
    | .overwriteOldest => (.ok (), service.removeOldestTrade.addTrade trade)
    | .throw => (.error (.runtimeError "Buffer overflow"), service)
  else (.ok (), service.addTrade trade)

/-- The 128-bit quotient before it is returned as `uint64_t`. -/
def quotient (service : VWAPService) : BitVec 128 :=
  service.totalPricedQuantity / service.totalQuantity.toBitVec.setWidth 128

/-- `now` is the reading of the system clock in milliseconds. -/
def getVWAP (service : VWAPService) (now : UInt64) : UInt64 × VWAPService :=
  let service := service.removeOldTrades now
  if service.totalQuantity = 0 then (0, service)
  else (UInt64.ofBitVec (service.quotient.setWidth 64), service)

/-! ## Runs of the service -/

inductive ServiceCall where
  | handleTrade (policy : OverflowPolicy) (trade : Trade)
  | getVWAP (now : UInt64)

def ServiceCall.stamp : ServiceCall → UInt64
  | .handleTrade _ trade => trade.timestampNs
  | .getVWAP now => now

def ServiceCall.trade? : ServiceCall → Option Trade
  | .handleTrade _ trade => some trade
  | .getVWAP _ => none

def serve (service : VWAPService) :
    ServiceCall → VWAPService × Except Exception (Option UInt64)
  | .handleTrade policy trade =>
      let outcome := service.handleTrade policy trade
      (outcome.2, outcome.1.map fun _ => none)
  | .getVWAP now =>
      let answer := service.getVWAP now
      (answer.2, .ok (some answer.1))

def after (rollingWindowSizeMs : UInt64) (slots : ℕ → Trade)
    (calls : List ServiceCall) : VWAPService :=
  RunHistory.exec serve (initial rollingWindowSizeMs slots) calls

def passedTrades (calls : List ServiceCall) : List Trade :=
  calls.filterMap ServiceCall.trade?

/-- Trade timestamps and clock readings do not decrease along the calls. -/
def Chronological (calls : List ServiceCall) : Prop :=
  (calls.map ServiceCall.stamp).Pairwise (· ≤ ·)

end VWAPService

end Slipstream
