import Slipstream.CSVParser
import Slipstream.GCMDCodec

/-!
# From CSV records to market data

The replay clients copy a parsed record into the body of a message.  In the
parser prices and quantities are unsigned 64-bit words; on the wire
quantities have 32 bits and prices are signed.  The conversions are implicit
and lose what does not fit.
-/

namespace Slipstream

open PackedBytes

namespace MarketClient

def bodyFromQuote (quote : Csv.Quote) (wallClockNow : UInt64) : Quote where
  symbol := quote.symbol
  timestampNs := wallClockNow
  bidQuantity := quote.bidQuantity.toUInt32
  bidPrice := quote.bidPrice.toInt64
  askQuantity := quote.askQuantity.toUInt32
  askPrice := quote.askPrice.toInt64

end MarketClient

namespace TradeClient

def bodyFromTrade (trade : Csv.Trade) (wallClockNow : UInt64) : Trade where
  symbol := trade.symbol
  timestampNs := wallClockNow
  quantity := trade.quantity.toUInt32
  price := trade.price.toInt64
  aggressor := .unknown
  id := 0

end TradeClient

/-! ## Values that survive -/

namespace Csv

/-- The decoded quote has the symbol and the exact numbers of the record. -/
structure Quote.Preserved (record : Csv.Quote)
    (decoded : Slipstream.Quote) : Prop where
  symbol : decoded.symbol = record.symbol
  bidPrice : decoded.bidPrice.toInt = record.bidPrice.toNat
  bidQuantity : decoded.bidQuantity.toNat = record.bidQuantity.toNat
  askPrice : decoded.askPrice.toInt = record.askPrice.toNat
  askQuantity : decoded.askQuantity.toNat = record.askQuantity.toNat

structure Trade.Preserved (record : Csv.Trade)
    (decoded : Slipstream.Trade) : Prop where
  symbol : decoded.symbol = record.symbol
  price : decoded.price.toInt = record.price.toNat
  quantity : decoded.quantity.toNat = record.quantity.toNat

theorem toNat_toUInt32_eq_iff (x : UInt64) :
    x.toUInt32.toNat = x.toNat ↔ x.toNat < 2 ^ 32 := by
  rw [UInt64.toNat_toUInt32]
  exact Nat.mod_eq_iff_lt (by norm_num)

theorem toInt_toInt64_eq_iff (x : UInt64) :
    x.toInt64.toInt = x.toNat ↔ x.toNat < 2 ^ 63 := by
  have hcond : x.toInt64.toInt =
      if 2 * x.toNat < 2 ^ 64 then (x.toNat : ℤ)
      else (x.toNat : ℤ) - 2 ^ 64 :=
    BitVec.toInt_eq_toNat_cond x.toBitVec
  rw [hcond]
  split <;> omega

theorem preserved_quote_iff (record : Csv.Quote) (wallClockNow : UInt64) :
    record.Preserved (MarketClient.bodyFromQuote record wallClockNow) ↔
      record.bidPrice.toNat < 2 ^ 63 ∧ record.bidQuantity.toNat < 2 ^ 32 ∧
        record.askPrice.toNat < 2 ^ 63 ∧
          record.askQuantity.toNat < 2 ^ 32 := by
  rw [← toInt_toInt64_eq_iff, ← toNat_toUInt32_eq_iff,
    ← toInt_toInt64_eq_iff, ← toNat_toUInt32_eq_iff]
  constructor
  · rintro ⟨-, hbid, hbidQuantity, hask, haskQuantity⟩
    exact ⟨hbid, hbidQuantity, hask, haskQuantity⟩
  · rintro ⟨hbid, hbidQuantity, hask, haskQuantity⟩
    exact ⟨rfl, hbid, hbidQuantity, hask, haskQuantity⟩

theorem preserved_trade_iff (record : Csv.Trade) (wallClockNow : UInt64) :
    record.Preserved (TradeClient.bodyFromTrade record wallClockNow) ↔
      record.price.toNat < 2 ^ 63 ∧ record.quantity.toNat < 2 ^ 32 := by
  rw [← toInt_toInt64_eq_iff, ← toNat_toUInt32_eq_iff]
  constructor
  · rintro ⟨-, hprice, hquantity⟩
    exact ⟨hprice, hquantity⟩
  · rintro ⟨hprice, hquantity⟩
    exact ⟨rfl, hprice, hquantity⟩

end Csv

namespace GCMDDeserialiser

section Replay

variable (memory : Memory) (buffer : ℕ) (wallClockNow : UInt64)

theorem deserialise_bodyFromQuote (record : Csv.Quote) :
    deserialiseMessage
        (GCMDSerialiser.serialiseQuoteMessage memory buffer
          (MarketClient.bodyFromQuote record wallClockNow)).2 buffer =
      .ok (.quote (MarketClient.bodyFromQuote record wallClockNow)) :=
  deserialiseMessage_of_holds
    (GCMDSerialiser.holds_serialise memory buffer
      (.quote (MarketClient.bodyFromQuote record wallClockNow)))
    (by simp [GCMDSerialiser.messageType])

theorem deserialise_bodyFromTrade (record : Csv.Trade) :
    deserialiseMessage
        (GCMDSerialiser.serialiseTradeMessage memory buffer
          (TradeClient.bodyFromTrade record wallClockNow)).2 buffer =
      .ok (.trade (TradeClient.bodyFromTrade record wallClockNow)) :=
  deserialiseMessage_of_holds
    (GCMDSerialiser.holds_serialise memory buffer
      (.trade (TradeClient.bodyFromTrade record wallClockNow)))
    (by simp [GCMDSerialiser.messageType])

/-- A record is read back from its message with the same symbol, prices and
quantities exactly if its prices have 63 bits and its quantities 32. -/
theorem replay_preserves_iff (quote : Csv.Quote) (trade : Csv.Trade) :
    (∃ decoded,
      deserialiseMessage
          (GCMDSerialiser.serialiseQuoteMessage memory buffer
            (MarketClient.bodyFromQuote quote wallClockNow)).2 buffer =
        .ok (.quote decoded) ∧
      (quote.Preserved decoded ↔
        quote.bidPrice.toNat < 2 ^ 63 ∧
          quote.bidQuantity.toNat < 2 ^ 32 ∧
          quote.askPrice.toNat < 2 ^ 63 ∧
          quote.askQuantity.toNat < 2 ^ 32)) ∧
    ∃ decoded,
      deserialiseMessage
          (GCMDSerialiser.serialiseTradeMessage memory buffer
            (TradeClient.bodyFromTrade trade wallClockNow)).2 buffer =
        .ok (.trade decoded) ∧
      (trade.Preserved decoded ↔
        trade.price.toNat < 2 ^ 63 ∧ trade.quantity.toNat < 2 ^ 32) :=
  ⟨⟨_, deserialise_bodyFromQuote memory buffer wallClockNow quote,
      Csv.preserved_quote_iff quote wallClockNow⟩,
    ⟨_, deserialise_bodyFromTrade memory buffer wallClockNow trade,
      Csv.preserved_trade_iff trade wallClockNow⟩⟩

end Replay

def largeQuantityLine : List UInt8 :=
  "09:30:00.000,Q,AAAAAAAAAAAA,1,4294967296,1,1".toList.map Char.toUInt8

def largeQuantityQuote : Csv.Quote where
  timestamp := 34200000
  symbol := List.Vector.replicate 12 'A'.toUInt8
  bidPrice := 10000
  bidQuantity := 4294967296
  askPrice := 10000
  askQuantity := 1

/-- A quantity of `2 ^ 32` is returned by the parser and replayed as
zero. -/
theorem large_quantity_lost :
    (∃ parser,
      CSVParser.construct "quotes.csv"
          (some ("header\n".toList.map Char.toUInt8 ++
            largeQuantityLine)) = .ok parser ∧
        (CSVParser.readQuote parser).2 = .returns largeQuantityQuote) ∧
      ∃ decoded,
        deserialiseMessage
            (GCMDSerialiser.serialiseQuoteMessage (fun _ => 0) 0
              (MarketClient.bodyFromQuote largeQuantityQuote 0)).2 0 =
          .ok (.quote decoded) ∧
        decoded.bidQuantity = 0 ∧ ¬ largeQuantityQuote.Preserved decoded := by
  constructor
  · rcases CSVParser.construct_unread "quotes.csv"
        ("header\n".toList.map Char.toUInt8 ++ largeQuantityLine) with
      ⟨parser, hconstruct, hunread⟩
    have hlines : CSVParser.dataLines
        ("header\n".toList.map Char.toUInt8 ++ largeQuantityLine) =
          [largeQuantityLine] := by
      decide
    have hrow : CSVParser.quoteRow largeQuantityLine =
        some (.returns largeQuantityQuote) := rfl
    rw [hlines] at hunread
    exact ⟨parser, hconstruct,
      (CSVParser.readRow_of_unread hunread (by decide) hrow).1⟩
  · refine ⟨_, deserialise_bodyFromQuote _ _ _ _, rfl, ?_⟩
    rw [Csv.preserved_quote_iff]
    decide

end GCMDDeserialiser

end Slipstream
