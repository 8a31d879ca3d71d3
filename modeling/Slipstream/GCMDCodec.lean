import Slipstream.GCMDTypes
import Slipstream.PackedBytes

/-!
# The market-data codec

A frame is a four-byte header followed by a packed little-endian body.  The
serialiser copies header and body to a buffer and returns the frame size;
the deserialiser reads the fields back from an address.

The record types of the wire are kept apart from the in-memory ones, as in
the source: aggressor and session state are single bytes on the wire.
-/

namespace Slipstream

open PackedBytes

/-! ## Fixed-width fields -/

def uint16Bytes (value : UInt16) : List UInt8 := encode 2 value.toNat

def uint32Bytes (value : UInt32) : List UInt8 := encode 4 value.toNat

def uint64Bytes (value : UInt64) : List UInt8 := encode 8 value.toNat

def int64Bytes (value : Int64) : List UInt8 := uint64Bytes value.toUInt64

def readUInt16 (memory : Memory) (address : ℕ) : UInt16 :=
  UInt16.ofNat (decode (memory.bytes address 2))

def readUInt32 (memory : Memory) (address : ℕ) : UInt32 :=
  UInt32.ofNat (decode (memory.bytes address 4))

def readUInt64 (memory : Memory) (address : ℕ) : UInt64 :=
  UInt64.ofNat (decode (memory.bytes address 8))

def readInt64 (memory : Memory) (address : ℕ) : Int64 :=
  (readUInt64 memory address).toInt64

def readSymbol (memory : Memory) (address : ℕ) : Symbol :=
  ⟨memory.bytes address 12, memory.length_bytes address 12⟩

section Fields

variable {memory : Memory} {address : ℕ}

@[simp] theorem length_uint16Bytes (value : UInt16) :
    (uint16Bytes value).length = 2 := length_encode 2 _

@[simp] theorem length_uint32Bytes (value : UInt32) :
    (uint32Bytes value).length = 4 := length_encode 4 _

@[simp] theorem length_uint64Bytes (value : UInt64) :
    (uint64Bytes value).length = 8 := length_encode 8 _

@[simp] theorem length_int64Bytes (value : Int64) :
    (int64Bytes value).length = 8 := length_encode 8 _

theorem readUInt16_of_holds {value : UInt16}
    (hholds : memory.Holds address (uint16Bytes value)) :
    readUInt16 memory address = value := by
  rw [Memory.Holds, length_uint16Bytes] at hholds
  rw [readUInt16, hholds, uint16Bytes, decode_encode_of_lt value.toNat_lt,
    UInt16.ofNat_toNat]

theorem readUInt32_of_holds {value : UInt32}
    (hholds : memory.Holds address (uint32Bytes value)) :
    readUInt32 memory address = value := by
  rw [Memory.Holds, length_uint32Bytes] at hholds
  rw [readUInt32, hholds, uint32Bytes, decode_encode_of_lt value.toNat_lt,
    UInt32.ofNat_toNat]

theorem readUInt64_of_holds {value : UInt64}
    (hholds : memory.Holds address (uint64Bytes value)) :
    readUInt64 memory address = value := by
  rw [Memory.Holds, length_uint64Bytes] at hholds
  rw [readUInt64, hholds, uint64Bytes, decode_encode_of_lt value.toNat_lt,
    UInt64.ofNat_toNat]

theorem readInt64_of_holds {value : Int64}
    (hholds : memory.Holds address (int64Bytes value)) :
    readInt64 memory address = value := by
  rw [readInt64, readUInt64_of_holds hholds]
  exact value.toInt64_toUInt64

theorem readSymbol_of_holds {symbol : Symbol}
    (hholds : memory.Holds address symbol.toList) :
    readSymbol memory address = symbol := by
  rw [Memory.Holds, symbol.toList_length] at hholds
  exact Subtype.ext hholds

theorem uint16Bytes_readUInt16 :
    uint16Bytes (readUInt16 memory address) = memory.bytes address 2 := by
  have hlt := decode_lt (memory.bytes address 2)
  rw [Memory.length_bytes] at hlt
  have hback := encode_decode (memory.bytes address 2)
  rw [Memory.length_bytes] at hback
  rw [uint16Bytes, readUInt16, UInt16.toNat_ofNat_of_lt' hlt, hback]

theorem uint32Bytes_readUInt32 :
    uint32Bytes (readUInt32 memory address) = memory.bytes address 4 := by
  have hlt := decode_lt (memory.bytes address 4)
  rw [Memory.length_bytes] at hlt
  have hback := encode_decode (memory.bytes address 4)
  rw [Memory.length_bytes] at hback
  rw [uint32Bytes, readUInt32, UInt32.toNat_ofNat_of_lt' hlt, hback]

theorem uint64Bytes_readUInt64 :
    uint64Bytes (readUInt64 memory address) = memory.bytes address 8 := by
  have hlt := decode_lt (memory.bytes address 8)
  rw [Memory.length_bytes] at hlt
  have hback := encode_decode (memory.bytes address 8)
  rw [Memory.length_bytes] at hback
  rw [uint64Bytes, readUInt64, UInt64.toNat_ofNat_of_lt' hlt, hback]

theorem int64Bytes_readInt64 :
    int64Bytes (readInt64 memory address) = memory.bytes address 8 := by
  rw [int64Bytes, readInt64, UInt64.toUInt64_toInt64, uint64Bytes_readUInt64]

end Fields

/-! ## Headers and bodies -/

structure FrameHeader where
  bodyLen : UInt16
  msgType : UInt8
  version : UInt8
  deriving DecidableEq

structure QuoteBody where
  symbol : Symbol
  timestampNs : UInt64
  bidQuantity : UInt32
  bidPrice : Int64
  askQuantity : UInt32
  askPrice : Int64
  deriving DecidableEq

structure TradeBody where
  symbol : Symbol
  timestampNs : UInt64
  quantity : UInt32
  price : Int64
  aggressor : UInt8
  id : Int64
  deriving DecidableEq

structure HeartbeatBody where
  timestamp : UInt64
  deriving DecidableEq

structure SessionControlBody where
  timestamp : UInt64
  state : UInt8
  deriving DecidableEq

namespace FrameHeader

def size : ℕ := 4

def toBytes (header : FrameHeader) : List UInt8 :=
  uint16Bytes header.bodyLen ++ [header.msgType, header.version]

def read (memory : Memory) (address : ℕ) : FrameHeader where
  bodyLen := readUInt16 memory address
  msgType := memory (address + 2)
  version := memory (address + 3)

@[simp] theorem length_toBytes (header : FrameHeader) :
    header.toBytes.length = size := by
  simp [toBytes, size]

theorem toBytes_read (memory : Memory) (address : ℕ) :
    (read memory address).toBytes = memory.bytes address size := by
  rw [show size = 2 + 1 + 1 from rfl]
  simp only [Memory.bytes_add]
  simp only [toBytes, read, uint16Bytes_readUInt16]
  rfl

theorem read_of_holds {memory : Memory} {address : ℕ}
    {header : FrameHeader} (hholds : memory.Holds address header.toBytes) :
    read memory address = header := by
  simp only [toBytes, Memory.holds_append, Memory.holds_cons,
    length_uint16Bytes] at hholds
  rcases hholds with ⟨hlen, htype, hversion, -⟩
  rw [read, readUInt16_of_holds hlen, htype]
  exact congrArg (FrameHeader.mk _ _) hversion

end FrameHeader

namespace QuoteBody

def size : ℕ := 44

def toBytes (body : QuoteBody) : List UInt8 :=
  body.symbol.toList ++ uint64Bytes body.timestampNs ++
    uint32Bytes body.bidQuantity ++ int64Bytes body.bidPrice ++
    uint32Bytes body.askQuantity ++ int64Bytes body.askPrice

def read (memory : Memory) (address : ℕ) : QuoteBody where
  symbol := readSymbol memory address
  timestampNs := readUInt64 memory (address + 12)
  bidQuantity := readUInt32 memory (address + 20)
  bidPrice := readInt64 memory (address + 24)
  askQuantity := readUInt32 memory (address + 32)
  askPrice := readInt64 memory (address + 36)

@[simp] theorem length_toBytes (body : QuoteBody) :
    body.toBytes.length = size := by
  simp [toBytes, size]

theorem toBytes_read (memory : Memory) (address : ℕ) :
    (read memory address).toBytes = memory.bytes address size := by
  rw [show size = 12 + 8 + 4 + 8 + 4 + 8 from rfl]
  simp only [Memory.bytes_add]
  simp only [toBytes, read, uint64Bytes_readUInt64, int64Bytes_readInt64,
    uint32Bytes_readUInt32]
  rfl

theorem read_of_holds {memory : Memory} {address : ℕ} {body : QuoteBody}
    (hholds : memory.Holds address body.toBytes) :
    read memory address = body := by
  simp only [toBytes, Memory.holds_append, List.length_append,
    length_uint32Bytes, length_uint64Bytes, length_int64Bytes,
    List.Vector.toList_length, Nat.reduceAdd] at hholds
  rcases hholds with
    ⟨⟨⟨⟨⟨hsymbol, htimestamp⟩, hbidQuantity⟩, hbidPrice⟩, haskQuantity⟩,
      haskPrice⟩
  rw [read, readSymbol_of_holds hsymbol, readUInt64_of_holds htimestamp,
    readUInt32_of_holds hbidQuantity, readInt64_of_holds hbidPrice,
    readUInt32_of_holds haskQuantity, readInt64_of_holds haskPrice]

end QuoteBody

namespace TradeBody

def size : ℕ := 41

def toBytes (body : TradeBody) : List UInt8 :=
  body.symbol.toList ++ uint64Bytes body.timestampNs ++
    uint32Bytes body.quantity ++ int64Bytes body.price ++
    [body.aggressor] ++ int64Bytes body.id

def read (memory : Memory) (address : ℕ) : TradeBody where
  symbol := readSymbol memory address
  timestampNs := readUInt64 memory (address + 12)
  quantity := readUInt32 memory (address + 20)
  price := readInt64 memory (address + 24)
  aggressor := memory (address + 32)
  id := readInt64 memory (address + 33)

@[simp] theorem length_toBytes (body : TradeBody) :
    body.toBytes.length = size := by
  simp [toBytes, size]

theorem toBytes_read (memory : Memory) (address : ℕ) :
    (read memory address).toBytes = memory.bytes address size := by
  rw [show size = 12 + 8 + 4 + 8 + 1 + 8 from rfl]
  simp only [Memory.bytes_add]
  simp only [toBytes, read, uint64Bytes_readUInt64, int64Bytes_readInt64,
    uint32Bytes_readUInt32]
  rfl

theorem read_of_holds {memory : Memory} {address : ℕ} {body : TradeBody}
    (hholds : memory.Holds address body.toBytes) :
    read memory address = body := by
  simp only [toBytes, Memory.holds_append, Memory.holds_cons,
    List.length_append, length_uint32Bytes, length_uint64Bytes,
    length_int64Bytes, List.Vector.toList_length, List.length_singleton,
    Nat.reduceAdd] at hholds
  rcases hholds with
    ⟨⟨⟨⟨⟨hsymbol, htimestamp⟩, hquantity⟩, hprice⟩, haggressor, -⟩, hid⟩
  rw [read, readSymbol_of_holds hsymbol, readUInt64_of_holds htimestamp,
    readUInt32_of_holds hquantity, readInt64_of_holds hprice, haggressor,
    readInt64_of_holds hid]

end TradeBody

namespace HeartbeatBody

def size : ℕ := 8

def toBytes (body : HeartbeatBody) : List UInt8 :=
  uint64Bytes body.timestamp

def read (memory : Memory) (address : ℕ) : HeartbeatBody where
  timestamp := readUInt64 memory address

@[simp] theorem length_toBytes (body : HeartbeatBody) :
    body.toBytes.length = size := length_uint64Bytes _

theorem toBytes_read (memory : Memory) (address : ℕ) :
    (read memory address).toBytes = memory.bytes address size :=
  uint64Bytes_readUInt64

theorem read_of_holds {memory : Memory} {address : ℕ}
    {body : HeartbeatBody} (hholds : memory.Holds address body.toBytes) :
    read memory address = body := by
  rw [read, readUInt64_of_holds hholds]

end HeartbeatBody

namespace SessionControlBody

def size : ℕ := 9

def toBytes (body : SessionControlBody) : List UInt8 :=
  uint64Bytes body.timestamp ++ [body.state]

def read (memory : Memory) (address : ℕ) : SessionControlBody where
  timestamp := readUInt64 memory address
  state := memory (address + 8)

@[simp] theorem length_toBytes (body : SessionControlBody) :
    body.toBytes.length = size := by
  simp [toBytes, size]

theorem toBytes_read (memory : Memory) (address : ℕ) :
    (read memory address).toBytes = memory.bytes address size := by
  rw [show size = 8 + 1 from rfl]
  simp only [Memory.bytes_add]
  simp only [toBytes, read, uint64Bytes_readUInt64]
  rfl

theorem read_of_holds {memory : Memory} {address : ℕ}
    {body : SessionControlBody}
    (hholds : memory.Holds address body.toBytes) :
    read memory address = body := by
  simp only [toBytes, Memory.holds_append, Memory.holds_cons,
    length_uint64Bytes] at hholds
  rcases hholds with ⟨htimestamp, hstate, -⟩
  rw [read, readUInt64_of_holds htimestamp, hstate]

end SessionControlBody

/-! ## Conversions between wire records and messages -/

def toQuote (body : QuoteBody) : Quote where
  symbol := body.symbol
  timestampNs := body.timestampNs
  bidQuantity := body.bidQuantity
  bidPrice := body.bidPrice
  askQuantity := body.askQuantity
  askPrice := body.askPrice

def toTrade (body : TradeBody) : Except Exception Trade := do
  let aggressor ← aggressorFromChar body.aggressor
  return { symbol := body.symbol
           timestampNs := body.timestampNs
           quantity := body.quantity
           price := body.price
           aggressor := aggressor
           id := body.id }

def toHeartbeat (body : HeartbeatBody) : Heartbeat where
  timestamp := body.timestamp

def toSessionControl (body : SessionControlBody) :
    Except Exception SessionControl := do
  let state ← sessionControlStateFromNum body.state
  return { timestamp := body.timestamp, state := state }

namespace GCMDSerialiser

def protocolVersion : UInt8 := 1

def toQuoteBody (quote : Quote) : QuoteBody where
  symbol := quote.symbol
  timestampNs := quote.timestampNs
  bidQuantity := quote.bidQuantity
  bidPrice := quote.bidPrice
  askQuantity := quote.askQuantity
  askPrice := quote.askPrice

def toTradeBody (trade : Trade) : TradeBody where
  symbol := trade.symbol
  timestampNs := trade.timestampNs
  quantity := trade.quantity
  price := trade.price
  aggressor := aggressorToChar trade.aggressor
  id := trade.id

def toHeartbeatBody (heartbeat : Heartbeat) : HeartbeatBody where
  timestamp := heartbeat.timestamp

def toSessionControlBody (sessionControl : SessionControl) :
    SessionControlBody where
  timestamp := sessionControl.timestamp
  state := sessionControlStateToNum sessionControl.state

/-- The two copies that every serialiser makes, header first, and the frame
size that it returns. -/
def serialiseMessage (bodySize : ℕ) (type : MessageType)
    (body : List UInt8) (memory : Memory) (buffer : ℕ) : ℕ × Memory :=
  let header : FrameHeader :=
    ⟨UInt16.ofNat bodySize, messageTypeToNum type, protocolVersion⟩
  (FrameHeader.size + bodySize,
    (memory.write buffer header.toBytes).write (buffer + FrameHeader.size)
      body)

def serialiseQuoteMessage (memory : Memory) (buffer : ℕ) (quote : Quote) :
    ℕ × Memory :=
  serialiseMessage QuoteBody.size .quote (toQuoteBody quote).toBytes memory
    buffer

def serialiseTradeMessage (memory : Memory) (buffer : ℕ) (trade : Trade) :
    ℕ × Memory :=
  serialiseMessage TradeBody.size .trade (toTradeBody trade).toBytes memory
    buffer

def serialiseHeartBeatMessage (memory : Memory) (buffer : ℕ)
    (heartbeat : Heartbeat) : ℕ × Memory :=
  serialiseMessage HeartbeatBody.size .heartbeat
    (toHeartbeatBody heartbeat).toBytes memory buffer

def serialiseSessionControlMessage (memory : Memory) (buffer : ℕ)
    (sessionControl : SessionControl) : ℕ × Memory :=
  serialiseMessage SessionControlBody.size .sessionControl
    (toSessionControlBody sessionControl).toBytes memory buffer

def serialise (memory : Memory) (buffer : ℕ) : MDMessage → ℕ × Memory
  | .quote quote => serialiseQuoteMessage memory buffer quote
  | .trade trade => serialiseTradeMessage memory buffer trade
  | .heartbeat heartbeat => serialiseHeartBeatMessage memory buffer heartbeat
  | .sessionControl sessionControl =>
      serialiseSessionControlMessage memory buffer sessionControl

/-- The bytes that serialising a message to an empty buffer writes. -/
def frame (message : MDMessage) : List UInt8 :=
  let written := serialise (fun _ => 0) 0 message
  written.2.bytes 0 written.1

def bodySize : MDMessage → ℕ
  | .quote _ => QuoteBody.size
  | .trade _ => TradeBody.size
  | .heartbeat _ => HeartbeatBody.size
  | .sessionControl _ => SessionControlBody.size

def messageType : MDMessage → MessageType
  | .quote _ => .quote
  | .trade _ => .trade
  | .heartbeat _ => .heartbeat
  | .sessionControl _ => .sessionControl

def bodyBytes : MDMessage → List UInt8
  | .quote quote => (toQuoteBody quote).toBytes
  | .trade trade => (toTradeBody trade).toBytes
  | .heartbeat heartbeat => (toHeartbeatBody heartbeat).toBytes
  | .sessionControl sessionControl =>
      (toSessionControlBody sessionControl).toBytes

def header (message : MDMessage) : FrameHeader where
  bodyLen := UInt16.ofNat (bodySize message)
  msgType := messageTypeToNum (messageType message)
  version := protocolVersion

theorem serialise_eq (memory : Memory) (buffer : ℕ) (message : MDMessage) :
    serialise memory buffer message =
      (FrameHeader.size + bodySize message,
        (memory.write buffer (header message).toBytes).write
          (buffer + FrameHeader.size) (bodyBytes message)) := by
  cases message <;> rfl

@[simp] theorem length_bodyBytes (message : MDMessage) :
    (bodyBytes message).length = bodySize message := by
  cases message <;> simp [bodyBytes, bodySize]

theorem holds_serialise_parts (memory : Memory) (buffer : ℕ)
    (message : MDMessage) :
    (serialise memory buffer message).2.Holds buffer
      ((header message).toBytes ++ bodyBytes message) := by
  rw [serialise_eq, ← FrameHeader.length_toBytes (header message)]
  exact Memory.holds_write_write _ _ _ _

theorem serialise_size (memory : Memory) (buffer : ℕ)
    (message : MDMessage) :
    (serialise memory buffer message).1 =
      ((header message).toBytes ++ bodyBytes message).length := by
  rw [serialise_eq, List.length_append, FrameHeader.length_toBytes,
    length_bodyBytes]

theorem bytes_serialise (memory : Memory) (buffer : ℕ)
    (message : MDMessage) :
    (serialise memory buffer message).2.bytes buffer
        (serialise memory buffer message).1 =
      (header message).toBytes ++ bodyBytes message := by
  rw [serialise_size]
  exact holds_serialise_parts memory buffer message

theorem frame_eq (message : MDMessage) :
    frame message = (header message).toBytes ++ bodyBytes message :=
  bytes_serialise _ 0 message

theorem holds_serialise (memory : Memory) (buffer : ℕ)
    (message : MDMessage) :
    (serialise memory buffer message).2.Holds buffer (frame message) := by
  rw [frame_eq]
  exact holds_serialise_parts memory buffer message

theorem length_frame (message : MDMessage) :
    (frame message).length = FrameHeader.size + bodySize message := by
  simp [frame_eq]

def maxFrameSize : ℕ :=
  FrameHeader.size + max HeartbeatBody.size
    (max QuoteBody.size (max TradeBody.size SessionControlBody.size))

theorem length_frame_le (message : MDMessage) :
    (frame message).length ≤ maxFrameSize := by
  rw [length_frame]
  cases message <;>
    simp [bodySize, maxFrameSize, FrameHeader.size, QuoteBody.size,
      TradeBody.size, HeartbeatBody.size, SessionControlBody.size]

end GCMDSerialiser

namespace GCMDDeserialiser

def getBodySize (memory : Memory) (buffer : ℕ) : ℕ :=
  (FrameHeader.read memory buffer).bodyLen.toNat

def getMessageSize (memory : Memory) (buffer : ℕ) : ℕ :=
  FrameHeader.size + getBodySize memory buffer

def getMessageType (memory : Memory) (buffer : ℕ) :
    Except Exception MessageType :=
  messageTypeFromNum (FrameHeader.read memory buffer).msgType

def getHeartBeatMessage (memory : Memory) (buffer : ℕ) : Heartbeat :=
  toHeartbeat (HeartbeatBody.read memory (buffer + FrameHeader.size))

def getQuoteMessage (memory : Memory) (buffer : ℕ) : Quote :=
  toQuote (QuoteBody.read memory (buffer + FrameHeader.size))

def getTradeMessage (memory : Memory) (buffer : ℕ) :
    Except Exception Trade :=
  toTrade (TradeBody.read memory (buffer + FrameHeader.size))

def getSessionControlMessage (memory : Memory) (buffer : ℕ) :
    Except Exception SessionControl :=
  toSessionControl
    (SessionControlBody.read memory (buffer + FrameHeader.size))

/-- The `switch` covers every message type, so the exception after it is
never reached. -/
def deserialiseMessage (memory : Memory) (buffer : ℕ) :
    Except Exception MDMessage := do
  match ← getMessageType memory buffer with
  | .quote => return .quote (getQuoteMessage memory buffer)
  | .trade => return .trade (← getTradeMessage memory buffer)
  | .heartbeat => return .heartbeat (getHeartBeatMessage memory buffer)
  | .sessionControl =>
      return .sessionControl (← getSessionControlMessage memory buffer)

/-! ## Reading a frame back -/

section RoundTrip

open GCMDSerialiser

variable {memory : Memory} {address : ℕ} {message : MDMessage}

theorem read_header_of_holds (hholds : memory.Holds address (frame message)) :
    FrameHeader.read memory address = header message := by
  rw [frame_eq, Memory.holds_append] at hholds
  exact FrameHeader.read_of_holds hholds.1

theorem holds_body_of_holds (hholds : memory.Holds address (frame message)) :
    memory.Holds (address + FrameHeader.size) (bodyBytes message) := by
  rw [frame_eq, Memory.holds_append, FrameHeader.length_toBytes] at hholds
  exact hholds.2

theorem getMessageSize_of_holds
    (hholds : memory.Holds address (frame message)) :
    getMessageSize memory address = (frame message).length := by
  rw [getMessageSize, getBodySize, read_header_of_holds hholds, length_frame]
  cases message <;> rfl

theorem getMessageType_of_holds
    (hholds : memory.Holds address (frame message)) :
    getMessageType memory address = .ok (messageType message) := by
  rw [getMessageType, read_header_of_holds hholds]
  exact messageTypeFromNum_toNum (messageType message)

theorem toTrade_toTradeBody (trade : Trade) :
    toTrade (toTradeBody trade) = .ok trade := by
  rw [toTrade, toTradeBody, aggressorFromChar_toChar]
  rfl

/-- What reading the frame of a message gives. -/
def decoded : MDMessage → MDMessage
  | .sessionControl sessionControl =>
      .sessionControl
        { sessionControl with state := decodedState sessionControl.state }
  | message => message

theorem toSessionControl_toSessionControlBody
    (sessionControl : SessionControl) :
    toSessionControl (toSessionControlBody sessionControl) =
      .ok { sessionControl with
        state := decodedState sessionControl.state } := by
  rw [toSessionControl, toSessionControlBody,
    sessionControlStateFromNum_toNum]
  rfl

theorem deserialiseMessage_eq_decoded
    (hholds : memory.Holds address (frame message)) :
    deserialiseMessage memory address = .ok (decoded message) := by
  have htype := getMessageType_of_holds hholds
  have hbody := holds_body_of_holds hholds
  rw [deserialiseMessage, htype]
  cases message with
  | quote quote =>
      have hread := QuoteBody.read_of_holds hbody
      simp only [messageType, getQuoteMessage, hread]
      rfl
  | trade trade =>
      have hread := TradeBody.read_of_holds hbody
      simp only [messageType, getTradeMessage, hread, toTrade_toTradeBody]
      rfl
  | heartbeat heartbeat =>
      have hread := HeartbeatBody.read_of_holds hbody
      simp only [messageType, getHeartBeatMessage, hread]
      rfl
  | sessionControl sessionControl =>
      have hread := SessionControlBody.read_of_holds hbody
      simp only [messageType, getSessionControlMessage, hread,
        toSessionControl_toSessionControlBody]
      rfl

theorem decoded_eq_self_iff (message : MDMessage) :
    decoded message = message ↔
      ∀ sessionControl, message = .sessionControl sessionControl →
        sessionControl.state = .opened := by
  cases message with
  | quote quote => simp [decoded]
  | trade trade => simp [decoded]
  | heartbeat heartbeat => simp [decoded]
  | sessionControl sessionControl =>
      cases sessionControl
      simp [decoded, decodedState_eq_self_iff]

/-- Apart from session control, a message is read back from its frame. -/
theorem deserialiseMessage_of_holds
    (hholds : memory.Holds address (frame message))
    (hkind : messageType message ≠ .sessionControl) :
    deserialiseMessage memory address = .ok message := by
  rw [deserialiseMessage_eq_decoded hholds,
    (decoded_eq_self_iff message).mpr]
  rintro sessionControl rfl
  exact absurd rfl hkind

/-- Reading back what a serialiser wrote gives the message and the length
that was returned, except for a session control that is not `OPEN`. -/
theorem round_trip_iff (memory : Memory) (buffer : ℕ)
    (message : MDMessage) :
    deserialiseMessage (serialise memory buffer message).2 buffer =
          .ok message ∧
        getMessageSize (serialise memory buffer message).2 buffer =
          (serialise memory buffer message).1 ↔
      ∀ sessionControl, message = .sessionControl sessionControl →
        sessionControl.state = .opened := by
  have hholds := holds_serialise memory buffer message
  rw [deserialiseMessage_eq_decoded hholds, getMessageSize_of_holds hholds,
    serialise_size, ← frame_eq, Except.ok.injEq, decoded_eq_self_iff,
    and_iff_left rfl]

/-- `HALT` is read back as `CLOSE`. -/
theorem session_halt_not_read_back :
    deserialiseMessage (serialise (fun _ => 0) 0
        (.sessionControl ⟨555, .halt⟩)).2 0 ≠
      .ok (.sessionControl ⟨555, .halt⟩) := by
  rw [deserialiseMessage_eq_decoded (holds_serialise _ _ _)]
  decide

end RoundTrip

end GCMDDeserialiser

end Slipstream
