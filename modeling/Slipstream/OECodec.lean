import Slipstream.GCMDCodec
import Slipstream.OETypes

/-!
# The order-entry codec

Orders and execution reports travel in the same four-byte framing as market
data, in packed bodies of their own.  Decoding a body can throw on each
enumeration byte.  A body that is decoded without an exception is the one
that encoding the result writes, so the codec is a bijection between the
in-memory records and the accepted bodies.
-/

namespace Slipstream

open PackedBytes

structure NewOrderBody where
  clientOrderId : UInt64
  symbol : Symbol
  status : UInt8
  tsNs : UInt64
  tradeId : Int64
  side : UInt8
  qty : UInt32
  limitPx : Int64
  deriving DecidableEq

structure ExecReportBody where
  clientOrderId : UInt64
  tsNs : UInt64
  status : UInt8
  filledQty : UInt32
  avgPx : Int64
  reasonCode : UInt8
  deriving DecidableEq

namespace NewOrderBody

def size : ℕ := 50

def toBytes (body : NewOrderBody) : List UInt8 :=
  uint64Bytes body.clientOrderId ++ body.symbol.toList ++ [body.status] ++
    uint64Bytes body.tsNs ++ int64Bytes body.tradeId ++ [body.side] ++
    uint32Bytes body.qty ++ int64Bytes body.limitPx

def read (memory : Memory) (address : ℕ) : NewOrderBody where
  clientOrderId := readUInt64 memory address
  symbol := readSymbol memory (address + 8)
  status := memory (address + 20)
  tsNs := readUInt64 memory (address + 21)
  tradeId := readInt64 memory (address + 29)
  side := memory (address + 37)
  qty := readUInt32 memory (address + 38)
  limitPx := readInt64 memory (address + 42)

@[simp] theorem length_toBytes (body : NewOrderBody) :
    body.toBytes.length = size := by
  simp [toBytes, size]

theorem toBytes_read (memory : Memory) (address : ℕ) :
    (read memory address).toBytes = memory.bytes address size := by
  rw [show size = 8 + 12 + 1 + 8 + 8 + 1 + 4 + 8 from rfl]
  simp only [Memory.bytes_add]
  simp only [toBytes, read, uint64Bytes_readUInt64, int64Bytes_readInt64,
    uint32Bytes_readUInt32]
  rfl

theorem read_of_holds {memory : Memory} {address : ℕ} {body : NewOrderBody}
    (hholds : memory.Holds address body.toBytes) :
    read memory address = body := by
  simp only [toBytes, Memory.holds_append, Memory.holds_cons,
    List.length_append, length_uint32Bytes, length_uint64Bytes,
    length_int64Bytes, List.Vector.toList_length, List.length_singleton,
    Nat.reduceAdd] at hholds
  rcases hholds with
    ⟨⟨⟨⟨⟨⟨⟨hid, hsymbol⟩, hstatus, -⟩, hts⟩, htradeId⟩, hside, -⟩, hqty⟩,
      hlimitPx⟩
  rw [read, readUInt64_of_holds hid, readSymbol_of_holds hsymbol, hstatus,
    readUInt64_of_holds hts, readInt64_of_holds htradeId, hside,
    readUInt32_of_holds hqty, readInt64_of_holds hlimitPx]

end NewOrderBody

namespace ExecReportBody

def size : ℕ := 30

def toBytes (body : ExecReportBody) : List UInt8 :=
  uint64Bytes body.clientOrderId ++ uint64Bytes body.tsNs ++
    [body.status] ++ uint32Bytes body.filledQty ++
    int64Bytes body.avgPx ++ [body.reasonCode]

def read (memory : Memory) (address : ℕ) : ExecReportBody where
  clientOrderId := readUInt64 memory address
  tsNs := readUInt64 memory (address + 8)
  status := memory (address + 16)
  filledQty := readUInt32 memory (address + 17)
  avgPx := readInt64 memory (address + 21)
  reasonCode := memory (address + 29)

@[simp] theorem length_toBytes (body : ExecReportBody) :
    body.toBytes.length = size := by
  simp [toBytes, size]

theorem toBytes_read (memory : Memory) (address : ℕ) :
    (read memory address).toBytes = memory.bytes address size := by
  rw [show size = 8 + 8 + 1 + 4 + 8 + 1 from rfl]
  simp only [Memory.bytes_add]
  simp only [toBytes, read, uint64Bytes_readUInt64, int64Bytes_readInt64,
    uint32Bytes_readUInt32]
  rfl

theorem read_of_holds {memory : Memory} {address : ℕ}
    {body : ExecReportBody} (hholds : memory.Holds address body.toBytes) :
    read memory address = body := by
  simp only [toBytes, Memory.holds_append, Memory.holds_cons,
    List.length_append, length_uint32Bytes, length_uint64Bytes,
    length_int64Bytes, List.length_singleton, Nat.reduceAdd] at hholds
  rcases hholds with
    ⟨⟨⟨⟨⟨hid, hts⟩, hstatus, -⟩, hfilledQty⟩, havgPx⟩, hreason, -⟩
  rw [read, readUInt64_of_holds hid, readUInt64_of_holds hts, hstatus,
    readUInt32_of_holds hfilledQty, readInt64_of_holds havgPx, hreason]

end ExecReportBody

/-! ## Conversions between wire records and messages -/

/-- C++ leaves open which of the two conversions runs first; it decides only
which exception is thrown when both fail. -/
def toNewOrder (body : NewOrderBody) : Except Exception NewOrder := do
  let status ← orderStatusFromChar body.status
  let side ← orderSideFromChar body.side
  return { clientOrderId := body.clientOrderId
           symbol := body.symbol
           status := status
           tsNs := body.tsNs
           tradeId := body.tradeId
           side := side
           qty := body.qty
           limitPx := body.limitPx }

def NewOrder.toBody (order : NewOrder) : NewOrderBody where
  clientOrderId := order.clientOrderId
  symbol := order.symbol
  status := orderStatusToChar order.status
  tsNs := order.tsNs
  tradeId := order.tradeId
  side := orderSideToChar order.side
  qty := order.qty
  limitPx := order.limitPx

def toExecReport (body : ExecReportBody) : Except Exception ExecReport := do
  let status ← execStatusFromNum body.status
  let reasonCode ← rejectReasonFromNum body.reasonCode
  return { clientOrderId := body.clientOrderId
           tsNs := body.tsNs
           status := status
           filledQty := body.filledQty
           avgPx := body.avgPx
           reasonCode := reasonCode }

def ExecReport.toBody (report : ExecReport) : ExecReportBody where
  clientOrderId := report.clientOrderId
  tsNs := report.tsNs
  status := execStatusToNum report.status
  filledQty := report.filledQty
  avgPx := report.avgPx
  reasonCode := rejectReasonToNum report.reasonCode

theorem toNewOrder_eq_ok_iff {body : NewOrderBody} {order : NewOrder} :
    toNewOrder body = .ok order ↔ order.toBody = body := by
  constructor
  · intro hdecoded
    cases hstatus : orderStatusFromChar body.status with
    | error exception =>
        rw [toNewOrder, hstatus] at hdecoded
        contradiction
    | ok status =>
        cases hside : orderSideFromChar body.side with
        | error exception =>
            rw [toNewOrder, hstatus, hside] at hdecoded
            contradiction
        | ok side =>
            simp only [toNewOrder, hstatus, hside] at hdecoded
            cases hdecoded
            simp only [NewOrder.toBody,
              orderStatusFromChar_eq_ok_iff.mp hstatus,
              orderSideFromChar_eq_ok_iff.mp hside]
  · rintro rfl
    rw [toNewOrder, NewOrder.toBody, orderStatusFromChar_eq_ok_iff.mpr rfl,
      orderSideFromChar_eq_ok_iff.mpr rfl]
    rfl

theorem toExecReport_eq_ok_iff {body : ExecReportBody}
    {report : ExecReport} :
    toExecReport body = .ok report ↔ report.toBody = body := by
  constructor
  · intro hdecoded
    cases hstatus : execStatusFromNum body.status with
    | error exception =>
        rw [toExecReport, hstatus] at hdecoded
        contradiction
    | ok status =>
        cases hreason : rejectReasonFromNum body.reasonCode with
        | error exception =>
            rw [toExecReport, hstatus, hreason] at hdecoded
            contradiction
        | ok reason =>
            simp only [toExecReport, hstatus, hreason] at hdecoded
            cases hdecoded
            simp only [ExecReport.toBody,
              execStatusFromNum_eq_ok_iff.mp hstatus,
              rejectReasonFromNum_eq_ok_iff.mp hreason]
  · rintro rfl
    rw [toExecReport, ExecReport.toBody, execStatusFromNum_eq_ok_iff.mpr rfl,
      rejectReasonFromNum_eq_ok_iff.mpr rfl]
    rfl

namespace OESerialiser

def protocolVersion : UInt8 := 1

/-- The two copies that both serialisers make, header first, and the frame
size that they return. -/
def serialiseMessage (bodySize : ℕ) (type : OEMessageType)
    (body : List UInt8) (memory : Memory) (buffer : ℕ) : ℕ × Memory :=
  let header : FrameHeader :=
    ⟨UInt16.ofNat bodySize, oeMessageTypeToNum type, protocolVersion⟩
  (FrameHeader.size + bodySize,
    (memory.write buffer header.toBytes).write (buffer + FrameHeader.size)
      body)

def serialiseNewOrderMessage (memory : Memory) (buffer : ℕ)
    (body : NewOrderBody) : ℕ × Memory :=
  serialiseMessage NewOrderBody.size .newOrder body.toBytes memory buffer

def serialiseExecReportMessage (memory : Memory) (buffer : ℕ)
    (body : ExecReportBody) : ℕ × Memory :=
  serialiseMessage ExecReportBody.size .execReport body.toBytes memory buffer

section Written

variable (memory : Memory) (buffer bodySize : ℕ) (type : OEMessageType)
  (body : List UInt8)

theorem holds_serialiseMessage :
    (serialiseMessage bodySize type body memory buffer).2.Holds buffer
      (FrameHeader.toBytes ⟨UInt16.ofNat bodySize, oeMessageTypeToNum type,
        protocolVersion⟩ ++ body) :=
  Memory.holds_write_write memory buffer
    (FrameHeader.toBytes ⟨UInt16.ofNat bodySize, oeMessageTypeToNum type,
      protocolVersion⟩) body

variable {bodySize} {body}

/-- What a serialiser writes does not depend on what the buffer held. -/
theorem bytes_serialiseMessage (hlength : body.length = bodySize) :
    (serialiseMessage bodySize type body memory buffer).2.bytes buffer
        (serialiseMessage bodySize type body memory buffer).1 =
      FrameHeader.toBytes ⟨UInt16.ofNat bodySize, oeMessageTypeToNum type,
        protocolVersion⟩ ++ body := by
  have hholds := holds_serialiseMessage memory buffer bodySize type body
  rw [Memory.Holds, List.length_append, FrameHeader.length_toBytes,
    hlength] at hholds
  exact hholds

end Written

end OESerialiser

namespace OEDeserialiser

def getNewOrderMessage (memory : Memory) (buffer : ℕ) : NewOrderBody :=
  NewOrderBody.read memory (buffer + FrameHeader.size)

def getExecReportMessage (memory : Memory) (buffer : ℕ) : ExecReportBody :=
  ExecReportBody.read memory (buffer + FrameHeader.size)

def getBodySize (memory : Memory) (buffer : ℕ) : ℕ :=
  (FrameHeader.read memory buffer).bodyLen.toNat

def getMessageType (memory : Memory) (buffer : ℕ) :
    Except Exception OEMessageType :=
  oeMessageTypeFromNum (FrameHeader.read memory buffer).msgType

/-! ## Reading a frame back -/

section RoundTrip

open OESerialiser

variable (memory : Memory) (buffer : ℕ)

theorem serialiseMessage_spec (bodySize : ℕ) (type : OEMessageType)
    (body : List UInt8) (hsize : bodySize < 2 ^ 16) :
    let written := (serialiseMessage bodySize type body memory buffer).2
    getMessageType written buffer = .ok type ∧
      getBodySize written buffer = bodySize ∧
      written.Holds (buffer + FrameHeader.size) body := by
  intro written
  have hholds := holds_serialiseMessage memory buffer bodySize type body
  rw [Memory.holds_append, FrameHeader.length_toBytes] at hholds
  have hheader := FrameHeader.read_of_holds hholds.1
  refine ⟨?_, ?_, hholds.2⟩
  · rw [getMessageType, hheader]
    exact oeMessageTypeFromNum_toNum type
  · rw [getBodySize, hheader]
    exact UInt16.toNat_ofNat_of_lt' hsize

theorem newOrder_round_trip (order : NewOrder) :
    let written := (serialiseNewOrderMessage memory buffer order.toBody).2
    toNewOrder (getNewOrderMessage written buffer) = .ok order ∧
      getMessageType written buffer = .ok .newOrder ∧
      getBodySize written buffer = order.toBody.toBytes.length := by
  intro written
  rcases serialiseMessage_spec memory buffer
      NewOrderBody.size .newOrder order.toBody.toBytes (by decide) with
    ⟨htype, hsize, hbody⟩
  rw [NewOrderBody.length_toBytes]
  refine ⟨?_, htype, hsize⟩
  rw [toNewOrder_eq_ok_iff]
  exact (NewOrderBody.read_of_holds hbody).symm

theorem execReport_round_trip (report : ExecReport) :
    let written :=
      (serialiseExecReportMessage memory buffer report.toBody).2
    toExecReport (getExecReportMessage written buffer) = .ok report ∧
      getMessageType written buffer = .ok .execReport ∧
      getBodySize written buffer = report.toBody.toBytes.length := by
  intro written
  rcases serialiseMessage_spec memory buffer
      ExecReportBody.size .execReport report.toBody.toBytes (by decide) with
    ⟨htype, hsize, hbody⟩
  rw [ExecReportBody.length_toBytes]
  refine ⟨?_, htype, hsize⟩
  rw [toExecReport_eq_ok_iff]
  exact (ExecReportBody.read_of_holds hbody).symm

variable {memory buffer}

theorem newOrder_bytes_reproduced {order : NewOrder}
    (hdecoded : toNewOrder (getNewOrderMessage memory buffer) = .ok order) :
    order.toBody.toBytes =
      memory.bytes (buffer + FrameHeader.size) NewOrderBody.size := by
  rw [toNewOrder_eq_ok_iff.mp hdecoded]
  exact NewOrderBody.toBytes_read _ _

theorem execReport_bytes_reproduced {report : ExecReport}
    (hdecoded :
      toExecReport (getExecReportMessage memory buffer) = .ok report) :
    report.toBody.toBytes =
      memory.bytes (buffer + FrameHeader.size) ExecReportBody.size := by
  rw [toExecReport_eq_ok_iff.mp hdecoded]
  exact ExecReportBody.toBytes_read _ _

/-- Serialising and reading back gives the record, the type and the body
length; and what a body decodes to is encoded as that body. -/
theorem order_entry_bijection :
    (∀ (memory : Memory) (buffer : ℕ) (order : NewOrder),
      let written := (serialiseNewOrderMessage memory buffer order.toBody).2
      toNewOrder (getNewOrderMessage written buffer) = .ok order ∧
        getMessageType written buffer = .ok .newOrder ∧
        getBodySize written buffer = order.toBody.toBytes.length) ∧
    (∀ (memory : Memory) (buffer : ℕ) (report : ExecReport),
      let written :=
        (serialiseExecReportMessage memory buffer report.toBody).2
      toExecReport (getExecReportMessage written buffer) = .ok report ∧
        getMessageType written buffer = .ok .execReport ∧
        getBodySize written buffer = report.toBody.toBytes.length) ∧
    (∀ (memory : Memory) (buffer : ℕ) (order : NewOrder),
      toNewOrder (getNewOrderMessage memory buffer) = .ok order →
        order.toBody.toBytes =
          memory.bytes (buffer + FrameHeader.size) NewOrderBody.size) ∧
    (∀ (memory : Memory) (buffer : ℕ) (report : ExecReport),
      toExecReport (getExecReportMessage memory buffer) = .ok report →
        report.toBody.toBytes =
          memory.bytes (buffer + FrameHeader.size) ExecReportBody.size) :=
  ⟨newOrder_round_trip, execReport_round_trip,
    fun _ _ _ => newOrder_bytes_reproduced,
    fun _ _ _ => execReport_bytes_reproduced⟩

end RoundTrip

end OEDeserialiser

end Slipstream
