import Slipstream.MessageReconstructor

/-!
# What decoding a frame reads

The reconstructor takes the length of a frame from its header, the decoder
takes the size of the body from the message type, and nothing compares the
two.  A frame is decoded from its own bytes alone exactly when the bytes
that the decoder reads lie inside it.

A trade with an unknown aggressor is given up before its last field is
read, so that it needs fewer bytes than a trade that is decoded.
-/

namespace Slipstream

open PackedBytes

namespace GCMDDeserialiser

/-- The bytes of the body that are read before a message or an exception
results. -/
def bodyBytesRead (memory : Memory) (buffer : ℕ) : ℕ :=
  match getMessageType memory buffer with
  | .error _ => 0
  | .ok .quote => QuoteBody.size
  | .ok .trade =>
      match aggressorFromChar
          (TradeBody.read memory (buffer + FrameHeader.size)).aggressor with
      | .error _ => 33
      | .ok _ => TradeBody.size
  | .ok .heartbeat => HeartbeatBody.size
  | .ok .sessionControl => SessionControlBody.size

/-- Decoding gives the same result wherever the bytes of the frame lie and
whatever surrounds them. -/
def DecodesAlone (memory : Memory) (buffer : ℕ) : Prop :=
  ∀ other target,
    other.bytes target (getMessageSize memory buffer) =
        memory.bytes buffer (getMessageSize memory buffer) →
      deserialiseMessage other target = deserialiseMessage memory buffer

section Kinds

variable {memory : Memory} {buffer : ℕ}

theorem deserialiseMessage_of_error {exception : Exception}
    (htype : getMessageType memory buffer = .error exception) :
    deserialiseMessage memory buffer = .error exception := by
  rw [deserialiseMessage, htype]
  rfl

theorem deserialiseMessage_of_quote
    (htype : getMessageType memory buffer = .ok .quote) :
    deserialiseMessage memory buffer =
      .ok (.quote (getQuoteMessage memory buffer)) := by
  rw [deserialiseMessage, htype]
  rfl

theorem deserialiseMessage_of_trade
    (htype : getMessageType memory buffer = .ok .trade) :
    deserialiseMessage memory buffer =
      (getTradeMessage memory buffer).map .trade := by
  rw [deserialiseMessage, htype]
  cases hbody : getTradeMessage memory buffer <;> rfl

theorem deserialiseMessage_of_heartbeat
    (htype : getMessageType memory buffer = .ok .heartbeat) :
    deserialiseMessage memory buffer =
      .ok (.heartbeat (getHeartBeatMessage memory buffer)) := by
  rw [deserialiseMessage, htype]
  rfl

theorem deserialiseMessage_of_sessionControl
    (htype : getMessageType memory buffer = .ok .sessionControl) :
    deserialiseMessage memory buffer =
      (getSessionControlMessage memory buffer).map .sessionControl := by
  rw [deserialiseMessage, htype]
  cases hbody : getSessionControlMessage memory buffer <;> rfl

theorem getTradeMessage_of_error {exception : Exception}
    (haggressor : aggressorFromChar
      (TradeBody.read memory (buffer + FrameHeader.size)).aggressor =
        .error exception) :
    getTradeMessage memory buffer = .error exception := by
  rw [getTradeMessage, toTrade, haggressor]
  rfl

end Kinds

/-! ## Frames that hold what is read -/

section Agreement

variable {memory other : Memory} {buffer target count : ℕ}
  (hagree : other.bytes target count = memory.bytes buffer count)
include hagree

theorem byte_congr {offset : ℕ} (hoffset : offset < count) :
    other (target + offset) = memory (buffer + offset) :=
  Memory.bytes_eq_iff.mp hagree offset hoffset

theorem readUInt32_congr {offset : ℕ} (hoffset : offset + 4 ≤ count) :
    readUInt32 other (target + offset) =
      readUInt32 memory (buffer + offset) := by
  rw [readUInt32, readUInt32, Memory.bytes_slice hagree hoffset]

theorem readUInt64_congr {offset : ℕ} (hoffset : offset + 8 ≤ count) :
    readUInt64 other (target + offset) =
      readUInt64 memory (buffer + offset) := by
  rw [readUInt64, readUInt64, Memory.bytes_slice hagree hoffset]

theorem readInt64_congr {offset : ℕ} (hoffset : offset + 8 ≤ count) :
    readInt64 other (target + offset) =
      readInt64 memory (buffer + offset) := by
  rw [readInt64, readInt64, readUInt64_congr hagree hoffset]

theorem readSymbol_congr {offset : ℕ} (hoffset : offset + 12 ≤ count) :
    readSymbol other (target + offset) =
      readSymbol memory (buffer + offset) :=
  Subtype.ext (Memory.bytes_slice hagree hoffset)

theorem getMessageType_congr (hcount : 4 ≤ count) :
    getMessageType other target = getMessageType memory buffer := by
  simp only [getMessageType, FrameHeader.read,
    byte_congr hagree (by omega : 2 < count)]

theorem getQuoteMessage_congr
    (hcount : FrameHeader.size + QuoteBody.size ≤ count) :
    getQuoteMessage other target = getQuoteMessage memory buffer := by
  simp only [FrameHeader.size, QuoteBody.size] at hcount
  simp only [getQuoteMessage, QuoteBody.read, FrameHeader.size, Nat.add_assoc,
    Nat.reduceAdd]
  rw [readSymbol_congr hagree (by omega), readUInt64_congr hagree (by omega),
    readUInt32_congr hagree (by omega), readInt64_congr hagree (by omega),
    readUInt32_congr hagree (by omega), readInt64_congr hagree (by omega)]

theorem tradeAggressor_congr (hcount : FrameHeader.size + 33 ≤ count) :
    (TradeBody.read other (target + FrameHeader.size)).aggressor =
      (TradeBody.read memory (buffer + FrameHeader.size)).aggressor := by
  simp only [FrameHeader.size] at hcount
  simp only [TradeBody.read, FrameHeader.size, Nat.add_assoc, Nat.reduceAdd]
  exact byte_congr hagree (by omega)

theorem getTradeMessage_congr
    (hcount : FrameHeader.size + TradeBody.size ≤ count) :
    getTradeMessage other target = getTradeMessage memory buffer := by
  simp only [FrameHeader.size, TradeBody.size] at hcount
  simp only [getTradeMessage, TradeBody.read, FrameHeader.size, Nat.add_assoc,
    Nat.reduceAdd]
  rw [readSymbol_congr hagree (by omega), readUInt64_congr hagree (by omega),
    readUInt32_congr hagree (by omega), readInt64_congr hagree (by omega),
    byte_congr hagree (by omega), readInt64_congr hagree (by omega)]

theorem getHeartBeatMessage_congr
    (hcount : FrameHeader.size + HeartbeatBody.size ≤ count) :
    getHeartBeatMessage other target =
      getHeartBeatMessage memory buffer := by
  simp only [FrameHeader.size, HeartbeatBody.size] at hcount
  simp only [getHeartBeatMessage, HeartbeatBody.read, FrameHeader.size]
  rw [readUInt64_congr hagree (by omega)]

theorem getSessionControlMessage_congr
    (hcount : FrameHeader.size + SessionControlBody.size ≤ count) :
    getSessionControlMessage other target =
      getSessionControlMessage memory buffer := by
  simp only [FrameHeader.size, SessionControlBody.size] at hcount
  simp only [getSessionControlMessage, SessionControlBody.read,
    FrameHeader.size, Nat.add_assoc, Nat.reduceAdd]
  rw [readUInt64_congr hagree (by omega), byte_congr hagree (by omega)]

end Agreement

theorem decodesAlone_of_reads {memory : Memory} {buffer : ℕ}
    (hreads : bodyBytesRead memory buffer ≤ getBodySize memory buffer) :
    DecodesAlone memory buffer := by
  intro other target hagree
  have hsize : FrameHeader.size + bodyBytesRead memory buffer ≤
      getMessageSize memory buffer := Nat.add_le_add_left hreads _
  have hkind : getMessageType other target = getMessageType memory buffer :=
    getMessageType_congr hagree
      ((Nat.le_add_right _ _).trans hsize)
  unfold bodyBytesRead at hsize
  cases htype : getMessageType memory buffer with
  | error exception =>
      rw [deserialiseMessage_of_error htype,
        deserialiseMessage_of_error (hkind.trans htype)]
  | ok kind =>
      rw [htype] at hsize hkind
      cases kind with
      | quote =>
          rw [deserialiseMessage_of_quote htype,
            deserialiseMessage_of_quote hkind,
            getQuoteMessage_congr hagree hsize]
      | trade =>
          rw [deserialiseMessage_of_trade htype,
            deserialiseMessage_of_trade hkind]
          cases haggressor : aggressorFromChar (TradeBody.read memory
              (buffer + FrameHeader.size)).aggressor with
          | error exception =>
              simp only [haggressor] at hsize
              rw [getTradeMessage_of_error haggressor,
                getTradeMessage_of_error (by
                  rwa [tradeAggressor_congr hagree hsize])]
          | ok aggressor =>
              simp only [haggressor] at hsize
              rw [getTradeMessage_congr hagree hsize]
      | heartbeat =>
          rw [deserialiseMessage_of_heartbeat htype,
            deserialiseMessage_of_heartbeat hkind,
            getHeartBeatMessage_congr hagree hsize]
      | sessionControl =>
          rw [deserialiseMessage_of_sessionControl htype,
            deserialiseMessage_of_sessionControl hkind,
            getSessionControlMessage_congr hagree hsize]

/-! ## Frames that are read beyond their end -/

section Change

variable {memory other : Memory} {buffer address : ℕ}

theorem byte_of_readUInt64_eq
    (heq : readUInt64 other address = readUInt64 memory address) :
    other (address + 7) = memory (address + 7) := by
  have hbytes := congrArg uint64Bytes heq
  rw [uint64Bytes_readUInt64, uint64Bytes_readUInt64] at hbytes
  exact byte_congr hbytes (by omega)

theorem byte_of_readInt64_eq
    (heq : readInt64 other address = readInt64 memory address) :
    other (address + 7) = memory (address + 7) := by
  have hbytes := congrArg int64Bytes heq
  rw [int64Bytes_readInt64, int64Bytes_readInt64] at hbytes
  exact byte_congr hbytes (by omega)

theorem add_one_ne (byte : UInt8) : byte + 1 ≠ byte := by
  intro heq
  have hnat := congrArg UInt8.toNat heq
  have hlt := byte.toNat_lt
  rw [UInt8.toNat_add, UInt8.toNat_one] at hnat
  omega

end Change

/-- The memory with one byte of the body replaced. -/
def altered (memory : Memory) (buffer offset : ℕ) (byte : UInt8) : Memory :=
  Function.update memory (buffer + FrameHeader.size + offset) byte

section Altered

variable {memory : Memory} {buffer offset : ℕ} {byte : UInt8}

theorem altered_self :
    altered memory buffer offset byte (buffer + FrameHeader.size + offset) =
      byte :=
  Function.update_self _ _ _

theorem altered_of_ne {other : ℕ} (hother : other ≠ offset) :
    altered memory buffer offset byte (buffer + FrameHeader.size + other) =
      memory (buffer + FrameHeader.size + other) :=
  Function.update_of_ne (by omega) _ _

theorem bytes_altered {count : ℕ} (hcount : count ≤ FrameHeader.size + offset) :
    (altered memory buffer offset byte).bytes buffer count =
      memory.bytes buffer count :=
  Memory.bytes_update (by omega)

theorem getMessageType_altered :
    getMessageType (altered memory buffer offset byte) buffer =
      getMessageType memory buffer :=
  getMessageType_congr (bytes_altered (Nat.le_add_right _ _)) le_rfl

theorem getQuoteMessage_askPrice (memory : Memory) (buffer : ℕ) :
    (getQuoteMessage memory buffer).askPrice =
      readInt64 memory (buffer + FrameHeader.size + 36) := rfl

theorem quote_changes (htype : getMessageType memory buffer = .ok .quote) :
    ∃ byte, deserialiseMessage (altered memory buffer 43 byte) buffer ≠
      deserialiseMessage memory buffer := by
  refine ⟨memory (buffer + FrameHeader.size + 43) + 1, fun heq => ?_⟩
  rw [deserialiseMessage_of_quote htype,
    deserialiseMessage_of_quote (getMessageType_altered.trans htype),
    Except.ok.injEq, MDMessage.quote.injEq] at heq
  have hprice := congrArg Quote.askPrice heq
  rw [getQuoteMessage_askPrice, getQuoteMessage_askPrice] at hprice
  have hlast := byte_of_readInt64_eq hprice
  exact add_one_ne _ (altered_self.symm.trans hlast)

theorem heartbeat_changes
    (htype : getMessageType memory buffer = .ok .heartbeat) :
    ∃ byte, deserialiseMessage (altered memory buffer 7 byte) buffer ≠
      deserialiseMessage memory buffer := by
  refine ⟨memory (buffer + FrameHeader.size + 7) + 1, fun heq => ?_⟩
  rw [deserialiseMessage_of_heartbeat htype,
    deserialiseMessage_of_heartbeat (getMessageType_altered.trans htype),
    Except.ok.injEq, MDMessage.heartbeat.injEq] at heq
  have hlast := byte_of_readUInt64_eq (congrArg Heartbeat.timestamp heq)
  exact add_one_ne _ (altered_self.symm.trans hlast)

/-- A session state that is read can be replaced by one of the other kind,
valid or invalid. -/
theorem sessionControl_changes
    (htype : getMessageType memory buffer = .ok .sessionControl) :
    ∃ byte, deserialiseMessage (altered memory buffer 8 byte) buffer ≠
      deserialiseMessage memory buffer := by
  have hdecode (m : Memory) :
      getSessionControlMessage m buffer =
        (sessionControlStateFromNum
          (m (buffer + FrameHeader.size + 8))).map fun state =>
            ⟨readUInt64 m (buffer + FrameHeader.size), state⟩ := rfl
  cases hstate : sessionControlStateFromNum
      (memory (buffer + FrameHeader.size + 8)) with
  | error exception =>
      refine ⟨0, fun heq => ?_⟩
      rw [deserialiseMessage_of_sessionControl htype,
        deserialiseMessage_of_sessionControl
          (getMessageType_altered.trans htype),
        hdecode, hdecode, hstate, altered_self] at heq
      contradiction
  | ok state =>
      refine ⟨3, fun heq => ?_⟩
      rw [deserialiseMessage_of_sessionControl htype,
        deserialiseMessage_of_sessionControl
          (getMessageType_altered.trans htype),
        hdecode, hdecode, hstate, altered_self] at heq
      contradiction

theorem getTradeMessage_eq (memory : Memory) (buffer : ℕ) :
    getTradeMessage memory buffer =
      (aggressorFromChar (memory (buffer + FrameHeader.size + 32))).map
        fun aggressor =>
          { symbol := readSymbol memory (buffer + FrameHeader.size)
            timestampNs :=
              readUInt64 memory (buffer + FrameHeader.size + 12)
            quantity := readUInt32 memory (buffer + FrameHeader.size + 20)
            price := readInt64 memory (buffer + FrameHeader.size + 24)
            aggressor := aggressor
            id := readInt64 memory (buffer + FrameHeader.size + 33) } := rfl

theorem trade_changes_of_error
    (htype : getMessageType memory buffer = .ok .trade)
    {exception : Exception}
    (haggressor : aggressorFromChar
      (memory (buffer + FrameHeader.size + 32)) = .error exception) :
    ∃ byte, deserialiseMessage (altered memory buffer 32 byte) buffer ≠
      deserialiseMessage memory buffer := by
  refine ⟨aggressorToChar .buy, fun heq => ?_⟩
  rw [deserialiseMessage_of_trade htype,
    deserialiseMessage_of_trade (getMessageType_altered.trans htype),
    getTradeMessage_eq, getTradeMessage_eq, haggressor, altered_self,
    aggressorFromChar_toChar] at heq
  contradiction

theorem trade_changes_of_ok
    (htype : getMessageType memory buffer = .ok .trade)
    {aggressor : TradeAggressor}
    (haggressor : aggressorFromChar
      (memory (buffer + FrameHeader.size + 32)) = .ok aggressor) :
    ∃ byte, deserialiseMessage (altered memory buffer 40 byte) buffer ≠
      deserialiseMessage memory buffer := by
  refine ⟨memory (buffer + FrameHeader.size + 40) + 1, fun heq => ?_⟩
  rw [deserialiseMessage_of_trade htype,
    deserialiseMessage_of_trade (getMessageType_altered.trans htype),
    getTradeMessage_eq, getTradeMessage_eq,
    altered_of_ne (by decide : 32 ≠ 40), haggressor] at heq
  simp only [Except.map, Except.ok.injEq, MDMessage.trade.injEq] at heq
  have hid := congrArg Trade.id heq
  dsimp only at hid
  have hlast := byte_of_readInt64_eq hid
  exact add_one_ne _ (altered_self.symm.trans hlast)

/-- Changing the last byte that is read can change the result. -/
theorem last_byte_changes {kind : MessageType}
    (htype : getMessageType memory buffer = .ok kind) :
    ∃ byte,
      deserialiseMessage
          (altered memory buffer (bodyBytesRead memory buffer - 1) byte)
          buffer ≠
        deserialiseMessage memory buffer := by
  cases kind with
  | quote =>
      simpa only [bodyBytesRead, htype, QuoteBody.size] using
        quote_changes htype
  | trade =>
      cases haggressor : aggressorFromChar
          (memory (buffer + FrameHeader.size + 32)) with
      | error exception =>
          simpa only [bodyBytesRead, htype, TradeBody.read, haggressor] using
            trade_changes_of_error htype haggressor
      | ok aggressor =>
          simpa only [bodyBytesRead, htype, TradeBody.read, haggressor,
            TradeBody.size] using trade_changes_of_ok htype haggressor
  | heartbeat =>
      simpa only [bodyBytesRead, htype, HeartbeatBody.size] using
        heartbeat_changes htype
  | sessionControl =>
      simpa only [bodyBytesRead, htype, SessionControlBody.size] using
        sessionControl_changes htype

end Altered

/-- A frame is decoded from its own bytes alone exactly when the part of
the body that is read is no longer than the header says. -/
theorem decodes_alone_iff (memory : Memory) (buffer : ℕ) :
    DecodesAlone memory buffer ↔
      bodyBytesRead memory buffer ≤ getBodySize memory buffer := by
  refine ⟨fun halone => ?_, decodesAlone_of_reads⟩
  by_contra! hshort
  cases htype : getMessageType memory buffer with
  | error exception => simp [bodyBytesRead, htype] at hshort
  | ok kind =>
      obtain ⟨byte, hchanged⟩ := last_byte_changes htype
      have hinside : getMessageSize memory buffer ≤
          FrameHeader.size + (bodyBytesRead memory buffer - 1) := by
        rw [getMessageSize]
        omega
      exact hchanged (halone _ buffer (bytes_altered hinside))

end GCMDDeserialiser

namespace MessageReconstructor

/-- A heartbeat frame without a body. -/
def bareHeartbeat : List UInt8 := [0, 0, 3, 1]

theorem recieve_bareHeartbeat (byte : UInt8) :
    (initial fun _ => byte).recieve bareHeartbeat =
      (.ok ⟨some 0, 1⟩,
        { buffer := Memory.write (fun _ => byte) 0 bareHeartbeat
          size := 0
          dirtyStart := 4 }) := by
  have hframe : framing.IsFrame bareHeartbeat := by
    simp [framing, Framing.IsFrame, frameLength, FrameHeader.size, decode,
      bareHeartbeat]
  have hframes : ∀ frame ∈ [bareHeartbeat], framing.IsFrame frame := by
    simpa using hframe
  have hsplit : framing.split bareHeartbeat = ([bareHeartbeat], []) :=
    framing.split_flatten hframes
  have hfits : ¬ (initial fun _ => byte).size + bareHeartbeat.length >
      bufferSize := of_decide_eq_false rfl
  let reconstructor := (initial fun _ => byte).compact.append bareHeartbeat
  have hmessages := getMessages_eq reconstructor 0 4
    (Memory.bytes_write _ 0 bareHeartbeat)
  rw [hsplit, Framing.consumed, hsplit] at hmessages
  rw [recieve, if_neg hfits]
  change (Except.ok (reconstructor.getMessages 0 4).1,
    (reconstructor.getMessages 0 4).2) = _
  rw [hmessages]
  rfl

/-- The timestamp of a heartbeat without a body is what the buffer held
before the frame was received. -/
theorem bareHeartbeat_not_alone :
    ((initial fun _ => 0).recieve bareHeartbeat).1 = .ok ⟨some 0, 1⟩ ∧
      ((initial fun _ => 1).recieve bareHeartbeat).1 = .ok ⟨some 0, 1⟩ ∧
      ((initial fun _ => 0).recieve bareHeartbeat).2.buffer.bytes 0 4 =
        ((initial fun _ => 1).recieve bareHeartbeat).2.buffer.bytes 0 4 ∧
      GCMDDeserialiser.getMessageSize
        ((initial fun _ => 0).recieve bareHeartbeat).2.buffer 0 = 4 ∧
      GCMDDeserialiser.deserialiseMessage
          ((initial fun _ => 0).recieve bareHeartbeat).2.buffer 0 ≠
        GCMDDeserialiser.deserialiseMessage
          ((initial fun _ => 1).recieve bareHeartbeat).2.buffer 0 := by
  rw [recieve_bareHeartbeat, recieve_bareHeartbeat]
  decide

end MessageReconstructor

end Slipstream
