import Slipstream.DecodingLocality
import Slipstream.ReceivedFrames

/-!
# Frames that are read back as they were written

The decoder looks at one byte of the header, the serialiser fixes all four.
A frame that is decoded need not be the frame of the message read from it:
the version is never checked, the body length is never compared with the
type, and the codes of `HALT` and `CLOSE` are read the other way round.

With these three exceptions excluded nothing of the bytes is lost, so that
serialising the messages that were handled gives back the bytes that were
received.
-/

namespace Slipstream

open PackedBytes

/-- The body length that the serialiser writes for a type. -/
def GCMDSerialiser.bodySizeOf : MessageType → ℕ
  | .quote => QuoteBody.size
  | .trade => TradeBody.size
  | .heartbeat => HeartbeatBody.size
  | .sessionControl => SessionControlBody.size

/-- The version, the body length of the type and, in a session control, the
state whose code is read back. -/
structure Canonical (frame : List UInt8) : Prop where
  version : frame[3]? = some GCMDSerialiser.protocolVersion
  body : ∃ type, frame[2]? = some (messageTypeToNum type) ∧
    frame.length = FrameHeader.size + GCMDSerialiser.bodySizeOf type ∧
      (type = .sessionControl →
        frame[12]? = some (sessionControlStateToNum .opened))

namespace GCMDSerialiser

@[simp] theorem bodySizeOf_messageType (message : MDMessage) :
    bodySizeOf (messageType message) = bodySize message := by
  cases message <;> rfl

theorem getElem?_two_frame (message : MDMessage) :
    (frame message)[2]? = some (messageTypeToNum (messageType message)) := by
  rw [frame_eq]
  rfl

theorem getElem?_three_frame (message : MDMessage) :
    (frame message)[3]? = some protocolVersion := by
  rw [frame_eq]
  rfl

theorem getElem?_state_frame (sessionControl : SessionControl) :
    (frame (.sessionControl sessionControl))[12]? =
      some (sessionControlStateToNum sessionControl.state) := by
  rw [frame_eq]
  rfl

/-- The frame of a message that is read back is canonical. -/
theorem canonical_frame {message : MDMessage}
    (hdecoded : GCMDDeserialiser.decoded message = message) :
    Canonical (frame message) where
  version := getElem?_three_frame message
  body := by
    refine ⟨messageType message, getElem?_two_frame message, ?_, ?_⟩
    · rw [length_frame, bodySizeOf_messageType]
    · intro hkind
      cases message with
      | quote quote => contradiction
      | trade trade => contradiction
      | heartbeat heartbeat => contradiction
      | sessionControl sessionControl =>
          rw [GCMDDeserialiser.decoded_eq_self_iff] at hdecoded
          rw [getElem?_state_frame, hdecoded sessionControl rfl]

end GCMDSerialiser

namespace GCMDDeserialiser

open GCMDSerialiser

theorem toTrade_eq_ok_iff {body : TradeBody} {trade : Trade} :
    toTrade body = .ok trade ↔ toTradeBody trade = body := by
  constructor
  · intro hdecoded
    rw [toTrade] at hdecoded
    cases haggressor : aggressorFromChar body.aggressor with
    | error exception =>
        rw [haggressor] at hdecoded
        contradiction
    | ok aggressor =>
        rw [haggressor] at hdecoded
        cases hdecoded
        rw [toTradeBody, aggressorFromChar_eq_ok_iff.mp haggressor]
  · rintro rfl
    exact toTrade_toTradeBody trade

/-- A session control is read from the record of the one with the swapped
state. -/
theorem toSessionControlBody_of_ok {body : SessionControlBody}
    {sessionControl : SessionControl}
    (hdecoded : toSessionControl body = .ok sessionControl) :
    toSessionControlBody { sessionControl with
      state := decodedState sessionControl.state } = body := by
  rw [toSessionControl] at hdecoded
  cases hstate : sessionControlStateFromNum body.state with
  | error exception =>
      rw [hstate] at hdecoded
      contradiction
  | ok state =>
      rw [hstate] at hdecoded
      cases hdecoded
      rw [toSessionControlBody,
        sessionControlStateFromNum_eq_ok_iff.mp hstate]

@[simp] theorem messageType_decoded (message : MDMessage) :
    messageType (decoded message) = messageType message := by
  cases message <;> rfl

@[simp] theorem bodySize_decoded (message : MDMessage) :
    bodySize (decoded message) = bodySize message := by
  cases message <;> rfl

section Decoded

variable {memory : Memory} {address : ℕ} {message : MDMessage}
  (hmessage : deserialiseMessage memory address = .ok message)
include hmessage

/-- Of a message that is read the type byte and all body bytes are known. -/
theorem bytes_of_deserialiseMessage :
    getMessageType memory address = .ok (messageType message) ∧
      bodyBytes (decoded message) =
        memory.bytes (address + FrameHeader.size) (bodySize message) := by
  cases htype : getMessageType memory address with
  | error exception =>
      rw [deserialiseMessage_of_error htype] at hmessage
      contradiction
  | ok type =>
      cases type with
      | quote =>
          rw [deserialiseMessage_of_quote htype] at hmessage
          cases hmessage
          exact ⟨rfl, QuoteBody.toBytes_read _ _⟩
      | trade =>
          rw [deserialiseMessage_of_trade htype] at hmessage
          cases htrade : getTradeMessage memory address with
          | error exception =>
              rw [htrade] at hmessage
              contradiction
          | ok trade =>
              rw [htrade] at hmessage
              cases hmessage
              refine ⟨rfl, ?_⟩
              change (toTradeBody trade).toBytes = _
              rw [toTrade_eq_ok_iff.mp htrade]
              exact TradeBody.toBytes_read _ _
      | heartbeat =>
          rw [deserialiseMessage_of_heartbeat htype] at hmessage
          cases hmessage
          exact ⟨rfl, HeartbeatBody.toBytes_read _ _⟩
      | sessionControl =>
          rw [deserialiseMessage_of_sessionControl htype] at hmessage
          cases hsession : getSessionControlMessage memory address with
          | error exception =>
              rw [hsession] at hmessage
              contradiction
          | ok sessionControl =>
              rw [hsession] at hmessage
              cases hmessage
              refine ⟨rfl, ?_⟩
              rw [decoded, bodyBytes, toSessionControlBody_of_ok hsession]
              exact SessionControlBody.toBytes_read _ _

/-- With the header that the serialiser writes, the bytes are the frame of
the message with the swapped state. -/
theorem holds_frame_decoded
    (hheader : FrameHeader.read memory address = header message) :
    memory.Holds address (frame (decoded message)) := by
  have hbody := (bytes_of_deserialiseMessage hmessage).2
  have hsame : header (decoded message) = header message := by
    rw [header, header, bodySize_decoded, messageType_decoded]
  rw [frame_eq, Memory.holds_append, hsame, ← hheader,
    FrameHeader.toBytes_read, hbody]
  simp [Memory.Holds]

end Decoded

end GCMDDeserialiser

/-! ## One frame -/

/-- The state of a canonical frame is not one of the swapped two. -/
theorem Canonical.decoded_eq_self {frame : List UInt8} {message : MDMessage}
    (hcanonical : Canonical frame)
    (hwhole : frame =
      GCMDSerialiser.frame (GCMDDeserialiser.decoded message)) :
    GCMDDeserialiser.decoded message = message := by
  rw [GCMDDeserialiser.decoded_eq_self_iff]
  rintro sessionControl rfl
  rcases hcanonical.body with ⟨type, hcode, -, hopened⟩
  have hkind : .sessionControl = type := by
    rw [hwhole, GCMDSerialiser.getElem?_two_frame, Option.some.injEq,
      ← messageTypeFromNum_eq_ok_iff, messageTypeFromNum_toNum] at hcode
    exact (Except.ok.inj hcode).symm
  have hstate := hopened hkind.symm
  rw [hwhole, GCMDDeserialiser.decoded, GCMDSerialiser.getElem?_state_frame,
    Option.some.injEq] at hstate
  cases hsame : sessionControl.state with
  | opened => rfl
  | halt => simp [hsame, decodedState, sessionControlStateToNum] at hstate
  | close => simp [hsame, decodedState, sessionControlStateToNum] at hstate

section Frame

variable {frame : List UInt8} {message : MDMessage}
  (hframe : framing.IsFrame frame)
include hframe

/-- The header of a canonical frame is the one that the serialiser writes. -/
theorem Canonical.header_eq (hcanonical : Canonical frame)
    {memory : Memory} {address : ℕ} (hholds : memory.Holds address frame)
    (htype : GCMDDeserialiser.getMessageType memory address =
      .ok (GCMDSerialiser.messageType message)) :
    FrameHeader.read memory address = GCMDSerialiser.header message ∧
      frame.length = FrameHeader.size + GCMDSerialiser.bodySize message := by
  rcases hcanonical.body with ⟨type, hcode, hlength, -⟩
  have hsize : 4 ≤ frame.length := by
    rw [hlength, FrameHeader.size]
    omega
  have hbyte (offset : ℕ) (hoffset : offset < 4) :
      frame[offset]? = some (memory (address + offset)) := by
    rw [← Memory.getElem?_bytes memory (hoffset.trans_le hsize), hholds]
  have hkind : type = GCMDSerialiser.messageType message := by
    rw [hbyte 2 (by omega), Option.some.injEq] at hcode
    rw [GCMDDeserialiser.getMessageType, FrameHeader.read, hcode,
      messageTypeFromNum_toNum] at htype
    exact Except.ok.inj htype
  rw [hkind, GCMDSerialiser.bodySizeOf_messageType] at hlength
  refine ⟨?_, hlength⟩
  have hbodyLen : (FrameHeader.read memory address).bodyLen =
      UInt16.ofNat (GCMDSerialiser.bodySize message) := by
    rw [Framing.IsFrame, framing, frameLength_eq_some_iff, hlength,
      Nat.add_left_cancel_iff] at hframe
    rw [hframe.2, ← hholds, Memory.take_bytes _ (by omega), ← bodyLen_toNat,
      UInt16.ofNat_toNat]
  have hversion := hcanonical.version
  rw [hbyte 3 (by omega), Option.some.injEq] at hversion
  rw [hbyte 2 (by omega), Option.some.injEq, hkind] at hcode
  rw [GCMDSerialiser.header, ← hbodyLen, ← hcode, ← hversion]
  rfl

theorem Canonical.eq_frame_decoded (hcanonical : Canonical frame)
    (hread : ReadFrom frame message) :
    frame = GCMDSerialiser.frame (GCMDDeserialiser.decoded message) := by
  rcases hread with ⟨memory, address, hholds, hmessage⟩
  obtain ⟨htype, -⟩ := GCMDDeserialiser.bytes_of_deserialiseMessage hmessage
  obtain ⟨hheader, hlength⟩ := hcanonical.header_eq hframe hholds htype
  have hwhole := GCMDDeserialiser.holds_frame_decoded hmessage hheader
  rw [Memory.Holds, GCMDSerialiser.length_frame,
    GCMDDeserialiser.bodySize_decoded, ← hlength, hholds] at hwhole
  exact hwhole

/-- A frame that is read as a message is the frame of that message exactly
when it is canonical. -/
theorem ReadFrom.frame_eq_iff (hread : ReadFrom frame message) :
    GCMDSerialiser.frame message = frame ↔ Canonical frame := by
  constructor
  · rintro rfl
    rcases hread with ⟨memory, address, hholds, hmessage⟩
    rw [GCMDDeserialiser.deserialiseMessage_eq_decoded hholds] at hmessage
    exact GCMDSerialiser.canonical_frame (Except.ok.inj hmessage)
  · intro hcanonical
    have hwhole := hcanonical.eq_frame_decoded hframe hread
    rw [hcanonical.decoded_eq_self hwhole] at hwhole
    exact hwhole.symm

end Frame

theorem map_frame_eq_iff {frames : List (List UInt8)}
    {messages : List MDMessage}
    (hframes : ∀ frame ∈ frames, framing.IsFrame frame)
    (hread : List.Forall₂ ReadFrom frames messages) :
    messages.map GCMDSerialiser.frame = frames ↔
      ∀ frame ∈ frames, Canonical frame := by
  induction hread with
  | nil => simp
  | cons hhead _ ih =>
      rw [List.forall_mem_cons] at hframes ⊢
      rw [List.map_cons, List.cons.injEq, hhead.frame_eq_iff hframes.1,
        ih hframes.2]

namespace TradingPipeline

/-- In every run the messages handled on a connection, serialised again, are
the first bytes that its peer sent, exactly if the frames that they were
read from are canonical. -/
theorem handled_give_bytes_iff (wiring : Wiring) (turns : List Turn)
    (connection : Connection) :
    ((handledOn connection (happenings wiring turns)).map
        GCMDSerialiser.frame).flatten <+:
          (receivedOn connection (happenings wiring turns)).flatten ↔
      ∀ frame ∈ (framing.split (receivedOn connection
          (happenings wiring turns)).flatten).1.take
            (handledOn connection (happenings wiring turns)).length,
        Canonical frame := by
  have hhandles := (after_explained wiring turns).handlesFrames connection
  rcases hhandles.in_order with ⟨frames, hfirst, hread⟩
  have hframes : ∀ frame ∈ frames, framing.IsFrame frame :=
    fun frame hframe => framing.isFrame_of_mem_split (hfirst.subset hframe)
  rw [← hread.length_eq, ← List.prefix_iff_eq_take.mp hfirst,
    ← map_frame_eq_iff hframes hread]
  constructor
  · intro hbytes
    have hwritten : ∀ frame ∈ (handledOn connection
        (happenings wiring turns)).map GCMDSerialiser.frame,
        framing.IsFrame frame := by
      simpa using fun message _ => isFrame_frame message
    have hfound := framing.isPrefix_split hwritten hbytes
    apply (List.prefix_of_prefix_length_le hfound hfirst _).eq_of_length
    · rw [List.length_map, hread.length_eq]
    · rw [List.length_map, hread.length_eq]
  · intro hsame
    rw [hsame]
    exact hfirst.flatten.trans ⟨_, framing.flatten_split _⟩

end TradingPipeline

end Slipstream
