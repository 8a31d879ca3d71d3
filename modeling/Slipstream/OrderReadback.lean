import Slipstream.ReassemblyBuffer
import Slipstream.ReplayDelivery

/-!
# Reading the order connection

The bytes on the order connection are framed like market data.  As long as
the system accepts every frame in full and no piece overflows the peer's
reconstructor, the reconstructor finds the frames of the orders, and the
deserialiser reads each frame as the order that was sent.

Each order answers a trade that was handled.  The trades that the trade
client replays have no aggressor, so with the two replay clients at the other
ends every order is a rejection and nothing is ever executed.
-/

namespace Slipstream

open PackedBytes

/-! ## Frames of orders -/

namespace OrderMessage

theorem frame_newOrder (order : NewOrder) :
    (newOrder order).frame =
      FrameHeader.toBytes ⟨UInt16.ofNat NewOrderBody.size,
        oeMessageTypeToNum .newOrder, OESerialiser.protocolVersion⟩ ++
        order.toBody.toBytes :=
  OESerialiser.bytes_serialiseMessage _ 0 _ order.toBody.length_toBytes

/-- The frames of orders leave room for one that is not complete. -/
def maxChunkSize : ℕ :=
  MessageReconstructor.bufferSize -
    (FrameHeader.size + NewOrderBody.size - 1)

theorem isFrame_newOrder (order : NewOrder) :
    framing.IsFrame (newOrder order).frame := by
  have hlength : (newOrder order).frame.length =
      FrameHeader.size + NewOrderBody.size := length_frame _
  rw [Framing.IsFrame, framing, frameLength_eq_some_iff, hlength]
  refine ⟨Nat.le_add_right _ _, ?_⟩
  rw [frame_newOrder, FrameHeader.toBytes, List.append_assoc,
    List.take_left' (length_uint16Bytes _), uint16Bytes,
    decode_encode_of_lt (UInt16.toNat_lt _)]
  rfl

end OrderMessage

namespace OEDeserialiser

/-- Wherever the frame is in memory, it is read as the order. -/
def ReadsAs (frame : List UInt8) (order : NewOrder) : Prop :=
  ∀ memory buffer, Memory.Holds memory buffer frame →
    getMessageType memory buffer = .ok .newOrder ∧
      getBodySize memory buffer = NewOrderBody.size ∧
      toNewOrder (getNewOrderMessage memory buffer) = .ok order

theorem readsAs_frame (order : NewOrder) :
    ReadsAs (OrderMessage.newOrder order).frame order := by
  intro memory buffer hholds
  rw [OrderMessage.frame_newOrder, Memory.holds_append,
    FrameHeader.length_toBytes] at hholds
  rcases hholds with ⟨hheader, hbody⟩
  have hread := FrameHeader.read_of_holds hheader
  refine ⟨?_, ?_, ?_⟩
  · rw [getMessageType, hread]
    exact oeMessageTypeFromNum_toNum .newOrder
  · rw [getBodySize, hread]
    exact UInt16.toNat_ofNat_of_lt' (by decide)
  · rw [toNewOrder_eq_ok_iff]
    exact (NewOrderBody.read_of_holds hbody).symm

end OEDeserialiser

section ReadBack

variable {orders : List NewOrder} {chunks : List (List UInt8)}
  (hstream : chunks.flatten <+:
    orders.flatMap fun order => (OrderMessage.newOrder order).frame)
include hstream

theorem allReturn_orders (buffer : Memory)
    (hsizes : ∀ chunk ∈ chunks, chunk.length ≤ OrderMessage.maxChunkSize) :
    MessageReconstructor.AllReturn buffer chunks := by
  rw [MessageReconstructor.allReturn_iff]
  intro before chunk hbegins
  have hchunk : chunk.length ≤ OrderMessage.maxChunkSize := by
    apply hsizes
    apply hbegins.subset
    exact List.mem_append_right _ List.mem_cons_self
  have hbefore : before.flatten <+:
      (orders.map fun order => (OrderMessage.newOrder order).frame).flatten :=
    ((List.prefix_append before [chunk]).trans hbegins).flatten.trans hstream
  rcases hbefore with ⟨later, hlater⟩
  have hpending := framing.length_pending_lt
    (by simpa using fun order _ => OrderMessage.isFrame_newOrder order)
    (by simp [OrderMessage.messageSize])
    (by decide : 0 < FrameHeader.size + NewOrderBody.size) hlater
  simp only [OrderMessage.maxChunkSize, MessageReconstructor.bufferSize,
    FrameHeader.size, NewOrderBody.size] at hchunk hpending ⊢
  omega

/-- Of the orders on the connection, those are read back whose frames have
arrived in full. -/
theorem readBack_orders {buffer : Memory}
    (hreturns : MessageReconstructor.AllReturn buffer chunks) :
    ∃ read, read <+: orders ∧
      List.Forall₂ OEDeserialiser.ReadsAs
          (MessageReconstructor.reportedFrames buffer chunks) read ∧
        (chunks.flatten = (orders.flatMap fun order =>
          (OrderMessage.newOrder order).frame) → read = orders) := by
  have hframes : ∀ frame ∈ orders.map fun order =>
      (OrderMessage.newOrder order).frame, framing.IsFrame frame := by
    simpa using fun order _ => OrderMessage.isFrame_newOrder order
  have hreported := (MessageReconstructor.reassembles buffer hreturns).1
  rcases hstream with ⟨later, hlater⟩
  have hfirst := framing.frames_isPrefix hframes hlater
  rw [← hreported, List.prefix_iff_eq_take, ← List.map_take] at hfirst
  generalize (MessageReconstructor.reportedFrames buffer chunks).length =
    count at hfirst
  refine ⟨orders.take count, List.take_prefix count orders, ?_, ?_⟩
  · rw [hfirst, List.forall₂_map_left_iff, List.forall₂_same]
    exact fun order _ => OEDeserialiser.readsAs_frame order
  · intro hall
    have hwhole : (framing.split chunks.flatten).1 = orders.map fun order =>
        (OrderMessage.newOrder order).frame := by
      rw [hall]
      exact congrArg Prod.fst (framing.split_flatten hframes)
    have hlength := congrArg List.length (hfirst.symm.trans
      (hreported.trans hwhole))
    rw [List.length_map, List.length_map, List.length_take] at hlength
    exact List.take_of_length_le (by omega)

end ReadBack

namespace Program

open TradingPipeline (SendsWhole sessionEvents sampleWiring)

/-- A peer reads the order connection, on which every frame is whole, in
pieces.  Pieces that leave room for a frame never overflow its reconstructor;
whatever the pieces, if none does, the peer reads the first orders of a
session that takes the console lines and the handled messages one after the
other, and all of them once no order is on its way. -/
theorem orders_read_back (wiring : Wiring) (turns : List Turn)
    (buffer : Memory) (chunks : List (List UInt8))
    (hwhole : SendsWhole (happenings wiring turns))
    (hstream : chunks.flatten <+: (after wiring turns).pipeline.wire) :
    ((∀ chunk ∈ chunks, chunk.length ≤ OrderMessage.maxChunkSize) →
      MessageReconstructor.AllReturn buffer chunks) ∧
    (MessageReconstructor.AllReturn buffer chunks →
      ∃ orders,
        List.Forall₂ OEDeserialiser.ReadsAs
            (MessageReconstructor.reportedFrames buffer chunks) orders ∧
          orders <+: Session.emitted wiring.setup
            (sessionEvents (happenings wiring turns)) ∧
          (chunks.flatten = (after wiring turns).pipeline.wire →
            (after wiring turns).pipeline.Drained →
              orders = Session.emitted wiring.setup
                (sessionEvents (happenings wiring turns)))) := by
  have hexplained := after_explained wiring turns
  rcases hexplained.written with ⟨written, later, hwritten⟩
  have hwire := hwritten.wire_of_whole hwhole
  rw [hwire] at hstream
  refine ⟨allReturn_orders hstream buffer, ?_⟩
  intro hreturns
  obtain ⟨orders, hfirst, hread, hcomplete⟩ :=
    readBack_orders hstream hreturns
  refine ⟨orders, hread, ?_, ?_⟩
  · rw [hwritten.emitted]
    exact hfirst.trans (List.prefix_append _ _)
  · intro hall hdrained
    rw [hwritten.eq_of_drained hdrained]
    exact hcomplete (hall.trans hwire)

/-- The order of the trade is written, and the peer reads it in two
pieces. -/
theorem orders_read_back_trade :
    let wire := (after sampleWiring sampleTurns).pipeline.wire
    let chunks := [wire.take 30, wire.drop 30]
    MessageReconstructor.AllReturn (fun _ => 0) chunks ∧
      ∃ orders,
        List.Forall₂ OEDeserialiser.ReadsAs
            (MessageReconstructor.reportedFrames (fun _ => 0) chunks)
            orders ∧
          orders = Session.emitted sampleWiring.setup
            (sessionEvents (happenings sampleWiring sampleTurns)) ∧
          orders.length = 1 := by
  intro wire chunks
  have hstream : chunks.flatten = wire := by
    simp [chunks]
  have hdrained : (after sampleWiring
      sampleTurns).pipeline.Drained :=
    ⟨by decide +kernel, by decide +kernel, by decide +kernel⟩
  have hone : (Session.emitted sampleWiring.setup
      (sessionEvents (happenings sampleWiring sampleTurns))).length = 1 := by
    decide +kernel
  obtain ⟨hfits, hreads⟩ := orders_read_back sampleWiring sampleTurns
    (fun _ => 0) chunks sampleTurns_whole (hstream ▸ List.prefix_refl _)
  have hreturns := hfits (by decide +kernel)
  obtain ⟨orders, hread, -, hcomplete⟩ := hreads hreturns
  have hall := hcomplete hstream hdrained
  exact ⟨hreturns, orders, hread, hall, hall ▸ hone⟩

end Program

/-! ## What the orders answer -/

def MDMessage.trade? : MDMessage → Option Trade
  | .trade handled => some handled
  | _ => none

/-- An order for a trade.  Only a trade with an aggressor is accepted. -/
structure NewOrder.Answers (order : NewOrder) (trade : Trade) : Prop where
  symbol : order.symbol = trade.symbol
  tradeId : order.tradeId = trade.id
  side : order.side = if trade.aggressor = .buy then .buy else .sell
  qty : order.qty = trade.quantity
  limitPx : order.limitPx = trade.price
  accepted : order.status = .accepted → trade.aggressor ≠ .unknown

namespace ExecutionEngine

theorem accepts_unknown (engine : ExecutionEngine)
    (vwapService : VWAPService) (clock : ClockReadings) {trade : Trade}
    (hunknown : trade.aggressor = .unknown) :
    engine.accepts vwapService clock trade = false := by
  simp [accepts, hunknown]

theorem answer_answers (engine : ExecutionEngine)
    (vwapService : VWAPService) (clock : ClockReadings) (trade : Trade) :
    (engine.answer vwapService clock trade).Answers trade := by
  refine ⟨rfl, rfl, rfl, rfl, rfl, ?_⟩
  intro haccepted hunknown
  simp [answer, accepts_unknown engine vwapService clock hunknown]
    at haccepted

end ExecutionEngine

namespace Session

def Event.trade? : Event → Option Trade
  | .line _ => none
  | .message delivery => delivery.message.trade?

/-- The trades that a session handles. -/
def tradesOf (events : List Event) : List Trade :=
  events.filterMap Event.trade?

theorem tradesOf_concat (events : List Event) (event : Event) :
    tradesOf (events ++ [event]) =
      tradesOf events ++ event.trade?.toList := by
  rw [tradesOf, tradesOf, List.filterMap_append]
  cases hevent : event.trade? <;> simp [hevent]

theorem dispatch_answers (components : Components)
    (delivery : Components.Delivery) :
    ∃ trades, trades.Sublist delivery.message.trade?.toList ∧
      List.Forall₂ NewOrder.Answers
        (Components.dispatch components delivery).2 trades := by
  rcases delivery with ⟨message, clock⟩
  cases message with
  | trade trade =>
      rw [Components.dispatch_trade]
      dsimp only
      rw [(ExecutionEngine.handleTrade_eq _ _ clock trade).1]
      split
      next => exact ⟨[], List.nil_sublist _, .nil⟩
      next =>
        refine ⟨[trade], List.Sublist.refl _, .cons ?_ .nil⟩
        exact components.executionEngine.answer_answers _ clock trade
  | quote quote => exact ⟨[], List.nil_sublist _, .nil⟩
  | heartbeat heartbeat => exact ⟨[], List.nil_sublist _, .nil⟩
  | sessionControl control => exact ⟨[], List.nil_sublist _, .nil⟩

/-- The orders of a session answer trades that it has handled, in the order
of the trades. -/
theorem emitted_answers (setup : Components.Setup) (events : List Event) :
    ∃ trades, trades.Sublist (tradesOf events) ∧
      List.Forall₂ NewOrder.Answers (emitted setup events) trades := by
  induction events using List.reverseRecOn with
  | nil => exact ⟨[], List.nil_sublist _, .nil⟩
  | append_singleton earlier event ih =>
      rcases ih with ⟨trades, hsublist, hanswers⟩
      rw [emitted_concat, tradesOf_concat]
      cases event with
      | line input =>
          have hnone : (step (after setup earlier) (.line input)).2.orders =
              [] := rfl
          rw [hnone, List.append_nil]
          exact ⟨trades,
            hsublist.trans (List.sublist_append_left _ _), hanswers⟩
      | message delivery =>
          obtain ⟨answered, hanswered, horders⟩ :=
            dispatch_answers (after setup earlier).components delivery
          exact ⟨trades ++ answered, hsublist.append hanswered,
            List.rel_append hanswers horders⟩

theorem dispatch_unknown (components : Components)
    {delivery : Components.Delivery}
    (hunknown : ∀ trade, delivery.message.trade? = some trade →
      trade.aggressor = .unknown) :
    (Components.dispatch components
        delivery).1.executionEngine.tradedQuantity =
      components.executionEngine.tradedQuantity := by
  rcases delivery with ⟨message, clock⟩
  cases message with
  | trade trade =>
      have hrejects := components.executionEngine.accepts_unknown
        (components.fed trade) clock (hunknown trade rfl)
      rw [Components.dispatch_trade]
      dsimp only
      rw [(ExecutionEngine.handleTrade_eq _ _ clock trade).2,
        ExecutionEngine.judged_tradedQuantity, hrejects, if_neg (by simp)]
  | quote quote =>
      rw [Components.dispatch_quote]
      dsimp only
      rw [ExecutionEngine.onQuoteReceived_eq]
  | heartbeat heartbeat => rfl
  | sessionControl control => rfl

/-- Without an aggressor no trade adds to the executed quantity. -/
theorem executed_unknown (setup : Components.Setup) {events : List Event}
    (hunknown : ∀ trade ∈ tradesOf events, trade.aggressor = .unknown) :
    (after setup events).components.executionEngine.getExecutedQuantity =
      0 := by
  induction events using List.reverseRecOn with
  | nil => rfl
  | append_singleton earlier event ih =>
      rw [tradesOf_concat, List.forall_mem_append] at hunknown
      have hbefore := ih hunknown.1
      rw [after_concat]
      cases event with
      | line input =>
          obtain ⟨halted, hcomponents⟩ :=
            runSession_components (after setup earlier) input
          rw [step]
          dsimp only
          rw [hcomponents]
          exact hbefore
      | message delivery =>
          have hsame := dispatch_unknown (after setup earlier).components
            fun trade htrade => hunknown.2 trade (Option.mem_toList.mpr htrade)
          exact hsame.trans hbefore

end Session

namespace TradingPipeline

/-- If one connection brings no trades, those handled are the trades of the
other. -/
theorem tradesOf_sessionEvents {happened : List Happening}
    (hquiet : (handledOn .md happened).filterMap MDMessage.trade? = []) :
    Session.tradesOf (sessionEvents happened) =
      (handledOn .oe happened).filterMap MDMessage.trade? := by
  induction happened with
  | nil => rfl
  | cons happening later ih =>
      cases happening with
      | received connection networkBuffer => exact ih hquiet
      | line input => exact ih hquiet
      | sent poll => exact ih hquiet
      | handled connection delivery =>
          cases connection with
          | md =>
              rw [show handledOn .md (.handled .md delivery :: later) =
                delivery.message :: handledOn .md later from rfl] at hquiet
              cases htrade : delivery.message.trade? with
              | some trade =>
                  rw [List.filterMap_cons_some htrade] at hquiet
                  contradiction
              | none =>
                  rw [List.filterMap_cons_none htrade] at hquiet
                  refine Eq.trans ?_ (ih hquiet)
                  exact List.filterMap_cons_none htrade
          | oe =>
              have hlater := ih hquiet
              rw [show handledOn .oe (.handled .oe delivery :: later) =
                delivery.message :: handledOn .oe later from rfl]
              cases htrade : delivery.message.trade? with
              | some trade =>
                  rw [List.filterMap_cons_some htrade, ← hlater]
                  exact List.filterMap_cons_some htrade
              | none =>
                  rw [List.filterMap_cons_none htrade, ← hlater]
                  exact List.filterMap_cons_none htrade

/-- The rejection of a trade of the trade client's file. -/
structure Rejects (order : NewOrder) (trade : Csv.Trade) : Prop where
  status : order.status = .rejected
  symbol : order.symbol = trade.symbol
  tradeId : order.tradeId = 0
  side : order.side = .sell
  qty : order.qty = trade.quantity.toUInt32
  limitPx : order.limitPx = trade.price.toInt64

theorem rejects_of_answers {order : NewOrder} {trade : Csv.Trade}
    {clock : UInt64}
    (hanswers : order.Answers (TradeClient.bodyFromTrade trade clock)) :
    Rejects order trade := by
  refine ⟨?_, hanswers.symbol, hanswers.tradeId, hanswers.side,
    hanswers.qty, hanswers.limitPx⟩
  cases hstatus : order.status with
  | accepted => exact absurd rfl (hanswers.accepted hstatus)
  | rejected => rfl

/-- Some of the trades sent, each with the clock at which it was sent, are
trades of the file. -/
theorem rejected_of_sublist {orders : List NewOrder} {trades : List Trade}
    {records : List Csv.Trade} {clocks : List UInt64}
    (hanswers : List.Forall₂ NewOrder.Answers orders trades)
    (hsublist : trades.Sublist
      (List.zipWith TradeClient.bodyFromTrade records clocks)) :
    ∃ rejected, rejected.Sublist records ∧
      List.Forall₂ Rejects orders rejected := by
  rw [← List.map_uncurry_zip_eq_zipWith, List.sublist_map_iff] at hsublist
  rcases hsublist with ⟨pairs, hpairs, rfl⟩
  refine ⟨pairs.map Prod.fst, ?_, ?_⟩
  · have hfirst := hpairs.map Prod.fst
    rw [List.zip_eq_zip_take_min, List.map_fst_zip (by simp)] at hfirst
    exact hfirst.trans (List.take_sublist _ records)
  · rw [List.forall₂_map_right_iff] at hanswers ⊢
    exact hanswers.imp fun order pair => rejects_of_answers

/-- What is left of the messages of a replay client without heartbeats. -/
theorem filterMap_trade_filter (messages : List MDMessage) :
    (messages.filter fun message => !message.isHeartbeat).filterMap
        MDMessage.trade? =
      messages.filterMap MDMessage.trade? := by
  induction messages with
  | nil => rfl
  | cons message later ih =>
      cases message with
      | trade trade => exact congrArg (trade :: ·) ih
      | _ => exact ih

/-- The trades handled with the two replay clients at the other ends. -/
theorem Explained.replayed_trades {wiring : Wiring}
    {happened : List Happening} {pipeline : TradingPipeline}
    (hexplained : Explained wiring happened pipeline)
    {quoteFile tradeFile : Csv.File}
    {marketClient : ReplayClient Csv.Quote}
    {tradeClient : ReplayClient Csv.Trade}
    {quoteTicks tradeTicks : List ReplayClient.Tick}
    (hquotes : Feeds MarketClient.replay quoteFile marketClient quoteTicks
      (receivedOn .md happened))
    (htrades : Feeds TradeClient.replay tradeFile tradeClient tradeTicks
      (receivedOn .oe happened)) :
    ∃ clocks,
      Session.tradesOf (sessionEvents happened) =
        List.zipWith TradeClient.bodyFromTrade tradeFile.trades clocks := by
  obtain ⟨quoteClocks, hmd⟩ := hexplained.handledOn_quotes hquotes
  obtain ⟨clocks, hoe⟩ := hexplained.handledOn_trades htrades
  refine ⟨clocks, ?_⟩
  have hquiet : (handledOn .md happened).filterMap MDMessage.trade? = [] := by
    rw [← filterMap_trade_filter, hmd, ← List.map_uncurry_zip_eq_zipWith,
      List.filterMap_map]
    exact List.filterMap_eq_nil_iff.mpr fun _ _ => rfl
  rw [tradesOf_sessionEvents hquiet, ← filterMap_trade_filter, hoe,
    ← List.map_uncurry_zip_eq_zipWith, ← List.map_uncurry_zip_eq_zipWith,
    List.filterMap_map, ← List.filterMap_eq_map]
  rfl

end TradingPipeline

namespace Program

open TradingPipeline (Feeds Written SendsWhole Rejects receivedOn
  sampleWiring)

/-- With the market client and the trade client at the other ends, the orders
given to `sendBuffer` are rejections: one for each of some of the trades in
the file, in the order of the file.  Nothing is executed. -/
theorem replayed_trades_rejected (wiring : Wiring) (turns : List Turn)
    {quoteFile tradeFile : Csv.File}
    {marketClient : ReplayClient Csv.Quote}
    {tradeClient : ReplayClient Csv.Trade}
    {quoteTicks tradeTicks : List ReplayClient.Tick}
    (hquotes : Feeds MarketClient.replay quoteFile marketClient quoteTicks
      (receivedOn .md (happenings wiring turns)))
    (htrades : Feeds TradeClient.replay tradeFile tradeClient tradeTicks
      (receivedOn .oe (happenings wiring turns))) :
    (∃ orders later rejected,
      Written wiring (happenings wiring turns)
          (after wiring turns).pipeline orders later ∧
        rejected.Sublist tradeFile.trades ∧
        List.Forall₂ Rejects orders rejected ∧
        (SendsWhole (happenings wiring turns) →
          (after wiring turns).pipeline.wire = orders.flatMap
            fun order => (OrderMessage.newOrder order).frame)) ∧
      (after wiring
        turns).pipeline.session.components.executionEngine.getExecutedQuantity =
          0 := by
  have hexplained := after_explained wiring turns
  obtain ⟨clocks, hhandled⟩ := hexplained.replayed_trades hquotes htrades
  constructor
  · rcases hexplained.written with ⟨orders, later, hwritten⟩
    obtain ⟨trades, hsublist, hanswers⟩ := Session.emitted_answers
      wiring.setup
      (TradingPipeline.sessionEvents (happenings wiring turns))
    rw [hwritten.emitted] at hanswers
    have hfirst := List.forall₂_take orders.length hanswers
    rw [List.take_left] at hfirst
    rw [hhandled] at hsublist
    obtain ⟨rejected, hrejected, hrejects⟩ :=
      TradingPipeline.rejected_of_sublist hfirst
        ((List.take_sublist orders.length trades).trans hsublist)
    exact ⟨orders, later, rejected, hwritten, hrejected, hrejects,
      hwritten.wire_of_whole⟩
  · rw [hexplained.session]
    apply Session.executed_unknown
    rw [hhandled, ← List.map_uncurry_zip_eq_zipWith, List.forall_mem_map]
    exact fun _ _ => rfl

/-- The trade of the file is handled, and its order is on the
connection. -/
theorem replayed_trades_rejected_sample :
    (∃ orders rejected,
      rejected.Sublist ReplayClient.quoteTradeFile.trades ∧
        List.Forall₂ Rejects orders rejected ∧
        (after sampleWiring replayTurns).pipeline.wire = orders.flatMap
          fun order => (OrderMessage.newOrder order).frame) ∧
      (after sampleWiring replayTurns).pipeline.wire.length = 54 := by
  rcases replay_feeds with ⟨parser, hquotes, htrades⟩
  have hwhole : SendsWhole (happenings sampleWiring replayTurns) := by
    unfold SendsWhole
    decide +kernel
  obtain ⟨⟨orders, later, rejected, -, hrejected, hrejects, hwire⟩, -⟩ :=
    replayed_trades_rejected sampleWiring replayTurns hquotes htrades
  exact ⟨⟨orders, rejected, hrejected, hrejects, hwire hwhole⟩,
    by decide +kernel⟩

end Program

end Slipstream
