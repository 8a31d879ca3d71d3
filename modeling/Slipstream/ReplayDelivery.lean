import Slipstream.CSVFile
import Slipstream.ProgramHistory
import Slipstream.ReplayClient

/-!
# From the CSV files to the handlers

A replay client sends the records of its file in the order of the file, none
before its time, with heartbeats in between.  It returns when all of them
are sent.

In a run of the program with the clients at its other ends, the quotes and
trades handled on a market connection are what the client makes of the first
records of the file that it replays.
-/

namespace Slipstream

open PackedBytes

/-- A client sends a record of its file, or a heartbeat, upon a reading of
its clock. -/
inductive Sending (ρ : Type) where
  | data (record : ρ) (tick : ReplayClient.Tick)
  | heartbeat (tick : ReplayClient.Tick)

namespace Sending

variable {ρ : Type}

def record? : Sending ρ → Option ρ
  | .data record _ => some record
  | .heartbeat _ => none

def tick : Sending ρ → ReplayClient.Tick
  | .data _ tick => tick
  | .heartbeat tick => tick

def message (replay : Replay ρ) : Sending ρ → MDMessage
  | .data record tick => replay.message record tick.wallClockNow
  | .heartbeat tick => .heartbeat ⟨tick.wallClockNow⟩

def records (sendings : List (Sending ρ)) : List ρ :=
  sendings.filterMap record?

theorem records_append (first second : List (Sending ρ)) :
    records (first ++ second) = records first ++ records second :=
  List.filterMap_append

end Sending

namespace ReplayClient

variable {ρ : Type}

/-- What the client sends upon a reading. -/
def sending (client : ReplayClient ρ) (tick : Tick) : Option (Sending ρ) :=
  match client.point with
  | .starting first => some (.data first tick)
  | .waiting record timeToSend =>
      if tick.now < timeToSend then
        if tick.now - client.lastSentHeartbeatMS > heartbeatPerMS then
          some (.heartbeat tick)
        else none
      else some (.data record tick)
  | _ => none

section Run

variable (replay : Replay ρ)

def after (client : ReplayClient ρ) (ticks : List Tick) : ReplayClient ρ :=
  RunHistory.exec (step replay) client ticks

def sendings : ReplayClient ρ → List Tick → List (Sending ρ)
  | _, [] => []
  | client, tick :: later =>
      (client.sending tick).toList ++
        sendings (client.step replay tick).1 later

/-- `sendBuffer` writes every message in full. -/
def Whole (sending : Sending ρ) : Prop :=
  sending.tick.answer =
    .ok (GCMDSerialiser.frame (sending.message replay)).length

end Run

end ReplayClient

namespace ReplayClient

section Step

variable {ρ : Type} {replay : Replay ρ} {client : ReplayClient ρ}

theorem sendMessage_whole (hopen : client.connection.fd ≠ -1)
    (message : MDMessage) :
    ∃ buffer,
      client.sendMessage message
          (.ok (GCMDSerialiser.frame message).length) =
        (.ok (),
          { client with
            buffer := buffer
            connection.sent := client.connection.sent ++
              GCMDSerialiser.frame message }) := by
  have hbytes : (GCMDSerialiser.serialise client.buffer 0 message).2.bytes 0
      (GCMDSerialiser.serialise client.buffer 0 message).1 =
        GCMDSerialiser.frame message := by
    rw [GCMDSerialiser.bytes_serialise, GCMDSerialiser.frame_eq]
  have hpos : 1 ≤ (GCMDSerialiser.frame message).length := by
    rw [GCMDSerialiser.length_frame, FrameHeader.size]
    omega
  refine ⟨(GCMDSerialiser.serialise client.buffer 0 message).2, ?_⟩
  rw [sendMessage, hbytes,
    ClientConnection.sendBuffer_of_accepted hopen _ hpos, List.take_length]
  rfl

theorem step_first {first : ρ} (hpoint : client.point = .starting first)
    {tick : Tick} {next : ReplayClient ρ}
    (hsend : sendMessage
        { client with
          startTimestamp := tick.now - replay.timestamp first }
        (replay.message first tick.wallClockNow) tick.answer =
      (.ok (), next)) :
    (client.step replay tick).1 = next.fetch replay := by
  rcases client with ⟨connection, parser, buffer, lastSent, start, _⟩
  subst hpoint
  simp only [step, sendRecord]
  rw [hsend]

theorem step_heartbeat {record : ρ} {timeToSend : UInt64}
    (hpoint : client.point = .waiting record timeToSend) {tick : Tick}
    (hbefore : tick.now < timeToSend)
    (hbeat : tick.now - client.lastSentHeartbeatMS > heartbeatPerMS)
    {next : ReplayClient ρ}
    (hsend : client.sendMessage (.heartbeat ⟨tick.wallClockNow⟩)
      tick.answer = (.ok (), next)) :
    (client.step replay tick).1 = next := by
  simp only [step, hpoint, if_pos hbefore, if_pos hbeat, sendHeartBeat,
    hsend]

theorem step_record {record : ρ} {timeToSend : UInt64}
    (hpoint : client.point = .waiting record timeToSend) {tick : Tick}
    (hdue : ¬ tick.now < timeToSend) {next : ReplayClient ρ}
    (hsend : client.sendMessage (replay.message record tick.wallClockNow)
      tick.answer = (.ok (), next)) :
    (client.step replay tick).1 = next.fetch replay := by
  simp only [step, hpoint, if_neg hdue, sendRecord, hsend]

end Step

/-! ## The records that are sent -/

section File

variable {ρ : Type} {replay : Replay ρ}
  {row : List UInt8 → Option (Csv.Ending ρ)}
  {select : Csv.Entry → Option ρ} {records : List ρ}

/-- Where a client is in its file: the records sent, the one it holds, and
those its parser will still return. -/
inductive Place (replay : Replay ρ) (select : Csv.Entry → Option ρ)
    (records : List ρ) (client : ReplayClient ρ) :
    List (Sending ρ) → Prop
  | starting {first : ρ} {later : List ρ}
      (hpoint : client.point = .starting first)
      (hrecords : records = first :: later)
      (hawaits : CSVParser.Awaits select client.parser later) :
      Place replay select records client []
  | waiting {sendings : List (Sending ρ)} {record : ρ} {later : List ρ}
      (hpoint : client.point = .waiting record
        (client.startTimestamp + replay.timestamp record))
      (hrecords : records = Sending.records sendings ++ record :: later)
      (hawaits : CSVParser.Awaits select client.parser later) :
      Place replay select records client sendings
  | returned {sendings : List (Sending ρ)}
      (hpoint : client.point = .returned)
      (hrecords : records = Sending.records sendings) :
      Place replay select records client sendings
  | threw (hpoint : client.point = .threw CSVParser.endOfFile)
      (hrecords : records = []) : Place replay select records client []

structure Replays (replay : Replay ρ) (select : Csv.Entry → Option ρ)
    (records : List ρ) (connection : ClientConnection)
    (sendings : List (Sending ρ)) (client : ReplayClient ρ) : Prop where
  place : Place replay select records client sendings
  connected : client.connection.fd ≠ -1
  wire : client.connection.sent = connection.sent ++
    (sendings.map fun sending =>
      GCMDSerialiser.frame (sending.message replay)).flatten
  due : ∀ record tick, .data record tick ∈ sendings →
    client.startTimestamp + replay.timestamp record ≤ tick.now

variable (hread : replay.read = CSVParser.readRow row)
  (hselects : CSVParser.Selects row select)
include hread hselects

theorem start_replays {parser : CSVParser}
    (hawaits : CSVParser.Awaits select parser records)
    {connection : ClientConnection} (hopen : connection.fd ≠ -1)
    (buffer : Memory) :
    Replays replay select records connection []
      (start replay connection parser buffer) := by
  refine ⟨?_, hopen, (List.append_nil _).symm, by simp⟩
  cases records with
  | nil =>
      have hend := (hawaits.readRow_nil hselects).1
      exact .threw (by simp only [start, hread, hend]) rfl
  | cons first later =>
      obtain ⟨hfirst, hlater⟩ := hawaits.readRow_cons hselects
      have hpoint : (start replay connection parser buffer).point =
          .starting first := by
        simp only [start, hread, hfirst]
      refine .starting hpoint rfl ?_
      simpa only [start, hread] using hlater

/-- After a record is sent the next one is read. -/
theorem fetch_place {client : ReplayClient ρ} {sendings : List (Sending ρ)}
    {later : List ρ}
    (hawaits : CSVParser.Awaits select client.parser later)
    (hrecords : records = Sending.records sendings ++ later) :
    Place replay select records (client.fetch replay) sendings ∧
      (client.fetch replay).connection = client.connection ∧
      (client.fetch replay).startTimestamp = client.startTimestamp := by
  have hgoes : client.parser.reachedEnd = false := hawaits.goes_on
  cases later with
  | nil =>
      have hend := (hawaits.readRow_nil hselects).1
      have hfetch : client.fetch replay =
          { client with
            parser := (CSVParser.readRow row client.parser).1
            point := .returned } := by
        rw [fetch, if_neg (by simp [hgoes]), hread,
          ← Prod.mk.eta (p := CSVParser.readRow row client.parser), hend]
        rfl
      rw [hfetch]
      exact ⟨.returned rfl (by simpa using hrecords), rfl, rfl⟩
  | cons record rest =>
      obtain ⟨hrecord, hrest⟩ := hawaits.readRow_cons hselects
      have hreturns : (replay.read client.parser).2 = .returns record := by
        rw [hread]
        exact hrecord
      rw [fetch_of_returns hgoes hreturns]
      refine ⟨.waiting rfl hrecords ?_, rfl, rfl⟩
      dsimp only
      rw [hread]
      exact hrest

/-- A record is sent in full and the next one is read. -/
theorem Replays.send (client : ReplayClient ρ)
    {connection : ClientConnection} {sendings : List (Sending ρ)}
    {record : ρ} {tick : Tick} {later : List ρ}
    (hopen : client.connection.fd ≠ -1)
    (hwire : client.connection.sent = connection.sent ++
      (sendings.map fun sending =>
        GCMDSerialiser.frame (sending.message replay)).flatten)
    (hdue : ∀ record tick, .data record tick ∈ sendings →
      client.startTimestamp + replay.timestamp record ≤ tick.now)
    (hnow : client.startTimestamp + replay.timestamp record ≤ tick.now)
    (hawaits : CSVParser.Awaits select client.parser later)
    (hrecords : records = Sending.records sendings ++ record :: later)
    (buffer : Memory) :
    Replays replay select records connection
      (sendings ++ [.data record tick])
      (fetch replay
        { client with
          buffer := buffer
          connection.sent := client.connection.sent ++
            GCMDSerialiser.frame
              (replay.message record tick.wallClockNow) }) := by
  have hlater : records =
      Sending.records (sendings ++ [.data record tick]) ++ later := by
    rw [Sending.records_append, hrecords, List.append_assoc]
    rfl
  have hsent : CSVParser.Awaits select
      (ReplayClient.parser
        { client with
          buffer := buffer
          connection.sent := client.connection.sent ++
            GCMDSerialiser.frame
              (replay.message record tick.wallClockNow) }) later := hawaits
  obtain ⟨hplace, hconnection, hstart⟩ :=
    fetch_place hread hselects hsent hlater
  refine ⟨hplace, ?_, ?_, ?_⟩
  · rw [hconnection]
    exact hopen
  · rw [hconnection]
    simp [hwire, Sending.message]
  · rw [hstart]
    intro other reading hmem
    rcases List.mem_append.mp hmem with hbefore | hnew
    · exact hdue other reading hbefore
    · obtain ⟨rfl, rfl⟩ : other = record ∧ reading = tick := by
        simpa using hnew
      exact hnow

theorem Replays.step {connection : ClientConnection}
    {sendings : List (Sending ρ)} {client : ReplayClient ρ}
    (hreplays : Replays replay select records connection sendings client)
    {tick : Tick}
    (hwhole : ∀ sending ∈ client.sending tick, Whole replay sending) :
    Replays replay select records connection
      (sendings ++ (client.sending tick).toList)
      (client.step replay tick).1 := by
  obtain ⟨hplace, hopen, hwire, hdue⟩ := hreplays
  cases hplace with
  | @starting first later hpoint hrecords hawaits =>
      have hsending : client.sending tick = some (.data first tick) := by
        simp only [sending, hpoint]
      have hanswer : tick.answer = .ok (GCMDSerialiser.frame
          (replay.message first tick.wallClockNow)).length :=
        hwhole _ hsending
      let started : ReplayClient ρ :=
        { client with
          startTimestamp := tick.now - replay.timestamp first }
      have hstarted : started.connection.fd ≠ -1 := hopen
      obtain ⟨buffer, hsend⟩ := sendMessage_whole hstarted
        (replay.message first tick.wallClockNow)
      rw [← hanswer] at hsend
      rw [hsending, step_first hpoint hsend]
      refine Replays.send hread hselects started hopen hwire (by simp) ?_
        hawaits hrecords buffer
      simp [started]
  | @waiting _ record later hpoint hrecords hawaits =>
      by_cases hbefore : tick.now <
          client.startTimestamp + replay.timestamp record
      · by_cases hbeat : tick.now - client.lastSentHeartbeatMS >
            heartbeatPerMS
        · have hsending : client.sending tick = some (.heartbeat tick) := by
            simp only [sending, hpoint, if_pos hbefore, if_pos hbeat]
          have hanswer : tick.answer = .ok (GCMDSerialiser.frame
              (.heartbeat ⟨tick.wallClockNow⟩)).length :=
            hwhole _ hsending
          obtain ⟨buffer, hsend⟩ := sendMessage_whole hopen
            (.heartbeat ⟨tick.wallClockNow⟩)
          rw [← hanswer] at hsend
          rw [hsending, step_heartbeat hpoint hbefore hbeat hsend]
          refine ⟨.waiting hpoint ?_ hawaits, hopen, ?_, ?_⟩
          · rw [Sending.records_append, hrecords]
            simp [Sending.records, Sending.record?]
          · simp [hwire, Sending.message]
          · intro other reading hmem
            exact hdue other reading (by simpa using hmem)
        · have hsending : client.sending tick = none := by
            simp only [sending, hpoint, if_pos hbefore, if_neg hbeat]
          have hstep : (client.step replay tick).1 = client := by
            simp only [ReplayClient.step, hpoint, if_pos hbefore,
              if_neg hbeat]
          rw [hsending, hstep, Option.toList_none, List.append_nil]
          exact ⟨.waiting hpoint hrecords hawaits, hopen, hwire, hdue⟩
      · have hsending : client.sending tick = some (.data record tick) := by
          simp only [sending, hpoint, if_neg hbefore]
        have hanswer : tick.answer = .ok (GCMDSerialiser.frame
            (replay.message record tick.wallClockNow)).length :=
          hwhole _ hsending
        obtain ⟨buffer, hsend⟩ := sendMessage_whole hopen
          (replay.message record tick.wallClockNow)
        rw [← hanswer] at hsend
        rw [hsending, step_record hpoint hbefore hsend]
        exact Replays.send hread hselects client hopen hwire hdue
          (UInt64.not_lt.mp hbefore) hawaits hrecords buffer
  | returned hpoint hrecords =>
      have hsending : client.sending tick = none := by
        simp only [sending, hpoint]
      have hstep : (client.step replay tick).1 = client := by
        simp only [ReplayClient.step, hpoint]
      rw [hsending, hstep, Option.toList_none, List.append_nil]
      exact ⟨.returned hpoint hrecords, hopen, hwire, hdue⟩
  | threw hpoint hrecords =>
      have hsending : client.sending tick = none := by
        simp only [sending, hpoint]
      have hstep : (client.step replay tick).1 = client := by
        simp only [ReplayClient.step, hpoint]
      rw [hsending, hstep, Option.toList_none, List.append_nil]
      exact ⟨.threw hpoint hrecords, hopen, hwire, hdue⟩

theorem Replays.after {connection : ClientConnection}
    {earlier : List (Sending ρ)} {client : ReplayClient ρ}
    (hreplays : Replays replay select records connection earlier client)
    {ticks : List Tick}
    (hwhole : ∀ sending ∈ sendings replay client ticks,
      Whole replay sending) :
    Replays replay select records connection
      (earlier ++ sendings replay client ticks)
      (client.after replay ticks) := by
  induction ticks generalizing earlier client with
  | nil =>
      rw [sendings, List.append_nil]
      exact hreplays
  | cons tick later ih =>
      rw [sendings] at hwhole ⊢
      have hnow : ∀ sending ∈ client.sending tick, Whole replay sending :=
        fun sending hmem => hwhole sending
          (List.mem_append_left _ (Option.mem_toList.mpr hmem))
      have hlater : ∀ sending ∈
          sendings replay (client.step replay tick).1 later,
          Whole replay sending :=
        fun sending hmem => hwhole sending (List.mem_append_right _ hmem)
      rw [← List.append_assoc]
      exact ih (hreplays.step hread hselects hnow) hlater

end File

/-- What a run does with the records of a file. -/
structure Delivers (replay : Replay ρ) (records : List ρ)
    (connection : ClientConnection) (sendings : List (Sending ρ))
    (client : ReplayClient ρ) : Prop where
  wire : client.connection.sent = connection.sent ++
    (sendings.map fun sending =>
      GCMDSerialiser.frame (sending.message replay)).flatten
  in_order : Sending.records sendings <+: records
  due : ∀ record tick, .data record tick ∈ sendings →
    client.startTimestamp + replay.timestamp record ≤ tick.now
  complete : client.point = .returned → Sending.records sendings = records
  defined : client.point ≠ .undefined
  ends : ∀ exception, client.point = .threw exception →
    exception = CSVParser.endOfFile ∧ records = []

/-- If no `sendBuffer` of the run writes less than its message. -/
def DeliversWhole (replay : Replay ρ) (records : List ρ)
    (client : ReplayClient ρ) (ticks : List Tick) : Prop :=
  (∀ sending ∈ sendings replay client ticks, Whole replay sending) →
    Delivers replay records client.connection
      (sendings replay client ticks) (client.after replay ticks)

theorem Replays.delivers {ρ : Type} {replay : Replay ρ}
    {select : Csv.Entry → Option ρ} {records : List ρ}
    {connection : ClientConnection} {sendings : List (Sending ρ)}
    {client : ReplayClient ρ}
    (hreplays : Replays replay select records connection sendings client) :
    Delivers replay records connection sendings client := by
  obtain ⟨hplace, -, hwire, hdue⟩ := hreplays
  cases hplace with
  | starting hpoint hrecords hawaits =>
      refine ⟨hwire, List.nil_prefix, hdue, ?_, ?_, ?_⟩ <;> simp [hpoint]
  | waiting hpoint hrecords hawaits =>
      refine ⟨hwire, ?_, hdue, ?_, ?_, ?_⟩
      · rw [hrecords]
        exact List.prefix_append _ _
      · simp [hpoint]
      · simp [hpoint]
      · simp [hpoint]
  | returned hpoint hrecords =>
      refine ⟨hwire, ?_, hdue, fun _ => hrecords.symm, ?_, ?_⟩
      · rw [← hrecords]
      · simp [hpoint]
      · simp [hpoint]
  | threw hpoint hrecords =>
      refine ⟨hwire, List.nil_prefix, hdue, ?_, ?_, ?_⟩
      · simp [hpoint]
      · simp [hpoint]
      · intro exception hthrew
        rw [hpoint] at hthrew
        cases hthrew
        exact ⟨rfl, hrecords⟩

/-- When its buffer may be written and every message is written in full,
either client sends the records of its kind in the order of the file, none
before its time, and returns only when all are sent. -/
theorem clients_deliver (filename : String) (file : Csv.File)
    (connection : ClientConnection) (hopen : connection.fd ≠ -1)
    (buffer : Memory) (ticks : List Tick) :
    ∃ parser,
      CSVParser.construct filename (some file.text) = .ok parser ∧
        DeliversWhole MarketClient.replay file.quotes
          (start MarketClient.replay connection parser buffer) ticks ∧
        DeliversWhole TradeClient.replay file.trades
          (start TradeClient.replay connection parser buffer) ticks := by
  obtain ⟨parser, hconstruct, hquotes, htrades⟩ :=
    CSVParser.construct_file filename file
  refine ⟨parser, hconstruct, fun hwhole => ?_, fun hwhole => ?_⟩
  · have hstart : Replays MarketClient.replay Csv.Entry.quote? file.quotes
        connection [] _ :=
      start_replays rfl CSVParser.selects_quotes hquotes hopen buffer
    exact (hstart.after rfl CSVParser.selects_quotes hwhole).delivers
  · have hstart : Replays TradeClient.replay Csv.Entry.trade? file.trades
        connection [] _ :=
      start_replays rfl CSVParser.selects_trades htrades hopen buffer
    exact (hstart.after rfl CSVParser.selects_trades hwhole).delivers

theorem wholePrice_fits {whole : List (Fin 10)}
    (hfits : valueOf whole * 10000 < 2 ^ 64) :
    (DecimalNumeral.mk whole ((none : Option (List (Fin 10))).getD [])).value
      * 10000 < 2 ^ 64 := by
  have hcast : (valueOf whole * 10000 : ℚ) < 2 ^ 64 := by exact_mod_cast hfits
  simpa only [DecimalNumeral.value, Option.getD_none, valueOf_nil,
    Nat.cast_zero, zero_div, add_zero] using hcast

def sampleRow : Csv.QuoteRow :=
  let nine : Fin 10 := Fin.last 9
  let zero : Fin 10 := nine.rev
  { timestamp := ⟨(zero, nine), (zero, nine), (zero, nine),
      (zero, zero, zero)⟩
    symbol := ⟨⟨"AAPL.OQ.XNAS".toList.map Char.toUInt8, by decide⟩,
      by decide, by decide⟩
    bidPrice := ⟨[nine], none, by decide, by decide,
      wholePrice_fits (by decide)⟩
    bidQuantity := ⟨[nine], by decide, by decide⟩
    askPrice := ⟨[nine, nine], none, by decide, by decide,
      wholePrice_fits (by decide)⟩
    askQuantity := ⟨[nine, zero], by decide, by decide⟩ }

def sampleTradeRow : Csv.TradeRow where
  timestamp := sampleRow.timestamp
  symbol := sampleRow.symbol
  price := sampleRow.bidPrice
  quantity := sampleRow.bidQuantity

def quoteTradeFile : Csv.File where
  preamble := []
  header := "TIMESTAMP".toList.map Char.toUInt8
  entries := [.quote sampleRow, .trade sampleTradeRow]
  preamble_comment := by simp
  preamble_line := by simp
  header_not_comment := by decide
  header_line := by decide

theorem sendings_start {replay : Replay ρ} {parser : CSVParser} {first : ρ}
    (hfirst : (replay.read parser).2 = .returns first)
    (connection : ClientConnection) (buffer : Memory) (tick : Tick) :
    sendings replay (start replay connection parser buffer) [tick] =
      [.data first tick] := by
  simp [sendings, sending, start, hfirst]

/-- Each client sends the one record of its kind. -/
theorem clients_deliver_sample :
    ∃ parser,
      CSVParser.construct "sample.csv" (some quoteTradeFile.text) = .ok parser ∧
        Delivers MarketClient.replay [sampleRow.record] ⟨4, []⟩
          [.data sampleRow.record ⟨0, 0, .ok 48⟩]
          ((start MarketClient.replay ⟨4, []⟩ parser fun _ => 0).after
            MarketClient.replay [⟨0, 0, .ok 48⟩]) := by
  obtain ⟨parser, hconstruct, hquotes, -⟩ :=
    clients_deliver "sample.csv" quoteTradeFile ⟨4, []⟩ (by decide)
      (fun _ => 0) [⟨0, 0, .ok 48⟩]
  obtain ⟨other, hother, hawaits, -⟩ :=
    CSVParser.construct_file "sample.csv" quoteTradeFile
  cases hconstruct.symm.trans hother
  have hfirst : (MarketClient.replay.read parser).2 =
      .returns sampleRow.record :=
    (hawaits.readRow_cons CSVParser.selects_quotes).1
  unfold DeliversWhole at hquotes
  rw [sendings_start hfirst] at hquotes
  refine ⟨parser, hconstruct, hquotes ?_⟩
  rw [List.forall_mem_singleton, Whole, GCMDSerialiser.length_frame]
  rfl

end ReplayClient

/-! ## The messages that are handled -/

def MDMessage.isHeartbeat : MDMessage → Bool
  | .heartbeat _ => true
  | _ => false

namespace Sending

variable {ρ : Type} {replay : Replay ρ}

def clock? : Sending ρ → Option UInt64
  | .data _ tick => some tick.wallClockNow
  | .heartbeat _ => none

/-- The messages of the records, each stamped with the clock at which it was
sent. -/
theorem filter_message
    (hkind : ∀ record clock, (replay.message record clock).isHeartbeat =
      false) (sendings : List (Sending ρ)) :
    (sendings.map (message replay)).filter (fun sent => !sent.isHeartbeat) =
      List.zipWith replay.message (records sendings)
        (sendings.filterMap clock?) := by
  induction sendings with
  | nil => rfl
  | cons sending later ih =>
      cases sending with
      | data record tick =>
          rw [List.map_cons, List.filter_cons_of_pos (by
            simp [message, hkind]), ih]
          rfl
      | heartbeat tick => exact ih

theorem length_clocks (sendings : List (Sending ρ)) :
    (sendings.filterMap clock?).length = (records sendings).length := by
  induction sendings with
  | nil => rfl
  | cons sending later ih =>
      cases sending with
      | data record tick => exact congrArg (· + 1) ih
      | heartbeat tick => exact ih

end Sending

namespace TradingPipeline

section Handled

variable {wiring : Wiring} {happened : List Happening}
  {pipeline : TradingPipeline}
  (hexplained : Explained wiring happened pipeline)
include hexplained

/-- The peer of a connection is a replay client, which has sent the frames of
`sendings`, and `recv` has given the first of them. -/
theorem Explained.handledOn_records {ρ : Type} {replay : Replay ρ}
    (hkind : ∀ record clock,
      (replay.message record clock).isHeartbeat = false ∧
        NetworkMessageReceiver.Decodes (replay.message record clock))
    {records : List ρ} {sendings : List (Sending ρ)}
    (hrecords : Sending.records sendings <+: records)
    {connection : Connection}
    (hreceived : (receivedOn connection happened).flatten <+:
      (sendings.map fun sending =>
        GCMDSerialiser.frame (sending.message replay)).flatten) :
    ∃ clocks,
      (handledOn connection happened).filter
          (fun message => !message.isHeartbeat) =
        List.zipWith replay.message records clocks := by
  have hdecoded : (sendings.map (Sending.message replay)).map
      GCMDDeserialiser.decoded = sendings.map (Sending.message replay) := by
    rw [List.map_map, List.map_inj_left]
    intro sending _
    rw [Function.comp_apply, GCMDDeserialiser.decoded_eq_self_iff]
    intro sessionControl hmessage
    cases sending with
    | data record tick =>
        exact absurd (congrArg GCMDSerialiser.messageType hmessage)
          (hkind record _).2
    | heartbeat tick => contradiction
  have hpeer : (receivedOn connection happened).flatten <+:
      ((sendings.map (Sending.message replay)).map
        GCMDSerialiser.frame).flatten := by
    simpa [Function.comp_def] using hreceived
  have htaken := hexplained.handledOn_isPrefix hpeer
  rw [hdecoded] at htaken
  rw [List.prefix_iff_eq_take, ← List.map_take] at htaken
  generalize (handledOn connection happened).length = handled at htaken
  have hfirst : Sending.records (sendings.take handled) <+: records := by
    refine List.IsPrefix.trans ?_ hrecords
    exact (List.take_prefix handled sendings).filterMap _
  rcases hfirst with ⟨later, hlater⟩
  refine ⟨(sendings.take handled).filterMap Sending.clock?, ?_⟩
  rw [htaken, Sending.filter_message (fun record clock =>
    (hkind record clock).1), ← hlater]
  have hclocks := Sending.length_clocks (sendings.take handled)
  generalize (sendings.take handled).filterMap Sending.clock? = clocks
    at hclocks ⊢
  generalize Sending.records (sendings.take handled) = sent at hclocks ⊢
  calc List.zipWith replay.message sent clocks
      = List.zipWith replay.message sent clocks ++
          List.zipWith replay.message later [] := by simp
    _ = List.zipWith replay.message (sent ++ later) (clocks ++ []) :=
        (List.zipWith_append hclocks.symm).symm
    _ = List.zipWith replay.message (sent ++ later) clocks := by
        rw [List.append_nil]

end Handled

/-- A client replays a file; it has written its messages in full, and a
connection has received the first bytes of them. -/
structure Feeds {ρ : Type} (replay : Replay ρ) (file : Csv.File)
    (client : ReplayClient ρ) (ticks : List ReplayClient.Tick)
    (chunks : List (List UInt8)) : Prop where
  started : ∃ filename parser fd buffer,
    CSVParser.construct filename (some file.text) = .ok parser ∧ fd ≠ -1 ∧
      client = ReplayClient.start replay ⟨fd, []⟩ parser buffer
  whole : ∀ sending ∈ ReplayClient.sendings replay client ticks,
    ReplayClient.Whole replay sending
  received : chunks.flatten <+:
    (client.after replay ticks).connection.sent

theorem Feeds.delivers {ρ : Type} {replay : Replay ρ} {file : Csv.File}
    {client : ReplayClient ρ} {ticks : List ReplayClient.Tick}
    {chunks : List (List UInt8)}
    (hfeeds : Feeds replay file client ticks chunks)
    {row : List UInt8 → Option (Csv.Ending ρ)}
    {select : Csv.Entry → Option ρ} {records : List ρ}
    (hread : replay.read = CSVParser.readRow row)
    (hselects : CSVParser.Selects row select)
    (hawaits : ∀ filename parser,
      CSVParser.construct filename (some file.text) = .ok parser →
        CSVParser.Awaits select parser records) :
    Sending.records (ReplayClient.sendings replay client ticks) <+:
        records ∧
      chunks.flatten <+:
        ((ReplayClient.sendings replay client ticks).map fun sending =>
          GCMDSerialiser.frame (sending.message replay)).flatten := by
  obtain ⟨filename, parser, fd, buffer, hconstruct, hopen, rfl⟩ :=
    hfeeds.started
  have hstart := ReplayClient.start_replays hread hselects
    (hawaits filename parser hconstruct)
    (show (ClientConnection.mk fd []).fd ≠ -1 from hopen) buffer
  have hdelivers :=
    (hstart.after hread hselects hfeeds.whole).delivers
  refine ⟨hdelivers.in_order, ?_⟩
  have hreceived := hfeeds.received
  rw [hdelivers.wire] at hreceived
  exact hreceived

theorem construct_awaits (file : Csv.File) (filename : String)
    (parser : CSVParser)
    (hconstruct :
      CSVParser.construct filename (some file.text) = .ok parser) :
    CSVParser.Awaits Csv.Entry.quote? parser file.quotes ∧
      CSVParser.Awaits Csv.Entry.trade? parser file.trades := by
  obtain ⟨other, hother, hboth⟩ := CSVParser.construct_file filename file
  rw [hconstruct] at hother
  cases hother
  exact hboth

section Fed

variable {wiring : Wiring} {happened : List Happening}
  {pipeline : TradingPipeline}
  (hexplained : Explained wiring happened pipeline) {file : Csv.File}
  {ticks : List ReplayClient.Tick} {connection : Connection}
include hexplained

/-- The market client feeds the connection. -/
theorem Explained.handledOn_quotes {client : ReplayClient Csv.Quote}
    (hfeeds : Feeds MarketClient.replay file client ticks
      (receivedOn connection happened)) :
    ∃ clocks,
      (handledOn connection happened).filter
          (fun message => !message.isHeartbeat) =
        List.zipWith
          (fun quote clock =>
            .quote (MarketClient.bodyFromQuote quote clock))
          file.quotes clocks := by
  obtain ⟨hrecords, hreceived⟩ := hfeeds.delivers rfl
    CSVParser.selects_quotes fun filename parser hconstruct =>
      (construct_awaits file filename parser hconstruct).1
  apply hexplained.handledOn_records _ hrecords hreceived
  intro record clock
  simp [MarketClient.replay, MDMessage.isHeartbeat,
    NetworkMessageReceiver.Decodes, GCMDSerialiser.messageType]

/-- The trade client feeds the connection. -/
theorem Explained.handledOn_trades {client : ReplayClient Csv.Trade}
    (hfeeds : Feeds TradeClient.replay file client ticks
      (receivedOn connection happened)) :
    ∃ clocks,
      (handledOn connection happened).filter
          (fun message => !message.isHeartbeat) =
        List.zipWith
          (fun trade clock =>
            .trade (TradeClient.bodyFromTrade trade clock))
          file.trades clocks := by
  obtain ⟨hrecords, hreceived⟩ := hfeeds.delivers rfl
    CSVParser.selects_trades fun filename parser hconstruct =>
      (construct_awaits file filename parser hconstruct).2
  apply hexplained.handledOn_records _ hrecords hreceived
  intro record clock
  simp [TradeClient.replay, MDMessage.isHeartbeat,
    NetworkMessageReceiver.Decodes, GCMDSerialiser.messageType]

end Fed

/-- A client that has sent its first record. -/
theorem feeds_first {ρ : Type} {replay : Replay ρ}
    {row : List UInt8 → Option (Csv.Ending ρ)} {select : Csv.Entry → Option ρ}
    (hread : replay.read = CSVParser.readRow row)
    (hselects : CSVParser.Selects row select) {file : Csv.File}
    {filename : String} {parser : CSVParser}
    (hconstruct :
      CSVParser.construct filename (some file.text) = .ok parser)
    {first : ρ} {later : List ρ}
    (hawaits : CSVParser.Awaits select parser (first :: later))
    {tick : ReplayClient.Tick}
    (hwhole : ReplayClient.Whole replay (.data first tick)) :
    Feeds replay file (ReplayClient.start replay ⟨4, []⟩ parser fun _ => 0)
      [tick]
      [GCMDSerialiser.frame (replay.message first tick.wallClockNow)] := by
  have hfirst : (replay.read parser).2 = .returns first := by
    rw [hread]
    exact (hawaits.readRow_cons hselects).1
  have hsendings := ReplayClient.sendings_start hfirst ⟨4, []⟩ (fun _ => 0)
    tick
  have hall : ∀ sending ∈ ReplayClient.sendings replay
      (ReplayClient.start replay ⟨4, []⟩ parser fun _ => 0) [tick],
      ReplayClient.Whole replay sending := by
    rw [hsendings, List.forall_mem_singleton]
    exact hwhole
  refine ⟨⟨_, _, _, _, hconstruct, by decide, rfl⟩, hall, ?_⟩
  have hconnected : (⟨4, []⟩ : ClientConnection).fd ≠ -1 := by decide
  have hstart := ReplayClient.start_replays hread hselects hawaits hconnected
    fun _ => 0
  have hdelivers := (hstart.after hread hselects hall).delivers
  rw [hdelivers.wire, List.nil_append, List.nil_append, hsendings]
  exact List.prefix_rfl

end TradingPipeline

namespace Program

open TradingPipeline (Feeds receivedOn handledOn sampleWiring)

/-- The quotes handled on the market data connection are those that the
market client makes of the first quotes of its file, each at some reading of
its clock, and the trades handled on the other connection are those that the
trade client makes of the first trades of its file. -/
theorem files_to_handlers (wiring : Wiring) (turns : List Turn)
    {quoteFile tradeFile : Csv.File}
    {marketClient : ReplayClient Csv.Quote}
    {tradeClient : ReplayClient Csv.Trade}
    {quoteTicks tradeTicks : List ReplayClient.Tick}
    (hquotes : Feeds MarketClient.replay quoteFile marketClient quoteTicks
      (receivedOn .md (happenings wiring turns)))
    (htrades : Feeds TradeClient.replay tradeFile tradeClient tradeTicks
      (receivedOn .oe (happenings wiring turns))) :
    (∃ clocks,
      (handledOn .md (happenings wiring turns)).filter
          (fun message => !message.isHeartbeat) =
        List.zipWith
          (fun quote clock =>
            .quote (MarketClient.bodyFromQuote quote clock))
          quoteFile.quotes clocks) ∧
      ∃ clocks,
        (handledOn .oe (happenings wiring turns)).filter
            (fun message => !message.isHeartbeat) =
          List.zipWith
            (fun trade clock =>
              .trade (TradeClient.bodyFromTrade trade clock))
            tradeFile.trades clocks := by
  have hexplained := after_explained wiring turns
  exact ⟨hexplained.handledOn_quotes hquotes,
    hexplained.handledOn_trades htrades⟩

/-- The records of the sample file arrive and are handled, and the order for
the trade is written. -/
def replayTurns : List Turn :=
  List.replicate 6 (.receiver .md (.ok (GCMDSerialiser.frame
      (MarketClient.replay.message ReplayClient.sampleRow.record 0)))
      1000) ++
    List.replicate 6 (.receiver .oe (.ok (GCMDSerialiser.frame
      (TradeClient.replay.message ReplayClient.sampleTradeRow.record 0)))
      1000) ++
    List.replicate 10 (.dispatcher ⟨5, 5, 5⟩) ++
    List.replicate 3 (.orderSender (.ok 54))

theorem replay_feeds :
    ∃ parser,
      Feeds MarketClient.replay ReplayClient.quoteTradeFile
          (ReplayClient.start MarketClient.replay ⟨4, []⟩ parser fun _ => 0)
          [⟨0, 0, .ok 48⟩]
          (receivedOn .md (happenings sampleWiring replayTurns)) ∧
        Feeds TradeClient.replay ReplayClient.quoteTradeFile
          (ReplayClient.start TradeClient.replay ⟨4, []⟩ parser fun _ => 0)
          [⟨0, 0, .ok 45⟩]
          (receivedOn .oe (happenings sampleWiring replayTurns)) := by
  obtain ⟨parser, hconstruct, hquotes, htrades⟩ :=
    CSVParser.construct_file "sample.csv" ReplayClient.quoteTradeFile
  have hmd : receivedOn .md (happenings sampleWiring replayTurns) =
      [GCMDSerialiser.frame (MarketClient.replay.message
        ReplayClient.sampleRow.record 0)] := by decide +kernel
  have hoe : receivedOn .oe (happenings sampleWiring replayTurns) =
      [GCMDSerialiser.frame (TradeClient.replay.message
        ReplayClient.sampleTradeRow.record 0)] := by decide +kernel
  rw [hmd, hoe]
  refine ⟨parser, ?_, ?_⟩
  · exact TradingPipeline.feeds_first rfl CSVParser.selects_quotes hconstruct
      hquotes rfl
  · exact TradingPipeline.feeds_first rfl CSVParser.selects_trades hconstruct
      htrades rfl

/-- The quote and the trade of the file are handled. -/
theorem files_to_handlers_sample :
    (∃ clocks,
      (handledOn .md (happenings sampleWiring replayTurns)).filter
          (fun message => !message.isHeartbeat) =
        List.zipWith
          (fun quote clock =>
            .quote (MarketClient.bodyFromQuote quote clock))
          ReplayClient.quoteTradeFile.quotes clocks) ∧
      (handledOn .md (happenings sampleWiring replayTurns)).length = 1 ∧
        (handledOn .oe (happenings sampleWiring replayTurns)).length = 1 := by
  rcases replay_feeds with ⟨parser, hquotes, htrades⟩
  exact ⟨(files_to_handlers sampleWiring replayTurns hquotes htrades).1,
    by decide +kernel, by decide +kernel⟩

end Program

end Slipstream
