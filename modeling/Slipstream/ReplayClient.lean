import Slipstream.OrderMessageSender
import Slipstream.ReplayBodies

/-!
# The replay clients

`MarketClient` and `TradeClient` send the records of a CSV file at the
distances that their timestamps have.  While a client waits for the time of a
record it reads its clock again and again, and sends a heartbeat when the
last one is more than `HEARTBEAT_PER_MS` ago.

The time of the last heartbeat is never stored.  Every reading at which a
client waits is therefore followed by a heartbeat, but for the first
milliseconds of the clock.
-/

namespace Slipstream

open PackedBytes

/-- What tells the two clients apart: the records they read and the messages
these become. -/
structure Replay (ρ : Type) where
  read : CSVParser → CSVParser × Csv.Ending ρ
  timestamp : ρ → UInt64
  message : ρ → UInt64 → MDMessage

/-- Where `run` reads the clock next, or how it has ended. -/
inductive ReplayPoint (ρ : Type) where
  | starting (first : ρ)
  | waiting (record : ρ) (timeToSend : UInt64)
  | returned
  | threw (exception : Exception)
  | undefined

structure ReplayClient (ρ : Type) where
  connection : ClientConnection
  parser : CSVParser
  buffer : Memory
  lastSentHeartbeatMS : UInt64
  startTimestamp : UInt64
  point : ReplayPoint ρ

namespace ReplayClient

variable {ρ : Type}

def heartbeatPerMS : UInt64 := 50

/-- A reading of the clock; the wall clock and the answer of the system's
`send` belong to the message that is sent upon it, if there is one. -/
structure Tick where
  now : UInt64
  wallClockNow : UInt64
  answer : SendAnswer

def sendMessage (client : ReplayClient ρ) (message : MDMessage)
    (answer : SendAnswer) : Outcome (ReplayClient ρ) Unit :=
  let written := GCMDSerialiser.serialise client.buffer 0 message
  let outcome := client.connection.sendBuffer
    (written.2.bytes 0 written.1) answer
  (outcome.1.map fun _ => (),
    { client with buffer := written.2, connection := outcome.2 })

def sendHeartBeat (client : ReplayClient ρ) (tick : Tick) :
    Outcome (ReplayClient ρ) Unit :=
  client.sendMessage (.heartbeat ⟨tick.wallClockNow⟩) tick.answer

def sendRecord (replay : Replay ρ) (client : ReplayClient ρ) (record : ρ)
    (tick : Tick) : Outcome (ReplayClient ρ) Unit :=
  client.sendMessage (replay.message record tick.wallClockNow) tick.answer

/-- The handler of the loop: the end of the file or of the connection ends
it. -/
def handle (client : ReplayClient ρ) : Exception → ReplayClient ρ
  | .outOfRange _ => { client with point := .returned }
  | exception => { client with point := .threw exception }

/-- The head of the loop and the record that it reads. -/
def fetch (replay : Replay ρ) (client : ReplayClient ρ) : ReplayClient ρ :=
  if client.parser.reachedEnd then { client with point := .returned }
  else
    match replay.read client.parser with
    | (parser, .returns record) =>
        { client with
          parser := parser
          point := .waiting record
            (client.startTimestamp + replay.timestamp record) }
    | (parser, .throws exception) =>
        { client with parser := parser }.handle exception
    | (parser, .undefined) =>
        { client with parser := parser, point := .undefined }

/-- The first record is read and sent outside the loop.  The pointer
`buffer`, which the client never initialises, is taken to point to memory
that may be written. -/
def start (replay : Replay ρ) (connection : ClientConnection)
    (parser : CSVParser) (buffer : Memory) : ReplayClient ρ :=
  { connection := connection
    parser := (replay.read parser).1
    buffer := buffer
    lastSentHeartbeatMS := 0
    startTimestamp := 0
    point :=
      match (replay.read parser).2 with
      | .returns first => .starting first
      | .throws exception => .threw exception
      | .undefined => .undefined }

/-- `run` from one reading of the clock to the next, and whether a heartbeat
is sent on the way. -/
def step (replay : Replay ρ) (client : ReplayClient ρ) (tick : Tick) :
    ReplayClient ρ × Bool :=
  match client.point with
  | .starting first =>
      let client :=
        { client with startTimestamp := tick.now - replay.timestamp first }
      match client.sendRecord replay first tick with
      | (.ok (), client) => (client.fetch replay, false)
      | (.error exception, client) =>
          ({ client with point := .threw exception }, false)
  | .waiting record timeToSend =>
      if tick.now < timeToSend then
        if tick.now - client.lastSentHeartbeatMS > heartbeatPerMS then
          match client.sendHeartBeat tick with
          | (.ok (), client) => (client, true)
          | (.error exception, client) => (client.handle exception, true)
        else (client, false)
      else
        match client.sendRecord replay record tick with
        | (.ok (), client) => (client.fetch replay, false)
        | (.error exception, client) => (client.handle exception, false)
  | .returned => (client, false)
  | .threw _ => (client, false)
  | .undefined => (client, false)

/-- The readings that trigger a heartbeat. -/
def heartbeatReadings (replay : Replay ρ) :
    ReplayClient ρ → List Tick → List ℕ
  | _, [] => []
  | client, tick :: later =>
      let next := client.step replay tick
      if next.2 then
        tick.now.toNat :: heartbeatReadings replay next.1 later
      else heartbeatReadings replay next.1 later

/-- The clock has not reached the time of the record that is to be sent. -/
def waits (client : ReplayClient ρ) (now : UInt64) : Bool :=
  match client.point with
  | .waiting _ timeToSend => now < timeToSend
  | _ => false

/-- The readings above `HEARTBEAT_PER_MS` at which the client waits. -/
def waitingReadings (replay : Replay ρ) :
    ReplayClient ρ → List Tick → List ℕ
  | _, [] => []
  | client, tick :: later =>
      let next := client.step replay tick
      if client.waits tick.now ∧ heartbeatPerMS < tick.now then
        tick.now.toNat :: waitingReadings replay next.1 later
      else waitingReadings replay next.1 later

def RateLimited (readings : List ℕ) : Prop :=
  readings.IsChain fun earlier later =>
    heartbeatPerMS.toNat < later - earlier

end ReplayClient

namespace MarketClient

def replay : Replay Csv.Quote where
  read := CSVParser.readQuote
  timestamp := Csv.Quote.timestamp
  message quote wallClockNow := .quote (bodyFromQuote quote wallClockNow)

end MarketClient

namespace TradeClient

def replay : Replay Csv.Trade where
  read := CSVParser.readTrade
  timestamp := Csv.Trade.timestamp
  message trade wallClockNow := .trade (bodyFromTrade trade wallClockNow)

end TradeClient

namespace ReplayClient

section Step

variable {ρ : Type} (replay : Replay ρ) (client : ReplayClient ρ)

theorem sendMessage_lastSent {client : ReplayClient ρ}
    {message : MDMessage} {answer : SendAnswer}
    {result : Except Exception Unit} {next : ReplayClient ρ}
    (hsend : client.sendMessage message answer = (result, next)) :
    next.lastSentHeartbeatMS = client.lastSentHeartbeatMS := by
  rcases Prod.mk.inj hsend with ⟨-, rfl⟩
  rfl

@[simp] theorem handle_lastSent (exception : Exception) :
    (client.handle exception).lastSentHeartbeatMS =
      client.lastSentHeartbeatMS := by
  cases exception <;> rfl

@[simp] theorem fetch_lastSent :
    (client.fetch replay).lastSentHeartbeatMS =
      client.lastSentHeartbeatMS := by
  unfold fetch
  split
  next => rfl
  next =>
    split
    next => rfl
    next => exact handle_lastSent _ _
    next => rfl

/-- No step stores the time of a heartbeat. -/
theorem step_lastSent (tick : Tick) :
    (client.step replay tick).1.lastSentHeartbeatMS =
      client.lastSentHeartbeatMS := by
  cases hpoint : client.point with
  | starting first =>
      simp only [step, hpoint, sendRecord]
      split
      next hsend =>
        rw [fetch_lastSent]
        exact (sendMessage_lastSent hsend).trans rfl
      next hsend => exact (sendMessage_lastSent hsend).trans rfl
  | waiting record timeToSend =>
      simp only [step, hpoint, sendRecord, sendHeartBeat]
      split
      next =>
        split
        next =>
          split
          next hsend => exact sendMessage_lastSent hsend
          next hsend =>
            rw [handle_lastSent]
            exact sendMessage_lastSent hsend
        next => rfl
      next =>
        split
        next hsend =>
          rw [fetch_lastSent]
          exact sendMessage_lastSent hsend
        next hsend =>
          rw [handle_lastSent]
          exact sendMessage_lastSent hsend
  | returned => simp only [step, hpoint]
  | threw exception => simp only [step, hpoint]
  | undefined => simp only [step, hpoint]

variable {client}

/-- A heartbeat is sent whenever the client waits. -/
theorem step_heartbeat_iff (hnever : client.lastSentHeartbeatMS = 0)
    (tick : Tick) :
    (client.step replay tick).2 = true ↔
      client.waits tick.now = true ∧ heartbeatPerMS < tick.now := by
  cases hpoint : client.point with
  | starting first =>
      simp only [step, waits, hpoint]
      split <;> simp
  | waiting record timeToSend =>
      simp only [step, waits, hpoint, hnever, UInt64.sub_zero, gt_iff_lt,
        decide_eq_true_eq]
      by_cases hbefore : tick.now < timeToSend
      · rw [if_pos hbefore]
        by_cases hlate : heartbeatPerMS < tick.now
        · rw [if_pos hlate]
          split <;> simp [hbefore, hlate]
        · rw [if_neg hlate]
          simp [hlate]
      · rw [if_neg hbefore]
        split <;> simp [hbefore]
  | returned => simp [step, waits, hpoint]
  | threw exception => simp [step, waits, hpoint]
  | undefined => simp [step, waits, hpoint]

theorem heartbeatReadings_eq (hnever : client.lastSentHeartbeatMS = 0)
    (ticks : List Tick) :
    heartbeatReadings replay client ticks =
      waitingReadings replay client ticks := by
  induction ticks generalizing client with
  | nil => rfl
  | cons tick later ih =>
      have hnext := (step_lastSent replay client tick).trans hnever
      rw [heartbeatReadings, waitingReadings]
      simp only [step_heartbeat_iff replay hnever tick, ih hnext]

end Step

/-- Heartbeats of either client are more than `HEARTBEAT_PER_MS` apart if and
only if the readings above it at which the client waits are. -/
theorem heartbeats_rate_limited_iff (connection : ClientConnection)
    (parser : CSVParser) (buffer : Memory) (ticks : List Tick) :
    (RateLimited (heartbeatReadings MarketClient.replay
          (start MarketClient.replay connection parser buffer) ticks) ↔
        RateLimited (waitingReadings MarketClient.replay
          (start MarketClient.replay connection parser buffer) ticks)) ∧
      (RateLimited (heartbeatReadings TradeClient.replay
          (start TradeClient.replay connection parser buffer) ticks) ↔
        RateLimited (waitingReadings TradeClient.replay
          (start TradeClient.replay connection parser buffer) ticks)) := by
  rw [heartbeatReadings_eq _ rfl, heartbeatReadings_eq _ rfl]
  exact ⟨Iff.rfl, Iff.rfl⟩

/-! ## Waiting for a record -/

section Waiting

variable {ρ : Type} {replay : Replay ρ} {client : ReplayClient ρ}

theorem sendMessage_accepted (hopen : client.connection.fd ≠ -1)
    (message : MDMessage) {n : ℕ} (hpos : 1 ≤ n) :
    ∃ buffer connection, connection.fd = client.connection.fd ∧
      client.sendMessage message (.ok n) =
        (.ok (),
          { client with buffer := buffer, connection := connection }) := by
  rw [sendMessage, ClientConnection.sendBuffer_of_accepted hopen _ hpos]
  refine ⟨_, _, ?_, rfl⟩
  rfl

/-- While the client waits, each reading triggers a heartbeat. -/
theorem heartbeatReadings_while_waiting {record : ρ} {timeToSend : UInt64}
    (hnever : client.lastSentHeartbeatMS = 0)
    (hopen : client.connection.fd ≠ -1)
    (hpoint : client.point = .waiting record timeToSend) {ticks : List Tick}
    (hticks : ∀ tick ∈ ticks, heartbeatPerMS < tick.now ∧
      tick.now < timeToSend ∧ ∃ n, 1 ≤ n ∧ tick.answer = .ok n) :
    heartbeatReadings replay client ticks =
      ticks.map fun tick => tick.now.toNat := by
  induction ticks generalizing client with
  | nil => rfl
  | cons tick later ih =>
      rw [List.forall_mem_cons] at hticks
      rcases hticks with ⟨⟨hlate, hbefore, n, hpos, hanswer⟩, hlater⟩
      obtain ⟨buffer, connection, hfd, hsend⟩ :=
        sendMessage_accepted hopen (.heartbeat ⟨tick.wallClockNow⟩) hpos
      have hstep : client.step replay tick =
          ({ client with buffer := buffer, connection := connection },
            true) := by
        simp only [step, hpoint, if_pos hbefore, hnever, UInt64.sub_zero,
          gt_iff_lt, if_pos hlate, sendHeartBeat, hanswer, hsend]
      rw [heartbeatReadings, hstep, List.map_cons]
      have hrest : heartbeatReadings replay
          { client with buffer := buffer, connection := connection } later =
            later.map fun tick => tick.now.toNat :=
        ih hnever (hfd.trans_ne hopen) hpoint hlater
      exact congrArg (tick.now.toNat :: ·) hrest

theorem fetch_of_returns {record : ρ}
    (hgoes : client.parser.reachedEnd = false)
    (hread : (replay.read client.parser).2 = .returns record) :
    client.fetch replay =
      { client with
        parser := (replay.read client.parser).1
        point := .waiting record
          (client.startTimestamp + replay.timestamp record) } := by
  rw [fetch, if_neg (by simp [hgoes]),
    ← Prod.mk.eta (p := replay.read client.parser), hread]

theorem step_of_starting (hopen : client.connection.fd ≠ -1) {first : ρ}
    (hpoint : client.point = .starting first) (now wallClockNow : UInt64)
    {n : ℕ} (hpos : 1 ≤ n) :
    ∃ buffer connection, connection.fd = client.connection.fd ∧
      client.step replay ⟨now, wallClockNow, .ok n⟩ =
        (fetch replay
          { client with
            buffer := buffer
            connection := connection
            startTimestamp := now - replay.timestamp first }, false) := by
  rcases client with ⟨connection, parser, buffer, lastSent, _, _⟩
  subst hpoint
  let started : ReplayClient ρ :=
    ⟨connection, parser, buffer, lastSent, now - replay.timestamp first,
      .starting first⟩
  have hstarted : started.connection.fd ≠ -1 := hopen
  obtain ⟨written, next, hfd, hsend⟩ :=
    sendMessage_accepted hstarted (replay.message first wallClockNow) hpos
  refine ⟨written, next, hfd, ?_⟩
  simp only [step, sendRecord]
  rw [hsend]

/-- The heartbeats between the first record and the second. -/
theorem heartbeatReadings_before_second {connection : ClientConnection}
    (hopen : connection.fd ≠ -1) {parser : CSVParser} {first second : ρ}
    (hfirst : (replay.read parser).2 = .returns first)
    (hgoes : (replay.read parser).1.reachedEnd = false)
    (hsecond : (replay.read (replay.read parser).1).2 = .returns second)
    (buffer : Memory) (now wallClockNow : UInt64) {n : ℕ} (hpos : 1 ≤ n)
    {ticks : List Tick}
    (hticks : ∀ tick ∈ ticks, heartbeatPerMS < tick.now ∧
      tick.now < now - replay.timestamp first + replay.timestamp second ∧
        ∃ n, 1 ≤ n ∧ tick.answer = .ok n) :
    heartbeatReadings replay (start replay connection parser buffer)
        (⟨now, wallClockNow, .ok n⟩ :: ticks) =
      ticks.map fun tick => tick.now.toNat := by
  let client := start replay connection parser buffer
  have hclient : client.connection.fd ≠ -1 := hopen
  have hpoint : client.point = .starting first := by
    simp only [client, start, hfirst]
  rcases step_of_starting hclient hpoint now wallClockNow hpos with
    ⟨_, _, hfd, hstep⟩
  rw [heartbeatReadings, hstep, fetch_of_returns hgoes hsecond]
  exact heartbeatReadings_while_waiting rfl (hfd.trans_ne hopen) rfl hticks

end Waiting

/-! ## Two records 200 ms apart -/

def firstLine : List UInt8 :=
  "09:30:00.000,Q,AAAAAAAAAAAA,1,1,1,1".toList.map Char.toUInt8

def secondLine : List UInt8 :=
  "09:30:00.200,Q,AAAAAAAAAAAA,1,1,1,1".toList.map Char.toUInt8

def sampleQuote (timestamp : UInt64) : Csv.Quote where
  timestamp := timestamp
  symbol := List.Vector.replicate 12 'A'.toUInt8
  bidPrice := 10000
  bidQuantity := 1
  askPrice := 10000
  askQuantity := 1

def sampleFile : List UInt8 :=
  "header\n".toList.map Char.toUInt8 ++ firstLine ++
    newline :: secondLine

/-- The clock shows 1000 when the first quote is sent, and then 1000 and
1001. -/
theorem heartbeats_one_ms_apart :
    ∃ parser,
      CSVParser.construct "quotes.csv" (some sampleFile) = .ok parser ∧
      heartbeatReadings MarketClient.replay
          (start MarketClient.replay ⟨3, []⟩ parser fun _ => 0)
          [⟨1000, 0, .ok 48⟩, ⟨1000, 0, .ok 12⟩, ⟨1001, 1, .ok 12⟩] =
        [1000, 1001] ∧
      ¬ RateLimited [1000, 1001] := by
  obtain ⟨parser, hconstruct, hunread⟩ :=
    CSVParser.construct_unread "quotes.csv" sampleFile
  have hlines : CSVParser.dataLines sampleFile =
      [firstLine, secondLine] := by
    decide
  have hfirst : CSVParser.quoteRow firstLine =
      some (.returns (sampleQuote 34200000)) := rfl
  have hsecond : CSVParser.quoteRow secondLine =
      some (.returns (sampleQuote 34200200)) := rfl
  rw [hlines] at hunread
  rcases CSVParser.readRow_of_unread hunread (by decide) hfirst with
    ⟨hread₁, hunread₁⟩
  rcases CSVParser.readRow_of_unread hunread₁ (by decide) hsecond with
    ⟨hread₂, -⟩
  have hgoes : (CSVParser.readQuote parser).1.reachedEnd = false :=
    Bool.eq_false_iff.mpr fun hend =>
      absurd (hunread₁.reachedEnd hend) (List.cons_ne_nil _ _)
  refine ⟨parser, hconstruct, ?_, by simp [RateLimited, heartbeatPerMS]⟩
  refine heartbeatReadings_before_second (by decide) hread₁ hgoes hread₂ _
    1000 0 (by decide) ?_
  simp [heartbeatPerMS, MarketClient.replay, sampleQuote]

end ReplayClient

end Slipstream
