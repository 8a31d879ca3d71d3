import Slipstream.GreedyFraming
import Slipstream.OECodec

/-!
# The order message sender

The sender thread takes orders and execution reports from its queue,
serialises each into its buffer and hands the buffer to the connection.  The
connection calls `send` once, and the operating system decides how many of
the bytes it accepts.  The number that it accepted is returned to the sender,
which does not look at it.
-/

namespace Slipstream

open PackedBytes

/-- A connection with the bytes that were put on it.  Without a socket `fd`
is `-1`. -/
structure ClientConnection where
  fd : ℤ
  sent : List UInt8

/-- One call of the system's `send` is answered by the number of bytes that
it accepted, or by the text of an error. -/
abbrev SendAnswer := Except String ℕ

namespace ClientConnection

def sendBuffer (connection : ClientConnection) (buffer : List UInt8)
    (answer : SendAnswer) : Outcome ClientConnection ℕ :=
  if connection.fd = -1 then
    (.error (.logicError "Connection not opened"), connection)
  else
    match answer with
    | .error strerror =>
        (.error (.runtimeError ("send failed: " ++ strerror)), connection)
    | .ok n =>
        if n = 0 then
          (.error (.outOfRange "connection closed by peer"), connection)
        else
          (.ok n, { connection with sent := connection.sent ++ buffer.take n })

theorem sendBuffer_of_closed {connection : ClientConnection}
    (hclosed : connection.fd = -1) (buffer : List UInt8)
    (answer : SendAnswer) :
    connection.sendBuffer buffer answer =
      (.error (.logicError "Connection not opened"), connection) :=
  if_pos hclosed

theorem sendBuffer_of_accepted {connection : ClientConnection}
    (hopen : connection.fd ≠ -1) (buffer : List UInt8) {n : ℕ}
    (hpos : 1 ≤ n) :
    connection.sendBuffer buffer (.ok n) =
      (.ok n,
        { connection with sent := connection.sent ++ buffer.take n }) := by
  have hnonzero : n ≠ 0 := by omega
  simp only [sendBuffer, if_neg hopen, if_neg hnonzero]

end ClientConnection

inductive OrderMessage where
  | newOrder (order : NewOrder)
  | execReport (report : ExecReport)

namespace OrderMessage

def serialise (memory : Memory) : OrderMessage → ℕ × Memory
  | .newOrder order =>
      OESerialiser.serialiseNewOrderMessage memory 0 order.toBody
  | .execReport report =>
      OESerialiser.serialiseExecReportMessage memory 0 report.toBody

/-- The bytes that serialising a message to an empty buffer writes. -/
def frame (message : OrderMessage) : List UInt8 :=
  let written := message.serialise fun _ => 0
  written.2.bytes 0 written.1

theorem bytes_serialise (memory : Memory) (message : OrderMessage) :
    (message.serialise memory).2.bytes 0 (message.serialise memory).1 =
      message.frame := by
  cases message with
  | newOrder order =>
      have hlength := order.toBody.length_toBytes
      exact (OESerialiser.bytes_serialiseMessage memory 0 _ hlength).trans
        (OESerialiser.bytes_serialiseMessage _ 0 _ hlength).symm
  | execReport report =>
      have hlength := report.toBody.length_toBytes
      exact (OESerialiser.bytes_serialiseMessage memory 0 _ hlength).trans
        (OESerialiser.bytes_serialiseMessage _ 0 _ hlength).symm

def messageSize : OrderMessage → ℕ
  | .newOrder _ => FrameHeader.size + NewOrderBody.size
  | .execReport _ => FrameHeader.size + ExecReportBody.size

@[simp] theorem length_frame (message : OrderMessage) :
    message.frame.length = message.messageSize := by
  rw [frame, Memory.length_bytes]
  cases message <;> rfl

theorem messageSize_pos (message : OrderMessage) :
    0 < message.messageSize := by
  cases message <;> exact Nat.succ_pos _

end OrderMessage

structure OrderMessageSender where
  buffer : Memory
  clientConnection : ClientConnection

/-- What one iteration of the sending loop finds: the queue is empty, or a
message is taken and the call of `send` that follows is answered. -/
inductive Poll where
  | empty
  | taken (message : OrderMessage) (answer : SendAnswer)

namespace OrderMessageSender

def initial (buffer : Memory) (fd : ℤ) : OrderMessageSender where
  buffer := buffer
  clientConnection := ⟨fd, []⟩

/-- The call that both send functions end with, for the number of bytes and
the buffer that serialising gives.  Its result is dropped. -/
def sendSerialised (sender : OrderMessageSender) (written : ℕ × Memory)
    (answer : SendAnswer) : Outcome OrderMessageSender Unit :=
  let outcome := sender.clientConnection.sendBuffer
    (written.2.bytes 0 written.1) answer
  (outcome.1.map fun _ => (), ⟨written.2, outcome.2⟩)

def sendNewOrder (sender : OrderMessageSender) (order : NewOrder)
    (answer : SendAnswer) : Outcome OrderMessageSender Unit :=
  sender.sendSerialised
    (OESerialiser.serialiseNewOrderMessage sender.buffer 0 order.toBody)
    answer

def sendExecReport (sender : OrderMessageSender) (report : ExecReport)
    (answer : SendAnswer) : Outcome OrderMessageSender Unit :=
  sender.sendSerialised
    (OESerialiser.serialiseExecReportMessage sender.buffer 0 report.toBody)
    answer

/-- The body of the loop of `run`. -/
def iterate (sender : OrderMessageSender) :
    Poll → Outcome OrderMessageSender Unit
  | .empty => (.ok (), sender)
  | .taken (.newOrder order) answer => sender.sendNewOrder order answer
  | .taken (.execReport report) answer => sender.sendExecReport report answer

/-- The loop of `run` up to some test of `shouldStop`.  An exception leaves
it. -/
def run (sender : OrderMessageSender) :
    List Poll → Outcome OrderMessageSender Unit
  | [] => (.ok (), sender)
  | poll :: rest =>
      match sender.iterate poll with
      | (.error exception, next) => (.error exception, next)
      | (.ok (), next) => run next rest

/-- The messages that a run takes from the queue. -/
def taken (polls : List Poll) : List OrderMessage :=
  polls.filterMap fun poll =>
    match poll with
    | .empty => none
    | .taken message _ => some message

end OrderMessageSender

namespace Poll

/-- The frame of the message taken, if there is one. -/
def frame : Poll → List UInt8
  | .empty => []
  | .taken message _ => message.frame

/-- The part of the frame that `send` accepts. -/
def accepted : Poll → List UInt8
  | .taken message (.ok n) => message.frame.take n
  | _ => []

/-- What `send` is documented to answer on success. -/
def Accepts : Poll → Prop
  | .empty => True
  | .taken message answer =>
      ∃ n, answer = .ok n ∧ 1 ≤ n ∧ n ≤ message.frame.length

theorem accepted_isPrefix (poll : Poll) : poll.accepted <+: poll.frame := by
  rcases poll with _ | ⟨message, _ | n⟩
  · exact List.nil_prefix
  · exact List.nil_prefix
  · exact List.take_prefix n _

end Poll

namespace OrderMessageSender

/-! ## What is put on the connection -/

theorem iterate_taken (sender : OrderMessageSender) (message : OrderMessage)
    (answer : SendAnswer) :
    sender.iterate (.taken message answer) =
      ((sender.clientConnection.sendBuffer message.frame answer).1.map
          fun _ => (),
        { buffer := (message.serialise sender.buffer).2
          clientConnection :=
            (sender.clientConnection.sendBuffer message.frame answer).2 }) := by
  rw [← message.bytes_serialise sender.buffer]
  cases message <;> rfl

/-- Whatever `send` answers, the connection has the bytes that it accepted. -/
theorem iterate_connection {sender next : OrderMessageSender}
    (hopen : sender.clientConnection.fd ≠ -1) {message : OrderMessage}
    {answer : SendAnswer} {result : Except Exception Unit}
    (hiterate : sender.iterate (.taken message answer) = (result, next)) :
    next.clientConnection =
      { sender.clientConnection with
        sent := sender.clientConnection.sent ++
          (Poll.taken message answer).accepted } := by
  rw [iterate_taken] at hiterate
  obtain rfl := (Prod.mk.inj hiterate).2
  cases answer with
  | error strerror =>
      simp [ClientConnection.sendBuffer, hopen, Poll.accepted]
  | ok n =>
      by_cases hzero : n = 0
      · simp [ClientConnection.sendBuffer, hopen, hzero, Poll.accepted]
      · rw [ClientConnection.sendBuffer_of_accepted hopen _ (by omega)]
        rfl

theorem taken_append (first second : List Poll) :
    taken (first ++ second) = taken first ++ taken second :=
  List.filterMap_append

theorem run_of_closed {sender : OrderMessageSender}
    (hclosed : sender.clientConnection.fd = -1) (polls : List Poll) :
    (sender.run polls).2.clientConnection = sender.clientConnection := by
  induction polls with
  | nil => rfl
  | cons poll rest ih =>
      cases poll with
      | empty => exact ih
      | taken message answer =>
          rw [run, iterate_taken,
            ClientConnection.sendBuffer_of_closed hclosed]
          rfl

/-- Of each frame just the part that `send` accepts is put on the
connection. -/
theorem run_of_open {sender : OrderMessageSender}
    (hopen : sender.clientConnection.fd ≠ -1) {polls : List Poll}
    (haccepts : ∀ poll ∈ polls, poll.Accepts) :
    (sender.run polls).1 = .ok () ∧
      (sender.run polls).2.clientConnection.sent =
        sender.clientConnection.sent ++ polls.flatMap Poll.accepted := by
  induction polls generalizing sender with
  | nil => exact ⟨rfl, (List.append_nil _).symm⟩
  | cons poll rest ih =>
      rw [List.forall_mem_cons] at haccepts
      rcases haccepts with ⟨hfirst, hrest⟩
      cases poll with
      | empty => exact ih hopen hrest
      | taken message answer =>
          rcases hfirst with ⟨n, rfl, hpos, -⟩
          have hsend := ClientConnection.sendBuffer_of_accepted hopen
            message.frame hpos
          rw [run, iterate_taken, hsend]
          let next : OrderMessageSender :=
            { buffer := (message.serialise sender.buffer).2
              clientConnection :=
                { sender.clientConnection with
                  sent := sender.clientConnection.sent ++
                    message.frame.take n } }
          rcases @ih next hopen hrest with ⟨hresult, hsent⟩
          refine ⟨hresult, hsent.trans ?_⟩
          rw [List.flatMap_cons, Poll.accepted, List.append_assoc]

theorem flatMap_frame_taken (polls : List Poll) :
    (taken polls).flatMap OrderMessage.frame = polls.flatMap Poll.frame := by
  induction polls with
  | nil => rfl
  | cons poll rest ih =>
      cases poll with
      | empty => exact ih
      | taken message answer =>
          rw [List.flatMap_cons, ← ih]
          rfl

theorem accepted_eq_frame_iff {message : OrderMessage} {answer : SendAnswer}
    (haccepts : (Poll.taken message answer).Accepts) :
    (Poll.taken message answer).accepted =
        (Poll.taken message answer).frame ↔
      answer = .ok message.frame.length := by
  rcases haccepts with ⟨n, rfl, -, hle⟩
  rw [Poll.accepted, Poll.frame, List.take_eq_self_iff, Except.ok.injEq]
  omega

/-- The complete frames of the messages taken are put on the connection
exactly when it has a socket and every `send` accepts a whole frame. -/
theorem sends_whole_frames_iff (buffer : Memory) (fd : ℤ)
    (polls : List Poll) (haccepts : ∀ poll ∈ polls, poll.Accepts) :
    ((initial buffer fd).run polls).2.clientConnection.sent =
        (taken polls).flatMap OrderMessage.frame ↔
      ∀ message answer, .taken message answer ∈ polls →
        fd ≠ -1 ∧ answer = .ok message.frame.length := by
  rw [flatMap_frame_taken]
  by_cases hclosed : fd = -1
  · have hsent : ((initial buffer fd).run polls).2.clientConnection.sent =
        [] := by
      rw [run_of_closed hclosed]
      rfl
    rw [hsent, eq_comm, List.flatMap_eq_nil_iff]
    constructor
    · intro hempty message answer hmem
      have hframe := hempty _ hmem
      have hlength := message.length_frame
      have hpos := message.messageSize_pos
      rw [Poll.frame] at hframe
      rw [hframe, List.length_nil] at hlength
      omega
    · intro hwhole poll hmem
      cases poll with
      | empty => rfl
      | taken message answer =>
          exact absurd hclosed (hwhole message answer hmem).1
  · have hsent : ((initial buffer fd).run polls).2.clientConnection.sent =
        polls.flatMap Poll.accepted :=
      (run_of_open hclosed haccepts).2
    rw [hsent, Framing.flatMap_truncated_eq_iff
      fun poll _ => poll.accepted_isPrefix]
    constructor
    · intro hwhole message answer hmem
      exact ⟨hclosed, (accepted_eq_frame_iff (haccepts _ hmem)).mp
        (hwhole _ hmem)⟩
    · intro hwhole poll hmem
      cases poll with
      | empty => rfl
      | taken message answer =>
          rw [accepted_eq_frame_iff (haccepts _ hmem)]
          exact (hwhole message answer hmem).2

def sampleOrder : NewOrder where
  clientOrderId := 1
  symbol := List.Vector.replicate 12 65
  status := .accepted
  tsNs := 1000
  tradeId := 3
  side := .buy
  qty := 7
  limitPx := 101

def sampleReport : ExecReport where
  clientOrderId := 1
  tsNs := 2000
  status := .ack
  filledQty := 0
  avgPx := 0
  reasonCode := .none

theorem sends_whole_frames :
    let polls : List Poll :=
      [.taken (.newOrder sampleOrder) (.ok 54), .empty,
        .taken (.execReport sampleReport) (.ok 34)]
    ((initial (fun _ => 0) 3).run polls).2.clientConnection.sent =
      (taken polls).flatMap OrderMessage.frame := by
  intro polls
  have haccepts : ∀ poll ∈ polls, poll.Accepts := by
    simp [polls, Poll.Accepts, OrderMessage.messageSize, FrameHeader.size,
      NewOrderBody.size, ExecReportBody.size]
  rw [sends_whole_frames_iff _ 3 polls haccepts]
  intro message answer hmem
  simp only [polls, List.mem_cons, Poll.taken.injEq, List.not_mem_nil,
    reduceCtorEq, false_or, or_false] at hmem
  rcases hmem with ⟨rfl, rfl⟩ | ⟨rfl, rfl⟩
  · exact ⟨by decide, rfl⟩
  · exact ⟨by decide, rfl⟩

/-- The last byte of an order is not accepted: the report that follows is
put right behind the other 53. -/
theorem short_send_loses_byte :
    let polls : List Poll :=
      [.taken (.newOrder sampleOrder) (.ok 53),
        .taken (.execReport sampleReport) (.ok 34)]
    (∀ poll ∈ polls, poll.Accepts) ∧
      ((initial (fun _ => 0) 3).run polls).2.clientConnection.sent ≠
        (taken polls).flatMap OrderMessage.frame := by
  intro polls
  constructor
  · simp [polls, Poll.Accepts, OrderMessage.messageSize, FrameHeader.size,
      NewOrderBody.size, ExecReportBody.size]
  · decide

end OrderMessageSender

end Slipstream
