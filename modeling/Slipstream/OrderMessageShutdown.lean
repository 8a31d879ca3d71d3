import Slipstream.BoundedFifo
import Slipstream.OrderMessageSender

/-!
# Shutting down the order message sender

Orders and reports are passed to the sender through a queue that its thread
empties.  The destructor sets a flag and waits for the thread, which tests
the flag before it looks at the queue: what is still queued when the flag is
set stays there, but for one message that the thread may already be about to
take.
-/

namespace Slipstream

open PackedBytes BoundedFifo

/-- What `run` does next.  An exception that leaves `run` ends the
program. -/
inductive SendPoint where
  | checking
  | popping
  | sending (message : OrderMessage)
  | returned
  | terminated

/-- The call of `sendBuffer` that the next step of `run` makes. -/
def SendPoint.poll? (answer : OrderMessage → SendAnswer) :
    SendPoint → Option Poll
  | .sending message => some (.taken message (answer message))
  | _ => none

structure SenderThread where
  sender : OrderMessageSender
  messageQueue : List OrderMessage
  point : SendPoint
  shouldStop : Bool

namespace SenderThread

def queueSize : ℕ := 1024

/-- The thread is declared before the flag and starts before it is set; its
first test is taken to come later. -/
def initial (buffer : Memory) (fd : ℤ) : SenderThread where
  sender := OrderMessageSender.initial buffer fd
  messageQueue := []
  point := .checking
  shouldStop := false

/-- A caller of `send` tries to push its message, or the thread takes a
step. -/
inductive Turn where
  | send (message : OrderMessage)
  | run

/-- The next step of `run`, where `answer` is what the system's `send` says
to the frame of a message. -/
def run (answer : OrderMessage → SendAnswer) (thread : SenderThread) :
    SenderThread :=
  match thread.point with
  | .checking =>
      { thread with
        point := if thread.shouldStop then .returned else .popping }
  | .popping =>
      match pop thread.messageQueue with
      | (none, queue) =>
          { thread with messageQueue := queue, point := .checking }
      | (some message, queue) =>
          { thread with messageQueue := queue, point := .sending message }
  | .sending message =>
      match thread.sender.iterate (.taken message (answer message)) with
      | (.ok (), sender) =>
          { thread with sender := sender, point := .checking }
      | (.error _, sender) =>
          { thread with sender := sender, point := .terminated }
  | .returned => thread
  | .terminated => thread

/-- A call of `send` is completed by the push that succeeds. -/
def send (thread : SenderThread) (message : OrderMessage) :
    SenderThread × Option OrderMessage :=
  let pushed := push queueSize thread.messageQueue message
  ({ thread with messageQueue := pushed.2 },
    if pushed.1 then some message else none)

def step (answer : OrderMessage → SendAnswer) (thread : SenderThread) :
    Turn → SenderThread × Option OrderMessage
  | .send message => thread.send message
  | .run => (thread.run answer, none)

/-- The destructor sets the flag. -/
def stop (thread : SenderThread) : SenderThread :=
  { thread with shouldStop := true }

/-- `sendBuffer` writes each frame in full. -/
def whole (message : OrderMessage) : SendAnswer :=
  .ok message.frame.length

section Run

variable (buffer : Memory) (fd : ℤ) (turns : List Turn)

def after : SenderThread :=
  RunHistory.exec (step whole) (initial buffer fd) turns

/-- What was passed to the completed calls of `send`. -/
def passed : List OrderMessage :=
  (RunHistory.outputs (step whole) (initial buffer fd) turns).reduceOption

end Run

def inHand (thread : SenderThread) : List OrderMessage :=
  match thread.point with
  | .sending message => [message]
  | _ => []

/-- Each message that was passed was given to `sendBuffer`, is in the hand of
the thread, or is queued.  The connection has the bytes that were
accepted. -/
structure Sends (passed : List OrderMessage) (polls : List Poll)
    (thread : SenderThread) : Prop where
  connected : thread.sender.clientConnection.fd ≠ -1
  sent : thread.sender.clientConnection.sent = polls.flatMap Poll.accepted
  places : passed = OrderMessageSender.taken polls ++
    (thread.inHand ++ thread.messageQueue)

theorem initial_sends (buffer : Memory) {fd : ℤ} (hopen : fd ≠ -1) :
    Sends [] [] (initial buffer fd) :=
  ⟨hopen, rfl, rfl⟩

theorem Sends.stop {passed : List OrderMessage} {polls : List Poll}
    {thread : SenderThread} (hsends : Sends passed polls thread) :
    Sends passed polls thread.stop :=
  ⟨hsends.connected, hsends.sent, hsends.places⟩

section Step

variable {passed : List OrderMessage} {polls : List Poll}
  {thread : SenderThread} (hsends : Sends passed polls thread)
include hsends

/-- A step that does not call `sendBuffer`. -/
theorem Sends.run_quiet (hhand : thread.inHand = [])
    (answer : OrderMessage → SendAnswer) :
    Sends passed polls (thread.run answer) := by
  rcases hsends with ⟨hopen, hsent, hpassed⟩
  rw [hhand, List.nil_append] at hpassed
  unfold SenderThread.run
  cases hpoint : thread.point with
  | checking =>
      cases thread.shouldStop with
      | true => exact ⟨hopen, hsent, hpassed⟩
      | false => exact ⟨hopen, hsent, hpassed⟩
  | popping =>
      cases hqueue : thread.messageQueue with
      | nil =>
          rw [hqueue] at hpassed
          exact ⟨hopen, hsent, hpassed⟩
      | cons message rest =>
          rw [hqueue] at hpassed
          exact ⟨hopen, hsent, hpassed⟩
  | sending message => simp [inHand, hpoint] at hhand
  | returned => exact ⟨hopen, hsent, by rwa [hhand]⟩
  | terminated => exact ⟨hopen, hsent, by rwa [hhand]⟩

theorem Sends.run (answer : OrderMessage → SendAnswer) :
    Sends passed (polls ++ (thread.point.poll? answer).toList)
      (thread.run answer) := by
  cases hpoint : thread.point with
  | sending message =>
      rcases hsends with ⟨hopen, hsent, hpassed⟩
      have hhand : thread.inHand = [message] := by
        simp only [inHand, hpoint]
      have hnow : passed = OrderMessageSender.taken
          (polls ++ [.taken message (answer message)]) ++
            thread.messageQueue := by
        rw [hpassed, hhand, OrderMessageSender.taken_append,
          List.append_assoc]
        rfl
      simp only [SenderThread.run, hpoint, SendPoint.poll?,
        Option.toList_some]
      cases hiterate : thread.sender.iterate
          (.taken message (answer message)) with
      | mk result sender =>
          have hconnection :=
            OrderMessageSender.iterate_connection hopen hiterate
          have hconnected : sender.clientConnection.fd ≠ -1 := by
            rw [hconnection]
            exact hopen
          have haccepted : sender.clientConnection.sent =
              List.flatMap Poll.accepted
                (polls ++ [.taken message (answer message)]) := by
            rw [hconnection]
            simp [hsent]
          cases result with
          | ok _ => exact ⟨hconnected, haccepted, hnow⟩
          | error exception => exact ⟨hconnected, haccepted, hnow⟩
  | _ =>
      have hhand : thread.inHand = [] := by simp only [inHand, hpoint]
      simp only [SendPoint.poll?, Option.toList_none, List.append_nil]
      exact hsends.run_quiet hhand answer

theorem Sends.send (message : OrderMessage) :
    Sends (passed ++ (thread.send message).2.toList) polls
      (thread.send message).1 := by
  rcases hsends with ⟨hopen, hsent, hpassed⟩
  simp only [SenderThread.send, push]
  split
  next hroom =>
    refine ⟨hopen, hsent, ?_⟩
    rw [hpassed]
    simp [inHand]
  next hfull =>
    refine ⟨hopen, hsent, ?_⟩
    simpa using hpassed

end Step

/-! ## Frames written in full -/

theorem iterate_whole {sender : OrderMessageSender}
    (hopen : sender.clientConnection.fd ≠ -1) (message : OrderMessage) :
    sender.iterate (.taken message (whole message)) =
      (.ok (),
        { buffer := (message.serialise sender.buffer).2
          clientConnection :=
            { sender.clientConnection with
              sent := sender.clientConnection.sent ++ message.frame } }) := by
  have hpos : 1 ≤ message.frame.length := by
    rw [message.length_frame]
    exact message.messageSize_pos
  rw [OrderMessageSender.iterate_taken, whole,
    ClientConnection.sendBuffer_of_accepted hopen message.frame hpos,
    List.take_length]
  rfl

/-- Each frame of what was passed is written, or its message is in the hand of
the thread or queued. -/
structure Accounted (passed : List OrderMessage) (thread : SenderThread) :
    Prop where
  alive : thread.point ≠ .terminated
  sends : ∃ polls, Sends passed polls thread ∧
    ∀ poll ∈ polls, poll.accepted = poll.frame

theorem initial_accounted (buffer : Memory) {fd : ℤ} (hopen : fd ≠ -1) :
    Accounted [] (initial buffer fd) :=
  ⟨by simp [initial], [], initial_sends buffer hopen, by simp⟩

section Accounted

variable {passed : List OrderMessage} {thread : SenderThread}
  (haccounted : Accounted passed thread)
include haccounted

theorem Accounted.places :
    ∃ written,
      thread.sender.clientConnection.sent =
          written.flatMap OrderMessage.frame ∧
        passed = written ++ (thread.inHand ++ thread.messageQueue) := by
  rcases haccounted.sends with ⟨polls, hsends, hwhole⟩
  refine ⟨_, ?_, hsends.places⟩
  rw [hsends.sent, OrderMessageSender.flatMap_frame_taken]
  exact List.flatMap_congr hwhole

theorem Accounted.run : Accounted passed (thread.run whole) := by
  rcases haccounted with ⟨halive, polls, hsends, hwhole⟩
  refine ⟨?_, _, hsends.run whole, ?_⟩
  · unfold SenderThread.run
    split
    case h_1 => simp only; split <;> simp
    case h_2 => split <;> simp
    case h_3 message hpoint =>
      rw [iterate_whole hsends.connected]
      simp
    case h_4 hpoint => simp [hpoint]
    case h_5 hpoint => exact absurd hpoint halive
  · rw [List.forall_mem_append]
    refine ⟨hwhole, fun poll hpoll => ?_⟩
    cases hpoint : thread.point with
    | sending message =>
        rw [hpoint] at hpoll
        obtain rfl := List.mem_singleton.mp hpoll
        exact List.take_length
    | _ =>
        rw [hpoint] at hpoll
        exact absurd hpoll List.not_mem_nil

theorem Accounted.step (turn : Turn) :
    Accounted
      (passed ++ (SenderThread.step whole thread turn).2.toList)
      (SenderThread.step whole thread turn).1 := by
  cases turn with
  | send message =>
      rcases haccounted with ⟨halive, polls, hsends, hwhole⟩
      exact ⟨halive, polls, hsends.send message, hwhole⟩
  | run =>
      have hrun := haccounted.run
      rw [← List.append_nil passed] at hrun
      exact hrun

end Accounted

theorem after_accounted (buffer : Memory) {fd : ℤ} (hopen : fd ≠ -1)
    (turns : List Turn) :
    Accounted (passed buffer fd turns) (after buffer fd turns) := by
  induction turns using List.reverseRecOn with
  | nil => exact initial_accounted buffer hopen
  | append_singleton earlier turn ih =>
      rw [passed, RunHistory.reduceOption_outputs_concat, after,
        RunHistory.exec_append]
      exact ih.step turn

/-! ## After the flag is set -/

/-- The messages that the thread does not take any more. -/
def abandoned (thread : SenderThread) : List OrderMessage :=
  match thread.point with
  | .popping => thread.messageQueue.tail
  | _ => thread.messageQueue

/-- The steps from the setting of the flag to the end of `run`. -/
def stepsLeft (thread : SenderThread) : ℕ :=
  match thread.point with
  | .popping => 3
  | .sending _ => 2
  | .checking => 1
  | .returned => 0
  | .terminated => 0

section Stopping

variable {passed : List OrderMessage} {thread : SenderThread}

theorem run_shouldStop (answer : OrderMessage → SendAnswer)
    (thread : SenderThread) :
    (thread.run answer).shouldStop = thread.shouldStop := by
  unfold run
  split
  case h_1 => rfl
  case h_2 => split <;> rfl
  case h_3 => split <;> rfl
  case h_4 => rfl
  case h_5 => rfl

theorem run_abandoned (answer : OrderMessage → SendAnswer)
    (hstop : thread.shouldStop = true) :
    (thread.run answer).abandoned = thread.abandoned := by
  unfold run
  cases hpoint : thread.point with
  | checking => simp [abandoned, hpoint, hstop]
  | popping =>
      cases hqueue : thread.messageQueue with
      | nil => simp [abandoned, hpoint, hqueue, pop]
      | cons message rest => simp [abandoned, hpoint, hqueue, pop]
  | sending message =>
      dsimp only
      split <;> simp [abandoned, hpoint]
  | returned => rfl
  | terminated => rfl

theorem run_stepsLeft (answer : OrderMessage → SendAnswer)
    (hstop : thread.shouldStop = true) :
    (thread.run answer).stepsLeft ≤ thread.stepsLeft - 1 := by
  unfold run
  cases hpoint : thread.point with
  | checking => simp [stepsLeft, hpoint, hstop]
  | popping =>
      cases hqueue : thread.messageQueue with
      | nil => simp [stepsLeft, hpoint, pop]
      | cons message rest => simp [stepsLeft, hpoint, pop]
  | sending message =>
      dsimp only
      split <;> simp [stepsLeft, hpoint]
  | returned => simp [stepsLeft, hpoint]
  | terminated => simp [stepsLeft, hpoint]

/-- The thread between the destructor's store and some later moment. -/
structure Stopping (passed abandoned : List OrderMessage)
    (thread : SenderThread) : Prop where
  shouldStop : thread.shouldStop = true
  accounted : Accounted passed thread
  left_behind : thread.abandoned = abandoned

theorem Stopping.iterate_run {abandoned : List OrderMessage}
    (hstopping : Stopping passed abandoned thread) (steps : ℕ) :
    Stopping passed abandoned ((run whole)^[steps] thread) := by
  induction steps with
  | zero => exact hstopping
  | succ steps ih =>
      rw [Function.iterate_succ_apply']
      constructor
      · rw [run_shouldStop, ih.shouldStop]
      · exact ih.accounted.run
      · rw [run_abandoned whole ih.shouldStop, ih.left_behind]

/-- Once the thread has returned, what it left behind is what is missing on
the connection. -/
theorem Stopping.sent_eq_iff {abandoned : List OrderMessage}
    (hstopping : Stopping passed abandoned thread)
    (hreturned : thread.point = .returned) :
    thread.sender.clientConnection.sent =
        passed.flatMap OrderMessage.frame ↔
      abandoned = [] := by
  obtain ⟨written, hsent, hpassed⟩ := hstopping.accounted.places
  have hbehind := hstopping.left_behind
  have hhand : thread.inHand = [] := by simp only [inHand, hreturned]
  simp only [SenderThread.abandoned, hreturned] at hbehind
  rw [hsent, hpassed, hhand, List.nil_append, hbehind, List.flatMap_append,
    List.self_eq_append_right, List.flatMap_eq_nil_iff]
  constructor
  · intro hempty
    rw [List.eq_nil_iff_forall_not_mem]
    intro message hmem
    have hlength := message.length_frame
    rw [hempty message hmem, List.length_nil] at hlength
    exact absurd hlength message.messageSize_pos.ne
  · intro hnone message hmem
    rw [hnone] at hmem
    contradiction

end Stopping

theorem abandoned_eq_nil_iff (thread : SenderThread) :
    thread.abandoned = [] ↔
      thread.messageQueue = [] ∨
        (thread.point = .popping ∧ thread.messageQueue.length = 1) := by
  unfold abandoned
  cases hpoint : thread.point with
  | popping =>
      cases thread.messageQueue with
      | nil => simp
      | cons message rest => simp
  | checking => simp
  | sending message => simp
  | returned => simp
  | terminated => simp

section Joining

variable (buffer : Memory) {fd : ℤ} (hopen : fd ≠ -1) (turns : List Turn)
include hopen

theorem stop_stopping :
    Stopping (passed buffer fd turns) (after buffer fd turns).abandoned
      (after buffer fd turns).stop := by
  rcases after_accounted buffer hopen turns with
    ⟨halive, polls, hsends, hwhole⟩
  have hstopped : Sends (passed buffer fd turns) polls
      (after buffer fd turns).stop :=
    ⟨hsends.connected, hsends.sent, hsends.places⟩
  exact ⟨rfl, ⟨halive, polls, hstopped, hwhole⟩, rfl⟩

/-- The join is over after at most three steps of the thread. -/
theorem joined_within_three :
    ((run whole)^[3] (after buffer fd turns).stop).point = .returned := by
  have hstopping := (stop_stopping buffer hopen turns).iterate_run
  have hleft (steps : ℕ) :
      ((run whole)^[steps] (after buffer fd turns).stop).stepsLeft ≤
        3 - steps := by
    induction steps with
    | zero =>
        rw [Function.iterate_zero_apply, stepsLeft]
        split <;> omega
    | succ steps ih =>
        have hstep := run_stepsLeft whole (hstopping steps).shouldStop
        rw [Function.iterate_succ_apply']
        omega
  have hnone := Nat.le_zero.mp (hleft 3)
  have halive := (hstopping 3).accounted.alive
  unfold stepsLeft at hnone
  split at hnone
  case h_1 => contradiction
  case h_2 => contradiction
  case h_3 => contradiction
  case h_4 hpoint => exact hpoint
  case h_5 hpoint => exact absurd hpoint halive

end Joining

/-- When the destructor has joined the thread, the connection holds the
frames of all messages passed exactly if the flag found the queue empty, or
with one message that the thread was about to take. -/
theorem no_message_lost_iff (buffer : Memory) (fd : ℤ) (hopen : fd ≠ -1)
    (turns : List Turn) (steps : ℕ)
    (hjoined : ((run whole)^[steps] (after buffer fd turns).stop).point =
      .returned) :
    ((run whole)^[steps]
          (after buffer fd turns).stop).sender.clientConnection.sent =
        (passed buffer fd turns).flatMap OrderMessage.frame ↔
      (after buffer fd turns).messageQueue = [] ∨
        ((after buffer fd turns).point = .popping ∧
          (after buffer fd turns).messageQueue.length = 1) := by
  have hstopping := (stop_stopping buffer hopen turns).iterate_run steps
  rw [hstopping.sent_eq_iff hjoined, abandoned_eq_nil_iff]

theorem no_message_lost :
    let turns : List Turn :=
      [.send (.newOrder OrderMessageSender.sampleOrder), .run]
    ((run whole)^[3]
        (after (fun _ => 0) 3 turns).stop).sender.clientConnection.sent =
      (passed (fun _ => 0) 3 turns).flatMap OrderMessage.frame := by
  intro turns
  rw [no_message_lost_iff (fun _ => 0) 3 (by decide) turns 3 rfl]
  exact .inr ⟨rfl, rfl⟩

/-- The flag is set while the order waits in the queue. -/
theorem order_lost :
    let turns : List Turn :=
      [.send (.newOrder OrderMessageSender.sampleOrder)]
    let thread := run whole (after (fun _ => 0) 3 turns).stop
    thread.point = .returned ∧
      thread.sender.clientConnection.sent ≠
        (passed (fun _ => 0) 3 turns).flatMap OrderMessage.frame := by
  intro turns thread
  refine ⟨rfl, fun hsent => ?_⟩
  have hempty : ([] : List UInt8) =
      [OrderMessage.newOrder OrderMessageSender.sampleOrder].flatMap
        OrderMessage.frame := hsent
  have hlength := congrArg List.length hempty
  rw [List.flatMap_singleton, OrderMessage.length_frame] at hlength
  exact absurd hlength (by decide)

end SenderThread

end Slipstream
