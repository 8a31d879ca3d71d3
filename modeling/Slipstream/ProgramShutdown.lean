import Slipstream.HeartbeatTimeout
import Slipstream.PipelineProgress

/-!
# Ending the program

`main` starts the threads and waits for the shutdown signal, which the first
receiver that ends triggers, or the operator with `CLOSE`.  Then it shuts the
receivers down and returns, and the destructors stop and join the threads.

All this is done in atomic steps between which the other threads take
theirs.  Each thread has a list of the calls it is about to make.
-/

namespace Slipstream

open PackedBytes

structure ShutdownSignal where
  latch : ℕ
  triggered : Bool

/-- Nothing has happened yet, or the signal has been triggered and `n`
callers, at most one, are about to count it down. -/
def ShutdownSignal.Held (signal : ShutdownSignal) (n : ℕ) : Prop :=
  if signal.triggered then signal.latch = n ∧ n ≤ 1
  else signal.latch = 1 ∧ n = 0

/-- The steps of the calls that end the threads.  A `trigger` is an
`exchange` and, for the caller that was the first, a `countDown`. -/
inductive Call where
  | wait
  | shutdownConnection (connection : Connection)
  | stopReceiver (connection : Connection)
  | exchange
  | countDown
  | stopDispatcher
  | joinDispatcher
  | joinReceiver (connection : Connection)
  | stopSender
  | joinSender
  deriving DecidableEq

namespace Call

/-- `NetworkMessageReceiver::shutdown` -/
def shutdown (connection : Connection) : List Call :=
  [.shutdownConnection connection, .stopReceiver connection]

def handleClose : List Call :=
  shutdown .oe ++ shutdown .md ++ [.exchange]

/-- `shutdown` in the loop of `run`, and the trigger when it is left. -/
def heartbeatStale (connection : Connection) : List Call :=
  shutdown connection ++ [.exchange]

/-- `main` from its wait on, with the destructors that stop threads in the
order they run in. -/
def main : List Call :=
  .wait :: shutdown .md ++ shutdown .oe ++
    [.stopDispatcher, .joinDispatcher] ++
    shutdown .oe ++ [.joinReceiver .oe] ++
    shutdown .md ++ [.joinReceiver .md] ++
    [.stopSender, .joinSender]

end Call

/-- Where `NetworkMessageReceiver::run` is.  Once its loop is left, some
calls are still to be made. -/
inductive RunPoint where
  | checking
  | receiving
  | comparing
  | leaving (calls : List Call)

def RunPoint.calls : RunPoint → List Call
  | .leaving calls => calls
  | _ => []

/-- The program with the calls that the console thread and `main` are still
to make. -/
structure Program where
  pipeline : TradingPipeline
  shutdownSignal : ShutdownSignal
  connectionShutdown : Connection → Bool
  shouldStop : Connection → Bool
  runs : Connection → RunPoint
  console : List Call
  main : List Call

namespace NetworkMessageReceiver

/-- The default of the constructor, which `main` uses. -/
def heartbeatTimeoutMs : UInt64 := 5000

end NetworkMessageReceiver

namespace Program

def initial (wiring : Wiring) : Program where
  pipeline := TradingPipeline.initial wiring
  shutdownSignal := { latch := 1, triggered := false }
  connectionShutdown := fun _ => false
  shouldStop := fun _ => false
  runs := fun _ => .checking
  console := []
  main := Call.main

/-- A thread takes a step: a receiver, where the system may answer `recv`
and read the clock; the dispatcher; the order sender, where the system may
answer `send`; the console, where a line may be there to read; or `main`. -/
inductive Turn where
  | receiver (connection : Connection)
      (received : Except Exception (List UInt8)) (now : UInt64)
  | dispatcher (clock : ClockReadings)
  | orderSender (answer : SendAnswer)
  | console (input : Option String)
  | main

def setRun (program : Program) (connection : Connection)
    (run : RunPoint) : Program :=
  { program with runs := Function.update program.runs connection run }

@[simp] theorem setRun_self (program : Program) (connection : Connection)
    (run : RunPoint) :
    (program.setRun connection run).runs connection = run :=
  Function.update_self _ _ _

theorem setRun_other (program : Program) {connection other : Connection}
    (hother : other ≠ connection) (run : RunPoint) :
    (program.setRun connection run).runs other = program.runs other :=
  Function.update_of_ne hother _ _

theorem setRun_same (program : Program) {connection : Connection}
    {run : RunPoint} (hruns : program.runs connection = run) :
    program.setRun connection run = program := by
  rw [setRun, ← hruns, Function.update_eq_self]

/-- `main` has returned, or an exception has left a thread. -/
def ended (program : Program) : Bool :=
  program.main.isEmpty ||
    match program.pipeline.orderSender.point with
    | .terminated => true
    | _ => false

/-! ## Calls -/

/-- Whether the call can return. -/
def ready (program : Program) : Call → Bool
  | .wait => program.shutdownSignal.latch == 0
  | .joinDispatcher =>
      match program.pipeline.inbound.dispatcher with
      | .stopped => true
      | _ => false
  | .joinReceiver connection =>
      match program.runs connection with
      | .leaving [] => true
      | _ => false
  | .joinSender =>
      match program.pipeline.orderSender.point with
      | .returned => true
      | _ => false
  | _ => true

/-- The effect of a call, and the call that has to follow. -/
def perform (program : Program) : Call → Program × List Call
  | .shutdownConnection connection =>
      ({ program with
          connectionShutdown :=
            Function.update program.connectionShutdown connection true }, [])
  | .stopReceiver connection =>
      ({ program with
          shouldStop :=
            Function.update program.shouldStop connection true }, [])
  | .exchange =>
      if program.shutdownSignal.triggered then (program, [])
      else
        ({ program with shutdownSignal.triggered := true }, [.countDown])
  | .countDown =>
      ({ program with
          shutdownSignal.latch := program.shutdownSignal.latch - 1 }, [])
  | .stopDispatcher =>
      ({ program with pipeline.inbound.shouldStop := true }, [])
  | .stopSender =>
      ({ program with
          pipeline.orderSender := program.pipeline.orderSender.stop }, [])
  | _ => (program, [])

/-- The next of the calls that a thread is to make, unless it waits. -/
def proceed (program : Program) :
    List Call → (Program × List Call) × Option Call
  | [] => ((program, []), none)
  | call :: later =>
      if program.ready call then
        let (next, following) := program.perform call
        ((next, following ++ later), some call)
      else ((program, call :: later), none)

/-! ## Steps -/

/-- What a thread in `tryReceive` does. -/
def tryReceive (program : Program) (connection : Connection)
    (received : Except Exception (List UInt8)) : TradingPipeline.Turn :=
  match (program.pipeline.inbound.threads connection).point with
  | .receiving =>
      match received with
      | .ok networkBuffer => .receive connection networkBuffer
      | .error _ => .close connection
  | _ => .advance connection

/-- Where `run` is after a step of `tryReceive`. -/
def tried : ReceivePoint → RunPoint
  | .receiving => .comparing
  | .stopped => .leaving [.exchange]
  | _ => .receiving

def receive (capacity : ℕ) (program : Program) (connection : Connection)
    (answer : Except Exception (List UInt8)) (now : UInt64) :
    Program × Option Call :=
  match program.runs connection with
  | .checking =>
      (program.setRun connection
        (if program.shouldStop connection then .leaving [.exchange]
          else .receiving), none)
  | .receiving =>
      let pipeline := (TradingPipeline.step capacity program.pipeline
        (program.tryReceive connection answer)).1
      (setRun { program with pipeline := pipeline } connection
        (tried (pipeline.inbound.threads connection).point), none)
  | .comparing =>
      let receiver :=
        (program.pipeline.inbound.threads connection).receiver
      (program.setRun connection
        (if receiver.heartbeatStale NetworkMessageReceiver.heartbeatTimeoutMs
            now then .leaving (Call.heartbeatStale connection)
          else .checking), none)
  | .leaving calls =>
      let ((next, later), call) := program.proceed calls
      (next.setRun connection (.leaving later), call)

/-- Whether a line brings `handleClose` to shut the session down. -/
def closes (session : Session) (input : String) : Bool :=
  input == "CLOSE" && !session.control.shouldStop &&
    session.control.currentState != .close

def readLine (capacity : ℕ) (program : Program) (input : String) : Program :=
  { program with
    pipeline :=
      (TradingPipeline.step capacity program.pipeline (.line input)).1
    console :=
      if closes program.pipeline.session input then Call.handleClose
      else [] }

/-- A connection that has been shut down takes no more bytes. -/
def sendAnswer (program : Program) (answer : SendAnswer) : SendAnswer :=
  if program.connectionShutdown .oe then .error "Broken pipe" else answer

def step (capacity : ℕ) (program : Program) (turn : Turn) :
    Program × Option Call :=
  if program.ended then (program, none)
  else
    match turn with
    | .receiver connection answer now =>
        program.receive capacity connection answer now
    | .dispatcher clock =>
        ({ program with pipeline := (program.pipeline.dispatch clock).1 },
          none)
    | .orderSender answer =>
        ({ program with
            pipeline.orderSender := program.pipeline.orderSender.run
              fun _ => program.sendAnswer answer }, none)
    | .console input =>
        match program.console, input with
        | [], none => (program, none)
        | [], some input => (program.readLine capacity input, none)
        | calls, _ =>
            let ((next, later), call) := program.proceed calls
            ({ next with console := later }, call)
    | .main =>
        let ((next, later), call) := program.proceed program.main
        ({ next with main := later }, call)

theorem step_ended (capacity : ℕ) {program : Program}
    (hends : program.ended = true) (turn : Turn) :
    step capacity program turn = (program, none) :=
  if_pos hends

section Run

variable (wiring : Wiring) (turns : List Turn)

def after : Program :=
  RunHistory.exec (step wiring.capacity) (initial wiring) turns

/-- The calls that were made, in the order of their effects. -/
def calls : List Call :=
  (RunHistory.outputs (step wiring.capacity) (initial wiring)
    turns).reduceOption

end Run

/-! ## The calls of the receivers and of the console -/

/-- Calls that shut receivers down and then trigger the signal. -/
inductive Closing : List Call → Prop
  | exchange : Closing [.exchange]
  | shutdownConnection (connection : Connection) {later : List Call}
      (hlater : Closing later) :
      Closing (.shutdownConnection connection :: later)
  | stopReceiver (connection : Connection) {later : List Call}
      (hlater : Closing later) : Closing (.stopReceiver connection :: later)

/-- What is left of such calls. -/
inductive Leaving : List Call → Prop
  | closing {calls : List Call} (hclosing : Closing calls) : Leaving calls
  | countDown : Leaving [.countDown]
  | returned : Leaving []

theorem closing_heartbeatStale (connection : Connection) :
    Closing (Call.heartbeatStale connection) :=
  .shutdownConnection _ (.stopReceiver _ .exchange)

theorem closing_handleClose : Closing Call.handleClose :=
  .shutdownConnection _ (.stopReceiver _
    (.shutdownConnection _ (.stopReceiver _ .exchange)))

theorem Closing.countDown_notMem {calls : List Call}
    (hclosing : Closing calls) : .countDown ∉ calls := by
  induction hclosing with
  | exchange => simp
  | shutdownConnection connection hlater ih => simpa using ih
  | stopReceiver connection hlater ih => simpa using ih

/-- A caller about to count down is at its last call. -/
theorem Leaving.eq_countDown {calls : List Call} (hleaving : Leaving calls)
    (hmem : .countDown ∈ calls) : calls = [.countDown] := by
  cases hleaving with
  | closing hclosing => exact absurd hmem hclosing.countDown_notMem
  | countDown => rfl
  | returned => simp at hmem

/-- The callers that are about to count the signal down. -/
def countDowns (program : Program) : ℕ :=
  (program.runs .md).calls.count .countDown +
    (program.runs .oe).calls.count .countDown +
      program.console.count .countDown

/-- A step of calls that end a receiver or the session. -/
structure Proceeds (program : Program) (calls : List Call)
    (next : Program) (later : List Call) : Prop where
  leaving : Leaving later
  pipeline : next.pipeline = program.pipeline
  runs : next.runs = program.runs
  console : next.console = program.console
  main : next.main = program.main
  connectionShutdown : ∀ connection,
    program.connectionShutdown connection = true →
      next.connectionShutdown connection = true
  shouldStop : ∀ connection, program.shouldStop connection = true →
    next.shouldStop connection = true
  triggered : program.shutdownSignal.triggered = true →
    next.shutdownSignal.triggered = true
  latch : next.shutdownSignal.latch ≤ program.shutdownSignal.latch
  held : ∀ others,
    program.shutdownSignal.Held (calls.count .countDown + others) →
      next.shutdownSignal.Held (later.count .countDown + others)

theorem update_true {flags : Connection → Bool} {connection : Connection}
    (other : Connection) (hother : flags connection = true) :
    Function.update flags other true connection = true := by
  by_cases hsame : connection = other
  · rw [hsame, Function.update_self]
  · rw [Function.update_of_ne hsame, hother]

theorem proceed_leaving (program : Program) {calls : List Call}
    (hleaving : Leaving calls) :
    Proceeds program calls (program.proceed calls).1.1
      (program.proceed calls).1.2 := by
  cases hleaving with
  | returned => exact ⟨.returned, rfl, rfl, rfl, rfl, fun _ => id,
      fun _ => id, id, le_rfl, fun _ => id⟩
  | countDown =>
      refine ⟨.returned, rfl, rfl, rfl, rfl, fun _ => id, fun _ => id, id,
        Nat.sub_le _ _, ?_⟩
      intro others hheld
      have hone : List.count Call.countDown [.countDown] = 1 := rfl
      rw [hone] at hheld
      unfold ShutdownSignal.Held at hheld
      split at hheld
      next htriggered =>
        simp only [proceed, ready, perform, if_true, ShutdownSignal.Held,
          htriggered, List.append_nil, List.count_nil]
        omega
      next => omega
  | closing hclosing =>
      cases hclosing with
      | exchange =>
          cases htriggered : program.shutdownSignal.triggered with
          | true =>
              have hsame : program.proceed [.exchange] =
                  ((program, []), some .exchange) := by
                simp [proceed, ready, perform, htriggered]
              rw [hsame]
              exact ⟨.returned, rfl, rfl, rfl, rfl, fun _ => id,
                fun _ => id, id, le_rfl, fun _ => by simp⟩
          | false =>
              have hfirst : program.proceed [.exchange] =
                  (({ program with shutdownSignal.triggered := true },
                    [.countDown]), some .exchange) := by
                simp [proceed, ready, perform, htriggered]
              rw [hfirst]
              refine ⟨.countDown, rfl, rfl, rfl, rfl, fun _ => id,
                fun _ => id, fun _ => rfl, le_rfl, ?_⟩
              intro others hheld
              simp [ShutdownSignal.Held, htriggered] at hheld
              simp [ShutdownSignal.Held, hheld.1, hheld.2]
      | shutdownConnection connection hlater =>
          exact ⟨.closing hlater, rfl, rfl, rfl, rfl,
            fun other hother => update_true connection hother,
            fun _ => id, id, le_rfl,
            fun _ => by simp [proceed, perform, ready]⟩
      | stopReceiver connection hlater =>
          exact ⟨.closing hlater, rfl, rfl, rfl, rfl, fun _ => id,
            fun other hother => update_true connection hother,
            id, le_rfl, fun _ => by simp [proceed, perform, ready]⟩

/-! ## What has been done stays done -/

/-- What a call has brought about. -/
def Performed (program : Program) : Call → Prop
  | .wait => program.shutdownSignal.latch = 0
  | .shutdownConnection connection =>
      program.connectionShutdown connection = true
  | .stopReceiver connection => program.shouldStop connection = true
  | .exchange => program.shutdownSignal.triggered = true
  | .countDown => True
  | .stopDispatcher => program.pipeline.inbound.shouldStop = true
  | .joinDispatcher => program.pipeline.inbound.dispatcher = .stopped
  | .joinReceiver connection => program.runs connection = .leaving []
  | .stopSender => program.pipeline.orderSender.shouldStop = true
  | .joinSender => program.pipeline.orderSender.point = .returned

theorem Proceeds.performed {program next : Program}
    {calls later : List Call}
    (hproceeds : Proceeds program calls next later) {call : Call}
    (hperformed : program.Performed call) : next.Performed call := by
  cases call with
  | wait =>
      have hle := hproceeds.latch
      rw [Performed] at hperformed ⊢
      omega
  | shutdownConnection connection =>
      exact hproceeds.connectionShutdown connection hperformed
  | stopReceiver connection =>
      exact hproceeds.shouldStop connection hperformed
  | exchange => exact hproceeds.triggered hperformed
  | countDown => trivial
  | stopDispatcher =>
      rw [Performed, hproceeds.pipeline]
      exact hperformed
  | joinDispatcher =>
      rw [Performed, hproceeds.pipeline]
      exact hperformed
  | joinReceiver connection =>
      rw [Performed, hproceeds.runs]
      exact hperformed
  | stopSender =>
      rw [Performed, hproceeds.pipeline]
      exact hperformed
  | joinSender =>
      rw [Performed, hproceeds.pipeline]
      exact hperformed

/-! ## What the threads keep -/

/-- A step of a thread tells no other to stop, and wakes none. -/
structure Keeps (pipeline next : TradingPipeline) : Prop where
  told : next.inbound.shouldStop = pipeline.inbound.shouldStop
  stopped : pipeline.inbound.dispatcher = .stopped →
    next.inbound.dispatcher = .stopped
  sender_told : next.orderSender.shouldStop =
    pipeline.orderSender.shouldStop
  returned : pipeline.orderSender.point = .returned →
    next.orderSender.point = .returned
  returns : next.orderSender.point = .returned →
    pipeline.orderSender.point = .returned ∨
      pipeline.orderSender.shouldStop = true
  emptied : (pipeline.inbound.dispatcher = .stopped →
      pipeline.newOrders = []) →
    next.inbound.dispatcher = .stopped → next.newOrders = []

theorem Keeps.of_inbound {pipeline : TradingPipeline}
    {inbound : InboundPipeline}
    (htold : inbound.shouldStop = pipeline.inbound.shouldStop)
    (hstopped : inbound.dispatcher = pipeline.inbound.dispatcher) :
    Keeps pipeline { pipeline with inbound := inbound } :=
  ⟨htold, fun hpoint => hstopped.trans hpoint, rfl, id, .inl,
    fun hempty hpoint => hempty (hstopped.symm.trans hpoint)⟩

theorem keeps_dispatch (pipeline : TradingPipeline)
    (clock : ClockReadings) : Keeps pipeline (pipeline.dispatch clock).1 := by
  have hdispatches := pipeline.dispatches clock
  have htold := pipeline.inbound.dispatch_shouldStop
  have hstopped : pipeline.inbound.dispatcher = .stopped →
      pipeline.inbound.dispatch.1.dispatcher = .stopped := by
    intro hpoint
    simp only [InboundPipeline.dispatch, hpoint]
  generalize pipeline.dispatch clock = outcome at hdispatches ⊢
  cases hdispatches with
  | pushes horders hroom =>
      refine ⟨rfl, id, rfl, id, .inl, fun hempty hpoint => ?_⟩
      rw [hempty hpoint] at horders
      contradiction
  | retries horders hfull => exact ⟨rfl, id, rfl, id, .inl, id⟩
  | handles horders hpoint =>
      refine ⟨htold, hstopped, rfl, id, .inl, fun _ hnext => ?_⟩
      simp [InboundPipeline.dispatch, hpoint] at hnext
  | polls horders hpoint hquiet =>
      exact ⟨htold, hstopped, rfl, id, .inl, fun _ _ => horders⟩

theorem keeps_run (pipeline : TradingPipeline)
    (answer : OrderMessage → SendAnswer) :
    Keeps pipeline
      { pipeline with orderSender := pipeline.orderSender.run answer } := by
  refine ⟨rfl, id, SenderThread.run_shouldStop _ _, ?_, ?_, id⟩
  · intro hpoint
    simp only [SenderThread.run, hpoint]
  · intro hreturned
    dsimp only at hreturned
    unfold SenderThread.run at hreturned
    split at hreturned
    case h_1 =>
      cases hstop : pipeline.orderSender.shouldStop with
      | true => exact .inr rfl
      | false => simp [hstop] at hreturned
    case h_2 => split at hreturned <;> contradiction
    case h_3 => split at hreturned <;> contradiction
    case h_4 hpoint => exact .inl hpoint
    case h_5 hpoint =>
      rw [hpoint] at hreturned
      contradiction

theorem keeps_step (capacity : ℕ) (pipeline : TradingPipeline)
    (turn : TradingPipeline.Turn) :
    Keeps pipeline (TradingPipeline.step capacity pipeline turn).1 := by
  cases turn with
  | receive connection networkBuffer =>
      rcases pipeline.inbound.receive_cases capacity connection
          networkBuffer with hsame | ⟨-, hreceive⟩
      · rw [TradingPipeline.step, hsame]
        exact .of_inbound rfl rfl
      · rw [TradingPipeline.step, hreceive]
        exact .of_inbound rfl rfl
  | close connection =>
      rcases pipeline.inbound.close_cases capacity connection with
        hsame | ⟨-, hclose⟩
      · rw [TradingPipeline.step, hsame]
        exact .of_inbound rfl rfl
      · rw [TradingPipeline.step, hclose]
        exact .of_inbound rfl rfl
  | advance connection =>
      rcases pipeline.inbound.advance_cases capacity connection with
        hsame | ⟨ptr, count, -, hdecode⟩ | ⟨message, ptr, count, -, -, hpush⟩
      · rw [TradingPipeline.step, hsame]
        exact .of_inbound rfl rfl
      · rw [TradingPipeline.step, hdecode]
        exact .of_inbound rfl rfl
      · rw [TradingPipeline.step, hpush]
        exact .of_inbound rfl rfl
  | line input => exact ⟨rfl, id, rfl, id, .inl, id⟩
  | dispatch clock => exact keeps_dispatch pipeline clock
  | send answer => exact keeps_run pipeline fun _ => answer

theorem Keeps.performed {program : Program} {pipeline : TradingPipeline}
    (hkeeps : Keeps program.pipeline pipeline) {call : Call}
    (hperformed : program.Performed call) :
    Performed { program with pipeline := pipeline } call := by
  cases call with
  | stopDispatcher => exact hkeeps.told.trans hperformed
  | joinDispatcher => exact hkeeps.stopped hperformed
  | stopSender => exact hkeeps.sender_told.trans hperformed
  | joinSender => exact hkeeps.returned hperformed
  | wait => exact hperformed
  | shutdownConnection connection => exact hperformed
  | stopReceiver connection => exact hperformed
  | exchange => exact hperformed
  | countDown => trivial
  | joinReceiver connection => exact hperformed

/-- A receiver that has not returned takes a step. -/
theorem Performed.setRun {program : Program} {call : Call}
    (hperformed : program.Performed call) {connection : Connection}
    (hruns : program.runs connection ≠ .leaving []) (run : RunPoint) :
    (program.setRun connection run).Performed call := by
  cases call with
  | joinReceiver other =>
      by_cases hsame : other = connection
      · subst hsame
        exact absurd hperformed hruns
      · exact (program.setRun_other hsame run).trans hperformed
  | wait => exact hperformed
  | shutdownConnection connection => exact hperformed
  | stopReceiver connection => exact hperformed
  | exchange => exact hperformed
  | countDown => trivial
  | stopDispatcher => exact hperformed
  | joinDispatcher => exact hperformed
  | stopSender => exact hperformed
  | joinSender => exact hperformed

/-! ## The invariant -/

/-- The threads are told to stop by `main` alone, which has still to make
the calls `main`. -/
structure Obeys (main : List Call) (pipeline : TradingPipeline) :
    Prop where
  dispatcher_told : pipeline.inbound.shouldStop = true →
    .stopDispatcher ∉ main
  dispatcher_empty : pipeline.inbound.dispatcher = .stopped →
    pipeline.newOrders = []
  sender_told : pipeline.orderSender.shouldStop = true →
    .stopSender ∉ main
  sender_returned : pipeline.orderSender.point = .returned →
    pipeline.orderSender.shouldStop = true

structure Sound (program : Program) : Prop where
  past : ∃ earlier, earlier ++ program.main = Call.main ∧
    ∀ call ∈ earlier, program.Performed call
  runs : ∀ connection, Leaving (program.runs connection).calls
  console : Leaving program.console
  held : program.shutdownSignal.Held program.countDowns
  obeys : Obeys program.main program.pipeline

theorem sound_initial (wiring : Wiring) : (initial wiring).Sound where
  past := ⟨[], rfl, by simp⟩
  runs := fun _ => .returned
  console := .returned
  held := ⟨rfl, rfl⟩
  obeys := by
    constructor <;> simp [initial, TradingPipeline.initial,
      InboundPipeline.initial, SenderThread.initial]

theorem countDowns_setRun (program : Program) (connection : Connection)
    (run : RunPoint) :
    ∃ others,
      program.countDowns =
          (program.runs connection).calls.count .countDown + others ∧
        (program.setRun connection run).countDowns =
          run.calls.count .countDown + others := by
  cases connection with
  | md =>
      refine ⟨(program.runs .oe).calls.count .countDown +
        program.console.count .countDown, ?_, ?_⟩
      · rw [countDowns, add_assoc]
      · simp [countDowns, setRun, add_assoc]
  | oe =>
      refine ⟨(program.runs .md).calls.count .countDown +
        program.console.count .countDown, ?_, ?_⟩
      · rw [countDowns]
        omega
      · simp only [countDowns, setRun, Function.update_self, ne_eq,
          reduceCtorEq, not_false_eq_true, Function.update_of_ne]
        omega

theorem leaving_setRun {program : Program}
    (hleaving : ∀ connection, Leaving (program.runs connection).calls)
    (connection : Connection) {run : RunPoint} (hrun : Leaving run.calls)
    (other : Connection) :
    Leaving ((program.setRun connection run).runs other).calls := by
  by_cases hsame : other = connection
  · rw [hsame, setRun_self]
    exact hrun
  · rw [setRun_other program hsame]
    exact hleaving other

theorem leaves_of_runs {program : Program}
    (hleaving : ∀ connection,
      Leaving (program.runs connection).calls)
    {connection : Connection} {calls : List Call}
    (hruns : program.runs connection = .leaving calls) : Leaving calls := by
  have hleaves := hleaving connection
  rw [hruns] at hleaves
  exact hleaves

section Step

variable {program : Program} (hsound : program.Sound)
include hsound

theorem Sound.keeps {pipeline : TradingPipeline}
    (hkeeps : Keeps program.pipeline pipeline) :
    Sound { program with pipeline := pipeline } where
  past := by
    rcases hsound.past with ⟨earlier, hmain, hearlier⟩
    exact ⟨earlier, hmain, fun call hcall =>
      hkeeps.performed (hearlier call hcall)⟩
  runs := hsound.runs
  console := hsound.console
  held := hsound.held
  obeys := by
    refine ⟨?_, hkeeps.emptied hsound.obeys.dispatcher_empty, ?_, ?_⟩
    · rw [hkeeps.told]
      exact hsound.obeys.dispatcher_told
    · rw [hkeeps.sender_told]
      exact hsound.obeys.sender_told
    · intro hreturned
      rw [hkeeps.sender_told]
      rcases hkeeps.returns hreturned with hbefore | htold
      · exact hsound.obeys.sender_returned hbefore
      · exact htold

/-- A receiver goes on in its loop, or leaves it. -/
theorem Sound.setRun {connection : Connection}
    (hloop : (program.runs connection).calls = [])
    (hruns : program.runs connection ≠ .leaving []) {run : RunPoint}
    (hrun : run.calls = [] ∨ Closing run.calls) :
    (program.setRun connection run).Sound where
  past := by
    rcases hsound.past with ⟨earlier, hmain, hearlier⟩
    exact ⟨earlier, hmain, fun call hcall =>
      (hearlier call hcall).setRun hruns run⟩
  runs := by
    apply leaving_setRun hsound.runs connection
    rcases hrun with hnone | hclosing
    · rw [hnone]
      exact .returned
    · exact .closing hclosing
  console := hsound.console
  held := by
    have hnone : run.calls.count .countDown = 0 := by
      rcases hrun with hnone | hclosing
      · rw [hnone]
        rfl
      · exact List.count_eq_zero_of_not_mem hclosing.countDown_notMem
    obtain ⟨others, hbefore, hafter⟩ :=
      program.countDowns_setRun connection run
    rw [hafter, hnone]
    rw [hloop, List.count_nil] at hbefore
    rw [← hbefore]
    exact hsound.held
  obeys := hsound.obeys

/-- A receiver that has left its loop makes its next call. -/
theorem Sound.leave {connection : Connection} {calls : List Call}
    (hruns : program.runs connection = .leaving calls) :
    ((program.proceed calls).1.1.setRun connection
      (.leaving (program.proceed calls).1.2)).Sound := by
  have hleaving := leaves_of_runs hsound.runs hruns
  have hproceeds := program.proceed_leaving hleaving
  cases calls with
  | nil =>
      rw [proceed, program.setRun_same hruns]
      exact hsound
  | cons call rest =>
      generalize (program.proceed (call :: rest)).1.1 = next at hproceeds ⊢
      generalize (program.proceed (call :: rest)).1.2 = later
        at hproceeds ⊢
      have hstays : next.runs connection ≠ .leaving [] := by
        rw [hproceeds.runs, hruns]
        simp
      constructor
      · rcases hsound.past with ⟨earlier, hmain, hearlier⟩
        refine ⟨earlier, ?_, fun other hother =>
          (hproceeds.performed (hearlier other hother)).setRun hstays _⟩
        rw [← hmain, ← hproceeds.main]
        rfl
      · have hothers : ∀ other, Leaving (next.runs other).calls := by
          rw [hproceeds.runs]
          exact hsound.runs
        have hlater : Leaving (RunPoint.leaving later).calls :=
          hproceeds.leaving
        exact leaving_setRun hothers connection hlater
      · exact hproceeds.console ▸ hsound.console
      · have hheld := hsound.held
        obtain ⟨others, hbefore, hafter⟩ :=
          next.countDowns_setRun connection (.leaving later)
        have hsame : next.countDowns = program.countDowns := by
          rw [countDowns, countDowns, hproceeds.runs, hproceeds.console]
        rw [hproceeds.runs, hruns, hsame] at hbefore
        rw [hbefore] at hheld
        rw [hafter]
        exact hproceeds.held others hheld
      · have hobeys : Obeys next.main next.pipeline := by
          rw [hproceeds.main, hproceeds.pipeline]
          exact hsound.obeys
        exact hobeys

theorem Sound.receive (capacity : ℕ) (connection : Connection)
    (answer : Except Exception (List UInt8)) (now : UInt64) :
    (program.receive capacity connection answer now).1.Sound := by
  unfold Program.receive
  split
  case h_1 hruns =>
    apply hsound.setRun (by rw [hruns]; rfl) (by simp [hruns])
    split
    · exact .inr .exchange
    · exact .inl rfl
  case h_2 hruns =>
    have hkeeps := keeps_step capacity program.pipeline
      (program.tryReceive connection answer)
    apply (hsound.keeps hkeeps).setRun (by simp [hruns, RunPoint.calls])
      (by simp [hruns])
    unfold tried
    split
    · exact .inl rfl
    · exact .inr .exchange
    · exact .inl rfl
  case h_3 hruns =>
    apply hsound.setRun (by rw [hruns]; rfl) (by simp [hruns])
    split
    · exact .inr (closing_heartbeatStale connection)
    · exact .inl rfl
  case h_4 calls hruns => exact hsound.leave hruns

theorem Sound.readLine (capacity : ℕ) (hconsole : program.console = [])
    (input : String) : (program.readLine capacity input).Sound := by
  have hline := hsound.keeps
    (keeps_step capacity program.pipeline (.line input))
  have hsame : (program.readLine capacity input).countDowns =
      program.countDowns := by
    unfold countDowns Program.readLine
    rw [hconsole]
    split <;> rfl
  refine ⟨hline.past, hline.runs, ?_, ?_, hline.obeys⟩
  · unfold Program.readLine
    dsimp only
    split
    · exact .closing closing_handleClose
    · exact .returned
  · rw [hsame]
    exact hsound.held

theorem Sound.close :
    Sound { (program.proceed program.console).1.1 with
      console := (program.proceed program.console).1.2 } := by
  have hproceeds := program.proceed_leaving hsound.console
  generalize (program.proceed program.console).1.1 = next at hproceeds ⊢
  generalize (program.proceed program.console).1.2 = later at hproceeds ⊢
  constructor
  · rcases hsound.past with ⟨earlier, hmain, hearlier⟩
    refine ⟨earlier, ?_, ?_⟩
    · rw [← hmain, ← hproceeds.main]
    · intro call hcall
      have hperformed := hproceeds.performed (hearlier call hcall)
      cases call <;> exact hperformed
  · exact hproceeds.runs ▸ hsound.runs
  · exact hproceeds.leaving
  · have hheld := hsound.held
    rw [countDowns, add_comm] at hheld
    have hafter := hproceeds.held _ hheld
    rw [countDowns, hproceeds.runs, add_comm]
    exact hafter
  · have hobeys : Obeys next.main next.pipeline := by
      rw [hproceeds.main, hproceeds.pipeline]
      exact hsound.obeys
    exact hobeys

end Step

/-! ## The calls of `main` -/

/-- A call of `main` is made. -/
structure Made (program : Program) (call : Call) (next : Program) :
    Prop where
  performed : next.Performed call
  later : ∀ other, program.Performed other → next.Performed other
  signal : next.shutdownSignal = program.shutdownSignal
  runs : next.runs = program.runs
  console : next.console = program.console
  pipeline : next.pipeline = program.pipeline ∨
    call = .stopDispatcher ∧
        next.pipeline =
          { program.pipeline with inbound.shouldStop := true } ∨
      call = .stopSender ∧
        next.pipeline =
          { program.pipeline with
            orderSender := program.pipeline.orderSender.stop }

theorem Made.same {program : Program} {call : Call}
    (hperformed : program.Performed call) : Made program call program :=
  ⟨hperformed, fun _ => id, rfl, rfl, rfl, .inl rfl⟩

/-- Each thread is told to stop by one call, which `main` makes once. -/
theorem Made.obeys {program next : Program} {call : Call}
    {later : List Call} (hmade : Made program call next)
    (hobeys : Obeys (call :: later) program.pipeline)
    (honce : (call :: later).count .stopDispatcher ≤ 1 ∧
      (call :: later).count .stopSender ≤ 1) :
    Obeys later next.pipeline := by
  have hdispatcher := fun htold =>
    List.not_mem_of_not_mem_cons (hobeys.dispatcher_told htold)
  have hsender := fun htold =>
    List.not_mem_of_not_mem_cons (hobeys.sender_told htold)
  rcases hmade.pipeline with hsame | ⟨rfl, hstop⟩ | ⟨rfl, hstop⟩
  · rw [hsame]
    exact ⟨hdispatcher, hobeys.dispatcher_empty, hsender,
      hobeys.sender_returned⟩
  · rw [hstop]
    refine ⟨fun _ => ?_, hobeys.dispatcher_empty, hsender,
      hobeys.sender_returned⟩
    have hnone : later.count .stopDispatcher = 0 := by
      simpa using honce.1
    exact List.count_eq_zero.mp hnone
  · rw [hstop]
    refine ⟨hdispatcher, hobeys.dispatcher_empty, fun _ => ?_,
      fun _ => rfl⟩
    have hnone : later.count .stopSender = 0 := by
      simpa using honce.2
    exact List.count_eq_zero.mp hnone

theorem ready_joinDispatcher_iff (program : Program) :
    program.ready .joinDispatcher = true ↔
      program.pipeline.inbound.dispatcher = .stopped := by
  cases hpoint : program.pipeline.inbound.dispatcher <;>
    simp [ready, hpoint]

theorem ready_joinReceiver_iff (program : Program)
    (connection : Connection) :
    program.ready (.joinReceiver connection) = true ↔
      program.runs connection = .leaving [] := by
  cases hrun : program.runs connection with
  | leaving calls => cases calls <;> simp [ready, hrun]
  | _ => simp [ready, hrun]

theorem ready_joinSender_iff (program : Program) :
    program.ready .joinSender = true ↔
      program.pipeline.orderSender.point = .returned := by
  cases hpoint : program.pipeline.orderSender.point <;>
    simp [ready, hpoint]

theorem perform_main {program : Program} {call : Call}
    (hready : program.ready call = true) (hmem : call ∈ Call.main) :
    (program.perform call).2 = [] ∧
      Made program call (program.perform call).1 := by
  cases call with
  | wait => exact ⟨rfl, .same (eq_of_beq hready)⟩
  | joinDispatcher =>
      exact ⟨rfl, .same (program.ready_joinDispatcher_iff.mp hready)⟩
  | joinReceiver connection =>
      exact ⟨rfl, .same ((program.ready_joinReceiver_iff _).mp hready)⟩
  | joinSender =>
      exact ⟨rfl, .same (program.ready_joinSender_iff.mp hready)⟩
  | shutdownConnection connection =>
      refine ⟨rfl, Function.update_self _ _ _, ?_, rfl, rfl, rfl,
        .inl rfl⟩
      intro other hother
      cases other with
      | shutdownConnection another => exact update_true connection hother
      | _ => exact hother
  | stopReceiver connection =>
      refine ⟨rfl, Function.update_self _ _ _, ?_, rfl, rfl, rfl,
        .inl rfl⟩
      intro other hother
      cases other with
      | stopReceiver another => exact update_true connection hother
      | _ => exact hother
  | stopDispatcher =>
      refine ⟨rfl, rfl, ?_, rfl, rfl, rfl, .inr (.inl ⟨rfl, rfl⟩)⟩
      intro other hother
      cases other with
      | stopDispatcher => rfl
      | _ => exact hother
  | stopSender =>
      refine ⟨rfl, rfl, ?_, rfl, rfl, rfl, .inr (.inr ⟨rfl, rfl⟩)⟩
      intro other hother
      cases other with
      | stopSender => rfl
      | _ => exact hother
  | exchange => simp [Call.main, Call.shutdown] at hmem
  | countDown => simp [Call.main, Call.shutdown] at hmem

/-- `main` waits, has returned, or makes its next call. -/
inductive MainSteps (program : Program) : Program → Prop
  | returned (hmain : program.main = []) : MainSteps program program
  | waits {call : Call} {later : List Call}
      (hmain : program.main = call :: later)
      (hready : program.ready call = false) : MainSteps program program
  | makes {call : Call} {later : List Call} {next : Program}
      (hmain : program.main = call :: later)
      (hready : program.ready call = true)
      (hmade : Made program call next) :
      MainSteps program { next with main := later }

theorem Sound.mainSteps {program : Program} (hsound : program.Sound) :
    MainSteps program
      { (program.proceed program.main).1.1 with
        main := (program.proceed program.main).1.2 } := by
  cases hcalls : program.main with
  | nil =>
      have hsame : { program with main := [] } = program := by
        rw [← hcalls]
      rw [proceed, hsame]
      exact .returned hcalls
  | cons call later =>
      cases hready : program.ready call with
      | true =>
          rcases hsound.past with ⟨earlier, hmain, -⟩
          have hmem : call ∈ Call.main := by
            rw [← hmain, hcalls]
            simp
          obtain ⟨hnone, hmade⟩ := perform_main hready hmem
          have hproceed : (program.proceed (call :: later)).1 =
              ((program.perform call).1, later) := by
            simp [proceed, hready, hnone]
          rw [hproceed]
          exact .makes hcalls hready hmade
      | false =>
          have hproceed : (program.proceed (call :: later)).1 =
              (program, call :: later) := by
            simp [proceed, hready]
          have hsame : { program with main := call :: later } = program := by
            rw [← hcalls]
          rw [hproceed, hsame]
          exact .waits hcalls hready

theorem Sound.main {program : Program} (hsound : program.Sound) :
    Sound { (program.proceed program.main).1.1 with
      main := (program.proceed program.main).1.2 } := by
  have hsteps := hsound.mainSteps
  generalize { (program.proceed program.main).1.1 with
    main := (program.proceed program.main).1.2 } = after at hsteps ⊢
  cases hsteps with
  | returned hmain => exact hsound
  | waits hmain hready => exact hsound
  | @makes call later next hcalls hready hmade =>
      rcases hsound.past with ⟨earlier, hmain, hearlier⟩
      rw [hcalls] at hmain
      have hlater : ∀ other, next.Performed other →
          Performed { next with main := later } other := by
        intro other hother
        cases other <;> exact hother
      constructor
      · refine ⟨earlier ++ [call], by simpa using hmain, ?_⟩
        intro other hother
        apply hlater
        rcases List.mem_append.mp hother with hbefore | hnow
        · exact hmade.later other (hearlier other hbefore)
        · rw [List.mem_singleton.mp hnow]
          exact hmade.performed
      · exact hmade.runs ▸ hsound.runs
      · exact hmade.console ▸ hsound.console
      · have hsame : countDowns { next with main := later } =
            program.countDowns := by
          unfold countDowns
          rw [hmade.runs, hmade.console]
        rw [hsame, hmade.signal]
        exact hsound.held
      · apply hmade.obeys (hcalls ▸ hsound.obeys)
        have hsublist : (call :: later).Sublist Call.main := by
          rw [← hmain]
          exact List.sublist_append_right _ _
        exact ⟨hsublist.count_le .stopDispatcher,
          hsublist.count_le .stopSender⟩

theorem Sound.step {program : Program} (hsound : program.Sound)
    (capacity : ℕ) (turn : Turn) :
    (Program.step capacity program turn).1.Sound := by
  unfold Program.step
  split
  next => exact hsound
  next =>
    cases turn with
    | receiver connection answer now =>
        exact hsound.receive capacity connection answer now
    | dispatcher clock =>
        exact hsound.keeps (keeps_dispatch program.pipeline clock)
    | orderSender answer => exact hsound.keeps (keeps_run program.pipeline _)
    | console input =>
        dsimp only
        split
        next => exact hsound
        next hconsole => exact hsound.readLine capacity hconsole _
        next => exact hsound.close
    | main => exact hsound.main

/-- What has been done stays done. -/
theorem Sound.receive_performed {program : Program} (hsound : program.Sound)
    {call : Call} (hperformed : program.Performed call) (capacity : ℕ)
    (connection : Connection) (answer : Except Exception (List UInt8))
    (now : UInt64) :
    (program.receive capacity connection answer now).1.Performed call := by
  unfold Program.receive
  split
  case h_1 hruns => exact hperformed.setRun (by simp [hruns]) _
  case h_2 hruns =>
    have hkeeps := keeps_step capacity program.pipeline
      (program.tryReceive connection answer)
    exact (hkeeps.performed hperformed).setRun (by simp [hruns]) _
  case h_3 hruns => exact hperformed.setRun (by simp [hruns]) _
  case h_4 calls hruns =>
    have hproceeds := program.proceed_leaving
      (leaves_of_runs hsound.runs hruns)
    cases calls with
    | nil =>
        dsimp only [proceed]
        rw [program.setRun_same hruns]
        exact hperformed
    | cons first later =>
        apply (hproceeds.performed hperformed).setRun
        rw [hproceeds.runs, hruns]
        simp

theorem Sound.step_performed {program : Program} (hsound : program.Sound)
    {call : Call} (hperformed : program.Performed call) (capacity : ℕ)
    (turn : Turn) :
    (Program.step capacity program turn).1.Performed call := by
  unfold Program.step
  split
  next => exact hperformed
  next =>
    cases turn with
    | receiver connection answer now =>
        exact hsound.receive_performed hperformed capacity connection answer
          now
    | dispatcher clock =>
        exact (keeps_dispatch program.pipeline clock).performed hperformed
    | orderSender answer =>
        exact (keeps_run program.pipeline _).performed hperformed
    | console input =>
        dsimp only
        split
        next => exact hperformed
        next line hconsole =>
          have hkeeps := keeps_step capacity program.pipeline (.line line)
          have hline := hkeeps.performed hperformed
          cases call <;> exact hline
        next =>
          have hclosed := (program.proceed_leaving
            hsound.console).performed hperformed
          cases call <;> exact hclosed
    | main =>
        have hsteps := hsound.mainSteps
        dsimp only
        generalize { (program.proceed program.main).1.1 with
          main := (program.proceed program.main).1.2 } = after
          at hsteps ⊢
        cases hsteps with
        | returned => exact hperformed
        | waits => exact hperformed
        | makes hmain hready hmade =>
            have hafter := hmade.later call hperformed
            cases call <;> exact hafter

theorem after_sound (wiring : Wiring) (turns : List Turn) :
    (after wiring turns).Sound := by
  unfold after
  generalize hstart : initial wiring = program
  have hsound : program.Sound := hstart ▸ sound_initial wiring
  clear hstart
  induction turns generalizing program with
  | nil => exact hsound
  | cons turn rest ih => exact ih _ (hsound.step wiring.capacity turn)

/-! ## The order of the calls -/

theorem Sound.main_eq_drop {program : Program} (hsound : program.Sound) :
    program.main = Call.main.drop (15 - program.main.length) := by
  rcases hsound.past with ⟨earlier, hmain, -⟩
  have hsuffix : program.main <:+ Call.main := ⟨earlier, hmain⟩
  exact List.suffix_iff_eq_drop.mp hsuffix

/-- The calls that `main` has made. -/
theorem Sound.performed {program : Program} (hsound : program.Sound)
    (n : ℕ) (hn : program.main.length + n ≤ 15) :
    ∀ call ∈ Call.main.take n, program.Performed call := by
  rcases hsound.past with ⟨earlier, hmain, hearlier⟩
  have hlength := congrArg List.length hmain
  rw [List.length_append, show Call.main.length = 15 from rfl] at hlength
  intro call hcall
  apply hearlier
  rw [← hmain, List.take_append_of_le_length (by omega)] at hcall
  exact List.mem_of_mem_take hcall

theorem Sound.told {program : Program} (hsound : program.Sound)
    (hmain : program.main.length ≤ 10) :
    program.shutdownSignal.latch = 0 ∧
      ∀ connection, program.shouldStop connection = true := by
  have hperformed := hsound.performed 5 (by omega)
  refine ⟨hperformed .wait (by simp [Call.main]), fun connection => ?_⟩
  apply hperformed (.stopReceiver connection)
  cases connection <;> simp [Call.main, Call.shutdown]

/-- The latch goes down by the calls that count it down. -/
theorem proceed_counts {program : Program} {calls : List Call}
    (hleaving : Leaving calls)
    (hpos : calls = [.countDown] → 0 < program.shutdownSignal.latch) :
    (program.proceed calls).1.1.shutdownSignal.latch +
        (program.proceed calls).2.toList.count .countDown =
      program.shutdownSignal.latch := by
  cases hleaving with
  | returned => rfl
  | countDown => exact Nat.sub_add_cancel (hpos rfl)
  | closing hclosing =>
      cases hclosing with
      | exchange =>
          cases htriggered : program.shutdownSignal.triggered <;>
            simp [proceed, ready, perform, htriggered]
      | shutdownConnection connection hlater => rfl
      | stopReceiver connection hlater => rfl

theorem Sound.latch_pos {program : Program} (hsound : program.Sound)
    (hcalls : program.console = [.countDown] ∨
      ∃ connection, (program.runs connection).calls = [.countDown]) :
    0 < program.shutdownSignal.latch := by
  have hheld := hsound.held
  have hone : List.count Call.countDown [.countDown] = 1 := rfl
  have hpos : 0 < program.countDowns := by
    unfold countDowns
    rcases hcalls with hconsole | ⟨connection, hruns⟩
    · rw [hconsole]
      omega
    · cases connection <;> (rw [hruns]; omega)
  unfold ShutdownSignal.Held at hheld
  split at hheld <;> omega

theorem Sound.main_call {program : Program} (hsound : program.Sound) :
    (program.proceed program.main).1.1.shutdownSignal =
        program.shutdownSignal ∧
      ∀ call, (program.proceed program.main).2 = some call →
        call ≠ .countDown ∧
          (program.proceed program.main).1.1.Performed call := by
  rcases hsound.past with ⟨earlier, hmain, -⟩
  cases hcalls : program.main with
  | nil => exact ⟨rfl, by simp [proceed]⟩
  | cons call later =>
      cases hready : program.ready call with
      | true =>
          have hmem : call ∈ Call.main := by
            rw [← hmain, hcalls]
            simp
          obtain ⟨-, hmade⟩ := perform_main hready hmem
          simp only [proceed, hready, if_true, Option.some.injEq,
            forall_eq']
          refine ⟨hmade.signal, ?_, hmade.performed⟩
          rintro rfl
          simp [Call.main, Call.shutdown] at hmem
      | false => simp [proceed, hready]

theorem Sound.step_counts {program : Program} (hsound : program.Sound)
    (capacity : ℕ) (turn : Turn) :
    (Program.step capacity program turn).1.shutdownSignal.latch +
        (Program.step capacity program turn).2.toList.count .countDown =
      program.shutdownSignal.latch := by
  unfold Program.step
  split
  next => rfl
  next =>
    cases turn with
    | receiver connection answer now =>
        dsimp only
        unfold Program.receive
        split
        next => rfl
        next => rfl
        next => rfl
        next calls hruns =>
          apply proceed_counts (leaves_of_runs hsound.runs hruns)
          intro hcalls
          refine hsound.latch_pos (.inr ⟨connection, ?_⟩)
          rw [hruns, hcalls]
          rfl
    | dispatcher clock => rfl
    | orderSender answer => rfl
    | console input =>
        dsimp only
        split
        next => rfl
        next => rfl
        next =>
          apply proceed_counts hsound.console
          intro hcalls
          exact hsound.latch_pos (.inl hcalls)
    | main =>
        obtain ⟨hsignal, hcall⟩ := hsound.main_call
        dsimp only
        rw [hsignal]
        cases hmade : (program.proceed program.main).2 with
        | none => rfl
        | some call =>
            have hother : Call.countDown ∉ [call] := by
              simpa using (hcall call hmade).1.symm
            rw [Option.toList_some, List.count_eq_zero_of_not_mem hother,
              add_zero]

theorem proceed_call {program : Program} {calls : List Call}
    (hleaving : Leaving calls) {call : Call}
    (hcall : (program.proceed calls).2 = some call) :
    (program.proceed calls).1.1.Performed call := by
  cases hleaving with
  | returned => simp [proceed] at hcall
  | countDown =>
      obtain rfl := Option.some.inj hcall
      trivial
  | closing hclosing =>
      cases hclosing with
      | exchange =>
          cases htriggered : program.shutdownSignal.triggered with
          | true =>
              simp [proceed, ready, perform, htriggered] at hcall
              simp [proceed, ready, perform, htriggered, ← hcall, Performed]
          | false =>
              simp [proceed, ready, perform, htriggered] at hcall
              simp [proceed, ready, perform, htriggered, ← hcall, Performed]
      | shutdownConnection connection hlater =>
          obtain rfl := Option.some.inj hcall
          exact Function.update_self _ _ _
      | stopReceiver connection hlater =>
          obtain rfl := Option.some.inj hcall
          exact Function.update_self _ _ _

/-- A call has the effect it was made for. -/
theorem Sound.step_call {program : Program} (hsound : program.Sound)
    (capacity : ℕ) (turn : Turn) {call : Call}
    (hcall : (Program.step capacity program turn).2 = some call) :
    (Program.step capacity program turn).1.Performed call := by
  unfold Program.step at hcall ⊢
  split at hcall
  next => contradiction
  next hruns =>
    rw [if_neg hruns]
    cases turn with
    | receiver connection answer now =>
        dsimp only at hcall ⊢
        unfold Program.receive at hcall ⊢
        split at hcall
        next => contradiction
        next => contradiction
        next => contradiction
        next calls hleaves =>
          have hleaving := leaves_of_runs hsound.runs hleaves
          have hperformed := proceed_call hleaving hcall
          have hproceeds := program.proceed_leaving hleaving
          apply hperformed.setRun
          rw [hproceeds.runs, hleaves]
          rintro ⟨⟩
          contradiction
    | dispatcher clock => contradiction
    | orderSender answer => contradiction
    | console input =>
        dsimp only at hcall ⊢
        split at hcall
        next => contradiction
        next => contradiction
        next =>
          have hperformed := proceed_call hsound.console hcall
          cases call <;> exact hperformed
    | main =>
        have hperformed := (hsound.main_call.2 call hcall).2
        cases call <;> exact hperformed

section Run

variable (wiring : Wiring) (turns : List Turn)

theorem calls_count :
    (calls wiring turns).count .countDown +
      (after wiring turns).shutdownSignal.latch = 1 := by
  induction turns using List.reverseRecOn with
  | nil => rfl
  | append_singleton earlier turn ih =>
      have hcounts := (after_sound wiring earlier).step_counts
        wiring.capacity turn
      rw [calls, RunHistory.reduceOption_outputs_concat, List.count_append,
        after, RunHistory.exec_append]
      rw [calls] at ih
      unfold after at hcounts ih
      simp only [RunHistory.exec_cons, RunHistory.exec_nil]
      omega

theorem calls_performed :
    ∀ call ∈ calls wiring turns, (after wiring turns).Performed call := by
  induction turns using List.reverseRecOn with
  | nil => simp [calls]
  | append_singleton earlier turn ih =>
      have hsound := after_sound wiring earlier
      intro call hcall
      rw [calls, RunHistory.reduceOption_outputs_concat] at hcall
      rw [after, RunHistory.exec_append]
      rcases List.mem_append.mp hcall with hbefore | hnow
      · exact hsound.step_performed (ih call hbefore) wiring.capacity turn
      · exact hsound.step_call wiring.capacity turn
          (Option.mem_toList.mp hnow)

/-- However many threads trigger the signal, and in whatever order, the
latch is counted down once at most and never below zero.  A trigger that no
caller is still in the middle of has opened it, and `main` does not pass it
before. -/
theorem signal_counted_once :
    (calls wiring turns).count .countDown +
          (after wiring turns).shutdownSignal.latch = 1 ∧
      ((after wiring turns).shutdownSignal.triggered = true →
        (after wiring turns).countDowns = 0 →
          (after wiring turns).shutdownSignal.latch = 0) ∧
      (.wait ∈ calls wiring turns → .countDown ∈ calls wiring turns) := by
  have hcount := calls_count wiring turns
  refine ⟨hcount, ?_, ?_⟩
  · intro htriggered hnone
    have hheld := (after_sound wiring turns).held
    rw [ShutdownSignal.Held, if_pos htriggered, hnone] at hheld
    exact hheld.1
  · intro hwait
    have hopen : (after wiring turns).shutdownSignal.latch = 0 :=
      calls_performed wiring turns .wait hwait
    apply List.count_pos_iff.mp
    omega

/-- No thread is told to stop before those that pass work to it have ended,
and `main` returns after all of them. -/
theorem ends_in_order :
    ((after wiring turns).pipeline.inbound.shouldStop = true →
        ∀ connection, (after wiring turns).shouldStop connection = true) ∧
      ((after wiring turns).pipeline.orderSender.shouldStop = true →
        (after wiring turns).pipeline.inbound.dispatcher = .stopped ∧
          (after wiring turns).pipeline.newOrders = [] ∧
          ∀ connection,
            (after wiring turns).runs connection = .leaving []) ∧
      ((after wiring turns).main = [] →
        (after wiring turns).pipeline.orderSender.point = .returned) := by
  have hsound := after_sound wiring turns
  generalize after wiring turns = program at hsound ⊢
  have hdrop := hsound.main_eq_drop
  refine ⟨?_, ?_, ?_⟩
  · intro htold
    have hnot := hsound.obeys.dispatcher_told htold
    have hshort : program.main.length ≤ 10 := by
      by_contra hlong
      apply hnot
      rw [hdrop]
      have hpast : 15 - program.main.length ≤ 4 := by omega
      generalize 15 - program.main.length = k at hpast
      interval_cases k <;> decide
    exact (hsound.told hshort).2
  · intro htold
    have hnot := hsound.obeys.sender_told htold
    have hshort : program.main.length + 14 ≤ 15 := by
      by_contra hlong
      apply hnot
      rw [hdrop]
      have hpast : 15 - program.main.length ≤ 13 := by omega
      generalize 15 - program.main.length = k at hpast
      interval_cases k <;> decide
    have hperformed := hsound.performed 14 hshort
    have hstopped : program.pipeline.inbound.dispatcher = .stopped :=
      hperformed .joinDispatcher (by decide)
    refine ⟨hstopped, hsound.obeys.dispatcher_empty hstopped, ?_⟩
    intro connection
    apply hperformed (.joinReceiver connection)
    cases connection <;> decide
  · intro hmain
    have hperformed := hsound.performed 15 (by simp [hmain])
    exact hperformed .joinSender (by decide)

end Run

end Program

end Slipstream
