import Slipstream.ProgramShutdown

/-!
# The program ends, or hangs in one of two ways

Once the signal is triggered `main` is woken and shuts the receivers down.
From then on each thread has a bounded number of steps left, so that after
finitely many rounds every thread has ended or waits.

Then `main` has returned, or the order sender was ended by an exception, or
`main` joins a thread that will not end: the dispatcher, which waits for a
message that no receiver will push, or a receiver, which waits for room in a
queue that nobody empties any more.
-/

namespace Slipstream

open PackedBytes

namespace MessageReconstructor

theorem messagesCount_le (reconstructor : MessageReconstructor)
    (buffer size : ℕ) :
    (reconstructor.getMessages buffer size).1.messagesCount ≤ size := by
  induction size using Nat.strong_induction_on generalizing buffer with
  | h size ih =>
      rw [getMessages]
      split
      next => exact Nat.zero_le _
      next hheader =>
        dsimp only
        split
        next => exact Nat.zero_le _
        next hbody =>
          have hpos : 0 < FrameHeader.size := by decide
          have hinner := ih (size - (FrameHeader.size +
            (FrameHeader.read reconstructor.buffer buffer).bodyLen.toNat))
            (by omega) (buffer + (FrameHeader.size +
              (FrameHeader.read reconstructor.buffer
                buffer).bodyLen.toNat))
          dsimp only
          omega

theorem recieve_messagesCount_le {reconstructor next : MessageReconstructor}
    {mem : List UInt8} {received : MessagesRecieved}
    (hrecieve : reconstructor.recieve mem = (.ok received, next)) :
    received.messagesCount ≤ bufferSize := by
  unfold recieve at hrecieve
  split at hrecieve
  next => simp at hrecieve
  next hfits =>
    have hcount := (reconstructor.compact.append mem).messagesCount_le 0
      (reconstructor.compact.append mem).size
    have hsize : (reconstructor.compact.append mem).size =
        reconstructor.size + mem.length := by
      unfold append compact
      split <;> rfl
    simp only [Prod.mk.injEq, Except.ok.injEq] at hrecieve
    rw [hrecieve.1] at hcount
    omega

end MessageReconstructor

namespace ReceiverThread

/-- A call of `recieve` brings no more messages than bytes. -/
theorem work_receive_le {thread : ReceiverThread}
    (hpoint : thread.point = .receiving) (networkBuffer : List UInt8) :
    (thread.receive networkBuffer).work ≤
      13 * MessageReconstructor.bufferSize + 1 := by
  unfold receive
  split
  next => simp [work, hpoint]
  next =>
    split
    next => simp [work]
    next received messageReconstructor hrecieve =>
      have hcount :=
        MessageReconstructor.recieve_messagesCount_le hrecieve
      unfold work
      dsimp only
      cases received.start with
      | none => exact Nat.zero_le _
      | some ptr =>
          dsimp only
          omega

end ReceiverThread

namespace Program

inductive Thread where
  | receiver (connection : Connection)
  | dispatcher
  | orderSender
  | console
  | main

def Turn.thread : Turn → Option Thread
  | .receiver connection _ _ => some (.receiver connection)
  | .dispatcher _ => some .dispatcher
  | .orderSender _ => some .orderSender
  | .console _ => some .console
  | .main => some .main

/-! ## The signal wakes `main` -/

/-- The steps until `main` has shut the receivers down. -/
def wakeWork (program : Program) : ℕ :=
  if program.ended then 0
  else program.shutdownSignal.latch + (program.main.length - 10) + 1

/-- Who keeps `main` from shutting the receivers down: a caller that is to
count the signal down, and then `main` itself. -/
def Asleep (program : Program) : Thread → Prop
  | .receiver connection =>
      program.ended = true ∨
        (program.runs connection).calls ≠ [.countDown]
  | .dispatcher => True
  | .orderSender => True
  | .console => program.ended = true ∨ program.console ≠ [.countDown]
  | .main =>
      program.ended = true ∨ program.main.length ≤ 10 ∨
        program.shutdownSignal.latch ≠ 0

def Told (program : Program) : Prop :=
  program.ended = true ∨ program.main.length ≤ 10

/-- A step that leaves the signal, `main` and whoever is to count down. -/
structure Undisturbed (program next : Program) : Prop where
  latch : next.shutdownSignal.latch = program.shutdownSignal.latch
  main : next.main.length - 10 = program.main.length - 10
  runs : ∀ connection,
    (program.runs connection).calls = [.countDown] →
      (next.runs connection).calls = [.countDown]
  console : program.console = [.countDown] → next.console = [.countDown]

/-- A step that lowers the latch, or leads `main` on. -/
def Wakes (program next : Program) : Prop :=
  next.shutdownSignal.latch + (next.main.length - 10) <
    program.shutdownSignal.latch + (program.main.length - 10)

theorem Undisturbed.rfl {program : Program} :
    Undisturbed program program :=
  ⟨Eq.refl _, Eq.refl _, fun _ => id, id⟩

theorem Undisturbed.pipeline {program : Program}
    (pipeline : TradingPipeline) :
    Undisturbed program { program with pipeline := pipeline } :=
  ⟨Eq.refl _, Eq.refl _, fun _ => id, id⟩

theorem Undisturbed.setRun {program next : Program}
    (hundisturbed : Undisturbed program next) {connection : Connection}
    (hruns : (program.runs connection).calls ≠ [.countDown])
    (run : RunPoint) :
    Undisturbed program (next.setRun connection run) := by
  refine ⟨hundisturbed.latch, hundisturbed.main, ?_, hundisturbed.console⟩
  intro other hother
  by_cases hsame : other = connection
  · rw [hsame] at hother
    exact absurd hother hruns
  · rw [setRun_other next hsame]
    exact hundisturbed.runs other hother

theorem proceed_countDown (program : Program) :
    program.proceed [.countDown] =
      (({ program with
          shutdownSignal.latch := program.shutdownSignal.latch - 1 }, []),
        some .countDown) := rfl

theorem proceed_latch (program : Program) {calls : List Call}
    (hleaving : Leaving calls) (hcalls : calls ≠ [.countDown]) :
    (program.proceed calls).1.1.shutdownSignal.latch =
      program.shutdownSignal.latch := by
  cases hleaving with
  | returned => rfl
  | countDown => exact absurd rfl hcalls
  | closing hclosing =>
      cases hclosing with
      | exchange =>
          cases htriggered : program.shutdownSignal.triggered <;>
            simp [proceed, ready, perform, htriggered]
      | shutdownConnection connection hlater => rfl
      | stopReceiver connection hlater => rfl

theorem undisturbed_proceed (program : Program) {calls : List Call}
    (hleaving : Leaving calls) (hcalls : calls ≠ [.countDown]) :
    Undisturbed program (program.proceed calls).1.1 := by
  have hproceeds := program.proceed_leaving hleaving
  refine ⟨program.proceed_latch hleaving hcalls,
    by rw [hproceeds.main], ?_, ?_⟩
  · rw [hproceeds.runs]
    exact fun _ => id
  · rw [hproceeds.console]
    exact id

section Wake

variable {program : Program} (hsound : program.Sound) (capacity : ℕ)
include hsound

theorem Sound.receive_undisturbed {connection : Connection}
    (hruns : (program.runs connection).calls ≠ [.countDown])
    (answer : Except Exception (List UInt8)) (now : UInt64) :
    Undisturbed program
      (program.receive capacity connection answer now).1 := by
  unfold Program.receive
  split
  next => exact Undisturbed.rfl.setRun hruns _
  next => exact (Undisturbed.pipeline _).setRun hruns _
  next => exact Undisturbed.rfl.setRun hruns _
  next calls hleaves =>
    have hleaving := leaves_of_runs hsound.runs hleaves
    have hcalls : calls ≠ [.countDown] := by
      rw [hleaves] at hruns
      exact hruns
    exact (program.undisturbed_proceed hleaving hcalls).setRun hruns _

theorem Sound.receive_wakes {connection : Connection}
    (hruns : (program.runs connection).calls = [.countDown])
    (answer : Except Exception (List UInt8)) (now : UInt64) :
    Wakes program (program.receive capacity connection answer now).1 := by
  have hpos := hsound.latch_pos (.inr ⟨connection, hruns⟩)
  cases hrun : program.runs connection with
  | leaving calls =>
      rw [hrun] at hruns
      obtain rfl : calls = [.countDown] := hruns
      simp only [Program.receive, hrun, proceed_countDown, Wakes,
        Program.setRun]
      omega
  | _ => simp [hrun, RunPoint.calls] at hruns

theorem Sound.close_undisturbed (hconsole : program.console ≠ [.countDown]) :
    Undisturbed program
      { (program.proceed program.console).1.1 with
        console := (program.proceed program.console).1.2 } := by
  have hundisturbed := program.undisturbed_proceed hsound.console hconsole
  exact ⟨hundisturbed.latch, hundisturbed.main, hundisturbed.runs,
    fun hcalls => absurd hcalls hconsole⟩

theorem Sound.close_wakes (hconsole : program.console = [.countDown]) :
    Wakes program
      { (program.proceed program.console).1.1 with
        console := (program.proceed program.console).1.2 } := by
  have hpos := hsound.latch_pos (.inl hconsole)
  rw [hconsole, proceed_countDown]
  simp only [Wakes]
  omega

/-- The first call of `main` waits for the latch, the next four do not
wait. -/
theorem Sound.main_moves :
    Undisturbed program
        { (program.proceed program.main).1.1 with
          main := (program.proceed program.main).1.2 } ∨
      Wakes program
        { (program.proceed program.main).1.1 with
          main := (program.proceed program.main).1.2 } := by
  have hsteps := hsound.mainSteps
  generalize { (program.proceed program.main).1.1 with
    main := (program.proceed program.main).1.2 } = after at hsteps ⊢
  cases hsteps with
  | returned hmain => exact .inl .rfl
  | waits hmain hready => exact .inl .rfl
  | @makes call later next hmain hready hmade =>
      by_cases hlength : program.main.length ≤ 10
      · left
        refine ⟨congrArg _ hmade.signal, ?_, ?_, ?_⟩
        · rw [hmain, List.length_cons] at hlength
          rw [hmain, List.length_cons]
          dsimp only
          omega
        · rw [hmade.runs]
          exact fun _ => id
        · rw [hmade.console]
          exact id
      · right
        rw [hmain, List.length_cons] at hlength
        simp only [Wakes, hmade.signal, hmain, List.length_cons]
        omega

theorem Sound.main_wakes (hmain : ¬ program.main.length ≤ 10)
    (hlatch : program.shutdownSignal.latch = 0) :
    Wakes program
      { (program.proceed program.main).1.1 with
        main := (program.proceed program.main).1.2 } := by
  have hheads : ∀ k < 5, ∃ call later, Call.main.drop k = call :: later ∧
      program.ready call = true := by
    intro k hk
    interval_cases k
    · exact ⟨_, _, rfl, by simp [ready, hlatch]⟩
    · exact ⟨_, _, rfl, rfl⟩
    · exact ⟨_, _, rfl, rfl⟩
    · exact ⟨_, _, rfl, rfl⟩
    · exact ⟨_, _, rfl, rfl⟩
  obtain ⟨call, later, hdrop, hready⟩ :=
    hheads (15 - program.main.length) (by omega)
  have hcalls : program.main = call :: later :=
    hsound.main_eq_drop.trans hdrop
  have hsteps := hsound.mainSteps
  generalize { (program.proceed program.main).1.1 with
    main := (program.proceed program.main).1.2 } = after at hsteps ⊢
  cases hsteps with
  | returned hnone => simp [hnone] at hcalls
  | waits hother hwaits =>
      rw [hcalls] at hother
      cases hother
      rw [hready] at hwaits
      contradiction
  | makes hother hgoes hmade =>
      rw [hother, List.length_cons] at hmain
      simp only [Wakes, hmade.signal, hother, List.length_cons]
      omega

theorem Sound.step_moves (capacity : ℕ) (turn : Turn) :
    Undisturbed program (Program.step capacity program turn).1 ∨
      Wakes program (Program.step capacity program turn).1 := by
  unfold Program.step
  split
  next => exact .inl .rfl
  next =>
    cases turn with
    | receiver connection answer now =>
        by_cases hruns : (program.runs connection).calls = [.countDown]
        · exact .inr (hsound.receive_wakes capacity hruns answer now)
        · exact .inl (hsound.receive_undisturbed capacity hruns answer now)
    | dispatcher clock => exact .inl (.pipeline _)
    | orderSender answer => exact .inl (.pipeline _)
    | console input =>
        dsimp only
        split
        next => exact .inl .rfl
        next hconsole =>
          exact .inl ⟨rfl, rfl, fun _ => id, by simp [hconsole]⟩
        next =>
          by_cases hconsole : program.console = [.countDown]
          · exact .inr (hsound.close_wakes hconsole)
          · exact .inl (hsound.close_undisturbed hconsole)
    | main => exact hsound.main_moves

theorem Sound.step_wakes (capacity : ℕ) {turn : Turn} {thread : Thread}
    (hthread : turn.thread = some thread)
    (hawake : ¬ program.Asleep thread) :
    Wakes program (Program.step capacity program turn).1 := by
  cases turn with
  | receiver connection answer now =>
      obtain rfl := Option.some.inj hthread
      obtain ⟨hruns, hcalls⟩ := not_or.mp hawake
      rw [Program.step, if_neg hruns]
      exact hsound.receive_wakes capacity (not_not.mp hcalls) answer now
  | dispatcher clock =>
      obtain rfl := Option.some.inj hthread
      exact absurd trivial hawake
  | orderSender answer =>
      obtain rfl := Option.some.inj hthread
      exact absurd trivial hawake
  | console input =>
      obtain rfl := Option.some.inj hthread
      obtain ⟨hruns, hconsole⟩ := not_or.mp hawake
      have hcalls := not_not.mp hconsole
      rw [Program.step, if_neg hruns]
      · exact hsound.close_wakes hcalls
      · simp [hcalls]
      · simp [hcalls]
  | main =>
      obtain rfl := Option.some.inj hthread
      obtain ⟨hruns, hmoves⟩ := not_or.mp hawake
      obtain ⟨hmain, hlatch⟩ := not_or.mp hmoves
      rw [Program.step, if_neg hruns]
      exact hsound.main_wakes hmain (not_not.mp hlatch)

end Wake

theorem Sound.step_main_le {program : Program} (hsound : program.Sound)
    (hmain : program.main.length ≤ 10) (capacity : ℕ) (turn : Turn) :
    (Program.step capacity program turn).1.main.length ≤ 10 := by
  have hlatch := (hsound.told hmain).1
  rcases hsound.step_moves capacity turn with hundisturbed | hwakes
  · have hsame := hundisturbed.main
    omega
  · unfold Wakes at hwakes
    omega

theorem wakeWork_lt {program next : Program} (hends : ¬ program.ended = true)
    (hwakes : Wakes program next) : next.wakeWork < program.wakeWork := by
  unfold Wakes at hwakes
  unfold wakeWork
  rw [if_neg hends]
  split <;> omega

theorem Undisturbed.asleep {program next : Program}
    (hundisturbed : Undisturbed program next)
    (hends : ¬ next.ended = true) {thread : Thread}
    (hawake : ¬ program.Asleep thread) : ¬ next.Asleep thread := by
  cases thread with
  | receiver connection =>
      obtain ⟨-, hcalls⟩ := not_or.mp hawake
      exact not_or.mpr ⟨hends, not_not.mpr
        (hundisturbed.runs connection (not_not.mp hcalls))⟩
  | dispatcher => exact hawake
  | orderSender => exact hawake
  | console =>
      obtain ⟨-, hcalls⟩ := not_or.mp hawake
      exact not_or.mpr ⟨hends, not_not.mpr
        (hundisturbed.console (not_not.mp hcalls))⟩
  | main =>
      have hmain := hundisturbed.main
      have hlatch := hundisturbed.latch
      unfold Asleep at hawake ⊢
      push Not at hawake ⊢
      refine ⟨hends, ?_, hlatch.trans hawake.2.2⟩
      omega

theorem wake_progress (capacity : ℕ) :
    FairRounds.Progress (step capacity) Turn.thread (fun _ => True)
      (fun program => program.Sound ∧ program.Performed .exchange) Told
      (fun thread program => program.Asleep thread) wakeWork := by
  refine ⟨?_, ?_, ?_, ?_, ?_⟩
  · rintro program turn ⟨hsound, htriggered⟩ -
    exact ⟨hsound.step capacity turn,
      hsound.step_performed htriggered capacity turn⟩
  · rintro program turn ⟨hsound, -⟩ - (hends | hmain)
    · rw [step_ended capacity hends turn]
      exact .inl hends
    · exact .inr (hsound.step_main_le hmain capacity turn)
  · rintro program ⟨hsound, htriggered⟩ hasleep
    obtain ⟨hends, hmain⟩ := not_or.mp hasleep
    by_cases hlatch : program.shutdownSignal.latch = 0
    · exact ⟨.main, by simp [Asleep, hends, hmain, hlatch]⟩
    · have hheld := hsound.held
      have hset : program.shutdownSignal.triggered = true := htriggered
      rw [ShutdownSignal.Held, if_pos hset, countDowns] at hheld
      by_cases hconsole : .countDown ∈ program.console
      · refine ⟨.console, ?_⟩
        simp [Asleep, hends, hsound.console.eq_countDown hconsole]
      · have hcounted : ∃ connection,
            .countDown ∈ (program.runs connection).calls := by
          by_contra hnone
          push Not at hnone
          rw [List.count_eq_zero_of_not_mem (hnone .md),
            List.count_eq_zero_of_not_mem (hnone .oe),
            List.count_eq_zero_of_not_mem hconsole] at hheld
          exact hlatch hheld.1
        rcases hcounted with ⟨connection, hmem⟩
        refine ⟨.receiver connection, ?_⟩
        simp [Asleep, hends, (hsound.runs connection).eq_countDown hmem]
  · rintro program turn thread ⟨hsound, -⟩ - hthread hawake
    have hends : ¬ program.ended = true := by
      intro hends
      cases thread <;> simp [Asleep, hends] at hawake
    exact wakeWork_lt hends (hsound.step_wakes capacity hthread hawake)
  · rintro program turn ⟨hsound, -⟩ -
    by_cases hends : program.ended = true
    · right
      rw [step_ended capacity hends turn]
      exact ⟨rfl, fun _ => id⟩
    · rcases hsound.step_moves capacity turn with hundisturbed | hwakes
      · by_cases hafter : (step capacity program turn).1.ended = true
        · left
          unfold wakeWork
          rw [if_pos hafter, if_neg hends]
          exact Nat.succ_pos _
        · right
          refine ⟨?_, fun thread => hundisturbed.asleep hafter⟩
          unfold wakeWork
          rw [if_neg hafter, if_neg hends, hundisturbed.latch,
            hundisturbed.main]
      · exact .inl (wakeWork_lt hends hwakes)

/-! ## The steps that are left -/

/-- The steps of `run` besides those in `tryReceive`, when the receiver is
told to stop. -/
def runWork (program : Program) (connection : Connection) : ℕ :=
  match program.runs connection with
  | .checking => 3
  | .receiving =>
      match (program.pipeline.inbound.threads connection).point with
      | .receiving => 13 * MessageReconstructor.bufferSize + 9
      | _ => 6
  | .comparing => 5
  | .leaving calls => calls.length

def mainWork (program : Program) : ℕ :=
  program.main.length + 3 * program.main.count .stopSender

def stepsLeft (program : Program) : ℕ :=
  program.pipeline.work + program.runWork .md + program.runWork .oe +
    program.mainWork

def work (program : Program) : ℕ :=
  if program.ended then 0 else program.stepsLeft + 1

/-- The receiver waits for room in the queue. -/
def Pushes (capacity : ℕ) (program : Program) (connection : Connection) :
    Prop :=
  program.runs connection = .receiving ∧
    (∃ message ptr count,
      (program.pipeline.inbound.threads connection).point =
        .pushing message ptr count) ∧
      capacity ≤ program.pipeline.inbound.inboundMessageQueue.length

def Waits (capacity : ℕ) (program : Program) : Thread → Prop
  | .receiver connection =>
      program.runs connection = .leaving [] ∨
        program.Pushes capacity connection
  | .dispatcher =>
      TradingPipeline.Blocked capacity program.pipeline .dispatcher
  | .orderSender => program.pipeline.orderSender.Idle
  | .console => True
  | .main => ∀ call ∈ program.main.head?, program.ready call = false

def Stuck (capacity : ℕ) (program : Program) (thread : Thread) : Prop :=
  program.ended = true ∨ program.Waits capacity thread

/-- What the threads look at has not changed. -/
structure Alike (program next : Program) : Prop where
  pipeline : TradingPipeline.Alike program.pipeline next.pipeline
  returned : next.pipeline.orderSender.point = .returned ↔
    program.pipeline.orderSender.point = .returned
  terminated : next.pipeline.orderSender.point = .terminated ↔
    program.pipeline.orderSender.point = .terminated
  latch : next.shutdownSignal.latch = program.shutdownSignal.latch
  runs : next.runs = program.runs
  main : next.main = program.main

theorem Alike.rfl {program : Program} : Alike program program :=
  ⟨.rfl, Iff.rfl, Iff.rfl, Eq.refl _, Eq.refl _, Eq.refl _⟩

theorem ended_iff (program : Program) :
    program.ended = true ↔
      program.main = [] ∨
        program.pipeline.orderSender.point = .terminated := by
  cases hpoint : program.pipeline.orderSender.point <;>
    simp [ended, hpoint]

section Alike

variable {program next : Program} (halike : Alike program next)
include halike

theorem Alike.ended_iff : next.ended = true ↔ program.ended = true := by
  rw [Program.ended_iff, Program.ended_iff, halike.main, halike.terminated]

theorem Alike.ready_iff (call : Call) :
    next.ready call = true ↔ program.ready call = true := by
  cases call with
  | wait =>
      rw [ready, ready, halike.latch]
  | joinDispatcher =>
      rw [ready_joinDispatcher_iff, ready_joinDispatcher_iff,
        halike.pipeline.inbound]
  | joinReceiver connection =>
      rw [ready_joinReceiver_iff, ready_joinReceiver_iff, halike.runs]
  | joinSender =>
      rw [ready_joinSender_iff, ready_joinSender_iff, halike.returned]
  | _ => exact Iff.rfl

theorem Alike.stuck_iff {capacity : ℕ} (thread : Thread) :
    next.Stuck capacity thread ↔ program.Stuck capacity thread := by
  apply or_congr halike.ended_iff
  cases thread with
  | receiver connection =>
      rw [Waits, Waits, Pushes, Pushes, halike.runs,
        halike.pipeline.inbound]
  | dispatcher => rw [Waits, Waits, halike.pipeline.blocked_iff]
  | orderSender => exact halike.pipeline.idle
  | console => exact Iff.rfl
  | main =>
      rw [Waits, Waits, halike.main]
      refine forall₂_congr fun call _ => ?_
      rw [← Bool.not_eq_true, ← Bool.not_eq_true, halike.ready_iff]

theorem Alike.work_eq : next.work = program.work := by
  have hruns : ∀ connection,
      next.runWork connection = program.runWork connection := by
    intro connection
    rw [runWork, runWork, halike.runs, halike.pipeline.inbound]
  have hsteps : next.stepsLeft = program.stepsLeft := by
    rw [stepsLeft, stepsLeft, halike.pipeline.work, hruns, hruns, mainWork,
      mainWork, halike.main]
  unfold work
  rw [hsteps]
  exact ite_congr (propext halike.ended_iff) (fun _ => Eq.refl _)
    fun _ => Eq.refl _

theorem Alike.keeps {capacity : ℕ} :
    FairRounds.Keeps (fun thread program => program.Stuck capacity thread)
      work program next where
  same := halike.work_eq
  others thread := (not_congr (halike.stuck_iff thread)).mpr

end Alike

/-! ## A step of each thread -/

theorem stepsLeft_setRun (program : Program) (connection : Connection)
    (run : RunPoint) :
    (program.setRun connection run).stepsLeft +
        program.runWork connection =
      program.stepsLeft +
        (program.setRun connection run).runWork connection := by
  have hother : ∀ other, other ≠ connection →
      (program.setRun connection run).runWork other =
        program.runWork other := by
    intro other hother
    rw [runWork, runWork, setRun_other program hother]
    rfl
  have hmain : (program.setRun connection run).mainWork =
      program.mainWork := Eq.refl _
  have hpipeline : (program.setRun connection run).pipeline =
      program.pipeline := Eq.refl _
  unfold stepsLeft
  rw [hmain, hpipeline]
  cases connection with
  | md =>
      rw [hother .oe (by decide)]
      omega
  | oe =>
      rw [hother .md (by decide)]
      omega

/-- The next step of a receiver that is told to stop. -/
theorem runWork_setRun (program : Program) (connection : Connection)
    (run : RunPoint) :
    (program.setRun connection run).runWork connection =
      match run with
      | .checking => 3
      | .receiving =>
          match (program.pipeline.inbound.threads connection).point with
          | .receiving => 13 * MessageReconstructor.bufferSize + 9
          | _ => 6
      | .comparing => 5
      | .leaving calls => calls.length := by
  rw [runWork, setRun_self]
  rfl

/-- A step in `tryReceive` leaves the other receiver alone. -/
theorem step_threads_other (capacity : ℕ) (program : Program)
    {connection other : Connection} (hother : other ≠ connection)
    (answer : Except Exception (List UInt8)) :
    (TradingPipeline.step capacity program.pipeline
        (program.tryReceive connection answer)).1.inbound.threads other =
      program.pipeline.inbound.threads other := by
  have hadvance : (TradingPipeline.step capacity program.pipeline
        (.advance connection)).1.inbound.threads other =
      program.pipeline.inbound.threads other := by
    rcases program.pipeline.inbound.advance_cases capacity connection with
      hsame | ⟨ptr, count, -, hdecode⟩ | ⟨message, ptr, count, -, -, hpush⟩
    · rw [TradingPipeline.step, hsame]
    · rw [TradingPipeline.step, hdecode]
      exact InboundPipeline.setThread_other _ _ _ hother
    · rw [TradingPipeline.step, hpush]
      exact InboundPipeline.setThread_other _ _ _ hother
  unfold tryReceive
  split
  next =>
    cases answer with
    | ok networkBuffer =>
        rcases program.pipeline.inbound.receive_cases capacity connection
            networkBuffer with hsame | ⟨-, hreceive⟩
        · rw [TradingPipeline.step, hsame]
        · rw [TradingPipeline.step, hreceive]
          exact InboundPipeline.setThread_other _ _ _ hother
    | error exception =>
        rcases program.pipeline.inbound.close_cases capacity connection with
          hsame | ⟨-, hclose⟩
        · rw [TradingPipeline.step, hsame]
        · rw [TradingPipeline.step, hclose]
          exact InboundPipeline.setThread_other _ _ _ hother
  next => exact hadvance

/-- After a step of `tryReceive` a receiver waits for bytes only when it has
left `tryReceive`. -/
theorem runWork_tried_le (program : Program) (connection : Connection) :
    (program.setRun connection
      (tried (program.pipeline.inbound.threads connection).point)).runWork
        connection ≤ 6 := by
  rw [runWork_setRun]
  cases hpoint : (program.pipeline.inbound.threads connection).point <;>
    simp [tried]

section Receive

variable {capacity : ℕ} {program : Program} {connection : Connection}
  (hruns : program.runs connection = .receiving)
include hruns

/-- The step of a receiver to which the system gives bytes, or none. -/
theorem work_receive_lt
    (hpoint : (program.pipeline.inbound.threads connection).point =
      .receiving) (networkBuffer : List UInt8) :
    (TradingPipeline.step capacity program.pipeline
        (.receive connection networkBuffer)).1.work + 6 <
      program.pipeline.work + program.runWork connection := by
  have hrun : program.runWork connection =
      13 * MessageReconstructor.bufferSize + 9 := by
    simp only [runWork, hruns, hpoint]
  have hthread : (program.pipeline.inbound.threads connection).work = 0 := by
    simp only [ReceiverThread.work, hpoint]
  have hreceived := ReceiverThread.work_receive_le hpoint networkBuffer
  have hwork := program.pipeline.inbound.work_setThread connection
    ((program.pipeline.inbound.threads connection).receive networkBuffer)
  simp only [TradingPipeline.step, InboundPipeline.step, hpoint,
    TradingPipeline.work]
  omega

/-- The step of a receiver that decodes or pushes. -/
theorem work_advance_lt
    (hgoes : ¬ InboundPipeline.ReceiverBlocked capacity connection
      program.pipeline.inbound) :
    (TradingPipeline.step capacity program.pipeline
        (.advance connection)).1.work + 6 <
      program.pipeline.work + program.runWork connection := by
  have hrun : program.runWork connection = 6 := by
    cases hpoint :
        (program.pipeline.inbound.threads connection).point with
    | receiving => simp [InboundPipeline.ReceiverBlocked, hpoint] at hgoes
    | decoding ptr count => simp only [runWork, hruns, hpoint]
    | pushing message ptr count => simp only [runWork, hruns, hpoint]
    | stopped => simp only [runWork, hruns, hpoint]
  have hlower := (TradingPipeline.advance_work connection).2 hgoes
  omega

theorem stepsLeft_receive_lt (hgoes : ¬ program.Pushes capacity connection)
    (answer : Except Exception (List UInt8)) :
    let pipeline := (TradingPipeline.step capacity program.pipeline
      (program.tryReceive connection answer)).1
    pipeline.work + 6 < program.pipeline.work + program.runWork connection ∨
      pipeline.work = program.pipeline.work ∧
        tried (pipeline.inbound.threads connection).point =
          .leaving [.exchange] := by
  intro pipeline
  unfold pipeline tryReceive
  cases hpoint : (program.pipeline.inbound.threads connection).point with
  | receiving =>
      cases answer with
      | ok networkBuffer =>
          exact .inl (work_receive_lt hruns hpoint networkBuffer)
      | error exception =>
          refine .inr ⟨TradingPipeline.work_close connection, ?_⟩
          simp [TradingPipeline.step, InboundPipeline.step, hpoint, tried]
  | decoding ptr count =>
      exact .inl (work_advance_lt hruns
        (by simp [InboundPipeline.ReceiverBlocked, hpoint]))
  | pushing message ptr count =>
      refine .inl (work_advance_lt hruns fun hfull => hgoes ⟨hruns, ?_, ?_⟩)
      · exact ⟨message, ptr, count, hpoint⟩
      · simpa [InboundPipeline.ReceiverBlocked, hpoint] using hfull
  | stopped =>
      have hsame : program.pipeline.inbound.advance capacity connection =
          program.pipeline.inbound := by
        simp only [InboundPipeline.advance, hpoint]
      exact .inr (by simp [TradingPipeline.step, hsame, hpoint, tried])

end Receive

theorem setRun_stepsLeft_lt {program : Program} {connection : Connection}
    {run : RunPoint}
    (hlower : (program.setRun connection run).runWork connection <
      program.runWork connection) :
    (program.setRun connection run).stepsLeft < program.stepsLeft := by
  have hsteps := program.stepsLeft_setRun connection run
  omega

theorem stepsLeft_pipeline (program : Program) (connection : Connection)
    {pipeline : TradingPipeline}
    (hothers : ∀ other, other ≠ connection →
      pipeline.inbound.threads other =
        program.pipeline.inbound.threads other) :
    stepsLeft { program with pipeline := pipeline } +
        (program.pipeline.work + program.runWork connection) =
      program.stepsLeft + (pipeline.work +
        runWork { program with pipeline := pipeline } connection) := by
  have hother : ∀ other, other ≠ connection →
      runWork { program with pipeline := pipeline } other =
        program.runWork other := by
    intro other hother
    rw [runWork, runWork, hothers other hother]
  have hmain : mainWork { program with pipeline := pipeline } =
      program.mainWork := rfl
  have hpipeline : TradingPipeline.work
      (Program.pipeline { program with pipeline := pipeline }) =
        pipeline.work := rfl
  unfold stepsLeft
  rw [hmain, hpipeline]
  cases connection with
  | md =>
      rw [hother .oe (by decide)]
      omega
  | oe =>
      rw [hother .md (by decide)]
      omega

/-- A call is made, and the last of a trigger finds it done. -/
theorem proceed_length_lt {program : Program} {calls : List Call}
    (hleaving : Leaving calls) (hcalls : calls ≠ [])
    (htriggered : program.shutdownSignal.triggered = true) :
    (program.proceed calls).1.2.length < calls.length := by
  cases hleaving with
  | returned => exact absurd rfl hcalls
  | countDown => exact Nat.zero_lt_one
  | closing hclosing =>
      cases hclosing with
      | exchange => simp [proceed, ready, perform, htriggered]
      | shutdownConnection connection hlater => exact Nat.lt_succ_self _
      | stopReceiver connection hlater => exact Nat.lt_succ_self _

theorem Sound.triggered {program : Program} (hsound : program.Sound)
    (hlatch : program.shutdownSignal.latch = 0) :
    program.shutdownSignal.triggered = true := by
  have hheld := hsound.held
  unfold ShutdownSignal.Held at hheld
  split at hheld
  next htriggered => exact htriggered
  next => omega

/-- Every step of a receiver told to stop brings it nearer to its end,
unless it has come there or waits for room. -/
theorem Sound.receive_work {capacity : ℕ} {program : Program}
    (hsound : program.Sound) (hmain : program.main.length ≤ 10)
    {connection : Connection}
    (hgoes : ¬ program.Waits capacity (.receiver connection))
    (answer : Except Exception (List UInt8)) (now : UInt64) :
    (program.receive capacity connection answer now).1.stepsLeft <
      program.stepsLeft := by
  obtain ⟨hlives, hpushes⟩ := not_or.mp hgoes
  obtain ⟨hlatch, htold⟩ := hsound.told hmain
  unfold Program.receive
  split
  case h_1 hruns =>
    apply setRun_stepsLeft_lt
    simp only [runWork, setRun_self, hruns, htold, if_true,
      List.length_singleton]
    omega
  case h_2 hruns =>
    have hsteps := program.stepsLeft_pipeline connection fun other hother =>
      step_threads_other capacity program hother answer
    have hafter := stepsLeft_setRun
      { program with
        pipeline := (TradingPipeline.step capacity program.pipeline
          (program.tryReceive connection answer)).1 }
      connection
      (tried ((TradingPipeline.step capacity program.pipeline
        (program.tryReceive connection answer)).1.inbound.threads
          connection).point)
    have hsix : 6 ≤ program.runWork connection := by
      simp only [runWork, hruns]
      split <;> omega
    rcases stepsLeft_receive_lt hruns hpushes answer with
      hlower | ⟨hsame, hleaves⟩
    · have hrun := runWork_tried_le
        { program with
          pipeline := (TradingPipeline.step capacity program.pipeline
            (program.tryReceive connection answer)).1 } connection
      dsimp only at hrun ⊢
      omega
    · have hrun := runWork_setRun
        { program with
          pipeline := (TradingPipeline.step capacity program.pipeline
            (program.tryReceive connection answer)).1 }
        connection (.leaving [.exchange])
      rw [hleaves] at hafter
      dsimp only at hrun ⊢
      rw [hleaves]
      simp only [List.length_singleton] at hrun
      omega
  case h_3 hruns =>
    apply setRun_stepsLeft_lt
    by_cases hstale : (program.pipeline.inbound.threads
        connection).receiver.heartbeatStale
          NetworkMessageReceiver.heartbeatTimeoutMs now = true
    · rw [if_pos hstale]
      simp [runWork, hruns, Call.heartbeatStale, Call.shutdown]
    · rw [if_neg hstale]
      simp [runWork, hruns]
  case h_4 calls hruns =>
    have hcalls : calls ≠ [] := by
      rintro rfl
      exact hlives hruns
    have hleaving := leaves_of_runs hsound.runs hruns
    have hproceeds := program.proceed_leaving hleaving
    have hshorter := proceed_length_lt hleaving hcalls
      (hsound.triggered hlatch)
    dsimp only
    generalize (program.proceed calls).1.1 = next at hproceeds ⊢
    generalize (program.proceed calls).1.2 = later at hshorter ⊢
    have hruns_eq : ∀ other,
        next.runWork other = program.runWork other := by
      intro other
      rw [runWork, runWork, hproceeds.runs, hproceeds.pipeline]
    have hsame : next.stepsLeft = program.stepsLeft := by
      rw [stepsLeft, stepsLeft, hruns_eq, hruns_eq, hproceeds.pipeline,
        mainWork, mainWork, hproceeds.main]
    rw [← hsame]
    apply setRun_stepsLeft_lt
    rw [runWork_setRun, runWork, hproceeds.runs, hruns]
    exact hshorter

theorem receive_waits {capacity : ℕ} {program : Program}
    {connection : Connection}
    (hwaits : program.Waits capacity (.receiver connection))
    (answer : Except Exception (List UInt8)) (now : UInt64) :
    (program.receive capacity connection answer now).1 = program := by
  rcases hwaits with hruns | ⟨hruns, ⟨message, ptr, count, hpoint⟩, hfull⟩
  · simp only [Program.receive, hruns, proceed]
    exact program.setRun_same hruns
  · have hblocked : InboundPipeline.ReceiverBlocked capacity connection
        program.pipeline.inbound := by
      simp only [InboundPipeline.ReceiverBlocked, hpoint]
      exact hfull
    have hsame := InboundPipeline.advance_of_blocked hblocked
    have hturn : program.tryReceive connection answer =
        .advance connection := by
      simp only [tryReceive, hpoint]
    simp only [Program.receive, hruns, hturn, TradingPipeline.step, hsame,
      hpoint, tried]
    exact program.setRun_same hruns

theorem dispatch_threads (pipeline : TradingPipeline)
    (clock : ClockReadings) :
    (pipeline.dispatch clock).1.inbound.threads =
      pipeline.inbound.threads := by
  have hinbound : pipeline.inbound.dispatch.1.threads =
      pipeline.inbound.threads := by
    unfold InboundPipeline.dispatch
    split
    case h_2 => split <;> rfl
    case h_3 => split <;> rfl
    all_goals rfl
  have hdispatches := pipeline.dispatches clock
  generalize pipeline.dispatch clock = outcome at hdispatches ⊢
  cases hdispatches with
  | pushes => rfl
  | retries => rfl
  | handles => exact hinbound
  | polls => exact hinbound

theorem dispatch_point (pipeline : TradingPipeline)
    (clock : ClockReadings) :
    (pipeline.dispatch clock).1.orderSender.point =
      pipeline.orderSender.point := by
  have hdispatches := pipeline.dispatches clock
  generalize pipeline.dispatch clock = outcome at hdispatches ⊢
  cases hdispatches <;> rfl

/-- A step that changes the pipeline but no receiver. -/
theorem stepsLeft_lt {program : Program} {pipeline : TradingPipeline}
    (hthreads : pipeline.inbound.threads = program.pipeline.inbound.threads)
    (hlower : pipeline.work < program.pipeline.work) :
    stepsLeft { program with pipeline := pipeline } < program.stepsLeft := by
  have hsteps := program.stepsLeft_pipeline .md fun other _ =>
    congrFun hthreads other
  have hrun : runWork { program with pipeline := pipeline } .md =
      program.runWork .md := by
    rw [runWork, runWork, hthreads]
  omega

theorem run_of_idle_point (answer : OrderMessage → SendAnswer)
    {thread : SenderThread} (hidle : thread.Idle) :
    ((thread.run answer).point = .returned ↔ thread.point = .returned) ∧
      ((thread.run answer).point = .terminated ↔
        thread.point = .terminated) := by
  unfold SenderThread.Idle at hidle
  cases hpoint : thread.point with
  | checking =>
      simp only [hpoint] at hidle
      simp [SenderThread.run, hpoint, hidle.1]
  | popping =>
      simp only [hpoint] at hidle
      simp [SenderThread.run, hpoint, hidle.2, BoundedFifo.pop]
  | sending message => simp only [hpoint] at hidle
  | returned => simp [SenderThread.run, hpoint]
  | terminated => simp [SenderThread.run, hpoint]

section Threads

variable {capacity : ℕ} {program : Program}

theorem dispatcher_work (clock : ClockReadings) :
    (program.Waits capacity .dispatcher →
        Alike program
          { program with pipeline := (program.pipeline.dispatch clock).1 }) ∧
      (¬ program.Waits capacity .dispatcher →
        stepsLeft
            { program with
              pipeline := (program.pipeline.dispatch clock).1 } <
          program.stepsLeft) := by
  have hwork := @TradingPipeline.dispatch_work capacity program.pipeline clock
  have hpoint := dispatch_point program.pipeline clock
  constructor
  · intro hwaits
    exact ⟨hwork.1 hwaits, by rw [hpoint], by rw [hpoint], rfl, rfl, rfl⟩
  · intro hgoes
    exact stepsLeft_lt (dispatch_threads program.pipeline clock)
      (hwork.2 hgoes)

theorem orderSender_work (answer : OrderMessage → SendAnswer) :
    (program.Waits capacity .orderSender →
        Alike program
          { program with
            pipeline.orderSender :=
              program.pipeline.orderSender.run answer }) ∧
      (¬ program.Waits capacity .orderSender →
        stepsLeft
            { program with
              pipeline.orderSender :=
                program.pipeline.orderSender.run answer } <
          program.stepsLeft) := by
  constructor
  · intro hidle
    rcases SenderThread.run_of_idle answer hidle with
      ⟨hstays, hqueue, hwork⟩
    obtain ⟨hreturned, hterminated⟩ := run_of_idle_point answer hidle
    refine ⟨⟨rfl, rfl, hqueue, iff_of_true hstays hidle, ?_⟩, hreturned,
      hterminated, rfl, rfl, rfl⟩
    simp only [TradingPipeline.work, hwork]
  · intro hgoes
    have hrun := SenderThread.work_run_lt answer hgoes
    have hlower : TradingPipeline.work
        { program.pipeline with
          orderSender := program.pipeline.orderSender.run answer } <
        program.pipeline.work := by
      simp only [TradingPipeline.work]
      omega
    exact stepsLeft_lt rfl hlower

theorem Sound.console_alike (hsound : program.Sound)
    (hmain : program.main.length ≤ 10) :
    Alike program
      { (program.proceed program.console).1.1 with
        console := (program.proceed program.console).1.2 } := by
  have hproceeds := program.proceed_leaving hsound.console
  have hlatch := hproceeds.latch
  rw [(hsound.told hmain).1] at hlatch
  generalize (program.proceed program.console).1.1 = next
    at hproceeds hlatch ⊢
  refine ⟨?_, ?_, ?_, ?_, hproceeds.runs, hproceeds.main⟩
  · rw [hproceeds.pipeline]
    exact .rfl
  · rw [hproceeds.pipeline]
  · rw [hproceeds.pipeline]
  · rw [(hsound.told hmain).1]
    exact Nat.le_zero.mp hlatch

theorem work_stop_le (thread : SenderThread) :
    thread.stop.work ≤ thread.work + 2 := by
  unfold SenderThread.work SenderThread.stop
  cases thread.point with
  | checking =>
      simp only [if_true]
      omega
  | popping =>
      simp only [if_true]
      omega
  | _ => exact Nat.le_add_right _ _

/-- A call of `main` costs less than it takes off. -/
theorem Sound.main_work (hsound : program.Sound) :
    (program.Waits capacity .main →
        Alike program
          { (program.proceed program.main).1.1 with
            main := (program.proceed program.main).1.2 }) ∧
      (¬ program.Waits capacity .main →
        stepsLeft
            { (program.proceed program.main).1.1 with
              main := (program.proceed program.main).1.2 } <
          program.stepsLeft) := by
  have hsteps := hsound.mainSteps
  generalize { (program.proceed program.main).1.1 with
    main := (program.proceed program.main).1.2 } = after at hsteps ⊢
  cases hsteps with
  | returned hmain =>
      exact ⟨fun _ => .rfl, fun hgoes => absurd (by simp [Waits, hmain])
        hgoes⟩
  | waits hmain hready =>
      exact ⟨fun _ => .rfl, fun hgoes =>
        absurd (by simpa [Waits, hmain] using hready) hgoes⟩
  | @makes call later next hmain hready hmade =>
      constructor
      · intro hwaits
        have hblocked := hwaits call (by simp [hmain])
        rw [hready] at hblocked
        contradiction
      · intro _
        have hthreads : ∀ connection,
            runWork { next with main := later } connection =
              program.runWork connection := by
          intro connection
          have hsame : next.pipeline.inbound.threads =
              program.pipeline.inbound.threads := by
            rcases hmade.pipeline with hsame | ⟨-, hstop⟩ | ⟨-, hstop⟩
            · rw [hsame]
            · rw [hstop]
            · rw [hstop]
          rw [runWork, runWork, hmade.runs, hsame]
        have hwork : next.pipeline.work ≤ program.pipeline.work +
            (if call = .stopSender then 2 else 0) := by
          rcases hmade.pipeline with hsame | ⟨-, hstop⟩ | ⟨hcall, hstop⟩
          · rw [hsame]
            omega
          · rw [hstop]
            exact Nat.le_add_right _ _
          · have hlower := work_stop_le program.pipeline.orderSender
            rw [hstop, if_pos hcall]
            simp only [TradingPipeline.work]
            omega
        have hcalls : program.mainWork =
            mainWork { next with main := later } + 1 +
              3 * (if call = .stopSender then 1 else 0) := by
          simp only [mainWork, hmain, List.length_cons, List.count_cons,
            beq_iff_eq]
          omega
        unfold stepsLeft
        rw [hthreads, hthreads, hcalls]
        by_cases hcall : call = .stopSender
        · rw [if_pos hcall] at hwork ⊢
          dsimp only
          omega
        · rw [if_neg hcall] at hwork ⊢
          dsimp only
          omega

theorem work_lt {next : Program} (hends : ¬ program.ended = true)
    (hlower : next.stepsLeft < program.stepsLeft) :
    next.work < program.work := by
  unfold work
  rw [if_neg hends]
  split <;> omega

theorem Sound.step_work (hsound : program.Sound)
    (hmain : program.main.length ≤ 10) {turn : Turn} {thread : Thread}
    (hthread : turn.thread = some thread) :
    (program.Stuck capacity thread →
        Alike program (Program.step capacity program turn).1) ∧
      (¬ program.Stuck capacity thread →
        (Program.step capacity program turn).1.work < program.work) := by
  by_cases hends : program.ended = true
  · rw [step_ended capacity hends turn]
    exact ⟨fun _ => .rfl, fun hgoes => absurd (.inl hends) hgoes⟩
  · have hwaits : program.Stuck capacity thread →
        program.Waits capacity thread := fun hstuck =>
      hstuck.resolve_left hends
    have hgoes : ¬ program.Stuck capacity thread →
        ¬ program.Waits capacity thread := fun hgoes hwaits =>
      hgoes (.inr hwaits)
    unfold Program.step
    rw [if_neg hends]
    cases turn with
    | receiver connection answer now =>
        obtain rfl := Option.some.inj hthread
        refine ⟨fun hstuck => ?_, fun hfree => ?_⟩
        · dsimp only
          rw [receive_waits (hwaits hstuck)]
          exact .rfl
        · exact work_lt hends
            (hsound.receive_work hmain (hgoes hfree) answer now)
    | dispatcher clock =>
        obtain rfl := Option.some.inj hthread
        exact ⟨fun hstuck => (dispatcher_work clock).1 (hwaits hstuck),
          fun hfree => work_lt hends
            ((dispatcher_work clock).2 (hgoes hfree))⟩
    | orderSender answer =>
        obtain rfl := Option.some.inj hthread
        exact ⟨fun hstuck => (orderSender_work _).1 (hwaits hstuck),
          fun hfree => work_lt hends ((orderSender_work _).2 (hgoes hfree))⟩
    | console input =>
        obtain rfl := Option.some.inj hthread
        refine ⟨fun _ => ?_, fun hfree => absurd trivial (hgoes hfree)⟩
        dsimp only
        split
        next => exact .rfl
        next => exact ⟨⟨rfl, rfl, rfl, Iff.rfl, rfl⟩, Iff.rfl, Iff.rfl, rfl,
          rfl, rfl⟩
        next => exact hsound.console_alike hmain
    | main =>
        obtain rfl := Option.some.inj hthread
        exact ⟨fun hstuck => hsound.main_work.1 (hwaits hstuck),
          fun hfree => work_lt hends (hsound.main_work.2 (hgoes hfree))⟩

end Threads

theorem thread_isSome (turn : Turn) :
    ∃ thread, turn.thread = some thread := by
  cases turn <;> exact ⟨_, rfl⟩

/-- Receivers that are told to stop leave their loops, and `main` joins one
thread after the other, until no thread can go on. -/
theorem shutdown_progress (capacity : ℕ) :
    FairRounds.Progress (step capacity) Turn.thread (fun _ => True)
      (fun program => program.Sound ∧ program.main.length ≤ 10)
      (fun program => ∀ thread, program.Stuck capacity thread)
      (fun thread program => program.Stuck capacity thread) work := by
  apply FairRounds.Progress.of_steps
  · rintro program turn thread ⟨hsound, hmain⟩ - hthread
    obtain ⟨halike, hlower⟩ := hsound.step_work hmain hthread
    exact ⟨fun hstuck => (halike hstuck).keeps, hlower⟩
  · intro program turn _ _ hnone
    obtain ⟨own, hown⟩ := thread_isSome turn
    rw [hnone] at hown
    contradiction
  · rintro program turn ⟨hsound, hmain⟩ -
    exact ⟨hsound.step capacity turn,
      hsound.step_main_le hmain capacity turn⟩
  · rintro program turn ⟨hsound, hmain⟩ - hstuck thread
    obtain ⟨own, hown⟩ := thread_isSome turn
    have halike := (hsound.step_work hmain hown).1 (hstuck own)
    exact (halike.stuck_iff thread).mpr (hstuck thread)
  · rintro program - hfree
    push Not at hfree
    exact hfree

/-! ## The outcomes -/

/-- Where the program comes to rest: `main` has returned; or an exception
has left the order sender; or `main` joins the dispatcher, which waits for a
message while both receivers have returned; or `main` joins a receiver,
which waits for room while the dispatcher has returned. -/
inductive Outcome (capacity : ℕ) (program : Program) : Prop
  | returned (hmain : program.main = [])
  | terminated
      (hpoint : program.pipeline.orderSender.point = .terminated)
  | dispatcher (hmain : program.main.head? = some .joinDispatcher)
      (hwaits : program.pipeline.inbound.Waits)
      (hreceivers : ∀ connection,
        program.runs connection = .leaving [])
  | receiver (connection : Connection)
      (hmain : program.main.head? = some (.joinReceiver connection))
      (hstopped : program.pipeline.inbound.dispatcher = .stopped)
      (hpushes : program.Pushes capacity connection)

section Outcome

variable {capacity : ℕ} {program : Program}
  (hends : ¬ program.ended = true)
  (hstuck : ∀ thread, program.Stuck capacity thread)
include hends hstuck

theorem waits_of_stuck (thread : Thread) : program.Waits capacity thread :=
  (hstuck thread).resolve_left hends

variable (hsound : program.Sound)
include hsound

/-- An order sender that cannot go on polls an empty queue, unless it has
been told to stop. -/
theorem sender_stuck :
    program.pipeline.orderSender.messageQueue = [] ∧
        program.pipeline.orderSender.shouldStop = false ∨
      program.pipeline.orderSender.shouldStop = true ∧
        program.pipeline.orderSender.point = .returned := by
  have hidle : program.pipeline.orderSender.Idle :=
    waits_of_stuck hends hstuck .orderSender
  unfold SenderThread.Idle at hidle
  cases hpoint : program.pipeline.orderSender.point with
  | checking =>
      simp only [hpoint] at hidle
      exact .inl ⟨hidle.2, hidle.1⟩
  | popping =>
      simp only [hpoint] at hidle
      exact .inl ⟨hidle.2, hidle.1⟩
  | sending message => simp only [hpoint] at hidle
  | returned => exact .inr ⟨hsound.obeys.sender_returned hpoint, rfl⟩
  | terminated => exact absurd (program.ended_iff.mpr (.inr hpoint)) hends

theorem outcome_joinDispatcher (hcapacity : 0 < capacity)
    (hmain : program.main = Call.main.drop 6) :
    Outcome capacity program := by
  have hready : program.ready .joinDispatcher = false :=
    waits_of_stuck hends hstuck .main _ (by rw [hmain]; rfl)
  have hruns : program.pipeline.inbound.dispatcher ≠ .stopped := by
    intro hstopped
    rw [program.ready_joinDispatcher_iff.mpr hstopped] at hready
    contradiction
  have hpolls : program.pipeline.orderSender.messageQueue = [] := by
    rcases sender_stuck hends hstuck hsound with ⟨hqueue, -⟩ | ⟨htold, -⟩
    · exact hqueue
    · have hnot := hsound.obeys.sender_told htold
      rw [hmain] at hnot
      exact absurd (by decide) hnot
  have hwaits : program.pipeline.inbound.Waits := by
    have hblocked := waits_of_stuck hends hstuck .dispatcher
    rw [Waits, TradingPipeline.Blocked] at hblocked
    split at hblocked
    · exact hblocked.resolve_right hruns
    · rw [hpolls] at hblocked
      exact absurd hblocked (by decide)
  refine .dispatcher (by rw [hmain]; rfl) hwaits fun connection => ?_
  have hreceiver := waits_of_stuck hends hstuck (.receiver connection)
  rcases hreceiver with hreturned | ⟨-, -, hfull⟩
  · exact hreturned
  · rw [hwaits.empty, List.length_nil] at hfull
    omega

theorem outcome_joinReceiver {connection : Connection} {k : ℕ}
    (hmain : program.main = Call.main.drop k) (hk : 7 ≤ k ∧ k ≤ 15)
    (hhead : (Call.main.drop k).head? = some (.joinReceiver connection)) :
    Outcome capacity program := by
  rw [← hmain] at hhead
  have hready : program.ready (.joinReceiver connection) = false :=
    waits_of_stuck hends hstuck .main _ hhead
  have hlength : program.main.length = 15 - k := by
    rw [hmain, List.length_drop]
    rfl
  have hstopped : program.pipeline.inbound.dispatcher = .stopped := by
    apply hsound.performed 7 (by omega) .joinDispatcher
    simp [Call.main, Call.shutdown]
  have hreceiver := waits_of_stuck hends hstuck (.receiver connection)
  rcases hreceiver with hreturned | hpushes
  · rw [(program.ready_joinReceiver_iff connection).mpr hreturned] at hready
    contradiction
  · exact .receiver connection hhead hstopped hpushes

theorem outcome_joinSender (hmain : program.main = Call.main.drop 14) :
    False := by
  have hready : program.ready .joinSender = false :=
    waits_of_stuck hends hstuck .main _ (by rw [hmain]; rfl)
  have htold : program.pipeline.orderSender.shouldStop = true := by
    apply hsound.performed 14 (by rw [hmain]; decide) .stopSender
    simp [Call.main, Call.shutdown]
  rcases sender_stuck hends hstuck hsound with ⟨-, hgoes⟩ | ⟨-, hpoint⟩
  · rw [hgoes] at htold
    contradiction
  · rw [program.ready_joinSender_iff.mpr hpoint] at hready
    contradiction

end Outcome

theorem outcome_of_ended {capacity : ℕ} {program : Program}
    (hends : program.ended = true) : Outcome capacity program := by
  rcases program.ended_iff.mp hends with hreturned | hpoint
  · exact .returned hreturned
  · exact .terminated hpoint

theorem exec_ended (capacity : ℕ) {program : Program}
    (hends : program.ended = true) (turns : List Turn) :
    RunHistory.exec (step capacity) program turns = program := by
  induction turns with
  | nil => rfl
  | cons turn rest ih =>
      rw [RunHistory.exec_cons, step_ended capacity hends turn]
      exact ih

theorem Sound.outcome {capacity : ℕ} (hcapacity : 0 < capacity)
    {program : Program} (hsound : program.Sound)
    (hmain : program.main.length ≤ 10)
    (hstuck : ∀ thread, program.Stuck capacity thread) :
    Outcome capacity program := by
  by_cases hends : program.ended = true
  · exact outcome_of_ended hends
  · have hcalls := hsound.main_eq_drop
    have hrest : ∀ call later, program.main = call :: later →
        program.ready call = true → False := by
      intro call later hhead hready
      have hblocked := waits_of_stuck hends hstuck .main call
        (by rw [hhead]; rfl)
      rw [hready] at hblocked
      contradiction
    have hpast : 5 ≤ 15 - program.main.length ∧
        15 - program.main.length ≤ 15 := by omega
    generalize 15 - program.main.length = k at hcalls hpast
    rcases hpast with ⟨hfirst, hlast⟩
    interval_cases k
    · exact (hrest _ _ hcalls rfl).elim
    · exact outcome_joinDispatcher hends hstuck hsound hcapacity hcalls
    · exact (hrest _ _ hcalls rfl).elim
    · exact (hrest _ _ hcalls rfl).elim
    · exact outcome_joinReceiver hends hstuck hsound hcalls (by decide) rfl
    · exact (hrest _ _ hcalls rfl).elim
    · exact (hrest _ _ hcalls rfl).elim
    · exact outcome_joinReceiver hends hstuck hsound hcalls (by decide) rfl
    · exact (hrest _ _ hcalls rfl).elim
    · exact (outcome_joinSender hends hstuck hsound hcalls).elim
    · exact .returned hcalls

/-- Once the signal is triggered, eight rounds wake `main` and shut the
receivers down, and as many more as there are steps left then bring the
program to rest. -/
theorem shutdown_outcome (wiring : Wiring)
    (turns further : List Turn) (first rest : List (List Turn))
    (htriggered :
      (after wiring turns).shutdownSignal.triggered = true)
    (hfirst : ∀ round ∈ first, FairRounds.Round Turn.thread round)
    (hwake : 7 < first.length)
    (hrest : ∀ round ∈ rest, FairRounds.Round Turn.thread round)
    (hmany : (after wiring (turns ++ first.flatten)).work < rest.length) :
    Outcome wiring.capacity
      (after wiring
        (turns ++ first.flatten ++ rest.flatten ++ further)) := by
  have hlater : ∀ before later, after wiring (before ++ later) =
      RunHistory.exec (step wiring.capacity) (after wiring before) later :=
    fun before later => RunHistory.exec_append _ _ before later
  have hsound := after_sound wiring turns
  have hwork : (after wiring turns).wakeWork < first.length := by
    have hheld := hsound.held
    have hmain := congrArg List.length hsound.main_eq_drop
    rw [List.length_drop, show Call.main.length = 15 from rfl] at hmain
    rw [ShutdownSignal.Held, if_pos htriggered] at hheld
    unfold wakeWork
    split <;> omega
  have htold : Told (after wiring (turns ++ first.flatten)) := by
    rw [hlater]
    exact (wake_progress wiring.capacity).rounds ⟨hsound, htriggered⟩
      (fun _ _ _ _ => trivial) hfirst hwork
  have hawake := after_sound wiring (turns ++ first.flatten)
  rw [List.append_assoc, hlater]
  generalize after wiring (turns ++ first.flatten) = program
    at htold hawake hmany ⊢
  rcases htold with hends | hmain
  · rw [exec_ended wiring.capacity hends]
    exact outcome_of_ended hends
  · have hprogress := shutdown_progress wiring.capacity
    have hany : ∀ later : List Turn, ∀ turn ∈ later, True :=
      fun _ _ _ => trivial
    have hrested := hprogress.exec_inv (hany rest.flatten) ⟨hawake, hmain⟩
    have hstuck := hprogress.rounds ⟨hawake, hmain⟩
      (fun round _ => hany round) hrest hmany
    have hfinal := hprogress.exec_inv (hany further) hrested
    have hstays := hprogress.exec_settled (hany further) hrested hstuck
    rw [RunHistory.exec_append]
    exact hfinal.1.outcome wiring.capacity_pos hfinal.2 hstays

open TradingPipeline (sampleWiring)

/-- The operator closes the session. -/
theorem shutdown_outcome_close :
    let turns : List Turn :=
      .console (some "CLOSE") :: List.replicate 5 (.console none)
    let round : List Turn :=
      [.receiver .md (.ok []) 0, .receiver .oe (.ok []) 0,
        .dispatcher ⟨0, 0, 0⟩, .orderSender (.ok 0), .console none, .main]
    let first := List.replicate 8 round
    let rest := List.replicate
      ((after sampleWiring (turns ++ first.flatten)).work + 1) round
    Outcome sampleWiring.capacity
      (after sampleWiring
        (turns ++ first.flatten ++ rest.flatten ++ [])) := by
  intro turns round first rest
  have hround : FairRounds.Round Turn.thread round := by
    intro thread
    cases thread with
    | receiver connection => cases connection <;> simp [round, Turn.thread]
    | _ => simp [round, Turn.thread]
  have htriggered :
      (after sampleWiring turns).shutdownSignal.triggered = true := by
    decide
  refine shutdown_outcome sampleWiring turns [] first rest htriggered ?_ ?_
    ?_ ?_
  · intro other hother
    rw [List.eq_of_mem_replicate hother]
    exact hround
  · decide
  · intro other hother
    rw [List.eq_of_mem_replicate hother]
    exact hround
  · rw [List.length_replicate]
    exact Nat.lt_succ_self _

end Program

end Slipstream
