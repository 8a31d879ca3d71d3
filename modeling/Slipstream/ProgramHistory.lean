import Slipstream.ProgramShutdown

/-!
# What happens in the program

A step of the program is a turn of its pipeline, tells the dispatcher or the
order sender to stop, or leaves the pipeline as it is.  So what the events
explain of the pipeline they explain in every state of the program, also
while the threads are being stopped and when `main` has returned.
-/

namespace Slipstream

namespace TradingPipeline

section Stop

variable {wiring : Wiring} {happened : List Happening}
  {pipeline : TradingPipeline}
  (hexplained : Explained wiring happened pipeline)
include hexplained

theorem Explained.stopDispatcher :
    Explained wiring happened
      { pipeline with inbound.shouldStop := true } := by
  have hshown : (none : Option Happening).bind Happening.inbound? =
      (pipeline.inbound.step wiring.capacity .stop).2 := rfl
  have hstop := hexplained.inbound_turn .stop hshown rfl rfl
  rw [Option.toList_none, List.append_nil] at hstop
  exact hstop

theorem Explained.stopSender :
    Explained wiring happened
      { pipeline with orderSender := pipeline.orderSender.stop } := by
  rcases hexplained.sender with ⟨passed, hsends, hpassed⟩
  exact ⟨hexplained.inbound, hexplained.session, passed, hsends.stop,
    hpassed⟩

end Stop

end TradingPipeline

namespace Program

open TradingPipeline (Happening Explained Written SendsWhole receivedOn
  handledOn sampleWiring)

/-- The turn of the pipeline that a step of the program is. -/
def pipelineTurn (program : Program) : Turn → Option TradingPipeline.Turn
  | .receiver connection answer _ =>
      match program.runs connection with
      | .receiving => some (program.tryReceive connection answer)
      | _ => none
  | .dispatcher clock => some (.dispatch clock)
  | .orderSender answer => some (.send (program.sendAnswer answer))
  | .console (some input) =>
      match program.console with
      | [] => some (.line input)
      | _ => none
  | .console none => none
  | .main => none

def happening (capacity : ℕ) (program : Program) (turn : Turn) :
    Option Happening :=
  if program.ended then none
  else (program.pipelineTurn turn).bind fun move =>
    (TradingPipeline.step capacity program.pipeline move).2

/-- The dispatcher and the order sender are told to stop, or the pipeline is
left as it is. -/
theorem MainSteps.explained {program next : Program}
    (hsteps : MainSteps program next) {wiring : Wiring}
    {happened : List Happening}
    (hexplained : Explained wiring happened program.pipeline) :
    Explained wiring happened next.pipeline := by
  cases hsteps with
  | returned hmain => exact hexplained
  | waits hmain hready => exact hexplained
  | makes hmain hready hmade =>
      rcases hmade.pipeline with hsame | ⟨-, hstop⟩ | ⟨-, hstop⟩
      · exact hsame ▸ hexplained
      · exact hstop ▸ hexplained.stopDispatcher
      · exact hstop ▸ hexplained.stopSender

section Step

variable {program : Program} (hsound : program.Sound)
include hsound

/-- A step of a thread other than `main`. -/
theorem Sound.step_pipeline (hgoes : program.ended = false) {turn : Turn}
    (hturn : turn ≠ .main) (capacity : ℕ) :
    (Program.step capacity program turn).1.pipeline =
      (program.pipelineTurn turn).elim program.pipeline fun move =>
        (TradingPipeline.step capacity program.pipeline move).1 := by
  unfold Program.step
  rw [if_neg (by simp [hgoes])]
  cases turn with
  | receiver connection answer now =>
      unfold pipelineTurn Program.receive
      dsimp only
      cases hruns : program.runs connection with
      | checking => rfl
      | receiving => rfl
      | comparing => rfl
      | leaving calls =>
          exact (program.proceed_leaving
            (leaves_of_runs hsound.runs hruns)).pipeline
  | dispatcher clock => rfl
  | orderSender answer => rfl
  | console input =>
      have hproceeds := program.proceed_leaving hsound.console
      unfold pipelineTurn
      dsimp only
      cases hconsole : program.console with
      | nil => cases input <;> rfl
      | cons call later =>
          rw [hconsole] at hproceeds
          cases input <;> exact hproceeds.pipeline
  | main => contradiction

variable {wiring : Wiring} {happened : List Happening}
  (hexplained : Explained wiring happened program.pipeline)
include hexplained

theorem Sound.step_explained (turn : Turn) :
    Explained wiring
      (happened ++ (program.happening wiring.capacity turn).toList)
      (Program.step wiring.capacity program turn).1.pipeline := by
  cases hgoes : program.ended with
  | true =>
      rw [step_ended wiring.capacity hgoes, happening, if_pos hgoes,
        Option.toList_none, List.append_nil]
      exact hexplained
  | false =>
      rw [happening, if_neg (by simp [hgoes])]
      by_cases hturn : turn = .main
      · rw [hturn, pipelineTurn, Option.bind_none, Option.toList_none,
          List.append_nil, Program.step, if_neg (by simp [hgoes])]
        exact hsound.mainSteps.explained hexplained
      · rw [hsound.step_pipeline hgoes hturn]
        cases program.pipelineTurn turn with
        | none => simpa using hexplained
        | some move => exact hexplained.step move

end Step

/-- A step with what happens in it. -/
def observe (capacity : ℕ) (program : Program) (turn : Turn) :
    Program × Option Happening :=
  ((step capacity program turn).1, program.happening capacity turn)

def happenings (wiring : Wiring) (turns : List Turn) : List Happening :=
  (RunHistory.outputs (observe wiring.capacity) (initial wiring)
    turns).reduceOption

theorem exec_observe (capacity : ℕ) (program : Program)
    (turns : List Turn) :
    RunHistory.exec (observe capacity) program turns =
      RunHistory.exec (step capacity) program turns := by
  induction turns generalizing program with
  | nil => rfl
  | cons turn rest ih => exact ih _

/-- What has happened explains the pipeline in every run of the program. -/
theorem after_explained (wiring : Wiring) (turns : List Turn) :
    Explained wiring (happenings wiring turns)
      (after wiring turns).pipeline := by
  induction turns using List.reverseRecOn with
  | nil => exact TradingPipeline.explained_initial wiring
  | append_singleton earlier turn ih =>
      have hnext := (after_sound wiring earlier).step_explained ih turn
      rw [happenings, RunHistory.reduceOption_outputs_concat, exec_observe,
        after, RunHistory.exec_append]
      exact hnext

/-- Whatever order the threads take their steps in, and whatever the system
answers: the orders given to `sendBuffer` are the first ones of a session
that takes the console lines and the handled messages one after the other,
and what is accepted of their frames is on the order connection.  The
messages handled are, on each connection, the first that its peer has
sent. -/
theorem wire_follows_session (wiring : Wiring) (turns : List Turn) :
    (∃ orders later,
        Written wiring (happenings wiring turns)
            (after wiring turns).pipeline orders later ∧
          (SendsWhole (happenings wiring turns) →
            (after wiring turns).pipeline.wire =
              orders.flatMap fun order =>
                (OrderMessage.newOrder order).frame)) ∧
      ∀ (connection : Connection) (messages : List MDMessage),
        (receivedOn connection (happenings wiring turns)).flatten <+:
            (messages.map GCMDSerialiser.frame).flatten →
          handledOn connection (happenings wiring turns) <+:
            messages.map GCMDDeserialiser.decoded := by
  have hexplained := after_explained wiring turns
  rcases hexplained.written with ⟨orders, later, hwritten⟩
  exact ⟨⟨orders, later, hwritten, hwritten.wire_of_whole⟩,
    fun _ _ hreceived => hexplained.handledOn_isPrefix hreceived⟩

/-- A trade arrives and is handled, and its order is written. -/
def sampleTurns : List Turn :=
  List.replicate 6 (.receiver .oe (.ok (GCMDSerialiser.frame
      (.trade (ExecutionEngine.sampleTrade .buy 1 90)))) 1000) ++
    List.replicate 5 (.dispatcher ⟨5, 5, 5⟩) ++
    List.replicate 3 (.orderSender (.ok 54))

theorem sampleTurns_whole :
    SendsWhole (happenings sampleWiring sampleTurns) := by
  unfold SendsWhole
  decide +kernel

theorem wire_follows_session_trade :
    (∃ orders later,
        Written sampleWiring (happenings sampleWiring sampleTurns)
            (after sampleWiring sampleTurns).pipeline orders later ∧
          (after sampleWiring sampleTurns).pipeline.wire =
            orders.flatMap (fun order =>
              (OrderMessage.newOrder order).frame) ∧
          (after sampleWiring sampleTurns).pipeline.wire.length = 54) ∧
      handledOn .oe (happenings sampleWiring sampleTurns) <+:
          [.trade (ExecutionEngine.sampleTrade .buy 1 90)] ∧
        (handledOn .oe (happenings sampleWiring sampleTurns)).length = 1 := by
  obtain ⟨⟨orders, later, hwritten, hwire⟩, hhandled⟩ :=
    wire_follows_session sampleWiring sampleTurns
  refine ⟨⟨orders, later, hwritten, hwire sampleTurns_whole,
    by decide +kernel⟩, ?_, by decide +kernel⟩
  exact hhandled .oe [.trade (ExecutionEngine.sampleTrade .buy 1 90)]
    (by decide +kernel)

end Program

end Slipstream
