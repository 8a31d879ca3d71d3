import Slipstream.InboundDelivery

/-!
# Stopping the dispatcher

The destructor of the dispatcher sets `shouldStop` and waits for `run` to
return.  Only the outer loop reads the flag.  The inner loop waits for a
message, and a dispatcher that waits on an empty queue needs one more push
before it comes back to the flag.
-/

namespace Slipstream

namespace InboundPipeline

open BoundedFifo

/-- What can still happen once the flag is set: a receiver tries to push a
message, or the dispatcher takes a step. -/
inductive Further where
  | push (connection : Connection) (message : MDMessage)
  | dispatch

def proceed (capacity : ℕ) (pipeline : InboundPipeline) :
    Further → InboundPipeline
  | .push connection message =>
      pipeline.setQueue
        (push capacity pipeline.inboundMessageQueue
          (connection, message)).2
  | .dispatch => pipeline.dispatch.1

/-- The dispatcher goes on alone; `none` once `run` has returned. -/
def run (pipeline : InboundPipeline) : Option InboundPipeline :=
  match pipeline.dispatcher with
  | .stopped => none
  | _ => some pipeline.dispatch.1

/-- The inner loop of `run` finds the queue empty. -/
structure Waits (pipeline : InboundPipeline) : Prop where
  testing : pipeline.dispatcher = .testing
  empty : pipeline.inboundMessageQueue = []

/-- The steps to the end of `run` when the flag is set and there is a
message to wait for. -/
def stepsLeft (pipeline : InboundPipeline) : ℕ :=
  match pipeline.dispatcher with
  | .testing => 4
  | .popping => 3
  | .handling _ _ => 2
  | .checking => 1
  | .stopped => 0

theorem dispatch_waits {pipeline : InboundPipeline}
    (hwaits : pipeline.Waits) : pipeline.dispatch.1 = pipeline := by
  simp [dispatch, hwaits.testing, hwaits.empty]

theorem dispatch_shouldStop (pipeline : InboundPipeline) :
    pipeline.dispatch.1.shouldStop = pipeline.shouldStop := by
  unfold dispatch
  split
  case h_1 => rfl
  case h_2 => split <;> rfl
  case h_3 => split <;> rfl
  case h_4 => rfl
  case h_5 => rfl

/-- With the flag set, the only way back into the inner loop is to be in
it. -/
theorem dispatch_testing {pipeline : InboundPipeline}
    (hstop : pipeline.shouldStop = true)
    (htesting : pipeline.dispatch.1.dispatcher = .testing) :
    pipeline.Waits := by
  unfold dispatch at htesting
  split at htesting
  case h_1 => simp [hstop] at htesting
  case h_2 hpoint =>
    split at htesting
    next hempty => exact ⟨hpoint, List.isEmpty_iff.mp hempty⟩
    next => contradiction
  case h_3 => split at htesting <;> contradiction
  case h_4 => contradiction
  case h_5 hpoint => simp [hpoint] at htesting

theorem dispatch_waits_iff {pipeline : InboundPipeline}
    (hstop : pipeline.shouldStop = true) :
    pipeline.dispatch.1.Waits ↔ pipeline.Waits := by
  constructor
  · intro hwaits
    exact dispatch_testing hstop hwaits.testing
  · intro hwaits
    rw [dispatch_waits hwaits]
    exact hwaits

theorem stepsLeft_dispatch_lt {pipeline : InboundPipeline}
    (hstop : pipeline.shouldStop = true) (hgoes : ¬ pipeline.Waits)
    (hruns : pipeline.dispatcher ≠ .stopped) :
    pipeline.dispatch.1.stepsLeft < pipeline.stepsLeft := by
  cases hpoint : pipeline.dispatcher with
  | checking => simp [dispatch, stepsLeft, hpoint, hstop]
  | testing =>
      have hfilled : pipeline.inboundMessageQueue ≠ [] := fun hempty =>
        hgoes ⟨hpoint, hempty⟩
      simp [dispatch, stepsLeft, hpoint, hfilled]
  | popping =>
      cases hqueue : pipeline.inboundMessageQueue with
      | nil => simp [dispatch, stepsLeft, hpoint, hqueue, pop]
      | cons entry rest =>
          simp [dispatch, stepsLeft, hpoint, hqueue, pop]
  | handling connection message => simp [dispatch, stepsLeft, hpoint]
  | stopped => exact absurd hpoint hruns

theorem run_eq_some {pipeline next : InboundPipeline}
    (hrun : pipeline.run = some next) :
    pipeline.dispatcher ≠ .stopped ∧ next = pipeline.dispatch.1 := by
  unfold run at hrun
  split at hrun
  next => contradiction
  next hruns => exact ⟨hruns, (Option.some.inj hrun).symm⟩

/-- Left alone, the dispatcher returns unless it waits. -/
theorem exits_iff_not_waits {pipeline : InboundPipeline}
    (hstop : pipeline.shouldStop = true) :
    BoundedLoop.Exits run pipeline ↔ ¬ pipeline.Waits := by
  constructor
  · intro hexits hwaits
    have hstays : ∀ current : InboundPipeline, current.Waits →
        ∃ next, current.run = some next ∧ next.Waits := by
      intro current hcurrent
      refine ⟨current.dispatch.1, ?_, ?_⟩
      · simp only [run, hcurrent.testing]
      · rwa [dispatch_waits hcurrent]
    exact BoundedLoop.not_exits_of_invariant hstays hwaits hexits
  · intro hgoes
    have hlowers : ∀ current next : InboundPipeline,
        current.shouldStop = true ∧ ¬ current.Waits →
        current.run = some next →
          (next.shouldStop = true ∧ ¬ next.Waits) ∧
            next.stepsLeft < current.stepsLeft := by
      rintro current next ⟨hflag, hcurrent⟩ hrun
      rcases run_eq_some hrun with ⟨hruns, rfl⟩
      refine ⟨⟨?_, ?_⟩, stepsLeft_dispatch_lt hflag hcurrent hruns⟩
      · rw [dispatch_shouldStop, hflag]
      · rwa [dispatch_waits_iff hflag]
    exact BoundedLoop.exits_of_measure hlowers ⟨hstop, hgoes⟩

/-! ## Further pushes -/

theorem push_not_waits {capacity : ℕ} (hcapacity : 0 < capacity)
    (pipeline : InboundPipeline) (connection : Connection)
    (message : MDMessage) :
    ¬ (pipeline.proceed capacity (.push connection message)).Waits := by
  intro hwaits
  have hempty : (push capacity pipeline.inboundMessageQueue
      (connection, message)).2 = [] := hwaits.empty
  unfold push at hempty
  split at hempty
  next => simp at hempty
  next hfull =>
    rw [show pipeline.inboundMessageQueue = [] from hempty] at hfull
    exact hfull hcapacity

theorem proceed_shouldStop (capacity : ℕ) (pipeline : InboundPipeline)
    (turn : Further) :
    (pipeline.proceed capacity turn).shouldStop = pipeline.shouldStop := by
  cases turn with
  | push connection message => rfl
  | dispatch => exact dispatch_shouldStop pipeline

section Further

variable {capacity : ℕ} {pipeline : InboundPipeline}

theorem foldl_proceed_shouldStop (hstop : pipeline.shouldStop = true)
    (further : List Further) :
    (further.foldl (proceed capacity) pipeline).shouldStop = true := by
  induction further generalizing pipeline with
  | nil => exact hstop
  | cons turn rest ih =>
      exact ih ((proceed_shouldStop capacity pipeline turn).trans hstop)

/-- A dispatcher waits at the end just when it has waited all along. -/
theorem foldl_proceed_waits_iff (hcapacity : 0 < capacity)
    (hstop : pipeline.shouldStop = true) (further : List Further) :
    (further.foldl (proceed capacity) pipeline).Waits ↔
      pipeline.Waits ∧ ∀ turn ∈ further, turn = .dispatch := by
  induction further generalizing pipeline with
  | nil => simp
  | cons turn rest ih =>
      have hflag := (proceed_shouldStop capacity pipeline turn).trans hstop
      rw [List.foldl_cons, ih hflag, List.forall_mem_cons]
      cases turn with
      | push connection message =>
          simp [push_not_waits hcapacity pipeline connection message]
      | dispatch =>
          have hsame : (pipeline.proceed capacity .dispatch).Waits ↔
              pipeline.Waits := dispatch_waits_iff hstop
          simp [hsame]

end Further

/-- Once the flag is set `run` returns after finitely many steps, unless the
dispatcher waits on an empty queue and no further push is made. -/
theorem run_returns_iff (capacity : ℕ) (hcapacity : 0 < capacity)
    (pipeline : InboundPipeline) (hstop : pipeline.shouldStop = true)
    (further : List Further) :
    BoundedLoop.Exits run (further.foldl (proceed capacity) pipeline) ↔
      ¬ (pipeline.dispatcher = .testing ∧
        pipeline.inboundMessageQueue = [] ∧
          ∀ turn ∈ further, turn = .dispatch) := by
  have hflag : (further.foldl (proceed capacity) pipeline).shouldStop =
      true := foldl_proceed_shouldStop hstop further
  rw [exits_iff_not_waits hflag, foldl_proceed_waits_iff hcapacity hstop]
  constructor
  · rintro hgoes ⟨htesting, hempty, hquiet⟩
    exact hgoes ⟨⟨htesting, hempty⟩, hquiet⟩
  · rintro hgoes ⟨⟨htesting, hempty⟩, hquiet⟩
    exact hgoes ⟨htesting, hempty, hquiet⟩

theorem run_returns_after_push :
    BoundedLoop.Exits run
      ([Further.dispatch, .push .md (.heartbeat ⟨5⟩), .dispatch].foldl
        (proceed 1024)
        (after 1024 (fun _ _ => 0) (fun _ => 0) [.dispatch, .stop])) := by
  rw [run_returns_iff 1024 (by decide) _ rfl]
  simp

/-- The flag is set while the dispatcher waits for the first message. -/
theorem run_waits_forever :
    let pipeline := after 1024 (fun _ _ => 0) (fun _ => 0) [.dispatch, .stop]
    pipeline.shouldStop = true ∧ ¬ BoundedLoop.Exits run pipeline := by
  intro pipeline
  refine ⟨rfl, ?_⟩
  rw [exits_iff_not_waits rfl, not_not]
  exact ⟨rfl, rfl⟩

/-! ## The order of the shutdown -/

/-- After the receivers have left their loops nothing refills the queue. -/
structure Deserted (pipeline : InboundPipeline) : Prop where
  waits : pipeline.Waits
  stopped : ∀ connection, (pipeline.threads connection).point = .stopped

theorem Deserted.step {pipeline : InboundPipeline}
    (hdeserted : pipeline.Deserted) (capacity : ℕ) (turn : Turn) :
    (InboundPipeline.step capacity pipeline turn).1.Deserted := by
  cases turn with
  | receive connection networkBuffer =>
      simp only [InboundPipeline.step, hdeserted.stopped connection]
      exact hdeserted
  | close connection =>
      simp only [InboundPipeline.step, hdeserted.stopped connection]
      exact hdeserted
  | advance connection =>
      simp only [InboundPipeline.step, advance,
        hdeserted.stopped connection]
      exact hdeserted
  | dispatch =>
      have hsame := dispatch_waits hdeserted.waits
      rw [InboundPipeline.step, hsame]
      exact hdeserted
  | stop => exact ⟨⟨hdeserted.waits.testing, hdeserted.waits.empty⟩,
      hdeserted.stopped⟩

theorem Deserted.never_returns {pipeline : InboundPipeline}
    (hdeserted : pipeline.Deserted) (capacity : ℕ) (turns : List Turn) :
    (RunHistory.exec (InboundPipeline.step capacity) pipeline
      turns).Waits :=
  (RunHistory.exec_invariant (motive := Deserted) _
    (fun _ turn hcurrent => hcurrent.step capacity turn) hdeserted
    turns).waits

end InboundPipeline

end Slipstream
