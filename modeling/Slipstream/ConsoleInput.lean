import Slipstream.SessionControl

/-!
# The console loop and the end of its input

The loop of `runSession` reads a line in every round.  Once the input has
ended `getline` fails and leaves the line empty, and the loop takes this for
an unknown command.  It is left through `CLOSE` and in no other way.
-/

namespace Slipstream

/-- The console thread and the lines that it has not read yet. -/
structure Console where
  session : Session
  unread : List String

namespace Console

/-- The line that `getline` leaves in `input`. -/
def input (console : Console) : String :=
  console.unread.head?.getD ""

/-- One iteration of the loop of `runSession`. -/
def iterate (console : Console) : Option Console :=
  if console.session.control.shouldStop then none
  else
    some
      { session := (console.session.runSession console.input).1
        unread := console.unread.tail }

end Console

namespace Session

/-- A session that has not been closed. -/
structure Active (session : Session) : Prop where
  goes_on : session.control.shouldStop = false
  not_closed : session.control.currentState ≠ .close

theorem active_initial (setup : Components.Setup) :
    (initial setup).Active where
  goes_on := rfl
  not_closed := by simp [initial]

section Commands

variable {session : Session} (hactive : session.Active)
include hactive

theorem Active.handleHalt : session.handleHalt.1.Active := by
  unfold Session.handleHalt
  split
  next => exact hactive
  next => exact ⟨hactive.goes_on, by simp⟩

theorem Active.handleOpen : session.handleOpen.1.Active := by
  unfold Session.handleOpen
  split
  next => exact hactive
  next => exact ⟨hactive.goes_on, by simp⟩

/-- Every line but one leaves the session active. -/
theorem Active.runSession {input : String} (hinput : input ≠ "CLOSE") :
    (session.runSession input).1.Active := by
  unfold Session.runSession
  rw [hactive.goes_on]
  by_cases hhalt : input = "HALT"
  · simpa [hhalt] using hactive.handleHalt
  · by_cases hopen : input = "OPEN"
    · simpa [hopen] using hactive.handleOpen
    · simpa [hhalt, hopen, hinput] using hactive

theorem Active.runSession_close :
    (session.runSession "CLOSE").1.control.shouldStop = true := by
  simp [Session.runSession, Session.handleClose, hactive.goes_on,
    hactive.not_closed]

end Commands

end Session

namespace Console

/-- The loop goes on, and no line that is left will end it. -/
structure Endless (console : Console) : Prop where
  active : console.session.Active
  no_close : "CLOSE" ∉ console.unread

/-- A loop that has not been left yet still has a `CLOSE` to read. -/
def Closing (console : Console) : Prop :=
  console.session.control.shouldStop = false →
    console.session.Active ∧ "CLOSE" ∈ console.unread

theorem Endless.input_ne {console : Console} (hendless : console.Endless) :
    console.input ≠ "CLOSE" := by
  have hunread := hendless.no_close
  unfold input
  cases hlines : console.unread with
  | nil => simp
  | cons first later =>
      rw [hlines] at hunread
      exact (List.ne_of_not_mem_cons hunread).symm

theorem Endless.iterate {console : Console} (hendless : console.Endless) :
    ∃ next, console.iterate = some next ∧ next.Endless := by
  refine ⟨_, if_neg (by simp [hendless.active.goes_on]), ?_, ?_⟩
  · exact hendless.active.runSession hendless.input_ne
  · exact fun hmem => hendless.no_close (List.mem_of_mem_tail hmem)

theorem iterate_eq_some {console next : Console}
    (hiterate : console.iterate = some next) :
    console.session.control.shouldStop = false ∧
      next =
        { session := (console.session.runSession console.input).1
          unread := console.unread.tail } := by
  unfold Console.iterate at hiterate
  split at hiterate
  next => contradiction
  next hgoes =>
    exact ⟨Bool.eq_false_iff.mpr hgoes, (Option.some.inj hiterate).symm⟩

theorem Closing.iterate {console next : Console}
    (hclosing : console.Closing)
    (hiterate : console.iterate = some next) :
    next.Closing ∧ next.unread.length < console.unread.length := by
  rcases iterate_eq_some hiterate with ⟨hgoes, rfl⟩
  rcases hclosing hgoes with ⟨hactive, hmem⟩
  cases hlines : console.unread with
  | nil => simp [hlines] at hmem
  | cons first later =>
      have hinput : console.input = first := by simp [input, hlines]
      refine ⟨?_, by simp⟩
      intro hnext
      dsimp only at hnext ⊢
      rw [hinput] at hnext ⊢
      by_cases hfirst : first = "CLOSE"
      · rw [hfirst, hactive.runSession_close] at hnext
        contradiction
      · rw [hlines] at hmem
        refine ⟨hactive.runSession hfirst, ?_⟩
        exact (List.mem_cons.mp hmem).resolve_left (Ne.symm hfirst)

/-- `runSession` returns exactly if one of the lines is `CLOSE`. -/
theorem runSession_returns_iff (setup : Components.Setup)
    (inputs : List String) :
    BoundedLoop.Exits iterate ⟨Session.initial setup, inputs⟩ ↔
      "CLOSE" ∈ inputs := by
  have hactive := Session.active_initial setup
  constructor
  · intro hexits
    by_contra hmem
    exact BoundedLoop.not_exits_of_invariant
      (fun _ hcurrent => Endless.iterate hcurrent) ⟨hactive, hmem⟩ hexits
  · intro hmem
    have hlowers : ∀ current next : Console, current.Closing →
        current.iterate = some next →
          next.Closing ∧ next.unread.length < current.unread.length :=
      fun _ _ hcurrent hiterate => hcurrent.iterate hiterate
    exact BoundedLoop.exits_of_measure hlowers fun _ => ⟨hactive, hmem⟩

/-- The input ends after a session that was halted. -/
theorem runSession_reads_on :
    ¬ BoundedLoop.Exits iterate
      ⟨Session.initial Components.sampleSetup, ["HALT"]⟩ := by
  refine BoundedLoop.not_exits_of_invariant
    (fun _ hcurrent => Endless.iterate hcurrent) ⟨?_, by simp⟩
  exact Session.active_initial _

end Console

end Slipstream
