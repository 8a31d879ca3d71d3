import Slipstream.RunHistory

/-!
# Bounded queues with atomic operations

A queue of bounded capacity is described by its contents, oldest value
first, and by the events that can be observed on it.  The values taken out
of such a queue are at all times a prefix of the values put in, and the
values put in but not yet taken out are its contents.

A machine implements the queue when each of its steps either shows an event
or leaves the contents as they are; its runs then are runs of the queue.
`push` and `pop` are the operations of the queue as functions, one event
each.
-/

namespace BoundedFifo

variable {α : Type*}

inductive Event (α : Type*) where
  | pushed (value : α)
  | full
  | popped (value : α)
  | empty
  | tested (isEmpty : Bool)

def Event.pushed? : Event α → Option α
  | .pushed value => some value
  | _ => none

def Event.popped? : Event α → Option α
  | .popped value => some value
  | _ => none

def pushedValues (events : List (Event α)) : List α :=
  events.filterMap Event.pushed?

def poppedValues (events : List (Event α)) : List α :=
  events.filterMap Event.popped?

theorem pushedValues_concat (events : List (Event α)) (event : Event α) :
    pushedValues (events ++ [event]) =
      pushedValues events ++ event.pushed?.toList := by
  rw [pushedValues, List.filterMap_append]
  cases event <;> rfl

theorem poppedValues_concat (events : List (Event α)) (event : Event α) :
    poppedValues (events ++ [event]) =
      poppedValues events ++ event.popped?.toList := by
  rw [poppedValues, List.filterMap_append]
  cases event <;> rfl

/-- What each event requires of the contents and makes of them. -/
inductive Step (capacity : ℕ) : List α → Event α → List α → Prop
  | pushed (contents : List α) (value : α)
      (hroom : contents.length < capacity) :
      Step capacity contents (.pushed value) (contents ++ [value])
  | full (contents : List α) (hfull : contents.length = capacity) :
      Step capacity contents .full contents
  | popped (value : α) (rest : List α) :
      Step capacity (value :: rest) (.popped value) rest
  | empty : Step capacity [] .empty []
  | tested (contents : List α) :
      Step capacity contents (.tested contents.isEmpty) contents

section Step

variable {capacity : ℕ} {contents next : List α} {value : α}

theorem step_pushed_iff :
    Step capacity contents (.pushed value) next ↔
      contents.length < capacity ∧ next = contents ++ [value] := by
  constructor
  · rintro ⟨⟩
    exact ⟨‹_›, rfl⟩
  · rintro ⟨hroom, rfl⟩
    exact .pushed contents value hroom

theorem step_full_iff :
    Step capacity contents .full next ↔
      contents.length = capacity ∧ next = contents := by
  constructor
  · rintro ⟨⟩
    exact ⟨‹_›, rfl⟩
  · rintro ⟨hfull, rfl⟩
    exact .full next hfull

theorem step_popped_iff :
    Step capacity contents (.popped value) next ↔
      contents = value :: next := by
  constructor
  · rintro ⟨⟩
    rfl
  · rintro rfl
    exact .popped value next

theorem step_empty_iff :
    Step capacity contents .empty next ↔ contents = [] ∧ next = [] := by
  constructor
  · rintro ⟨⟩
    exact ⟨rfl, rfl⟩
  · rintro ⟨rfl, rfl⟩
    exact .empty

theorem step_tested_iff {isEmpty : Bool} :
    Step capacity contents (.tested isEmpty) next ↔
      isEmpty = contents.isEmpty ∧ next = contents := by
  constructor
  · rintro ⟨⟩
    exact ⟨rfl, rfl⟩
  · rintro ⟨rfl, rfl⟩
    exact .tested next

end Step

inductive Run (capacity : ℕ) : List (Event α) → List α → Prop
  | start : Run capacity [] []
  | step {events : List (Event α)} {contents next : List α}
      {event : Event α} (hrun : Run capacity events contents)
      (hstep : Step capacity contents event next) :
      Run capacity (events ++ [event]) next

namespace Run

variable {capacity : ℕ} {events : List (Event α)} {contents : List α}

/-- No value is lost, repeated or overtaken. -/
theorem pushedValues_eq (hrun : Run capacity events contents) :
    pushedValues events = poppedValues events ++ contents := by
  induction hrun with
  | start => rfl
  | step hrun hstep ih =>
      rw [pushedValues_concat, poppedValues_concat, ih]
      cases hstep <;> simp [Event.pushed?, Event.popped?]

theorem poppedValues_prefix (hrun : Run capacity events contents) :
    poppedValues events <+: pushedValues events := by
  rw [hrun.pushedValues_eq]
  exact List.prefix_append _ _

/-- A queue that is found full holds `capacity` values. -/
theorem length_of_full {next : List α} (hrun : Run capacity events contents)
    (hstep : Step capacity contents .full next) :
    (pushedValues events).length =
      (poppedValues events).length + capacity := by
  cases hstep with
  | full _ hfull => rw [hrun.pushedValues_eq, List.length_append, hfull]

theorem popped_all_of_empty {next : List α}
    (hrun : Run capacity events contents)
    (hstep : Step capacity contents .empty next) :
    poppedValues events = pushedValues events := by
  cases hstep with
  | empty => rw [hrun.pushedValues_eq, List.append_nil]

end Run

/-! ## Implementations -/

/-- A step that shows at most one event. -/
def Moves (capacity : ℕ) (contents : List α) :
    Option (Event α) → List α → Prop
  | some event, next => Step capacity contents event next
  | none, next => next = contents

theorem Run.moves {capacity : ℕ} {events : List (Event α)}
    {contents next : List α} {event : Option (Event α)}
    (hrun : Run capacity events contents)
    (hmoves : Moves capacity contents event next) :
    Run capacity (events ++ event.toList) next := by
  cases event with
  | none =>
      obtain rfl : next = contents := hmoves
      rw [Option.toList_none, List.append_nil]
      exact hrun
  | some event => exact hrun.step hmoves

/-- Each step of the machine preserves its invariant and is a step of the
queue that its states represent. -/
structure Implements {σ ι : Type*} (capacity : ℕ)
    (step : σ → ι → σ × Option (Event α)) (Inv : σ → Prop)
    (contents : σ → List α) : Prop where
  preserved : ∀ s i, Inv s → Inv (step s i).1
  moves : ∀ s i, Inv s →
    Moves capacity (contents s) (step s i).2 (contents (step s i).1)

namespace Implements

variable {σ ι : Type*} {capacity : ℕ}
  {step : σ → ι → σ × Option (Event α)} {Inv : σ → Prop}
  {contents : σ → List α}

theorem invariant (himplements : Implements capacity step Inv contents)
    {s : σ} (hinit : Inv s) (inputs : List ι) :
    Inv (RunHistory.exec step s inputs) :=
  RunHistory.exec_invariant step himplements.preserved hinit inputs

theorem run (himplements : Implements capacity step Inv contents) {s : σ}
    (hinit : Inv s) (hempty : contents s = []) (inputs : List ι) :
    Run capacity ((RunHistory.outputs step s inputs).reduceOption)
      (contents (RunHistory.exec step s inputs)) := by
  induction inputs using List.reverseRecOn with
  | nil =>
      rw [RunHistory.exec_nil, hempty]
      exact .start
  | append_singleton earlier i ih =>
      have hinv := himplements.invariant hinit earlier
      rw [RunHistory.reduceOption_outputs_concat, RunHistory.exec_append]
      exact ih.moves (himplements.moves _ i hinv)

end Implements

/-! ## The operations -/

def push (capacity : ℕ) (contents : List α) (value : α) :
    Bool × List α :=
  if contents.length < capacity then (true, contents ++ [value])
  else (false, contents)

def pop : List α → Option α × List α
  | [] => (none, [])
  | value :: rest => (some value, rest)

end BoundedFifo
