import Slipstream.RingQueue

/-!
# The queue of one producer and one consumer

A run is a list of turns, in any order: either thread starts a call or takes
the next step of the call it is in.  Every run is a run of a bounded queue.
A value enters that queue when its `emplace` stores `head`, and leaves it
when its `pop` stores `tail`; the two calls that fail are decided by their
loads of the other thread's index.
-/

namespace Slipstream

open BoundedFifo RingQueue

variable {α : Type*}

structure SPSCQueue (α : Type*) where
  ring : RingQueue α
  producer : Option (EmplacePoint α)
  consumer : ConsumerPoint α

namespace SPSCQueue

def initial (blank : α) : SPSCQueue α where
  ring := RingQueue.initial blank
  producer := none
  consumer := .idle

inductive Turn (α : Type*) where
  | push (value : α)
  | produce
  | pop
  | empty
  | consume

def step (capacity : ℕ) (moved : α → α) (queue : SPSCQueue α) :
    Turn α → SPSCQueue α × Option (Event α)
  | .push value =>
      match queue.producer with
      | none => ({ queue with producer := some (.loadHead value) }, none)
      | some _ => (queue, none)
  | .produce =>
      match queue.producer with
      | none => (queue, none)
      | some point =>
          let result := emplace capacity queue.ring point
          ({ queue with ring := result.1, producer := result.2.point? },
            emplaceEvent point.value result.2)
  | .pop =>
      let call := ConsumerPoint.popping .loadTail
      ({ queue with consumer := call.start queue.consumer }, none)
  | .empty =>
      let call := ConsumerPoint.testing .loadTail
      ({ queue with consumer := call.start queue.consumer }, none)
  | .consume =>
      let result := consume capacity moved queue.ring queue.consumer
      ({ queue with ring := result.1, consumer := result.2.1 },
        result.2.2)

section Run

variable (capacity : ℕ) (moved : α → α) (blank : α) (turns : List (Turn α))

def after : SPSCQueue α :=
  RunHistory.exec (step capacity moved) (initial blank) turns

def events : List (Event α) :=
  (RunHistory.outputs (step capacity moved) (initial blank)
    turns).reduceOption

/-- The values whose `emplace` has stored `head`. -/
def published : List α :=
  pushedValues (events capacity moved blank turns)

/-- The values that `pop` has returned. -/
def popped : List α :=
  poppedValues (events capacity moved blank turns)

/-- The safety of a run and of the turn that follows it.  A `push` that
returns `false` does so at its load of `tail`, a `pop` that returns nothing
at its load of `head`. -/
structure Safe : Prop where
  fifo : popped capacity moved blank turns <+:
    published capacity moved blank turns
  full : (step capacity moved (after capacity moved blank turns)
      .produce).2 = some .full →
    (published capacity moved blank turns).length =
      (popped capacity moved blank turns).length + capacity
  empty : (step capacity moved (after capacity moved blank turns)
      .consume).2 = some .empty →
    popped capacity moved blank turns = published capacity moved blank turns
  apart : ∀ value currentHead nextHead currentTail,
    (after capacity moved blank turns).producer =
      some (.writeSlot value currentHead nextHead) →
    (after capacity moved blank turns).consumer =
      .popping (.readSlot currentTail) →
    currentHead ≠ currentTail

end Run

def Coherent (capacity : ℕ) (queue : SPSCQueue α) : Prop :=
  Synchronised capacity queue.ring queue.producer queue.consumer

def contents (capacity : ℕ) (queue : SPSCQueue α) : List α :=
  queue.ring.contents capacity queue.consumer.taken

theorem initial_coherent (capacity : ℕ) (blank : α) :
    Coherent capacity (initial blank) :=
  initial_synchronised capacity blank

theorem initial_contents (capacity : ℕ) (blank : α) :
    contents capacity (initial blank) = [] := by
  simp [contents, initial, RingQueue.contents, RingQueue.initial,
    ConsumerPoint.taken, size, CyclicSegment.gap, slots]

theorem step_coherent {capacity : ℕ} (moved : α → α) (queue : SPSCQueue α)
    (turn : Turn α) (hcoherent : Coherent capacity queue) :
    Coherent capacity (step capacity moved queue turn).1 := by
  cases turn with
  | push value =>
      cases hproducer : queue.producer with
      | some point => simpa only [step, hproducer] using hcoherent
      | none =>
          simp only [step, hproducer]
          refine ⟨hcoherent.head_lt, hcoherent.tail_lt, ?_,
            hcoherent.consumer⟩
          rintro _ ⟨⟩
          trivial
  | produce =>
      cases hproducer : queue.producer with
      | none => simpa only [step, hproducer] using hcoherent
      | some point =>
          rw [Coherent, hproducer] at hcoherent
          simp only [step, hproducer]
          exact emplace_synchronised hcoherent
  | pop => exact start_synchronised trivial hcoherent
  | empty => exact start_synchronised trivial hcoherent
  | consume => exact consume_synchronised hcoherent

theorem step_moves {capacity : ℕ} (moved : α → α) (queue : SPSCQueue α)
    (turn : Turn α) (hcoherent : Coherent capacity queue) :
    Moves capacity (contents capacity queue)
      (step capacity moved queue turn).2
      (contents capacity (step capacity moved queue turn).1) := by
  cases turn with
  | push value =>
      cases hproducer : queue.producer <;>
        simp only [step, hproducer, Moves, contents]
  | produce =>
      cases hproducer : queue.producer with
      | none => simp only [step, hproducer, Moves]
      | some point =>
          rw [Coherent, hproducer] at hcoherent
          simp only [step, hproducer]
          exact emplace_moves hcoherent
  | pop => exact start_moves rfl queue.consumer
  | empty => exact start_moves rfl queue.consumer
  | consume => exact consume_moves hcoherent

theorem implements (capacity : ℕ) (moved : α → α) :
    Implements capacity (step capacity moved) (Coherent capacity)
      (contents capacity) where
  preserved := step_coherent moved
  moves := step_moves moved

section Safety

variable (capacity : ℕ) (moved : α → α) (blank : α) (turns : List (Turn α))

theorem after_coherent :
    Coherent capacity (after capacity moved blank turns) :=
  (implements capacity moved).invariant (initial_coherent capacity blank)
    turns

theorem run : Run capacity (events capacity moved blank turns)
    (contents capacity (after capacity moved blank turns)) :=
  (implements capacity moved).run (initial_coherent capacity blank)
    (initial_contents capacity blank) turns

theorem safe : Safe capacity moved blank turns := by
  have hcoherent := after_coherent capacity moved blank turns
  have hrun := run capacity moved blank turns
  have hmoves := fun turn =>
    (implements capacity moved).moves _ turn hcoherent
  constructor
  · exact hrun.poppedValues_prefix
  · intro hfull
    have hstep := hmoves .produce
    rw [hfull] at hstep
    exact hrun.length_of_full hstep
  · intro hempty
    have hstep := hmoves .consume
    rw [hempty] at hstep
    exact hrun.popped_all_of_empty hstep
  · intro value currentHead nextHead currentTail hproducer hconsumer
    rw [Coherent, hproducer, hconsumer] at hcoherent
    exact writeSlot_ne_readSlot hcoherent

end Safety

end SPSCQueue

end Slipstream
