import Slipstream.FairRounds
import Slipstream.RingCalls

/-!
# Calls return

A call of either queue ends after a few steps of its own thread, wherever
the other threads are and whatever they do in between.  Only `push` of the
queue of many producers may wait, for the lock; and a producer gives the lock
back after a few steps of its own.
-/

namespace Slipstream

open BoundedFifo RingQueue FairRounds

/-- A call of the consumer returns if the turns of the others leave the
consumer where it is, or ask it to start a call while it is in one. -/
theorem ConsumerPoint.returns {σ ι α ε : Type*}
    {step : σ → ι → σ × Option ε} {own : ι → Bool}
    {consumer : σ → ConsumerPoint α}
    (hothers : ∀ s i, own i = false →
      consumer (step s i).1 = consumer s ∨
        ∃ call : ConsumerPoint α,
          consumer (step s i).1 = call.start (consumer s))
    (hown : ∀ s i, consumer s ≠ .idle → own i = true →
      ((step s i).2 ≠ none ∧ consumer (step s i).1 = .idle) ∨
        consumer (step s i).1 ≠ .idle ∧
          (consumer (step s i).1).stepsLeft < (consumer s).stepsLeft) :
    Returns step own (fun s => consumer s ≠ .idle)
      (fun s => (consumer s).stepsLeft)
      (fun outcome => outcome.2 ≠ none ∧ consumer outcome.1 = .idle) where
  alone s i hcalling hother := by
    have hsame : consumer (step s i).1 = consumer s := by
      rcases hothers s i hother with hsame | ⟨call, hstart⟩
      · exact hsame
      · exact hstart.trans (call.start_of_calling hcalling)
    rw [hsame]
    exact ⟨hcalling, rfl⟩
  ends := hown
  positive s _ := (consumer s).stepsLeft_pos

/-! ## One producer -/

namespace SPSCQueue

def Turn.produces {α : Type*} : Turn α → Bool
  | .produce => true
  | _ => false

def Turn.consumes {α : Type*} : Turn α → Bool
  | .consume => true
  | _ => false

section Calls

variable {α : Type*} (capacity : ℕ) (moved : α → α)

/-- The producer is in a call of `push`. -/
theorem push_returns :
    Returns (step capacity moved) Turn.produces
      (fun queue => queue.producer ≠ none) pushStepsLeft
      (fun outcome => outcome.2 ≠ none ∧ outcome.1.producer = none) where
  alone queue turn hcalling hother := by
    cases turn with
    | push value =>
        cases hproducer : queue.producer with
        | none => exact absurd hproducer hcalling
        | some point =>
            simp only [step, hproducer]
            exact ⟨by simp, trivial⟩
    | produce => contradiction
    | pop => exact ⟨hcalling, rfl⟩
    | empty => exact ⟨hcalling, rfl⟩
    | consume => exact ⟨hcalling, rfl⟩
  ends queue turn hcalling hown := by
    cases turn with
    | push value => contradiction
    | pop => contradiction
    | empty => contradiction
    | consume => contradiction
    | produce =>
        by_cases hquiet : (queue.step capacity moved .produce).2 = none
        · have hless := produce_nears hcalling hquiet
          refine .inr ⟨fun hended => ?_, hless⟩
          have hfresh :
              (queue.step capacity moved .produce).1.pushStepsLeft = 5 := by
            simp only [pushStepsLeft, hended]
          have hbound := pushStepsLeft_le queue
          omega
        · exact .inl ⟨hquiet, produce_returns hquiet⟩
  positive queue hcalling := by
    cases hproducer : queue.producer with
    | none => exact absurd hproducer hcalling
    | some point =>
        simp only [pushStepsLeft, hproducer]
        exact point.stepsLeft_pos

/-- The consumer is in a call of `pop` or `empty`. -/
theorem poll_returns :
    Returns (step capacity moved) Turn.consumes
      (fun queue => queue.consumer ≠ .idle)
      (fun queue => queue.consumer.stepsLeft)
      (fun outcome => outcome.2 ≠ none ∧ outcome.1.consumer = .idle) := by
  apply ConsumerPoint.returns
  · intro queue turn hother
    cases turn with
    | push value =>
        left
        cases hproducer : queue.producer <;> simp only [step, hproducer]
    | produce => exact .inl produce_consumer
    | pop => exact .inr ⟨_, rfl⟩
    | empty => exact .inr ⟨_, rfl⟩
    | consume => contradiction
  · intro queue turn hcalling hown
    cases turn with
    | consume => exact consume_ends hcalling
    | _ => contradiction

end Calls

/-- In every run a call that is under way is decided and returns at the
latest with the fourth further step of its own thread. -/
theorem calls_return {α : Type*} (capacity : ℕ) (moved : α → α) (blank : α)
    (earlier turns : List (Turn α)) :
    let queue := after capacity moved blank earlier
    let reached := RunHistory.exec (step capacity moved) queue
    (queue.producer ≠ none → 4 ≤ turns.countP Turn.produces →
        ∃ before later, turns = before ++ .produce :: later ∧
          (∀ part, part <+: before → (reached part).producer ≠ none) ∧
          ((reached before).step capacity moved .produce).2 ≠ none ∧
          ((reached before).step capacity moved .produce).1.producer =
            none) ∧
      (queue.consumer ≠ .idle → 4 ≤ turns.countP Turn.consumes →
        ∃ before later, turns = before ++ .consume :: later ∧
          (∀ part, part <+: before → (reached part).consumer ≠ .idle) ∧
          ((reached before).step capacity moved .consume).2 ≠ none ∧
          ((reached before).step capacity moved .consume).1.consumer =
            .idle) := by
  intro queue reached
  constructor
  · intro hcalling hmany
    have hsteps : queue.pushStepsLeft ≤ 4 :=
      pushStepsLeft_le_of_calling hcalling
    obtain ⟨before, turn, later, rfl, hown, hgoes, hends⟩ :=
      (push_returns capacity moved).ends_within hcalling
        (hsteps.trans hmany)
    cases turn with
    | produce => exact ⟨before, later, rfl, hgoes, hends⟩
    | _ => contradiction
  · intro hcalling hmany
    have hsteps := ConsumerPoint.stepsLeft_le_of_calling hcalling
    obtain ⟨before, turn, later, rfl, hown, hgoes, hends⟩ :=
      (poll_returns capacity moved).ends_within hcalling
        (hsteps.trans hmany)
    cases turn with
    | consume => exact ⟨before, later, rfl, hgoes, hends⟩
    | _ => contradiction

/-- A `push` into the empty queue. -/
theorem calls_return_first :
    let turns : List (Turn ℕ) := List.replicate 4 .produce
    let reached := RunHistory.exec (step 1 id) (after 1 id 0 [.push 7])
    ∃ before later, turns = before ++ .produce :: later ∧
      (∀ part, part <+: before → (reached part).producer ≠ none) ∧
      ((reached before).step 1 id .produce).2 ≠ none ∧
      ((reached before).step 1 id .produce).1.producer = none :=
  (calls_return 1 id 0 [.push 7] (List.replicate 4 .produce)).1
    (by simp [after, step, initial]) (by decide)

end SPSCQueue

/-! ## Many producers -/

namespace MPSCQueue

section Calls

variable {P α : Type*}

def Turn.consumes : Turn P α → Bool
  | .consume => true
  | _ => false

/-- The steps of the holder of the lock until it has given it back. -/
def lockStepsLeft (holder : P) (queue : MPSCQueue P α) : ℕ :=
  match queue.producers holder with
  | .emplacing point => point.stepsLeft + 1
  | _ => 1

theorem lockStepsLeft_le (holder : P) (queue : MPSCQueue P α) :
    queue.lockStepsLeft holder ≤ 5 := by
  unfold lockStepsLeft
  split
  next point hpoint => exact Nat.succ_le_succ point.stepsLeft_le
  next => exact Nat.le_add_left 1 4

variable [DecidableEq P]

def Turn.produces (producer : P) : Turn P α → Bool
  | .produce other => decide (other = producer)
  | _ => false

/-- Only its holder gives the lock back. -/
theorem Coherent.produce_lock {capacity : ℕ} {queue : MPSCQueue P α}
    (hcoherent : queue.Coherent capacity) {holder other : P}
    (hholder : queue.producerLock = some holder) (hother : other ≠ holder) :
    (queue.produce capacity other).1.producerLock = some holder := by
  have hfree : ¬ (queue.producers other).HoldsLock := by
    intro hholds
    have hlock := (hcoherent.exclusive other).mp hholds
    rw [hholder] at hlock
    exact hother (Option.some.inj hlock).symm
  cases hpoint : queue.producers other with
  | idle => simp only [MPSCQueue.produce, hpoint, hholder]
  | lock value => simp only [MPSCQueue.produce, hpoint, hholder]
  | emplacing point =>
      rw [hpoint] at hfree
      exact absurd trivial hfree
  | unlock result =>
      rw [hpoint] at hfree
      exact absurd trivial hfree

variable (capacity : ℕ) (moved : α → α)

/-- The consumer is in a call of `pop` or `empty`. -/
theorem poll_returns :
    Returns (step capacity moved) (Turn.consumes (P := P))
      (fun queue => queue.consumer ≠ .idle)
      (fun queue => queue.consumer.stepsLeft)
      (fun outcome => outcome.2 ≠ none ∧ outcome.1.consumer = .idle) := by
  apply ConsumerPoint.returns
  · intro queue turn hother
    cases turn with
    | push producer value =>
        left
        cases hproducer : queue.producers producer <;>
          simp only [step, hproducer, setProducer]
    | produce producer => exact .inl (produce_consumer ..)
    | pop => exact .inr ⟨_, rfl⟩
    | empty => exact .inr ⟨_, rfl⟩
    | consume => contradiction
  · intro queue turn hcalling hown
    cases turn with
    | consume => exact consume_ends hcalling
    | _ => contradiction

/-- A producer has the lock. -/
theorem lock_returns (holder : P) :
    Returns (step capacity moved) (Turn.produces holder)
      (fun queue => queue.Coherent capacity ∧
        queue.producerLock = some holder)
      (lockStepsLeft holder)
      (fun outcome => outcome.1.producerLock = none) where
  alone queue turn hcalling hother := by
    rcases hcalling with ⟨hcoherent, hlock⟩
    have hnext := step_coherent moved queue turn hcoherent
    have hholds := (hcoherent.exclusive holder).mpr hlock
    have hkept : (queue.step capacity moved turn).1.producerLock =
          some holder ∧
        (queue.step capacity moved turn).1.producers holder =
          queue.producers holder := by
      cases turn with
      | push producer value =>
          cases hproducer : queue.producers producer with
          | idle =>
              have hne : holder ≠ producer := by
                rintro rfl
                rw [hproducer] at hholds
                exact hholds
              simp only [step, hproducer, setProducer,
                Function.update_of_ne hne]
              exact ⟨hlock, trivial⟩
          | _ =>
              simp only [step, hproducer]
              exact ⟨hlock, trivial⟩
      | produce producer =>
          have hne : producer ≠ holder := by
            simpa [Turn.produces] using hother
          exact ⟨hcoherent.produce_lock hlock hne,
            produce_other hne.symm⟩
      | pop => exact ⟨hlock, rfl⟩
      | empty => exact ⟨hlock, rfl⟩
      | consume => exact ⟨hlock, rfl⟩
    refine ⟨⟨hnext, hkept.1⟩, ?_⟩
    simp only [lockStepsLeft, hkept.2]
  ends queue turn hcalling hown := by
    rcases hcalling with ⟨hcoherent, hlock⟩
    have hnext := step_coherent moved queue turn hcoherent
    have hholds := (hcoherent.exclusive holder).mpr hlock
    cases turn with
    | push producer value => contradiction
    | pop => contradiction
    | empty => contradiction
    | consume => contradiction
    | produce producer =>
        obtain rfl : producer = holder := by
          simpa [Turn.produces] using hown
        cases hpoint : queue.producers producer with
        | idle => simp [hpoint, ProducerPoint.HoldsLock] at hholds
        | lock value => simp [hpoint, ProducerPoint.HoldsLock] at hholds
        | unlock result =>
            left
            simp only [step, produce, hpoint, setProducer, setLock]
        | emplacing point =>
            right
            refine ⟨⟨hnext, ?_⟩, ?_⟩
            · simp only [step, produce, hpoint, setProducer, setRing]
              exact hlock
            · simp only [lockStepsLeft, step, produce, hpoint, setProducer,
                Function.update_self]
              cases hresult : (emplace capacity queue.ring point).2 with
              | continues next =>
                  have hquiet : emplaceEvent point.value
                      (emplace capacity queue.ring point).2 = none := by
                    rw [hresult]
                    rfl
                  obtain ⟨later, hlater, hless⟩ := emplace_nears hquiet
                  rw [hresult] at hlater
                  cases hlater
                  exact Nat.succ_lt_succ hless
              | returns result =>
                  exact Nat.succ_lt_succ point.stepsLeft_pos
  positive queue _ := by
    unfold lockStepsLeft
    split <;> exact Nat.succ_pos _

/-- In every run a call of the consumer that is under way is decided and
returns at the latest with the consumer's fourth further step, and a producer
that has the lock gives it back at the latest with its own fifth. -/
theorem locked_calls_return (blank : α) (earlier turns : List (Turn P α)) :
    let queue := after capacity moved blank earlier
    let reached := RunHistory.exec (step capacity moved) queue
    (queue.consumer ≠ .idle → 4 ≤ turns.countP Turn.consumes →
        ∃ before later, turns = before ++ .consume :: later ∧
          (∀ part, part <+: before → (reached part).consumer ≠ .idle) ∧
          ((reached before).step capacity moved .consume).2 ≠ none ∧
          ((reached before).step capacity moved .consume).1.consumer =
            .idle) ∧
      ∀ holder, queue.producerLock = some holder →
        5 ≤ turns.countP (Turn.produces holder) →
        ∃ before later, turns = before ++ .produce holder :: later ∧
          (∀ part, part <+: before →
            (reached part).producerLock = some holder) ∧
          ((reached before).step capacity moved
            (.produce holder)).1.producerLock = none := by
  intro queue reached
  constructor
  · intro hcalling hmany
    have hsteps := ConsumerPoint.stepsLeft_le_of_calling hcalling
    obtain ⟨before, turn, later, rfl, hown, hgoes, hends⟩ :=
      (poll_returns capacity moved).ends_within hcalling
        (hsteps.trans hmany)
    cases turn with
    | consume => exact ⟨before, later, rfl, hgoes, hends⟩
    | _ => contradiction
  · intro holder hholder hmany
    have hcoherent : queue.Coherent capacity :=
      RunHistory.exec_invariant _
        (fun _ turn hcoherent => step_coherent moved _ turn hcoherent)
        (initial_coherent capacity blank) earlier
    obtain ⟨before, turn, later, rfl, hown, hgoes, hends⟩ :=
      (lock_returns capacity moved holder).ends_within
        ⟨hcoherent, hholder⟩
        ((queue.lockStepsLeft_le holder).trans hmany)
    cases turn with
    | produce producer =>
        obtain rfl : producer = holder := by
          simpa [Turn.produces] using hown
        exact ⟨before, later, rfl,
          fun part hpart => (hgoes part hpart).2, hends⟩
    | _ => contradiction

end Calls

/-- A producer that has taken the lock, with another one that wants it. -/
theorem locked_calls_return_contended :
    let earlier : List (Turn Bool ℕ) :=
      [.push true 7, .push false 8, .produce true, .produce false]
    let turns : List (Turn Bool ℕ) := List.replicate 5 (.produce true)
    let reached := RunHistory.exec (step 1 id) (after 1 id 0 earlier)
    ∃ before later, turns = before ++ .produce true :: later ∧
      (∀ part, part <+: before → (reached part).producerLock = some true) ∧
      ((reached before).step 1 id (.produce true)).1.producerLock = none :=
  (locked_calls_return 1 id 0
    [.push true 7, .push false 8, .produce true, .produce false]
    (List.replicate 5 (.produce true))).2 true rfl (by decide)

end MPSCQueue

end Slipstream
