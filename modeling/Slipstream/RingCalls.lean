import Slipstream.MPSCQueue

/-!
# Calls of the queues

A call of `push` publishes the value with which it was entered, at the store
that ends it, or finds the queue full.  A call of `empty` or of `pop` ends
with what it was called for.

A call takes some steps to the one that decides it.  Only a producer that
waits for the lock comes no nearer to it.
-/

namespace Slipstream

open BoundedFifo RingQueue

/-- What the slots of a ring hold at first, and what moving a value out
leaves behind. -/
structure Slots (α : Type) where
  blank : α
  moved : α → α

/-- The value that a producer is about to publish. -/
def ProducerPoint.value? {α : Type*} : ProducerPoint α → Option α
  | .idle => none
  | .lock value => some value
  | .emplacing point => some point.value
  | .unlock _ => none

namespace RingQueue

section Calls

variable {α : Type*} {capacity : ℕ} {moved : α → α} {queue : RingQueue α}

theorem emplace_value {point next : EmplacePoint α}
    (hnext : (emplace capacity queue point).2 = .continues next) :
    next.value = point.value := by
  cases point with
  | loadHead value =>
      cases hnext
      rfl
  | loadTail value currentHead =>
      rw [emplace] at hnext
      split at hnext
      next => contradiction
      next =>
        cases hnext
        rfl
  | writeSlot value currentHead nextHead =>
      cases hnext
      rfl
  | storeHead value nextHead => contradiction

theorem emplace_pushed {point : EmplacePoint α} {value : α}
    (hevent : emplaceEvent point.value (emplace capacity queue point).2 =
      some (.pushed value)) :
    value = point.value ∧
      (emplace capacity queue point).2 = .returns true := by
  cases hresult : (emplace capacity queue point).2 with
  | continues next =>
      rw [hresult] at hevent
      contradiction
  | returns result =>
      rw [hresult] at hevent
      cases result with
      | true =>
          cases hevent
          exact ⟨rfl, rfl⟩
      | false => simp [emplaceEvent] at hevent

/-- What an `emplace` shows is that the queue is full, or the value. -/
theorem emplaceEvent_cases {value : α}
    {progress : Progress (EmplacePoint α) Bool} {event : Event α}
    (hevent : emplaceEvent value progress = some event) :
    event = .full ∨ event = .pushed value := by
  cases progress with
  | continues point => contradiction
  | returns result =>
      cases result with
      | true => exact .inr (Option.some.inj hevent).symm
      | false => exact .inl (Option.some.inj hevent).symm

theorem consume_testing (capacity : ℕ) (moved : α → α)
    (queue : RingQueue α) (point : EmptyPoint) :
    (∃ next, (consume capacity moved queue (.testing point)).2 =
        (.testing next, none)) ∨
      ∃ isEmpty, (consume capacity moved queue (.testing point)).2 =
        (.idle, some (.tested isEmpty)) := by
  cases point with
  | loadTail => exact .inl ⟨_, rfl⟩
  | loadHead currentTail => exact .inr ⟨_, rfl⟩

theorem consume_popping (capacity : ℕ) (moved : α → α)
    (queue : RingQueue α) (point : PopPoint α) :
    (∃ next, (consume capacity moved queue (.popping point)).2 =
        (.popping next, none)) ∨
      (consume capacity moved queue (.popping point)).2 =
        (.idle, some .empty) ∨
      ∃ value, (consume capacity moved queue (.popping point)).2 =
        (.idle, some (.popped value)) := by
  cases point with
  | loadTail => exact .inl ⟨_, rfl⟩
  | loadHead currentTail =>
      by_cases hempty : currentTail = queue.head
      · exact .inr (.inl (by simp [consume, pop, hempty]))
      · exact .inl ⟨.readSlot currentTail, by simp [consume, pop, hempty]⟩
  | readSlot currentTail => exact .inl ⟨_, rfl⟩
  | storeTail currentTail value => exact .inr (.inr ⟨_, rfl⟩)

end Calls

end RingQueue

namespace MPSCQueue

section Calls

variable {P α : Type*} [DecidableEq P] {capacity : ℕ}
  {queue : MPSCQueue P α} {producer : P} {value : α}

/-- A producer publishes the value with which it entered `push`. -/
theorem produce_value
    (hvalue : ((queue.produce capacity producer).1.producers
      producer).value? = some value) :
    (queue.producers producer).value? = some value := by
  cases hpoint : queue.producers producer with
  | idle => simp [produce, hpoint, ProducerPoint.value?] at hvalue
  | lock entered =>
      cases hlock : queue.producerLock <;>
        simpa [produce, hpoint, hlock, setProducer, ProducerPoint.value?,
          EmplacePoint.value] using hvalue
  | emplacing point =>
      simp only [produce, hpoint, setProducer, Function.update_self]
        at hvalue
      cases hresult : (emplace capacity queue.ring point).2 with
      | continues next =>
          rw [hresult] at hvalue
          rw [ProducerPoint.value?, ← emplace_value hresult]
          exact hvalue
      | returns result =>
          rw [hresult] at hvalue
          contradiction
  | unlock result =>
      simp [produce, hpoint, setProducer, ProducerPoint.value?] at hvalue

theorem produce_pushed
    (hevent : (queue.produce capacity producer).2 = some (.pushed value)) :
    (queue.producers producer).value? = some value ∧
      ((queue.produce capacity producer).1.producers producer).value? =
        none := by
  cases hpoint : queue.producers producer with
  | idle => simp [produce, hpoint] at hevent
  | lock entered =>
      cases hlock : queue.producerLock <;>
        simp [produce, hpoint, hlock] at hevent
  | emplacing point =>
      simp only [produce, hpoint] at hevent
      obtain ⟨hvalue, hreturns⟩ := emplace_pushed hevent
      refine ⟨by rw [hvalue]; rfl, ?_⟩
      simp only [produce, hpoint, setProducer, Function.update_self,
        hreturns]
      rfl
  | unlock result => simp [produce, hpoint] at hevent

/-- A producer comes to the release of the lock with a value. -/
theorem produce_unlock {result : Bool}
    (hunlock : (queue.produce capacity producer).1.producers producer =
      .unlock result) :
    ∃ value, (queue.producers producer).value? = some value := by
  cases hpoint : queue.producers producer with
  | idle => simp [produce, hpoint] at hunlock
  | lock entered => exact ⟨entered, rfl⟩
  | emplacing point => exact ⟨point.value, rfl⟩
  | unlock result => simp [produce, hpoint, setProducer] at hunlock

theorem produce_event {event : Event α}
    (hevent : (queue.produce capacity producer).2 = some event) :
    event = .full ∨ ∃ value, event = .pushed value := by
  cases hpoint : queue.producers producer with
  | idle => simp [produce, hpoint] at hevent
  | lock entered =>
      cases hlock : queue.producerLock <;>
        simp [produce, hpoint, hlock] at hevent
  | emplacing point =>
      simp only [produce, hpoint] at hevent
      exact (emplaceEvent_cases hevent).imp_right fun hpushed =>
        ⟨point.value, hpushed⟩
  | unlock result => simp [produce, hpoint] at hevent

theorem consume_testing (capacity : ℕ) (moved : α → α)
    {point : EmptyPoint} (hconsumer : queue.consumer = .testing point) :
    ∃ ring, (∃ next, queue.step capacity moved .consume =
        ({ queue with ring := ring, consumer := .testing next }, none)) ∨
      ∃ isEmpty, queue.step capacity moved .consume =
        ({ queue with ring := ring, consumer := .idle },
          some (.tested isEmpty)) := by
  refine ⟨(consume capacity moved queue.ring queue.consumer).1, ?_⟩
  rw [step, hconsumer]
  rcases RingQueue.consume_testing capacity moved queue.ring point with
    ⟨next, hnext⟩ | ⟨isEmpty, hresult⟩
  · rw [hnext]
    exact .inl ⟨next, rfl⟩
  · rw [hresult]
    exact .inr ⟨isEmpty, rfl⟩

theorem consume_popping (capacity : ℕ) (moved : α → α)
    {point : PopPoint α} (hconsumer : queue.consumer = .popping point) :
    ∃ ring, (∃ next, queue.step capacity moved .consume =
        ({ queue with ring := ring, consumer := .popping next }, none)) ∨
      queue.step capacity moved .consume =
        ({ queue with ring := ring, consumer := .idle }, some .empty) ∨
      ∃ value, queue.step capacity moved .consume =
        ({ queue with ring := ring, consumer := .idle },
          some (.popped value)) := by
  refine ⟨(consume capacity moved queue.ring queue.consumer).1, ?_⟩
  rw [step, hconsumer]
  rcases RingQueue.consume_popping capacity moved queue.ring point with
    ⟨next, hnext⟩ | hempty | ⟨value, hpopped⟩
  · rw [hnext]
    exact .inl ⟨next, rfl⟩
  · rw [hempty]
    exact .inr (.inl rfl)
  · rw [hpopped]
    exact .inr (.inr ⟨value, rfl⟩)

theorem produce_consumer :
    (queue.produce capacity producer).1.consumer = queue.consumer := by
  cases hpoint : queue.producers producer with
  | idle => simp only [produce, hpoint]
  | lock entered =>
      cases hlock : queue.producerLock <;>
        simp only [produce, hpoint, hlock, setProducer, setLock]
  | emplacing point => simp only [produce, hpoint, setProducer, setRing]
  | unlock result => simp only [produce, hpoint, setProducer, setLock]

theorem consume_producers {moved : α → α} {next : MPSCQueue P α}
    {event : Option (Event α)}
    (hstep : queue.step capacity moved .consume = (next, event)) :
    next.producers = queue.producers ∧
      next.producerLock = queue.producerLock := by
  obtain rfl := congrArg Prod.fst hstep
  exact ⟨rfl, rfl⟩

end Calls

end MPSCQueue

namespace SPSCQueue

section Calls

variable {α : Type*} {capacity : ℕ} {moved : α → α} {queue : SPSCQueue α}

/-- The producer publishes the value with which it entered `push`. -/
theorem produce_value {next : EmplacePoint α}
    (hnext : (queue.step capacity moved .produce).1.producer = some next) :
    ∃ point, queue.producer = some point ∧ point.value = next.value := by
  cases hproducer : queue.producer with
  | none => simp [step, hproducer] at hnext
  | some point =>
      simp only [step, hproducer] at hnext
      refine ⟨point, rfl, ?_⟩
      cases hresult : (emplace capacity queue.ring point).2 with
      | continues later =>
          rw [hresult] at hnext
          cases hnext
          exact (emplace_value hresult).symm
      | returns result =>
          rw [hresult] at hnext
          contradiction

theorem produce_pushed {value : α}
    (hevent : (queue.step capacity moved .produce).2 =
      some (.pushed value)) :
    (∃ point, queue.producer = some point ∧ point.value = value) ∧
      (queue.step capacity moved .produce).1.producer = none := by
  cases hproducer : queue.producer with
  | none => simp [step, hproducer] at hevent
  | some point =>
      simp only [step, hproducer] at hevent ⊢
      obtain ⟨hvalue, hreturns⟩ := emplace_pushed hevent
      refine ⟨⟨point, rfl, hvalue.symm⟩, ?_⟩
      rw [hreturns]
      rfl

theorem produce_event {event : Event α}
    (hevent : (queue.step capacity moved .produce).2 = some event) :
    event = .full ∨ ∃ value, event = .pushed value := by
  cases hproducer : queue.producer with
  | none => simp [step, hproducer] at hevent
  | some point =>
      simp only [step, hproducer] at hevent
      exact (emplaceEvent_cases hevent).imp_right fun hpushed =>
        ⟨point.value, hpushed⟩

theorem produce_consumer :
    (queue.step capacity moved .produce).1.consumer = queue.consumer := by
  cases hproducer : queue.producer <;> simp only [step, hproducer]

theorem consume_popping (capacity : ℕ) (moved : α → α) {point : PopPoint α}
    (hconsumer : queue.consumer = .popping point) :
    ∃ ring, (∃ next, queue.step capacity moved .consume =
        ({ queue with ring := ring, consumer := .popping next }, none)) ∨
      queue.step capacity moved .consume =
        ({ queue with ring := ring, consumer := .idle }, some .empty) ∨
      ∃ value, queue.step capacity moved .consume =
        ({ queue with ring := ring, consumer := .idle },
          some (.popped value)) := by
  refine ⟨(consume capacity moved queue.ring queue.consumer).1, ?_⟩
  rw [step, hconsumer]
  rcases RingQueue.consume_popping capacity moved queue.ring point with
    ⟨next, hnext⟩ | hempty | ⟨value, hpopped⟩
  · rw [hnext]
    exact .inl ⟨next, rfl⟩
  · rw [hempty]
    exact .inr (.inl rfl)
  · rw [hpopped]
    exact .inr (.inr ⟨value, rfl⟩)

theorem consume_producer {next : SPSCQueue α} {event : Option (Event α)}
    (hstep : queue.step capacity moved .consume = (next, event)) :
    next.producer = queue.producer := by
  obtain rfl := congrArg Prod.fst hstep
  rfl

end Calls

end SPSCQueue

/-! ## Calls under way -/

namespace RingQueue

variable {α : Type*} {capacity : ℕ} {moved : α → α} {queue : RingQueue α}

def EmplacePoint.stepsLeft : EmplacePoint α → ℕ
  | .loadHead _ => 4
  | .loadTail _ _ => 3
  | .writeSlot _ _ _ => 2
  | .storeHead _ _ => 1

/-- The steps to the end of a call, which is still to be entered if there is
none. -/
def ConsumerPoint.stepsLeft : ConsumerPoint α → ℕ
  | .idle => 5
  | .popping .loadTail => 4
  | .popping (.loadHead _) => 3
  | .popping (.readSlot _) => 2
  | .popping (.storeTail _ _) => 1
  | .testing .loadTail => 2
  | .testing (.loadHead _) => 1

theorem EmplacePoint.stepsLeft_le (point : EmplacePoint α) :
    point.stepsLeft ≤ 4 := by
  cases point <;> simp [stepsLeft]

theorem ConsumerPoint.stepsLeft_le (consumer : ConsumerPoint α) :
    consumer.stepsLeft ≤ 5 := by
  rcases consumer with _ | (_ | _ | _ | _) | (_ | _) <;> simp [stepsLeft]

theorem EmplacePoint.stepsLeft_pos (point : EmplacePoint α) :
    0 < point.stepsLeft := by
  cases point <;> exact Nat.succ_pos _

theorem ConsumerPoint.stepsLeft_pos (consumer : ConsumerPoint α) :
    0 < consumer.stepsLeft := by
  rcases consumer with _ | (_ | _ | _ | _) | (_ | _) <;>
    exact Nat.succ_pos _

theorem ConsumerPoint.stepsLeft_le_of_calling {consumer : ConsumerPoint α}
    (hcalling : consumer ≠ .idle) : consumer.stepsLeft ≤ 4 := by
  rcases consumer with _ | (_ | _ | _ | _) | (_ | _)
  · exact absurd rfl hcalling
  all_goals simp [stepsLeft]

theorem ConsumerPoint.start_of_calling (call : ConsumerPoint α)
    {consumer : ConsumerPoint α} (hcalling : consumer ≠ .idle) :
    call.start consumer = consumer := by
  cases consumer with
  | idle => exact absurd rfl hcalling
  | popping point => rfl
  | testing point => rfl

theorem emplace_returns {value : α}
    {progress : Progress (EmplacePoint α) Bool}
    (hevent : emplaceEvent value progress ≠ none) :
    progress.point? = none := by
  cases progress with
  | continues point => exact absurd rfl hevent
  | returns result => rfl

theorem consume_returns {consumer : ConsumerPoint α}
    (hevent : (consume capacity moved queue consumer).2.2 ≠ none) :
    (consume capacity moved queue consumer).2.1 = .idle := by
  cases consumer with
  | idle => exact absurd rfl hevent
  | testing point =>
      rcases consume_testing capacity moved queue point with
        ⟨next, hnext⟩ | ⟨isEmpty, hresult⟩
      · simp [hnext] at hevent
      · rw [hresult]
  | popping point =>
      rcases consume_popping capacity moved queue point with
        ⟨next, hnext⟩ | hempty | ⟨value, hpopped⟩
      · simp [hnext] at hevent
      · rw [hempty]
      · rw [hpopped]

theorem emplace_nears {point : EmplacePoint α}
    (hquiet : emplaceEvent point.value (emplace capacity queue point).2 =
      none) :
    ∃ next, (emplace capacity queue point).2 = .continues next ∧
      next.stepsLeft < point.stepsLeft := by
  cases point with
  | loadHead value => exact ⟨_, rfl, Nat.lt_succ_self _⟩
  | loadTail value currentHead =>
      by_cases hfull : next capacity currentHead = queue.tail
      · simp [emplace, hfull, emplaceEvent] at hquiet
      · refine ⟨.writeSlot value currentHead (next capacity currentHead),
          ?_, Nat.lt_succ_self _⟩
        simp [emplace, hfull]
  | writeSlot value currentHead nextHead =>
      exact ⟨_, rfl, Nat.lt_succ_self _⟩
  | storeHead value nextHead => simp [emplace, emplaceEvent] at hquiet

theorem consume_nears {consumer : ConsumerPoint α}
    (hcalling : consumer ≠ .idle)
    (hquiet : (consume capacity moved queue consumer).2.2 = none) :
    (consume capacity moved queue consumer).2.1.stepsLeft <
      consumer.stepsLeft := by
  cases consumer with
  | idle => exact absurd rfl hcalling
  | testing point =>
      cases point with
      | loadTail => exact Nat.lt_succ_self _
      | loadHead currentTail => simp [consume, empty] at hquiet
  | popping point =>
      cases point with
      | loadTail => exact Nat.lt_succ_self _
      | loadHead currentTail =>
          by_cases hempty : currentTail = queue.head
          · simp [consume, pop, hempty] at hquiet
          · simp [consume, pop, hempty, ConsumerPoint.stepsLeft]
      | readSlot currentTail => exact Nat.lt_succ_self _
      | storeTail currentTail value => simp [consume, pop] at hquiet

/-- A step of the consumer ends its call or brings it nearer to its end. -/
theorem consume_ends {consumer : ConsumerPoint α}
    (hcalling : consumer ≠ .idle) :
    ((consume capacity moved queue consumer).2.2 ≠ none ∧
        (consume capacity moved queue consumer).2.1 = .idle) ∨
      (consume capacity moved queue consumer).2.1 ≠ .idle ∧
        (consume capacity moved queue consumer).2.1.stepsLeft <
          consumer.stepsLeft := by
  by_cases hquiet : (consume capacity moved queue consumer).2.2 = none
  · have hless : (consume capacity moved queue consumer).2.1.stepsLeft < _ :=
      consume_nears hcalling hquiet
    have hbound := ConsumerPoint.stepsLeft_le_of_calling hcalling
    refine .inr ⟨fun hidle => ?_, hless⟩
    rw [hidle, ConsumerPoint.stepsLeft] at hless
    omega
  · exact .inl ⟨hquiet, consume_returns hquiet⟩

end RingQueue

/-- A `push` that failed is followed by the next one. -/
def ProducerPoint.stepsLeft {α : Type*} : ProducerPoint α → ℕ
  | .idle => 6
  | .lock _ => 5
  | .emplacing point => point.stepsLeft
  | .unlock _ => 7

theorem ProducerPoint.stepsLeft_le {α : Type*} (point : ProducerPoint α) :
    point.stepsLeft ≤ 7 := by
  cases point with
  | idle => exact Nat.le_succ 6
  | lock value => simp [stepsLeft]
  | emplacing point => exact point.stepsLeft_le.trans (by decide)
  | unlock result => exact le_rfl

namespace MPSCQueue

variable {P α : Type*}

/-- The producer waits for the lock. -/
def Waits (queue : MPSCQueue P α) (producer : P) : Prop :=
  (∃ value, queue.producers producer = .lock value) ∧
    queue.producerLock ≠ none

variable [DecidableEq P] {capacity : ℕ} {queue : MPSCQueue P α}
  {producer : P}

theorem produce_waits (hwaits : queue.Waits producer) :
    queue.produce capacity producer = (queue, none) := by
  rcases hwaits with ⟨⟨value, hpoint⟩, htaken⟩
  cases hlock : queue.producerLock with
  | none => exact absurd hlock htaken
  | some holder => simp only [produce, hpoint, hlock]

theorem produce_nears (hentered : queue.producers producer ≠ .idle)
    (hfree : ¬ queue.Waits producer)
    (hquiet : (queue.produce capacity producer).2 = none) :
    ((queue.produce capacity producer).1.producers producer).stepsLeft <
      (queue.producers producer).stepsLeft := by
  cases hpoint : queue.producers producer with
  | idle => exact absurd hpoint hentered
  | lock value =>
      cases hlock : queue.producerLock with
      | some holder =>
          exact absurd ⟨⟨value, hpoint⟩, by simp [hlock]⟩ hfree
      | none =>
          simp [produce, hpoint, hlock, setProducer,
            ProducerPoint.stepsLeft, EmplacePoint.stepsLeft]
  | emplacing point =>
      simp only [produce, hpoint] at hquiet
      obtain ⟨next, hresult, hless⟩ := emplace_nears hquiet
      simp only [produce, hpoint, setProducer, Function.update_self,
        hresult]
      exact hless
  | unlock result =>
      simp [produce, hpoint, setProducer, ProducerPoint.stepsLeft]

theorem consume_nears {moved : α → α} {next : MPSCQueue P α}
    (hcalling : queue.consumer ≠ .idle)
    (hstep : queue.step capacity moved .consume = (next, none)) :
    next.consumer.stepsLeft < queue.consumer.stepsLeft := by
  have hquiet := congrArg Prod.snd hstep
  obtain rfl := congrArg Prod.fst hstep
  exact RingQueue.consume_nears hcalling hquiet

end MPSCQueue

namespace SPSCQueue

variable {α : Type*} {capacity : ℕ} {moved : α → α} {queue : SPSCQueue α}

def pushStepsLeft (queue : SPSCQueue α) : ℕ :=
  match queue.producer with
  | none => 5
  | some point => point.stepsLeft

theorem pushStepsLeft_le (queue : SPSCQueue α) :
    queue.pushStepsLeft ≤ 5 := by
  unfold pushStepsLeft
  split
  · exact le_rfl
  · exact (EmplacePoint.stepsLeft_le _).trans (by decide)

theorem pushStepsLeft_le_of_calling (hcalling : queue.producer ≠ none) :
    queue.pushStepsLeft ≤ 4 := by
  cases hproducer : queue.producer with
  | none => exact absurd hproducer hcalling
  | some point =>
      simp only [pushStepsLeft, hproducer]
      exact point.stepsLeft_le

theorem produce_nears (hentered : queue.producer ≠ none)
    (hquiet : (queue.step capacity moved .produce).2 = none) :
    (queue.step capacity moved .produce).1.pushStepsLeft <
      queue.pushStepsLeft := by
  cases hproducer : queue.producer with
  | none => exact absurd hproducer hentered
  | some point =>
      simp only [step, hproducer] at hquiet
      obtain ⟨next, hresult, hless⟩ := emplace_nears hquiet
      simp only [pushStepsLeft, step, hproducer, hresult,
        Progress.point?]
      exact hless

theorem consume_nears {next : SPSCQueue α}
    (hcalling : queue.consumer ≠ .idle)
    (hstep : queue.step capacity moved .consume = (next, none)) :
    next.consumer.stepsLeft < queue.consumer.stepsLeft := by
  have hquiet := congrArg Prod.snd hstep
  obtain rfl := congrArg Prod.fst hstep
  exact RingQueue.consume_nears hcalling hquiet

theorem produce_returns
    (hevent : (queue.step capacity moved .produce).2 ≠ none) :
    (queue.step capacity moved .produce).1.producer = none := by
  cases hproducer : queue.producer with
  | none => simp [step, hproducer] at hevent
  | some point =>
      simp only [step, hproducer] at hevent ⊢
      exact emplace_returns hevent

end SPSCQueue

end Slipstream
