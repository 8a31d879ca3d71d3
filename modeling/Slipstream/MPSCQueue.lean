import Slipstream.SPSCQueue

/-!
# The queue of many producers and one consumer

Every producer runs `emplace` under the lock, and a value is returned only
after the lock has been released.  At each time at most one producer is
between the two, so the ring is again synchronised with one producer at
most, and every run is a run of a bounded queue.

A `push` that returns `false` has decided so at its load of `tail`; the other
threads may have gone on since.
-/

namespace Slipstream

open BoundedFifo RingQueue

variable {P α : Type*}

/-- What a producer does next.  The lock guard is destroyed after the result
of `emplace` has been determined. -/
inductive ProducerPoint (α : Type*) where
  | idle
  | lock (value : α)
  | emplacing (point : EmplacePoint α)
  | unlock (result : Bool)

def ProducerPoint.emplacing? : ProducerPoint α → Option (EmplacePoint α)
  | .emplacing point => some point
  | _ => none

def ProducerPoint.HoldsLock : ProducerPoint α → Prop
  | .emplacing _ => True
  | .unlock _ => True
  | _ => False

def ProducerPoint.ofProgress :
    Progress (EmplacePoint α) Bool → ProducerPoint α
  | .continues point => .emplacing point
  | .returns result => .unlock result

structure MPSCQueue (P α : Type*) where
  ring : RingQueue α
  producerLock : Option P
  producers : P → ProducerPoint α
  consumer : ConsumerPoint α

namespace MPSCQueue

def initial (blank : α) : MPSCQueue P α where
  ring := RingQueue.initial blank
  producerLock := none
  producers := fun _ => .idle
  consumer := .idle

inductive Turn (P α : Type*) where
  | push (producer : P) (value : α)
  | produce (producer : P)
  | pop
  | empty
  | consume

/-- The `emplace` that is under way. -/
def working (queue : MPSCQueue P α) : Option (EmplacePoint α) :=
  queue.producerLock.bind fun producer =>
    (queue.producers producer).emplacing?

def contents (capacity : ℕ) (queue : MPSCQueue P α) : List α :=
  queue.ring.contents capacity queue.consumer.taken

structure Coherent (capacity : ℕ) (queue : MPSCQueue P α) : Prop where
  exclusive : ∀ producer, (queue.producers producer).HoldsLock ↔
    queue.producerLock = some producer
  synchronised : Synchronised capacity queue.ring queue.working
    queue.consumer

theorem initial_coherent (capacity : ℕ) (blank : α) :
    Coherent capacity (initial blank : MPSCQueue P α) where
  exclusive := by simp [initial, ProducerPoint.HoldsLock]
  synchronised := initial_synchronised capacity blank

theorem working_eq {queue : MPSCQueue P α} {producer : P}
    (hlock : queue.producerLock = some producer) :
    queue.working = (queue.producers producer).emplacing? := by
  rw [working, hlock]
  rfl

theorem Coherent.working_emplacing {capacity : ℕ} {queue : MPSCQueue P α}
    (hcoherent : queue.Coherent capacity) {producer : P}
    {point : EmplacePoint α}
    (hpoint : queue.producers producer = .emplacing point) :
    queue.working = some point := by
  have hlock : queue.producerLock = some producer := by
    rw [← hcoherent.exclusive, hpoint]
    trivial
  rw [working_eq hlock, hpoint]
  rfl

theorem Coherent.lock_eq {capacity : ℕ} {queue : MPSCQueue P α}
    (hcoherent : queue.Coherent capacity) {producer : P}
    (hholds : (queue.producers producer).HoldsLock) :
    queue.producerLock = some producer ∧
      ∀ other, other ≠ producer → queue.producerLock ≠ some other := by
  have hlock := (hcoherent.exclusive producer).mp hholds
  refine ⟨hlock, ?_⟩
  intro other hne heq
  rw [hlock] at heq
  exact hne (Option.some.inj heq).symm

variable [DecidableEq P]

def setProducer (queue : MPSCQueue P α) (producer : P)
    (point : ProducerPoint α) : MPSCQueue P α :=
  { queue with
    producers := Function.update queue.producers producer point }

def setLock (queue : MPSCQueue P α) (holder : Option P) : MPSCQueue P α :=
  { queue with producerLock := holder }

def setRing (queue : MPSCQueue P α) (ring : RingQueue α) : MPSCQueue P α :=
  { queue with ring := ring }

/-- The next step of a producer, which waits while another one holds the
lock. -/
def produce (capacity : ℕ) (queue : MPSCQueue P α) (producer : P) :
    MPSCQueue P α × Option (Event α) :=
  match queue.producers producer with
  | .idle => (queue, none)
  | .lock value =>
      match queue.producerLock with
      | some _ => (queue, none)
      | none =>
          let queue := queue.setLock (some producer)
          (queue.setProducer producer (.emplacing (.loadHead value)), none)
  | .emplacing point =>
      let result := emplace capacity queue.ring point
      let queue := queue.setRing result.1
      (queue.setProducer producer (.ofProgress result.2),
        emplaceEvent point.value result.2)
  | .unlock _ =>
      let queue := queue.setLock none
      (queue.setProducer producer .idle, none)

def step (capacity : ℕ) (moved : α → α) (queue : MPSCQueue P α) :
    Turn P α → MPSCQueue P α × Option (Event α)
  | .push producer value =>
      match queue.producers producer with
      | .idle => (queue.setProducer producer (.lock value), none)
      | _ => (queue, none)
  | .produce producer => queue.produce capacity producer
  | .pop =>
      let call := ConsumerPoint.popping .loadTail
      ({ queue with consumer := call.start queue.consumer }, none)
  | .empty =>
      let call := ConsumerPoint.testing .loadTail
      ({ queue with consumer := call.start queue.consumer }, none)
  | .consume =>
      let result := consume capacity moved queue.ring queue.consumer
      ({ queue with ring := result.1, consumer := result.2.1 },
        result.2.2)

/-- The result of `push`, at the step that returns it. -/
def returned (queue : MPSCQueue P α) (producer : P) : Option Bool :=
  match queue.producers producer with
  | .unlock result => some result
  | _ => none

section Run

variable (capacity : ℕ) (moved : α → α) (blank : α)
  (turns : List (Turn P α))

def after : MPSCQueue P α :=
  RunHistory.exec (step capacity moved) (initial blank) turns

def events : List (Event α) :=
  (RunHistory.outputs (step capacity moved) (initial blank)
    turns).reduceOption

def published : List α :=
  pushedValues (events capacity moved blank turns)

def popped : List α :=
  poppedValues (events capacity moved blank turns)

/-- The producer's last step so far was the load of `tail`, and the queue
held `capacity` values then. -/
def LoadedFull (producer : P) : Prop :=
  ∃ earlier later value currentHead,
    turns = earlier ++ .produce producer :: later ∧
    (∀ turn ∈ later, turn ≠ .produce producer) ∧
    (after capacity moved blank earlier).producers producer =
      .emplacing (.loadTail value currentHead) ∧
    (published capacity moved blank earlier).length =
      (popped capacity moved blank earlier).length + capacity

/-- The safety of a run and of the turn that follows it. -/
structure Safe : Prop where
  fifo : popped capacity moved blank turns <+:
    published capacity moved blank turns
  full : ∀ producer,
    (after capacity moved blank turns).returned producer = some false →
    LoadedFull capacity moved blank turns producer
  empty : (step capacity moved (after capacity moved blank turns)
      .consume).2 = some .empty →
    popped capacity moved blank turns = published capacity moved blank turns
  apart : ∀ producer value currentHead nextHead currentTail,
    (after capacity moved blank turns).producers producer =
      .emplacing (.writeSlot value currentHead nextHead) →
    (after capacity moved blank turns).consumer =
      .popping (.readSlot currentTail) →
    currentHead ≠ currentTail

end Run

/-! ## The steps of a producer -/

theorem working_setProducer {queue : MPSCQueue P α} {producer : P}
    (hlock : queue.producerLock = some producer) (point : ProducerPoint α) :
    (queue.setProducer producer point).working = point.emplacing? := by
  have hsame : (queue.setProducer producer point).producerLock =
      some producer := hlock
  rw [working_eq hsame, setProducer]
  exact congrArg ProducerPoint.emplacing? (Function.update_self _ _ _)

theorem emplacing?_ofProgress
    (progress : Progress (EmplacePoint α) Bool) :
    (ProducerPoint.ofProgress progress).emplacing? = progress.point? := by
  cases progress <;> rfl

theorem holdsLock_ofProgress (progress : Progress (EmplacePoint α) Bool) :
    (ProducerPoint.ofProgress progress).HoldsLock := by
  cases progress <;> trivial

section Step

variable {capacity : ℕ} {queue : MPSCQueue P α}
  (hcoherent : queue.Coherent capacity)
include hcoherent

/-- A producer outside the lock comes to another point outside it. -/
theorem Coherent.setProducer {producer : P} {point : ProducerPoint α}
    (hbefore : ¬ (queue.producers producer).HoldsLock)
    (hafter : ¬ point.HoldsLock) :
    (queue.setProducer producer point).Coherent capacity := by
  have hother : queue.producerLock ≠ some producer := by
    rwa [Ne, ← hcoherent.exclusive]
  have hworking : (queue.setProducer producer point).working =
      queue.working := by
    cases hlock : queue.producerLock with
    | none => simp [working, MPSCQueue.setProducer, hlock]
    | some holder =>
        have hne : holder ≠ producer := fun heq => hother (heq ▸ hlock)
        simp [working, MPSCQueue.setProducer, hlock,
          Function.update_of_ne hne]
  constructor
  · intro other
    by_cases hsame : other = producer
    · subst hsame
      simp [MPSCQueue.setProducer, hafter, hother]
    · simpa [MPSCQueue.setProducer, Function.update_of_ne hsame] using
        hcoherent.exclusive other
  · rw [hworking]
    exact hcoherent.synchronised

omit hcoherent in
/-- Only this producer held the lock before, or holds it afterwards. -/
theorem exclusive_update {producers : P → ProducerPoint α} {producer : P}
    {point : ProducerPoint α} {before holder : Option P}
    (hexclusive : ∀ other, (producers other).HoldsLock ↔
      before = some other)
    (hbefore : ∀ other, other ≠ producer → before ≠ some other)
    (hholder : ∀ other, other ≠ producer → holder ≠ some other)
    (hpoint : point.HoldsLock ↔ holder = some producer) (other : P) :
    (Function.update producers producer point other).HoldsLock ↔
      holder = some other := by
  by_cases hsame : other = producer
  · rw [hsame, Function.update_self]
    exact hpoint
  · rw [Function.update_of_ne hsame, hexclusive]
    exact iff_of_false (hbefore other hsame) (hholder other hsame)

theorem Coherent.lock {producer : P} {value : α}
    (hpoint : queue.producers producer = .lock value)
    (hfree : queue.producerLock = none) :
    (queue.produce capacity producer).1.Coherent capacity := by
  have hsync := hcoherent.synchronised
  simp only [produce, hpoint, hfree]
  constructor
  · apply exclusive_update hcoherent.exclusive
    · simp [hfree]
    · intro other hne heq
      exact hne (Option.some.inj heq).symm
    · exact iff_of_true trivial rfl
  · rw [working_setProducer rfl]
    refine ⟨hsync.head_lt, hsync.tail_lt, ?_, hsync.consumer⟩
    rintro _ ⟨⟩
    trivial

theorem Coherent.emplace {producer : P} {point : EmplacePoint α}
    (hpoint : queue.producers producer = .emplacing point) :
    (queue.produce capacity producer).1.Coherent capacity := by
  have hsync := hcoherent.synchronised
  rw [hcoherent.working_emplacing hpoint] at hsync
  rcases hcoherent.lock_eq (by rw [hpoint]; trivial) with ⟨hlock, halone⟩
  simp only [produce, hpoint]
  constructor
  · apply exclusive_update hcoherent.exclusive halone halone
    exact iff_of_true (holdsLock_ofProgress _) hlock
  · have hholds : (queue.setRing (RingQueue.emplace capacity queue.ring
        point).1).producerLock = some producer := hlock
    rw [working_setProducer hholds, emplacing?_ofProgress]
    exact emplace_synchronised hsync

theorem Coherent.unlock {producer : P} {result : Bool}
    (hpoint : queue.producers producer = .unlock result) :
    (queue.produce capacity producer).1.Coherent capacity := by
  have hsync := hcoherent.synchronised
  rcases hcoherent.lock_eq (by rw [hpoint]; trivial) with ⟨_, halone⟩
  simp only [produce, hpoint]
  constructor
  · apply exclusive_update hcoherent.exclusive halone
    · exact fun _ _ => Option.some_ne_none _ ∘ Eq.symm
    · exact iff_of_false id (Option.some_ne_none _ ∘ Eq.symm)
  · exact ⟨hsync.head_lt, hsync.tail_lt, by simp [working,
      MPSCQueue.setProducer, setLock], hsync.consumer⟩

theorem Coherent.produce (producer : P) :
    (queue.produce capacity producer).1.Coherent capacity := by
  cases hpoint : queue.producers producer with
  | idle => simpa only [MPSCQueue.produce, hpoint] using hcoherent
  | lock value =>
      cases hlock : queue.producerLock with
      | none => exact hcoherent.lock hpoint hlock
      | some holder =>
          simpa only [MPSCQueue.produce, hpoint, hlock] using hcoherent
  | emplacing point => exact hcoherent.emplace hpoint
  | unlock result => exact hcoherent.unlock hpoint

theorem Coherent.produce_moves (producer : P) :
    Moves capacity (queue.contents capacity)
      (queue.produce capacity producer).2
      ((queue.produce capacity producer).1.contents capacity) := by
  cases hpoint : queue.producers producer with
  | idle => simp only [MPSCQueue.produce, hpoint, Moves]
  | lock value =>
      cases hlock : queue.producerLock <;>
        simp only [MPSCQueue.produce, hpoint, hlock, Moves, contents,
          MPSCQueue.setProducer, setLock]
  | emplacing point =>
      have hsync := hcoherent.synchronised
      rw [hcoherent.working_emplacing hpoint] at hsync
      simp only [MPSCQueue.produce, hpoint]
      exact emplace_moves hsync
  | unlock result =>
      simp only [MPSCQueue.produce, hpoint, Moves, contents,
        MPSCQueue.setProducer, setLock]

end Step

theorem step_coherent {capacity : ℕ} (moved : α → α)
    (queue : MPSCQueue P α) (turn : Turn P α)
    (hcoherent : queue.Coherent capacity) :
    (step capacity moved queue turn).1.Coherent capacity := by
  cases turn with
  | push producer value =>
      cases hpoint : queue.producers producer with
      | idle =>
          simp only [step, hpoint]
          apply hcoherent.setProducer
          · simp [hpoint, ProducerPoint.HoldsLock]
          · exact id
      | lock value => simpa only [step, hpoint] using hcoherent
      | emplacing point => simpa only [step, hpoint] using hcoherent
      | unlock result => simpa only [step, hpoint] using hcoherent
  | produce producer => exact hcoherent.produce producer
  | pop =>
      exact ⟨hcoherent.exclusive,
        start_synchronised trivial hcoherent.synchronised⟩
  | empty =>
      exact ⟨hcoherent.exclusive,
        start_synchronised trivial hcoherent.synchronised⟩
  | consume =>
      exact ⟨hcoherent.exclusive,
        consume_synchronised hcoherent.synchronised⟩

theorem step_moves {capacity : ℕ} (moved : α → α) (queue : MPSCQueue P α)
    (turn : Turn P α) (hcoherent : queue.Coherent capacity) :
    Moves capacity (queue.contents capacity)
      (step capacity moved queue turn).2
      ((step capacity moved queue turn).1.contents capacity) := by
  cases turn with
  | push producer value =>
      cases hpoint : queue.producers producer <;>
        simp only [step, hpoint, Moves, contents, setProducer]
  | produce producer => exact hcoherent.produce_moves producer
  | pop => exact start_moves rfl queue.consumer
  | empty => exact start_moves rfl queue.consumer
  | consume => exact consume_moves hcoherent.synchronised

theorem implements (capacity : ℕ) (moved : α → α) :
    Implements capacity (step capacity moved : MPSCQueue P α → _)
      (Coherent capacity) (contents capacity) where
  preserved := step_coherent moved
  moves := step_moves moved

/-! ## The failed push -/

theorem produce_other {capacity : ℕ} {queue : MPSCQueue P α}
    {producer other : P} (hother : other ≠ producer) :
    (queue.produce capacity producer).1.producers other =
      queue.producers other := by
  cases hpoint : queue.producers producer with
  | idle => simp only [produce, hpoint]
  | lock value =>
      cases hlock : queue.producerLock <;>
        simp [produce, hpoint, hlock, setProducer, setLock,
          Function.update_of_ne hother]
  | emplacing point =>
      simp [produce, hpoint, setProducer, setRing,
        Function.update_of_ne hother]
  | unlock result =>
      simp [produce, hpoint, setProducer, setLock,
        Function.update_of_ne hother]

theorem unlock_of_step {capacity : ℕ} {moved : α → α}
    {queue : MPSCQueue P α} {turn : Turn P α} {producer : P} {result : Bool}
    (hturn : turn ≠ .produce producer)
    (hunlock : (step capacity moved queue turn).1.producers producer =
      .unlock result) :
    queue.producers producer = .unlock result := by
  cases turn with
  | push other value =>
      cases hpoint : queue.producers other with
      | idle =>
          simp only [step, hpoint, setProducer] at hunlock
          by_cases hsame : producer = other
          · rw [hsame, Function.update_self] at hunlock
            contradiction
          · rwa [Function.update_of_ne hsame] at hunlock
      | lock value => simpa only [step, hpoint] using hunlock
      | emplacing point => simpa only [step, hpoint] using hunlock
      | unlock result => simpa only [step, hpoint] using hunlock
  | produce other =>
      have hne : producer ≠ other := fun heq => hturn (heq ▸ rfl)
      rwa [step, produce_other hne] at hunlock
  | pop => exact hunlock
  | empty => exact hunlock
  | consume => exact hunlock

/-- Only a load of `tail` makes `emplace` return `false`. -/
theorem full_of_unlock_false {capacity : ℕ} {queue : MPSCQueue P α}
    {producer : P}
    (hunlock : (queue.produce capacity producer).1.producers producer =
      .unlock false) :
    ∃ value currentHead,
      queue.producers producer = .emplacing (.loadTail value currentHead) ∧
      (queue.produce capacity producer).2 = some .full := by
  cases hpoint : queue.producers producer with
  | idle => simp [produce, hpoint] at hunlock
  | lock value =>
      cases hlock : queue.producerLock <;>
        simp [produce, hpoint, hlock, setProducer] at hunlock
  | unlock result => simp [produce, hpoint, setProducer] at hunlock
  | emplacing point =>
      simp only [produce, hpoint, setProducer, Function.update_self]
        at hunlock
      cases point with
      | loadHead value => contradiction
      | writeSlot value currentHead nextHead => contradiction
      | storeHead value nextHead =>
          simp [emplace, ProducerPoint.ofProgress] at hunlock
      | loadTail value currentHead =>
          refine ⟨value, currentHead, rfl, ?_⟩
          simp only [produce, hpoint]
          rw [emplace] at hunlock ⊢
          by_cases hfull : next capacity currentHead = queue.ring.tail
          · rw [if_pos hfull]
            rfl
          · rw [if_neg hfull] at hunlock
            contradiction

section Safety

variable (capacity : ℕ) (moved : α → α) (blank : α)
  (turns : List (Turn P α))

theorem after_coherent :
    (after capacity moved blank turns).Coherent capacity :=
  (implements capacity moved).invariant (initial_coherent capacity blank)
    turns

theorem run : Run capacity (events capacity moved blank turns)
    ((after capacity moved blank turns).contents capacity) :=
  (implements capacity moved).run (initial_coherent capacity blank)
    (SPSCQueue.initial_contents capacity blank) turns

theorem loadedFull (producer : P)
    (hunlock : (after capacity moved blank turns).producers producer =
      .unlock false) :
    LoadedFull capacity moved blank turns producer := by
  induction turns using List.reverseRecOn with
  | nil => contradiction
  | append_singleton before turn ih =>
      have hafter : after capacity moved blank (before ++ [turn]) =
          (step capacity moved (after capacity moved blank before)
            turn).1 := by
        simp [after]
      rw [hafter] at hunlock
      by_cases hturn : turn = .produce producer
      · subst hturn
        obtain ⟨value, currentHead, hpoint, hfull⟩ :=
          full_of_unlock_false hunlock
        have hmoves := (after_coherent capacity moved blank
          before).produce_moves producer
        rw [hfull] at hmoves
        exact ⟨before, [], value, currentHead, rfl, by simp, hpoint,
          (run capacity moved blank before).length_of_full hmoves⟩
      · obtain ⟨earlier, later, value, currentHead, hbefore, hlater, hload⟩ :=
          ih (unlock_of_step hturn hunlock)
        refine ⟨earlier, later ++ [turn], value, currentHead, ?_, ?_, hload⟩
        · rw [hbefore, List.append_assoc, List.cons_append]
        · intro other hother
          rcases List.mem_append.mp hother with hold | hnew
          · exact hlater other hold
          · rw [List.mem_singleton.mp hnew]
            exact hturn

theorem safe : Safe capacity moved blank turns := by
  have hcoherent := after_coherent capacity moved blank turns
  have hrun := run capacity moved blank turns
  constructor
  · exact hrun.poppedValues_prefix
  · intro producer hreturned
    apply loadedFull
    rw [returned] at hreturned
    split at hreturned
    next result hpoint => rw [hpoint, Option.some.inj hreturned]
    next => contradiction
  · intro hempty
    have hstep := step_moves moved _ .consume hcoherent
    rw [hempty] at hstep
    exact hrun.popped_all_of_empty hstep
  · intro producer value currentHead nextHead currentTail hproducer hconsumer
    have hsync := hcoherent.synchronised
    rw [hcoherent.working_emplacing hproducer, hconsumer] at hsync
    exact writeSlot_ne_readSlot hsync

end Safety

end MPSCQueue

/-- Every interleaving of either queue is safe. -/
theorem queue_safety [DecidableEq P] (capacity : ℕ) (moved : α → α)
    (blank : α) :
    (∀ turns, SPSCQueue.Safe capacity moved blank turns) ∧
      ∀ turns : List (MPSCQueue.Turn P α),
        MPSCQueue.Safe capacity moved blank turns :=
  ⟨SPSCQueue.safe capacity moved blank, MPSCQueue.safe capacity moved blank⟩

end Slipstream
