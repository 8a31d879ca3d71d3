import Slipstream.BoundedFifo
import Slipstream.CyclicSegment

/-!
# The ring of the two queues

`SPSCQueue` and `MPSCQueue` have the same slots, the same two indices and,
but for the lock of the producers, the same `emplace`, `pop` and `empty`.
Every load and store of an index and every access to a slot is one step
here.  A call that is under way is a program point together with the values
of its local variables, which may have become stale.

The ring represents a bounded queue.  Whatever points the producer and the
consumer have reached, a step of either is a step of that queue or leaves it
as it is.
-/

namespace Slipstream

structure RingQueue (α : Type*) where
  buffer : ℕ → α
  head : ℕ
  tail : ℕ

/-- A function under way: its next program point, or what it returns. -/
inductive Progress (π ρ : Type*) where
  | continues (point : π)
  | returns (result : ρ)

def Progress.point? {π ρ : Type*} : Progress π ρ → Option π
  | .continues point => some point
  | .returns _ => none

namespace RingQueue

open BoundedFifo CyclicSegment

variable {α : Type*}

def slotCount (capacity : ℕ) : ℕ :=
  capacity + 1

def next (capacity index : ℕ) : ℕ :=
  (index + 1) % slotCount capacity

def initial (blank : α) : RingQueue α where
  buffer := fun _ => blank
  head := 0
  tail := 0

def setSlot (queue : RingQueue α) (index : ℕ) (value : α) : RingQueue α :=
  { queue with buffer := Function.update queue.buffer index value }

def setHead (queue : RingQueue α) (index : ℕ) : RingQueue α :=
  { queue with head := index }

def setTail (queue : RingQueue α) (index : ℕ) : RingQueue α :=
  { queue with tail := index }

section Fields

variable (queue : RingQueue α) (index : ℕ) (value : α)

@[simp] theorem setSlot_head : (queue.setSlot index value).head =
    queue.head := rfl

@[simp] theorem setSlot_tail : (queue.setSlot index value).tail =
    queue.tail := rfl

@[simp] theorem setHead_head : (queue.setHead index).head = index := rfl

@[simp] theorem setHead_tail : (queue.setHead index).tail =
    queue.tail := rfl

@[simp] theorem setHead_buffer : (queue.setHead index).buffer =
    queue.buffer := rfl

@[simp] theorem setTail_head : (queue.setTail index).head =
    queue.head := rfl

@[simp] theorem setTail_tail : (queue.setTail index).tail = index := rfl

@[simp] theorem setTail_buffer : (queue.setTail index).buffer =
    queue.buffer := rfl

end Fields

/-! ## The code -/

/-- What `emplace` does next. -/
inductive EmplacePoint (α : Type*) where
  | loadHead (value : α)
  | loadTail (value : α) (currentHead : ℕ)
  | writeSlot (value : α) (currentHead nextHead : ℕ)
  | storeHead (value : α) (nextHead : ℕ)

def EmplacePoint.value : EmplacePoint α → α
  | .loadHead value => value
  | .loadTail value _ => value
  | .writeSlot value _ _ => value
  | .storeHead value _ => value

def emplace (capacity : ℕ) (queue : RingQueue α) :
    EmplacePoint α → RingQueue α × Progress (EmplacePoint α) Bool
  | .loadHead value => (queue, .continues (.loadTail value queue.head))
  | .loadTail value currentHead =>
      let nextHead := next capacity currentHead
      if nextHead = queue.tail then (queue, .returns false)
      else (queue, .continues (.writeSlot value currentHead nextHead))
  | .writeSlot value currentHead nextHead =>
      (queue.setSlot currentHead value,
        .continues (.storeHead value nextHead))
  | .storeHead _ nextHead => (queue.setHead nextHead, .returns true)

/-- What `pop` does next. -/
inductive PopPoint (α : Type*) where
  | loadTail
  | loadHead (currentTail : ℕ)
  | readSlot (currentTail : ℕ)
  | storeTail (currentTail : ℕ) (value : α)

/-- Moving a value out of a slot leaves `moved value` behind. -/
def pop (capacity : ℕ) (moved : α → α) (queue : RingQueue α) :
    PopPoint α → RingQueue α × Progress (PopPoint α) (Option α)
  | .loadTail => (queue, .continues (.loadHead queue.tail))
  | .loadHead currentTail =>
      if currentTail = queue.head then (queue, .returns none)
      else (queue, .continues (.readSlot currentTail))
  | .readSlot currentTail =>
      let value := queue.buffer currentTail
      (queue.setSlot currentTail (moved value),
        .continues (.storeTail currentTail value))
  | .storeTail currentTail value =>
      (queue.setTail (next capacity currentTail), .returns (some value))

/-- What `empty` does next. -/
inductive EmptyPoint where
  | loadTail
  | loadHead (currentTail : ℕ)

def empty (queue : RingQueue α) : EmptyPoint → Progress EmptyPoint Bool
  | .loadTail => .continues (.loadHead queue.tail)
  | .loadHead currentTail => .returns (currentTail = queue.head)

inductive ConsumerPoint (α : Type*) where
  | idle
  | popping (point : PopPoint α)
  | testing (point : EmptyPoint)

/-- A consumer that is in a call starts no other one. -/
def ConsumerPoint.start (call : ConsumerPoint α) :
    ConsumerPoint α → ConsumerPoint α
  | .idle => call
  | .popping point => .popping point
  | .testing point => .testing point

/-- The consumer's next step, in whichever call it is. -/
def consume (capacity : ℕ) (moved : α → α) (queue : RingQueue α) :
    ConsumerPoint α → RingQueue α × ConsumerPoint α × Option (Event α)
  | .idle => (queue, .idle, none)
  | .popping point =>
      match pop capacity moved queue point with
      | (queue, .continues point) => (queue, .popping point, none)
      | (queue, .returns none) => (queue, .idle, some .empty)
      | (queue, .returns (some value)) => (queue, .idle, some (.popped value))
  | .testing point =>
      match empty queue point with
      | .continues point => (queue, .testing point, none)
      | .returns isEmpty => (queue, .idle, some (.tested isEmpty))

/-- What an `emplace` of `value` shows at a step. -/
def emplaceEvent (value : α) :
    Progress (EmplacePoint α) Bool → Option (Event α)
  | .continues _ => none
  | .returns true => some (.pushed value)
  | .returns false => some .full

/-! ## Between the indices -/

/-- Number of values that are published and not yet released. -/
def size (capacity : ℕ) (queue : RingQueue α) : ℕ :=
  gap (slotCount capacity) queue.tail queue.head

/-- The slots from `start` on that hold `count` values. -/
def slots (capacity : ℕ) (queue : RingQueue α) (start count : ℕ) : List α :=
  segment (slotCount capacity) queue.buffer start count

/-- The value that a `pop` has moved out of its slot while `tail` is still
to be stored. -/
def ConsumerPoint.taken : ConsumerPoint α → Option α
  | .popping (.storeTail _ value) => some value
  | _ => none

def contents (capacity : ℕ) (queue : RingQueue α) : Option α → List α
  | none => queue.slots capacity queue.tail (queue.size capacity)
  | some value =>
      value :: queue.slots capacity (next capacity queue.tail)
        (queue.size capacity - 1)

/-- What a producer may rely on at each point. -/
def EmplacePoint.Fits (capacity : ℕ) (queue : RingQueue α) :
    EmplacePoint α → Prop
  | .loadHead _ => True
  | .loadTail _ currentHead => currentHead = queue.head
  | .writeSlot _ currentHead nextHead =>
      currentHead = queue.head ∧ nextHead = next capacity queue.head ∧
        queue.size capacity < capacity
  | .storeHead value nextHead =>
      nextHead = next capacity queue.head ∧
        queue.size capacity < capacity ∧ queue.buffer queue.head = value

def ConsumerPoint.Fits (queue : RingQueue α) : ConsumerPoint α → Prop
  | .popping (.loadHead currentTail) => currentTail = queue.tail
  | .popping (.readSlot currentTail) =>
      currentTail = queue.tail ∧ queue.tail ≠ queue.head
  | .popping (.storeTail currentTail _) =>
      currentTail = queue.tail ∧ queue.tail ≠ queue.head
  | .testing (.loadHead currentTail) => currentTail = queue.tail
  | _ => True

structure Synchronised (capacity : ℕ) (queue : RingQueue α)
    (producer : Option (EmplacePoint α)) (consumer : ConsumerPoint α) :
    Prop where
  head_lt : queue.head < slotCount capacity
  tail_lt : queue.tail < slotCount capacity
  producer : ∀ point ∈ producer, point.Fits capacity queue
  consumer : consumer.Fits queue

theorem ConsumerPoint.Fits.nonempty {queue : RingQueue α}
    {consumer : ConsumerPoint α} (hfits : consumer.Fits queue) {value : α}
    (htaken : consumer.taken = some value) : queue.tail ≠ queue.head := by
  match consumer, htaken with
  | .popping (.storeTail _ _), _ => exact hfits.2

theorem initial_synchronised (capacity : ℕ) (blank : α) :
    Synchronised capacity (initial blank) none .idle where
  head_lt := Nat.succ_pos capacity
  tail_lt := Nat.succ_pos capacity
  producer := by simp
  consumer := trivial

section Indices

variable {capacity : ℕ} {queue : RingQueue α}

theorem next_lt (capacity index : ℕ) :
    next capacity index < slotCount capacity :=
  Nat.mod_lt _ (Nat.succ_pos capacity)

@[simp] theorem length_slots (start count : ℕ) :
    (queue.slots capacity start count).length = count :=
  length_segment _ _ _ _

variable (hhead : queue.head < slotCount capacity)
  (htail : queue.tail < slotCount capacity)
include hhead htail

theorem size_le : queue.size capacity ≤ capacity :=
  Nat.le_of_lt_succ (gap_lt htail hhead)

omit hhead in
theorem size_eq_zero_iff :
    queue.size capacity = 0 ↔ queue.tail = queue.head :=
  gap_eq_zero_iff htail

theorem size_storeHead (hroom : queue.size capacity < capacity) :
    (queue.setHead (next capacity queue.head)).size capacity =
      queue.size capacity + 1 := by
  have hgap := gap_next_stop htail hhead
  have hfree : gap (slotCount capacity) queue.tail queue.head + 1 <
      slotCount capacity := Nat.succ_lt_succ hroom
  rwa [if_pos hfree] at hgap

/-- The producer finds no free slot exactly when the queue is full. -/
theorem next_head_eq_tail_iff :
    next capacity queue.head = queue.tail ↔
      queue.size capacity = capacity := by
  have hgap : gap (slotCount capacity) queue.tail
      (next capacity queue.head) =
        if queue.size capacity + 1 < slotCount capacity
        then queue.size capacity + 1 else 0 := gap_next_stop htail hhead
  have hle := size_le hhead htail
  rw [eq_comm, ← gap_eq_zero_iff htail, hgap]
  by_cases hfree : queue.size capacity + 1 < slotCount capacity
  · have hroom : queue.size capacity < capacity :=
      Nat.lt_of_succ_lt_succ hfree
    rw [if_pos hfree]
    omega
  · have hfull : ¬ queue.size capacity < capacity := fun hroom =>
      hfree (Nat.succ_lt_succ hroom)
    rw [if_neg hfree]
    omega

theorem size_storeTail (hvalue : queue.tail ≠ queue.head) :
    (queue.setTail (next capacity queue.tail)).size capacity + 1 =
      queue.size capacity :=
  gap_next_start htail hhead hvalue

theorem head_eq : (queue.tail + queue.size capacity) % slotCount capacity =
    queue.head :=
  start_add_gap htail hhead

end Indices

/-! ## The values of the queue -/

section Contents

variable {capacity : ℕ} {queue : RingQueue α}

/-- A slot just past the occupied ones can be written. -/
theorem slots_setSlot {start count index : ℕ} (value : α)
    (hstart : start < slotCount capacity) (hcount : count ≤ capacity)
    (hindex : index = (start + count) % slotCount capacity) :
    (queue.setSlot index value).slots capacity start count =
      queue.slots capacity start count := by
  apply segment_update
  · intro k hk
    rw [hindex]
    exact index_ne_of_lt hk (Nat.lt_succ_of_le hcount)
  · exact hstart

theorem slots_concat {start count : ℕ} (hstart : start < slotCount capacity)
    (hend : (start + count) % slotCount capacity = queue.head) :
    queue.slots capacity start (count + 1) =
      queue.slots capacity start count ++ [queue.buffer queue.head] := by
  rw [← hend]
  exact segment_concat hstart queue.buffer count

variable (hhead : queue.head < slotCount capacity)
  (htail : queue.tail < slotCount capacity)
include hhead htail

/-- The slots that stay occupied when the oldest is released. -/
theorem rest_of_nonempty (hvalue : queue.tail ≠ queue.head) :
    ∃ rest, queue.size capacity = rest + 1 ∧
      (queue.setTail (next capacity queue.tail)).size capacity = rest ∧
      (next capacity queue.tail + rest) % slotCount capacity =
        queue.head := by
  have hrest := size_storeTail hhead htail hvalue
  refine ⟨_, hrest.symm, rfl, ?_⟩
  exact start_add_gap (next_lt capacity queue.tail) hhead

theorem length_contents {taken : Option α}
    (htaken : ∀ value ∈ taken, queue.tail ≠ queue.head) :
    (queue.contents capacity taken).length = queue.size capacity := by
  cases taken with
  | none => exact length_slots _ _
  | some oldest =>
      obtain ⟨rest, hsize, _, _⟩ :=
        rest_of_nonempty hhead htail (htaken oldest rfl)
      rw [contents, List.length_cons, length_slots, hsize]
      rfl

theorem contents_write_head {taken : Option α}
    (htaken : ∀ value ∈ taken, queue.tail ≠ queue.head) (value : α) :
    (queue.setSlot queue.head value).contents capacity taken =
      queue.contents capacity taken := by
  have hle := size_le hhead htail
  cases taken with
  | none => exact slots_setSlot value htail hle (head_eq hhead htail).symm
  | some oldest =>
      obtain ⟨rest, hsize, _, hend⟩ :=
        rest_of_nonempty hhead htail (htaken oldest rfl)
      have hrest : queue.size capacity - 1 = rest := by omega
      have hkept : (queue.setSlot queue.head value).slots capacity
          (next capacity queue.tail) rest =
            queue.slots capacity (next capacity queue.tail) rest :=
        slots_setSlot value (next_lt capacity queue.tail) (by omega)
          hend.symm
      rw [← hrest] at hkept
      exact congrArg (oldest :: ·) hkept

/-- Storing `head` publishes the slot under it. -/
theorem contents_setHead (hroom : queue.size capacity < capacity)
    {taken : Option α}
    (htaken : ∀ value ∈ taken, queue.tail ≠ queue.head) :
    (queue.setHead (next capacity queue.head)).contents capacity taken =
      queue.contents capacity taken ++ [queue.buffer queue.head] := by
  have hsize := size_storeHead hhead htail hroom
  cases taken with
  | none =>
      rw [contents, contents, hsize]
      exact slots_concat htail (head_eq hhead htail)
  | some oldest =>
      obtain ⟨rest, hbefore, _, hend⟩ :=
        rest_of_nonempty hhead htail (htaken oldest rfl)
      rw [contents, contents, hsize, hbefore]
      exact congrArg (oldest :: ·)
        (slots_concat (next_lt capacity queue.tail) hend)

/-- Taking the oldest value out of its slot does not change the queue. -/
theorem contents_take (hvalue : queue.tail ≠ queue.head) (left : α) :
    (queue.setSlot queue.tail left).contents capacity
        (some (queue.buffer queue.tail)) =
      queue.contents capacity none := by
  obtain ⟨rest, hsize, _, _⟩ := rest_of_nonempty hhead htail hvalue
  have hle := size_le hhead htail
  have hkept : (queue.setSlot queue.tail left).slots capacity
      (next capacity queue.tail) rest =
        queue.slots capacity (next capacity queue.tail) rest := by
    apply segment_update
    · intro k hk
      have hlater : (queue.tail + 0) % slotCount capacity ≠
          (queue.tail + (k + 1)) % slotCount capacity :=
        index_ne_of_lt (Nat.succ_pos k) (Nat.lt_succ_of_le (by omega))
      rw [Nat.add_zero, Nat.mod_eq_of_lt htail] at hlater
      rw [next, Nat.mod_add_mod, Nat.add_right_comm]
      exact hlater.symm
    · exact next_lt capacity queue.tail
  have hsame : (queue.setSlot queue.tail left).size capacity =
      rest + 1 := hsize
  rw [contents, contents, hsame, hsize]
  exact congrArg (queue.buffer queue.tail :: ·) hkept

/-- Storing `tail` releases the oldest value. -/
theorem contents_release (hvalue : queue.tail ≠ queue.head) (oldest : α) :
    queue.contents capacity (some oldest) =
      oldest :: (queue.setTail (next capacity queue.tail)).contents capacity
        none := by
  obtain ⟨rest, hsize, hrest, _⟩ := rest_of_nonempty hhead htail hvalue
  rw [contents, contents, hrest, hsize]
  rfl

end Contents

/-! ## The producer's steps -/

section Producer

variable {capacity : ℕ} {queue : RingQueue α} {point : EmplacePoint α}
  {consumer : ConsumerPoint α}

theorem ConsumerPoint.Fits.setHead (hfits : consumer.Fits queue)
    {index : ℕ} (hnonempty : queue.tail ≠ index) :
    consumer.Fits (queue.setHead index) := by
  match consumer, hfits with
  | .idle, _ => trivial
  | .popping .loadTail, _ => trivial
  | .popping (.loadHead _), hstale => exact hstale
  | .popping (.readSlot _), ⟨hstale, _⟩ => exact ⟨hstale, hnonempty⟩
  | .popping (.storeTail _ _), ⟨hstale, _⟩ => exact ⟨hstale, hnonempty⟩
  | .testing .loadTail, _ => trivial
  | .testing (.loadHead _), hstale => exact hstale

theorem tail_ne_next_head
    (hsync : Synchronised capacity queue (some point) consumer)
    (hroom : queue.size capacity < capacity) :
    queue.tail ≠ next capacity queue.head := by
  intro hsame
  have hfull := (next_head_eq_tail_iff hsync.head_lt hsync.tail_lt).mp
    hsame.symm
  omega

theorem emplace_synchronised
    (hsync : Synchronised capacity queue (some point) consumer) :
    Synchronised capacity (emplace capacity queue point).1
      (emplace capacity queue point).2.point? consumer := by
  have hfits := hsync.producer point rfl
  cases point with
  | loadHead value =>
      refine ⟨hsync.head_lt, hsync.tail_lt, ?_, hsync.consumer⟩
      rintro _ ⟨⟩
      rfl
  | loadTail value currentHead =>
      rw [EmplacePoint.Fits] at hfits
      rw [emplace, hfits]
      by_cases hfull : next capacity queue.head = queue.tail
      · rw [if_pos hfull]
        exact ⟨hsync.head_lt, hsync.tail_lt, by simp [Progress.point?],
          hsync.consumer⟩
      · rw [if_neg hfull]
        have hle := size_le hsync.head_lt hsync.tail_lt
        rw [next_head_eq_tail_iff hsync.head_lt hsync.tail_lt] at hfull
        have hroom : queue.size capacity < capacity := by omega
        refine ⟨hsync.head_lt, hsync.tail_lt, ?_, hsync.consumer⟩
        rintro _ ⟨⟩
        exact ⟨rfl, rfl, hroom⟩
  | writeSlot value currentHead nextHead =>
      rcases hfits with ⟨rfl, rfl, hroom⟩
      constructor
      · exact hsync.head_lt
      · exact hsync.tail_lt
      · rintro _ ⟨⟩
        exact ⟨rfl, hroom, Function.update_self _ _ _⟩
      · exact hsync.consumer
  | storeHead value nextHead =>
      rcases hfits with ⟨rfl, hroom, _⟩
      exact ⟨next_lt capacity queue.head, hsync.tail_lt,
        by simp [emplace, Progress.point?],
        hsync.consumer.setHead (tail_ne_next_head hsync hroom)⟩

theorem emplace_moves
    (hsync : Synchronised capacity queue (some point) consumer) :
    Moves capacity (queue.contents capacity consumer.taken)
      (emplaceEvent point.value (emplace capacity queue point).2)
      ((emplace capacity queue point).1.contents capacity
        consumer.taken) := by
  have hfits := hsync.producer point rfl
  have htaken : ∀ value ∈ consumer.taken, queue.tail ≠ queue.head :=
    fun _ => hsync.consumer.nonempty
  have hlength := length_contents hsync.head_lt hsync.tail_lt htaken
  cases point with
  | loadHead value => rfl
  | loadTail value currentHead =>
      rw [EmplacePoint.Fits] at hfits
      rw [emplace, hfits]
      by_cases hfull : next capacity queue.head = queue.tail
      · rw [if_pos hfull]
        rw [next_head_eq_tail_iff hsync.head_lt hsync.tail_lt] at hfull
        exact .full _ (hlength.trans hfull)
      · rw [if_neg hfull]
        rfl
  | writeSlot value currentHead nextHead =>
      rcases hfits with ⟨rfl, _, _⟩
      exact contents_write_head hsync.head_lt hsync.tail_lt htaken value
  | storeHead value nextHead =>
      rcases hfits with ⟨rfl, hroom, hslot⟩
      have hpublished := contents_setHead hsync.head_lt hsync.tail_lt hroom
        htaken
      rw [hslot] at hpublished
      rw [emplace, hpublished]
      exact .pushed _ value (by rwa [hlength])

end Producer

/-! ## The consumer's steps -/

section Consumer

variable {capacity : ℕ} {moved : α → α} {queue : RingQueue α}
  {producer : Option (EmplacePoint α)} {consumer : ConsumerPoint α}

theorem start_synchronised {call : ConsumerPoint α}
    (hcall : call.Fits queue)
    (hsync : Synchronised capacity queue producer consumer) :
    Synchronised capacity queue producer (call.start consumer) := by
  cases consumer with
  | idle =>
      exact ⟨hsync.head_lt, hsync.tail_lt, hsync.producer, hcall⟩
  | popping point => exact hsync
  | testing point => exact hsync

theorem taken_start {call : ConsumerPoint α} (hcall : call.taken = none)
    (consumer : ConsumerPoint α) :
    (call.start consumer).taken = consumer.taken := by
  cases consumer with
  | idle => exact hcall
  | popping point => rfl
  | testing point => rfl

theorem start_moves {call : ConsumerPoint α} (hcall : call.taken = none)
    (consumer : ConsumerPoint α) :
    Moves capacity (queue.contents capacity consumer.taken) none
      (queue.contents capacity (call.start consumer).taken) := by
  rw [Moves, taken_start hcall]

theorem consume_synchronised
    (hsync : Synchronised capacity queue producer consumer) :
    Synchronised capacity (consume capacity moved queue consumer).1
      producer (consume capacity moved queue consumer).2.1 := by
  have hfits := hsync.consumer
  match consumer, hfits with
  | .idle, _ => exact hsync
  | .testing .loadTail, _ =>
      exact ⟨hsync.head_lt, hsync.tail_lt, hsync.producer, rfl⟩
  | .testing (.loadHead _), _ =>
      exact ⟨hsync.head_lt, hsync.tail_lt, hsync.producer, trivial⟩
  | .popping .loadTail, _ =>
      exact ⟨hsync.head_lt, hsync.tail_lt, hsync.producer, rfl⟩
  | .popping (.loadHead currentTail), hstale =>
      rw [ConsumerPoint.Fits] at hstale
      rw [consume, pop, hstale]
      by_cases hempty : queue.tail = queue.head
      · rw [if_pos hempty]
        exact ⟨hsync.head_lt, hsync.tail_lt, hsync.producer, trivial⟩
      · rw [if_neg hempty]
        exact ⟨hsync.head_lt, hsync.tail_lt, hsync.producer, rfl, hempty⟩
  | .popping (.readSlot currentTail), ⟨hstale, hvalue⟩ =>
      subst hstale
      refine ⟨hsync.head_lt, hsync.tail_lt, ?_, rfl, hvalue⟩
      intro point hpoint
      have hpointFits := hsync.producer point hpoint
      cases point with
      | loadHead value => trivial
      | loadTail value currentHead => exact hpointFits
      | writeSlot value currentHead nextHead => exact hpointFits
      | storeHead value nextHead =>
          rcases hpointFits with ⟨hnext, hroom, hslot⟩
          refine ⟨hnext, hroom, ?_⟩
          exact (Function.update_of_ne hvalue.symm _ _).trans hslot
  | .popping (.storeTail currentTail value), ⟨hstale, hvalue⟩ =>
      subst hstale
      refine ⟨hsync.head_lt, next_lt capacity queue.tail, ?_, trivial⟩
      have hrest := size_storeTail hsync.head_lt hsync.tail_lt hvalue
      intro point hpoint
      have hpointFits := hsync.producer point hpoint
      cases point with
      | loadHead value => trivial
      | loadTail value currentHead => exact hpointFits
      | writeSlot value currentHead nextHead =>
          rcases hpointFits with ⟨hhead, hnext, hroom⟩
          exact ⟨hhead, hnext, by simp [consume, pop]; omega⟩
      | storeHead value nextHead =>
          rcases hpointFits with ⟨hnext, hroom, hslot⟩
          exact ⟨hnext, by simp [consume, pop]; omega, hslot⟩

theorem consume_moves
    (hsync : Synchronised capacity queue producer consumer) :
    Moves capacity (queue.contents capacity consumer.taken)
      (consume capacity moved queue consumer).2.2
      ((consume capacity moved queue consumer).1.contents capacity
        (consume capacity moved queue consumer).2.1.taken) := by
  have hlength : (queue.contents capacity none).length =
      queue.size capacity :=
    length_contents hsync.head_lt hsync.tail_lt (by simp)
  have hzero : queue.contents capacity none = [] ↔
      queue.tail = queue.head := by
    rw [← List.length_eq_zero_iff, hlength, size_eq_zero_iff hsync.tail_lt]
  have hfits := hsync.consumer
  match consumer, hfits with
  | .idle, _ => rfl
  | .testing .loadTail, _ => rfl
  | .testing (.loadHead currentTail), hstale =>
      rw [ConsumerPoint.Fits] at hstale
      subst hstale
      have hanswer : decide (queue.tail = queue.head) =
          (queue.contents capacity none).isEmpty := by
        rw [Bool.eq_iff_iff, decide_eq_true_iff, List.isEmpty_iff, hzero]
      simp only [consume, empty, ConsumerPoint.taken, hanswer]
      exact .tested _
  | .popping .loadTail, _ => rfl
  | .popping (.loadHead currentTail), hstale =>
      rw [ConsumerPoint.Fits] at hstale
      rw [consume, pop, hstale]
      by_cases hempty : queue.tail = queue.head
      · rw [if_pos hempty]
        simp only [ConsumerPoint.taken, hzero.mpr hempty]
        exact .empty
      · rw [if_neg hempty]
        rfl
  | .popping (.readSlot currentTail), ⟨hstale, hvalue⟩ =>
      subst hstale
      exact contents_take hsync.head_lt hsync.tail_lt hvalue _
  | .popping (.storeTail currentTail value), ⟨hstale, hvalue⟩ =>
      subst hstale
      simp only [ConsumerPoint.taken]
      rw [contents_release hsync.head_lt hsync.tail_lt hvalue]
      exact .popped value _

end Consumer

/-- The producer is never about to write the slot that the consumer is about
to read. -/
theorem writeSlot_ne_readSlot {capacity : ℕ} {queue : RingQueue α}
    {value : α} {currentHead nextHead currentTail : ℕ}
    (hsync : Synchronised capacity queue
      (some (.writeSlot value currentHead nextHead))
      (.popping (.readSlot currentTail))) :
    currentHead ≠ currentTail := by
  rcases hsync.producer _ rfl with ⟨hhead, _, _⟩
  rcases hsync.consumer with ⟨htail, hvalue⟩
  rw [hhead, htail]
  exact hvalue.symm

end RingQueue

end Slipstream
