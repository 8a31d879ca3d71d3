import Slipstream.RunHistory

/-!
# Greedy framing of a stream

A stream is cut into frames from the left; the length of a frame is
announced by its own first symbols.  What follows the last complete frame is
left pending.

Because the announced length never changes once it is known, framing the
stream piece by piece, carrying the pending symbols over to the next piece,
finds the same frames as framing the whole stream at once.
-/

/-- How a stream announces the length of its first frame. -/
structure Framing (α : Type*) where
  frameLength : List α → Option ℕ
  frameLength_pos : ∀ {stream n}, frameLength stream = some n → 0 < n
  /-- Further symbols do not change an announced length. -/
  frameLength_append : ∀ {stream n}, frameLength stream = some n →
    ∀ later, frameLength (stream ++ later) = some n
  /-- The symbols of a frame announce its length. -/
  frameLength_of_le : ∀ {stream later n},
    frameLength (stream ++ later) = some n → n ≤ stream.length →
      frameLength stream = some n

namespace Framing

variable {α : Type*} (F : Framing α)

def next (stream : List α) : Option ℕ :=
  (F.frameLength stream).filter fun n => n ≤ stream.length

theorem next_eq_some_iff {stream : List α} {n : ℕ} :
    F.next stream = some n ↔
      F.frameLength stream = some n ∧ n ≤ stream.length := by
  simp [next, Option.filter_eq_some_iff]

theorem next_eq_none_iff {stream : List α} :
    F.next stream = none ↔
      ∀ n, F.frameLength stream = some n → stream.length < n := by
  simp [next, Option.filter_eq_none_iff]

/-- The complete frames and the pending symbols after them. -/
def split (stream : List α) : List (List α) × List α :=
  match _hnext : F.next stream with
  | none => ([], stream)
  | some n =>
      let later := split (stream.drop n)
      (stream.take n :: later.1, later.2)
termination_by stream.length
decreasing_by
  have hframe := F.next_eq_some_iff.mp _hnext
  have hpos := F.frameLength_pos hframe.1
  rw [List.length_drop]
  omega

theorem split_of_next_none {stream : List α}
    (hnext : F.next stream = none) : F.split stream = ([], stream) := by
  rw [split]
  split
  next => rfl
  next n hsome => rw [hnext] at hsome; contradiction

theorem split_of_next_some {stream : List α} {n : ℕ}
    (hnext : F.next stream = some n) :
    F.split stream = (stream.take n :: (F.split (stream.drop n)).1,
      (F.split (stream.drop n)).2) := by
  rw [split]
  split
  next hnone => rw [hnext] at hnone; contradiction
  next m hsome =>
    rw [hnext] at hsome
    cases hsome
    rfl

theorem split_induction {motive : List α → Prop}
    (hpending : ∀ stream, F.next stream = none → motive stream)
    (hframe : ∀ stream n, F.next stream = some n →
      motive (stream.drop n) → motive stream)
    (stream : List α) : motive stream := by
  induction hlength : stream.length using Nat.strongRecOn
    generalizing stream with
  | ind length ih =>
      cases hnext : F.next stream with
      | none => exact hpending stream hnext
      | some n =>
          apply hframe stream n hnext
          have hfound := F.next_eq_some_iff.mp hnext
          have hpos := F.frameLength_pos hfound.1
          exact ih (stream.drop n).length
            (by rw [List.length_drop]; omega) (stream.drop n) rfl

theorem flatten_split (stream : List α) :
    (F.split stream).1.flatten ++ (F.split stream).2 = stream := by
  induction stream using F.split_induction with
  | hpending stream hnext => simp [F.split_of_next_none hnext]
  | hframe stream n hnext ih =>
      rw [F.split_of_next_some hnext, List.flatten_cons, List.append_assoc,
        ih, List.take_append_drop]

theorem length_le_of_mem_split {stream frame : List α}
    (hframe : frame ∈ (F.split stream).1) : frame.length ≤ stream.length := by
  have hsublist := List.sublist_flatten_of_mem hframe
  rw [← F.flatten_split stream, List.length_append]
  exact hsublist.length_le.trans (Nat.le_add_right _ _)

theorem next_pending (stream : List α) :
    F.next (F.split stream).2 = none := by
  induction stream using F.split_induction with
  | hpending stream hnext => simpa [F.split_of_next_none hnext] using hnext
  | hframe stream n hnext ih => rwa [F.split_of_next_some hnext]

theorem next_append {stream : List α} {n : ℕ}
    (hnext : F.next stream = some n) (later : List α) :
    F.next (stream ++ later) = some n := by
  rcases F.next_eq_some_iff.mp hnext with ⟨hlength, hle⟩
  rw [next_eq_some_iff, List.length_append]
  exact ⟨F.frameLength_append hlength later, by omega⟩

/-- Framing can be interrupted anywhere and resumed with what is pending. -/
theorem split_append (stream later : List α) :
    F.split (stream ++ later) =
      ((F.split stream).1 ++ (F.split ((F.split stream).2 ++ later)).1,
        (F.split ((F.split stream).2 ++ later)).2) := by
  induction stream using F.split_induction with
  | hpending stream hnext => simp [F.split_of_next_none hnext]
  | hframe stream n hnext ih =>
      have hle := (F.next_eq_some_iff.mp hnext).2
      rw [F.split_of_next_some hnext,
        F.split_of_next_some (F.next_append hnext later),
        List.drop_append_of_le_length hle,
        List.take_append_of_le_length hle, ih, List.cons_append]

theorem split_nil : F.split [] = ([], []) := by
  apply F.split_of_next_none
  rw [next_eq_none_iff]
  intro n hlength
  exact F.frameLength_pos hlength

def consumed (stream : List α) : ℕ :=
  stream.length - (F.split stream).2.length

theorem pending_suffix (stream : List α) :
    (F.split stream).2 <:+ stream :=
  ⟨_, F.flatten_split stream⟩

theorem drop_consumed (stream : List α) :
    stream.drop (F.consumed stream) = (F.split stream).2 :=
  (List.suffix_iff_eq_drop.mp (F.pending_suffix stream)).symm

theorem consumed_le (stream : List α) :
    F.consumed stream ≤ stream.length := Nat.sub_le _ _

theorem consumed_of_next_none {stream : List α}
    (hnext : F.next stream = none) : F.consumed stream = 0 := by
  rw [consumed, F.split_of_next_none hnext, Nat.sub_self]

theorem consumed_of_next_some {stream : List α} {n : ℕ}
    (hnext : F.next stream = some n) :
    F.consumed stream = n + F.consumed (stream.drop n) := by
  have hle := (F.next_eq_some_iff.mp hnext).2
  have hlater := (F.pending_suffix (stream.drop n)).length_le
  rw [consumed, consumed, F.split_of_next_some hnext]
  rw [List.length_drop] at hlater ⊢
  dsimp only
  omega

theorem consumed_eq (stream : List α) :
    F.consumed stream = (F.split stream).1.flatten.length := by
  have hlength := congrArg List.length (F.flatten_split stream)
  rw [List.length_append] at hlength
  rw [consumed]
  omega

theorem consumed_of_frames_nil {stream : List α}
    (hempty : (F.split stream).1 = []) : F.consumed stream = 0 := by
  rw [consumed_eq, hempty, List.flatten_nil, List.length_nil]

theorem frames_nil_of_consumed {stream : List α}
    (hzero : F.consumed stream = 0) : (F.split stream).1 = [] := by
  cases hnext : F.next stream with
  | none => rw [F.split_of_next_none hnext]
  | some n =>
      have hpos := F.frameLength_pos (F.next_eq_some_iff.mp hnext).1
      rw [F.consumed_of_next_some hnext] at hzero
      omega

/-! ## Framing piece by piece -/

def feed (pending piece : List α) : List α × List (List α) :=
  ((F.split (pending ++ piece)).2, (F.split (pending ++ piece)).1)

theorem exec_feed (pieces : List (List α)) :
    RunHistory.exec F.feed [] pieces = (F.split pieces.flatten).2 := by
  induction pieces using List.reverseRecOn with
  | nil => simp [F.split_nil]
  | append_singleton before piece ih =>
      rw [RunHistory.exec_append, ih, RunHistory.exec_cons,
        RunHistory.exec_nil, feed, List.flatten_append,
        F.split_append before.flatten]
      simp

/-- The frames found do not depend on how the stream was cut. -/
theorem outputs_feed (pieces : List (List α)) :
    (RunHistory.outputs F.feed [] pieces).flatten =
      (F.split pieces.flatten).1 := by
  induction pieces using List.reverseRecOn with
  | nil => simp [F.split_nil]
  | append_singleton before piece ih =>
      rw [RunHistory.outputs_append, List.flatten_append, ih, exec_feed,
        List.flatten_append, F.split_append before.flatten]
      simp [feed]

/-! ## Streams that consist of frames -/

def IsFrame (frame : List α) : Prop :=
  F.frameLength frame = some frame.length

theorem split_flatten {frames : List (List α)}
    (hframes : ∀ frame ∈ frames, F.IsFrame frame) :
    F.split frames.flatten = (frames, []) := by
  induction frames with
  | nil => exact F.split_nil
  | cons frame rest ih =>
      have hrest := ih fun other hother =>
        hframes other (List.mem_cons_of_mem frame hother)
      have hnext : F.next (frame ++ rest.flatten) = some frame.length := by
        rw [next_eq_some_iff, List.length_append]
        exact ⟨F.frameLength_append (hframes frame List.mem_cons_self) _,
          by omega⟩
      rw [List.flatten_cons, F.split_of_next_some hnext, List.drop_left,
        List.take_left, hrest]

theorem isFrame_of_mem_split {stream frame : List α}
    (hframe : frame ∈ (F.split stream).1) : F.IsFrame frame := by
  induction stream using F.split_induction with
  | hpending stream hnext =>
      rw [F.split_of_next_none hnext] at hframe
      contradiction
  | hframe stream n hnext ih =>
      rw [F.split_of_next_some hnext, List.mem_cons] at hframe
      rcases hframe with rfl | hlater
      · rcases F.next_eq_some_iff.mp hnext with ⟨hlength, hle⟩
        rw [← List.take_append_drop n stream] at hlength
        rw [IsFrame, List.length_take, Nat.min_eq_left hle]
        exact F.frameLength_of_le hlength (by rw [List.length_take]; omega)
      · exact ih hlater

/-- A stream that starts with frames is cut into these first. -/
theorem isPrefix_split {frames : List (List α)}
    (hframes : ∀ frame ∈ frames, F.IsFrame frame) {stream : List α}
    (hstream : frames.flatten <+: stream) :
    frames <+: (F.split stream).1 := by
  rcases hstream with ⟨later, rfl⟩
  rw [F.split_append, F.split_flatten hframes]
  exact List.prefix_append _ _

theorem frames_isPrefix {frames : List (List α)}
    (hframes : ∀ frame ∈ frames, F.IsFrame frame)
    {stream later : List α} (hstream : stream ++ later = frames.flatten) :
    (F.split stream).1 <+: frames := by
  have hwhole := F.split_append stream later
  rw [hstream, F.split_flatten hframes, Prod.mk.injEq] at hwhole
  exact ⟨_, hwhole.1.symm⟩

/-- Frames that are followed by the start of a longer one than `bound`
allows: those found that are not longer are among them. -/
theorem found_isPrefix {frames : List (List α)}
    (hframes : ∀ frame ∈ frames, F.IsFrame frame) {rest : List α} {n : ℕ}
    (hrest : F.frameLength rest = some n) {bound : ℕ} (hlong : bound < n)
    {stream : List α} (hstream : stream <+: frames.flatten ++ rest)
    {found : List (List α)} (hfound : found <+: (F.split stream).1)
    (hfits : ∀ frame ∈ found, frame.length ≤ bound) : found <+: frames := by
  have hwhole : (F.split (frames.flatten ++ rest)).1 =
      frames ++ (F.split rest).1 := by
    rw [F.split_append, F.split_flatten hframes, List.nil_append]
  have hfirst : found <+: frames ++ (F.split rest).1 := by
    rcases hstream with ⟨later, hlater⟩
    rw [← hwhole, ← hlater, F.split_append]
    exact hfound.trans (List.prefix_append _ _)
  rcases Nat.le_total found.length frames.length with hle | hle
  · exact List.prefix_of_prefix_length_le hfirst
      (List.prefix_append _ _) hle
  · rcases List.prefix_of_prefix_length_le (List.prefix_append _ _) hfirst
      hle with ⟨more, rfl⟩
    rw [List.prefix_append_right_inj] at hfirst
    cases more with
    | nil => rw [List.append_nil]
    | cons frame others =>
        cases hnext : F.next rest with
        | none =>
            rw [F.split_of_next_none hnext] at hfirst
            simp at hfirst
        | some size =>
            rw [F.split_of_next_some hnext, List.cons_prefix_cons] at hfirst
            rcases F.next_eq_some_iff.mp hnext with ⟨hsize, hle⟩
            have hframe := hfits frame (by simp)
            rw [hrest] at hsize
            rw [hfirst.1, List.length_take, ← Option.some.inj hsize]
              at hframe
            rw [← Option.some.inj hsize] at hle
            omega

/-- How far the first `received` symbols of frames of the given sizes reach
into the frame that they do not complete. -/
def intoFrame : List ℕ → ℕ → ℕ
  | [], received => received
  | size :: later, received =>
      if size ≤ received then intoFrame later (received - size) else received

theorem intoFrame_lt {sizes : List ℕ} {bound received : ℕ}
    (hbound : ∀ size ∈ sizes, size ≤ bound) (hpos : 0 < bound)
    (hle : received ≤ sizes.sum) : intoFrame sizes received < bound := by
  induction sizes generalizing received with
  | nil =>
      rw [List.sum_nil, Nat.le_zero] at hle
      rwa [intoFrame, hle]
  | cons size later ih =>
      rw [List.forall_mem_cons] at hbound
      rw [List.sum_cons] at hle
      rw [intoFrame]
      split
      next => exact ih hbound.2 (by omega)
      next hshort => omega

theorem next_of_isPrefix_frame {frame stream : List α}
    (hframe : F.IsFrame frame) (hpre : stream <+: frame)
    (hshort : stream.length < frame.length) : F.next stream = none := by
  rcases hpre with ⟨later, rfl⟩
  rw [next_eq_none_iff]
  intro n hlength
  have hwhole := F.frameLength_append hlength later
  rw [IsFrame, hwhole, Option.some.injEq] at hframe
  rwa [hframe]

/-- Of a sequence of frames the symbols of one frame at most are pending. -/
theorem length_pending_eq {frames : List (List α)}
    (hframes : ∀ frame ∈ frames, F.IsFrame frame)
    {stream later : List α} (hstream : stream ++ later = frames.flatten) :
    (F.split stream).2.length =
      intoFrame (frames.map List.length) stream.length := by
  induction frames generalizing stream with
  | nil =>
      rw [List.flatten_nil, List.append_eq_nil_iff] at hstream
      rw [hstream.1, F.split_nil]
      rfl
  | cons frame rest ih =>
      rw [List.forall_mem_cons] at hframes
      rw [List.flatten_cons] at hstream
      rw [List.map_cons, intoFrame]
      have hstart : stream <+: frame ++ rest.flatten := ⟨later, hstream⟩
      split
      next hlong =>
        rcases List.prefix_of_prefix_length_le
            (List.prefix_append frame rest.flatten) hstart hlong with
          ⟨present, rfl⟩
        rw [List.append_assoc, List.append_cancel_left_eq] at hstream
        have hnext : F.next (frame ++ present) = some frame.length := by
          rw [next_eq_some_iff]
          exact ⟨F.frameLength_append hframes.1 present, hlong⟩
        rw [F.split_of_next_some hnext, List.drop_left, List.length_append,
          Nat.add_sub_cancel_left]
        exact ih hframes.2 hstream
      next hshort =>
        have hpre : stream <+: frame := List.prefix_of_prefix_length_le
          hstart (List.prefix_append frame rest.flatten) (by omega)
        rw [F.split_of_next_none
          (F.next_of_isPrefix_frame hframes.1 hpre (by omega))]

theorem length_pending_lt {frames : List (List α)} {bound : ℕ}
    (hframes : ∀ frame ∈ frames, F.IsFrame frame)
    (hbound : ∀ frame ∈ frames, frame.length ≤ bound) (hpos : 0 < bound)
    {stream later : List α} (hstream : stream ++ later = frames.flatten) :
    (F.split stream).2.length < bound := by
  rw [F.length_pending_eq hframes hstream]
  apply intoFrame_lt _ hpos
  · rw [← List.length_flatten, ← hstream, List.length_append]
    omega
  · simpa using hbound

/-- Frames that may have lost their last symbols give the stream of the
whole frames only if none has. -/
theorem flatMap_truncated_eq_iff {ι : Type*} {truncated whole : ι → List α}
    {sends : List ι} (hpre : ∀ i ∈ sends, truncated i <+: whole i) :
    sends.flatMap truncated = sends.flatMap whole ↔
      ∀ i ∈ sends, truncated i = whole i := by
  refine ⟨fun heq => ?_, List.flatMap_congr⟩
  induction sends with
  | nil => simp
  | cons i rest ih =>
      rw [List.forall_mem_cons] at hpre ⊢
      rw [List.flatMap_cons, List.flatMap_cons] at heq
      have hrest : (rest.flatMap truncated).length ≤
          (rest.flatMap whole).length := by
        rw [List.length_flatMap, List.length_flatMap]
        exact List.sum_le_sum fun j hj => (hpre.2 j hj).length_le
      have hlength := congrArg List.length heq
      rw [List.length_append, List.length_append] at hlength
      have hfirst : truncated i = whole i :=
        hpre.1.eq_of_length_le (by omega)
      rw [hfirst, List.append_cancel_left_eq] at heq
      exact ⟨hfirst, ih hpre.2 heq⟩

end Framing
