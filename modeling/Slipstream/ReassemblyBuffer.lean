import Slipstream.NetworkMessageReceiver

/-!
# The capacity of the reassembly buffer

The receive call asks for as many bytes as the reassembly buffer holds, and
the bytes of an incomplete frame may already be there.  Whether a chunk fits
is decided by how far the bytes before it reach into their last frame.

The unconsumed bytes are moved to the front with `memcpy`, which requires
that its two ranges have no byte in common.  The gap between them is as long
as the frames that the previous call completed.
-/

namespace Slipstream

open PackedBytes

namespace MessageReconstructor

/-! ## Room for a chunk -/

section Run

variable (buffer : Memory) (chunks : List (List UInt8))

theorem allReturn_iff_no_badAlloc :
    AllReturn buffer chunks ↔ .error .badAlloc ∉ reports buffer chunks := by
  constructor
  · intro hreturn hthrown
    obtain ⟨frames, hframes⟩ := hreturn _ hthrown
    contradiction
  · intro hnone
    induction chunks using List.reverseRecOn with
    | nil => exact allReturn_nil buffer
    | append_singleton before chunk ih =>
        rw [reports_concat, List.mem_append, List.mem_singleton, not_or]
          at hnone
        rw [allReturn_concat]
        refine ⟨ih hnone.1, ?_⟩
        cases hresult : ((after buffer before).recieve chunk).1 with
        | ok received => exact ⟨received, rfl⟩
        | error exception =>
            have hthrown := (recieve_error hresult).1
            subst hthrown
            simp [reassemble, hresult, Except.map] at hnone

end Run

/-- Cutting a stream of frames into chunks: no call throws exactly when
every chunk fits behind the bytes by which the chunks before it reach into
an incomplete frame. -/
theorem no_badAlloc_iff (buffer : Memory) (messages : List MDMessage)
    (chunks : List (List UInt8))
    (hcut : chunks.flatten =
      (messages.map GCMDSerialiser.frame).flatten) :
    .error .badAlloc ∉ reports buffer chunks ↔
      ∀ before chunk, before ++ [chunk] <+: chunks →
        Framing.intoFrame
            (messages.map fun message =>
              (GCMDSerialiser.frame message).length)
            before.flatten.length + chunk.length ≤ bufferSize := by
  rw [← allReturn_iff_no_badAlloc, allReturn_iff]
  refine forall₃_congr fun before chunk hpre => ?_
  rcases hpre with ⟨later, hlater⟩
  have hstream : before.flatten ++ (chunk ++ later.flatten) =
      (messages.map GCMDSerialiser.frame).flatten := by
    rw [← hcut, ← hlater]
    simp
  rw [framing.length_pending_eq
    (NetworkMessageReceiver.forall_isFrame messages) hstream, List.map_map]
  rfl

theorem no_badAlloc_heartbeat :
    .error .badAlloc ∉
      reports (fun _ => 0) [[8, 0, 3], [1, 5, 0, 0, 0, 0, 0, 0, 0]] := by
  rw [no_badAlloc_iff (fun _ => 0) [.heartbeat ⟨5⟩] _ (by decide)]
  rintro (_ | ⟨first, _ | ⟨second, rest⟩⟩) chunk hpre
  · obtain rfl : chunk = [8, 0, 3] := by simpa using hpre
    decide
  · obtain ⟨rfl, rfl⟩ :
        first = [8, 0, 3] ∧ chunk = [1, 5, 0, 0, 0, 0, 0, 0, 0] := by
      simpa using hpre
    decide
  · simp at hpre

/-! ## The longest chunk that always fits -/

section Crowded

variable (quote : Quote) (first : ℕ)

/-- More quotes than the buffer holds. -/
def crowd : List MDMessage := List.replicate 43 (.quote quote)

def crowdStream : List UInt8 :=
  ((crowd quote).map GCMDSerialiser.frame).flatten

/-- The cut after `first` bytes is followed by one behind the first byte
that the buffer has no room for. -/
def crowdChunks : List (List UInt8) :=
  [(crowdStream quote).take first,
    ((crowdStream quote).drop first).take (bufferSize + 1 - first),
    (crowdStream quote).drop (bufferSize + 1)]

theorem length_crowdStream : (crowdStream quote).length = 2064 := by
  simp [crowdStream, crowd, GCMDSerialiser.length_frame,
    GCMDSerialiser.bodySize, FrameHeader.size, QuoteBody.size]

theorem flatten_crowdChunks (hfirst : first ≤ bufferSize + 1) :
    (crowdChunks quote first).flatten = crowdStream quote := by
  have hrest : (crowdStream quote).drop (bufferSize + 1) =
      ((crowdStream quote).drop first).drop (bufferSize + 1 - first) := by
    rw [List.drop_drop, Nat.add_sub_cancel' hfirst]
  rw [crowdChunks, hrest]
  simp

theorem length_pending_take (hshort : first < 48) :
    (framing.split ((crowdStream quote).take first)).2.length = first := by
  have hlength := length_crowdStream quote
  have hstream : (crowdStream quote).take first ++
      (crowdStream quote).drop first =
        ((crowd quote).map GCMDSerialiser.frame).flatten :=
    List.take_append_drop first (crowdStream quote)
  rw [framing.length_pending_eq
    (NetworkMessageReceiver.forall_isFrame (crowd quote)) hstream,
    List.length_take, Nat.min_eq_left (by omega)]
  have hframe : (GCMDSerialiser.frame (.quote quote)).length = 48 :=
    GCMDSerialiser.length_frame _
  rw [crowd, List.replicate_succ, List.map_cons, List.map_cons, hframe,
    Framing.intoFrame, if_neg (by omega)]

theorem crowd_throws (buffer : Memory) (hshort : first < 48) :
    .error .badAlloc ∈ reports buffer (crowdChunks quote first) := by
  have hlength := length_crowdStream quote
  by_contra hnone
  rw [← allReturn_iff_no_badAlloc, allReturn_iff] at hnone
  have hfits := hnone [(crowdStream quote).take first]
    (((crowdStream quote).drop first).take (bufferSize + 1 - first))
    ⟨[(crowdStream quote).drop (bufferSize + 1)], rfl⟩
  rw [List.flatten_singleton, length_pending_take quote first hshort,
    List.length_take, List.length_drop, hlength] at hfits
  simp only [bufferSize] at hfits
  omega

end Crowded

/-- One byte of the first quote is followed by a full receive call. -/
theorem full_receive_throws :
    let quote : Quote :=
      { symbol := List.Vector.replicate 12 65
        timestampNs := 1000, bidQuantity := 5, bidPrice := 99
        askQuantity := 7, askPrice := 101 }
    let messages := List.replicate 43 (MDMessage.quote quote)
    let stream := (messages.map GCMDSerialiser.frame).flatten
    let chunks :=
      [stream.take 1, (stream.drop 1).take 2048, stream.drop 2049]
    chunks.flatten = stream ∧
      (∀ chunk ∈ chunks, chunk ≠ [] ∧ chunk.length ≤ 2048) ∧
      .error .badAlloc ∈ reports (fun _ => 0) chunks := by
  intro quote messages stream chunks
  have hlength : stream.length = 2064 := length_crowdStream quote
  refine ⟨flatten_crowdChunks quote 1 (by decide), ?_,
    crowd_throws quote 1 (fun _ => 0) (by decide)⟩
  simp [chunks, ← List.length_pos_iff, hlength]

/-- Chunks of at most `limit` bytes fit whatever the stream and the cut,
exactly as long as they leave room for an incomplete frame. -/
theorem chunk_limit_iff (limit : ℕ) :
    (∀ (buffer : Memory) (messages : List MDMessage)
      (chunks : List (List UInt8)),
      chunks.flatten = (messages.map GCMDSerialiser.frame).flatten →
        (∀ chunk ∈ chunks, chunk ≠ [] ∧ chunk.length ≤ limit) →
          .error .badAlloc ∉ reports buffer chunks) ↔
      limit ≤ NetworkMessageReceiver.maxChunkSize := by
  constructor
  · intro hfits
    by_contra! hlong
    let quote : Quote := ⟨List.Vector.replicate 12 0, 0, 0, 0, 0, 0⟩
    have hlength := length_crowdStream quote
    apply hfits (fun _ => 0) (crowd quote) (crowdChunks quote 47)
      (flatten_crowdChunks quote 47 (by decide)) ?_
      (crowd_throws quote 47 _ (by decide))
    have hmax : NetworkMessageReceiver.maxChunkSize = 2001 := rfl
    simp [crowdChunks, ← List.length_pos_iff, hlength, bufferSize]
    omega
  · intro hlimit buffer messages chunks hcut hchunks
    rw [← allReturn_iff_no_badAlloc, allReturn_iff]
    intro before chunk hpre
    have hsize := (hchunks chunk (hpre.subset (by simp))).2
    rcases hpre with ⟨later, hlater⟩
    have hstream : before.flatten ++ chunk ++ later.flatten =
        (messages.map GCMDSerialiser.frame).flatten := by
      rw [← hcut, ← hlater]
      simp
    exact not_lt.mp (NetworkMessageReceiver.chunk_fits hstream
      (hsize.trans hlimit))

/-! ## The copies of a call -/

/-- The copies that a call makes, when it does not throw, are defined. -/
structure SafeCopies (reconstructor : MessageReconstructor)
    (mem : List UInt8) : Prop where
  compacting_apart : reconstructor.dirtyStart ≠ 0 →
    Memory.Apart reconstructor.dirtyStart 0 reconstructor.size
  compacting_source : reconstructor.dirtyStart ≠ 0 →
    reconstructor.dirtyStart + reconstructor.size ≤ bufferSize
  compacting_target : reconstructor.dirtyStart ≠ 0 →
    reconstructor.size ≤ bufferSize
  appended : reconstructor.compact.size + mem.length ≤ bufferSize

@[simp] theorem compact_size (reconstructor : MessageReconstructor) :
    reconstructor.compact.size = reconstructor.size := by
  unfold compact
  split <;> rfl

theorem Pending.safeCopies_iff {reconstructor : MessageReconstructor}
    {pending mem : List UInt8} (hpending : Pending reconstructor pending)
    (hfits : reconstructor.size + mem.length ≤ bufferSize) :
    SafeCopies reconstructor mem ↔
      (reconstructor.dirtyStart ≠ 0 →
        reconstructor.size ≤ reconstructor.dirtyStart) := by
  have hbounded := hpending.bounded
  have hapart : Memory.Apart reconstructor.dirtyStart 0 reconstructor.size ↔
      reconstructor.size ≤ reconstructor.dirtyStart := by
    rw [Memory.apart_iff]
    omega
  constructor
  · intro hsafe hdirty
    exact hapart.mp (hsafe.compacting_apart hdirty)
  · intro hle
    refine ⟨fun hdirty => hapart.mpr (hle hdirty), fun _ => hbounded,
      fun _ => by omega, ?_⟩
    rwa [compact_size]

/-- What a call leaves behind: the bytes of an incomplete frame, and the
frames that the last call which did not throw has completed. -/
structure Residue where
  pending : List UInt8
  completed : List (List UInt8)

def Residue.accept (residue : Residue) (mem : List UInt8) : Residue :=
  if bufferSize < residue.pending.length + mem.length then residue
  else
    { pending := (framing.feed residue.pending mem).1
      completed := (framing.feed residue.pending mem).2 }

def residue (chunks : List (List UInt8)) : Residue :=
  chunks.foldl Residue.accept ⟨[], []⟩

theorem residue_concat (chunks : List (List UInt8)) (chunk : List UInt8) :
    residue (chunks ++ [chunk]) = (residue chunks).accept chunk := by
  simp [residue]

/-- `dirtyStart` lies behind the completed frames, which are not empty. -/
structure Leaves (reconstructor : MessageReconstructor)
    (residue : Residue) : Prop where
  pending : Pending reconstructor residue.pending
  dirtyStart_eq :
    reconstructor.dirtyStart = residue.completed.flatten.length
  dirty_iff : reconstructor.dirtyStart ≠ 0 ↔ residue.completed ≠ []

theorem initial_leaves (buffer : Memory) :
    Leaves (initial buffer) ⟨[], []⟩ where
  pending := initial_pending buffer
  dirtyStart_eq := rfl
  dirty_iff := iff_of_false (by simp [initial]) (by simp)

theorem Extended.getMessages_dirtyStart
    {reconstructor : MessageReconstructor} {stream : List UInt8}
    (hextended : Extended reconstructor stream) :
    (reconstructor.getMessages 0 reconstructor.size).2.dirtyStart =
      framing.consumed stream := by
  rw [getMessages_eq reconstructor 0 reconstructor.size hextended.bytes,
    hextended.clean]
  by_cases hempty : (framing.split stream).1 = []
  · simp [hempty, framing.consumed_of_frames_nil hempty]
  · simp [hempty]

theorem Leaves.recieve {reconstructor : MessageReconstructor}
    {residue : Residue} (hleaves : Leaves reconstructor residue)
    (mem : List UInt8) :
    Leaves (reconstructor.recieve mem).2 (residue.accept mem) := by
  have hcall := hleaves.pending.recieve mem
  have hsize := hleaves.pending.size_eq
  unfold Residue.accept
  split at hcall
  next hover =>
    rw [if_pos hover, hcall]
    exact hleaves
  next hfits =>
    rcases hcall with ⟨received, -, -, hpending⟩
    have hextended := hleaves.pending.compact.append mem
    have hdirty : (reconstructor.recieve mem).2.dirtyStart =
        framing.consumed (residue.pending ++ mem) := by
      rw [MessageReconstructor.recieve, if_neg (by omega)]
      exact hextended.getMessages_dirtyStart
    rw [if_neg hfits]
    refine ⟨hpending, ?_, ?_⟩
    · rw [hdirty, framing.consumed_eq]
      rfl
    · rw [hdirty]
      exact not_congr ⟨framing.frames_nil_of_consumed,
        framing.consumed_of_frames_nil⟩

theorem after_leaves (buffer : Memory) (chunks : List (List UInt8)) :
    Leaves (after buffer chunks) (residue chunks) := by
  induction chunks using List.reverseRecOn with
  | nil => exact initial_leaves buffer
  | append_singleton before chunk ih =>
      rw [after_concat, residue_concat]
      exact ih.recieve chunk

/-- All copies of a run are defined exactly when the bytes that are pending
at a call which fits are never more than those of the frames that an earlier
call has completed just before.  Up to the first overlap the copies are those
of `memcpy`. -/
theorem safe_copies_iff (buffer : Memory) (chunks : List (List UInt8)) :
    (∀ before chunk, before ++ [chunk] <+: chunks →
      (after buffer before).size + chunk.length ≤ bufferSize →
        SafeCopies (after buffer before) chunk) ↔
      ∀ before chunk, before ++ [chunk] <+: chunks →
        (residue before).pending.length + chunk.length ≤ bufferSize →
          (residue before).completed ≠ [] →
            (residue before).pending.length ≤
              (residue before).completed.flatten.length := by
  refine forall₃_congr fun before chunk _ => ?_
  have hleaves := after_leaves buffer before
  have hsize := hleaves.pending.size_eq
  rw [← hsize, ← hleaves.dirtyStart_eq, ← hleaves.dirty_iff]
  refine forall_congr' fun hfits => ?_
  exact hleaves.pending.safeCopies_iff hfits

theorem split_frame_append_take {first second : MDMessage} {n : ℕ}
    (hshort : n < (GCMDSerialiser.frame second).length) :
    framing.split (GCMDSerialiser.frame first ++
        (GCMDSerialiser.frame second).take n) =
      ([GCMDSerialiser.frame first], (GCMDSerialiser.frame second).take n) := by
  have hframes : ∀ frame ∈ [GCMDSerialiser.frame first],
      framing.IsFrame frame := by
    simpa using isFrame_frame first
  have hfirst : framing.split (GCMDSerialiser.frame first) =
      ([GCMDSerialiser.frame first], []) := by
    simpa using framing.split_flatten hframes
  have hsecond : framing.next ((GCMDSerialiser.frame second).take n) =
      none := by
    apply framing.next_of_isPrefix_frame (isFrame_frame second)
      (List.take_prefix n _)
    rw [List.length_take]
    omega
  rw [framing.split_append, hfirst, List.nil_append,
    framing.split_of_next_none hsecond]
  rfl

/-- A heartbeat of twelve bytes arrives with thirteen bytes of a quote: the
next call copies thirteen bytes down by twelve. -/
theorem compacting_overlaps :
    let quote : Quote :=
      { symbol := List.Vector.replicate 12 65
        timestampNs := 1000, bidQuantity := 5, bidPrice := 99
        askQuantity := 7, askPrice := 101 }
    let first := GCMDSerialiser.frame (.heartbeat ⟨5⟩) ++
      (GCMDSerialiser.frame (.quote quote)).take 13
    let second := (GCMDSerialiser.frame (.quote quote)).drop 13
    let reconstructor := after (fun _ => 0) [first]
    reconstructor.size + second.length ≤ bufferSize ∧
      reconstructor.dirtyStart = 12 ∧ reconstructor.size = 13 ∧
      ¬ SafeCopies reconstructor second := by
  intro quote first second reconstructor
  have hquote : (GCMDSerialiser.frame (.quote quote)).length = 48 :=
    GCMDSerialiser.length_frame _
  have hheartbeat : (GCMDSerialiser.frame (.heartbeat ⟨5⟩)).length = 12 :=
    GCMDSerialiser.length_frame _
  have hresidue : residue [first] =
      { pending := (GCMDSerialiser.frame (.quote quote)).take 13
        completed := [GCMDSerialiser.frame (.heartbeat ⟨5⟩)] } := by
    have hfits : ¬ bufferSize < ([] : List UInt8).length + first.length := by
      simp [first, hquote, hheartbeat, bufferSize]
    rw [residue, List.foldl_cons, List.foldl_nil, Residue.accept,
      if_neg hfits, Framing.feed, List.nil_append,
      split_frame_append_take (by omega)]
  have hleaves : Leaves reconstructor (residue [first]) :=
    after_leaves (fun _ => 0) [first]
  rw [hresidue] at hleaves
  have hsize : reconstructor.size = 13 := by
    rw [hleaves.pending.size_eq, List.length_take, hquote]
    rfl
  have hdirty : reconstructor.dirtyStart = 12 := by
    rw [hleaves.dirtyStart_eq, List.flatten_singleton, hheartbeat]
  have hfits : reconstructor.size + second.length ≤ bufferSize := by
    rw [hsize, List.length_drop, hquote]
    decide
  refine ⟨hfits, hdirty, hsize, ?_⟩
  rw [hleaves.pending.safeCopies_iff hfits, hdirty, hsize]
  decide

end MessageReconstructor

end Slipstream
