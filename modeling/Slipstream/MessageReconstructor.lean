import Slipstream.GCMDCodec
import Slipstream.GreedyFraming

/-!
# Reassembling frames from received chunks

The reconstructor appends every chunk to the bytes that earlier calls left
unconsumed and reports the complete frames that are then at the start of its
buffer.  Consumed bytes stay in the buffer until the next call, which moves
the unconsumed ones to the front.  The code copies them with `memcpy`, which
leaves overlapping regions undefined; the copy is read as a `memmove` here.

Pointers into the buffer are offsets from its start, and the null pointer is
`none`.
-/

namespace Slipstream

open PackedBytes

/-! ## Frames of a byte stream -/

/-- A frame is as long as its header says: four bytes and `bodyLen` more. -/
def frameLength (stream : List UInt8) : Option ℕ :=
  if stream.length < FrameHeader.size then none
  else some (FrameHeader.size + decode (stream.take 2))

theorem frameLength_eq_some_iff {stream : List UInt8} {n : ℕ} :
    frameLength stream = some n ↔
      FrameHeader.size ≤ stream.length ∧
        n = FrameHeader.size + decode (stream.take 2) := by
  unfold frameLength
  split <;> simp <;> omega

theorem frameLength_pos {stream : List UInt8} {n : ℕ}
    (hlength : frameLength stream = some n) : 0 < n := by
  rw [frameLength_eq_some_iff] at hlength
  simp only [FrameHeader.size] at hlength
  omega

theorem frameLength_append {stream : List UInt8} {n : ℕ}
    (hlength : frameLength stream = some n) (later : List UInt8) :
    frameLength (stream ++ later) = some n := by
  rw [frameLength_eq_some_iff] at hlength ⊢
  simp only [FrameHeader.size] at hlength ⊢
  rw [List.length_append, List.take_append_of_le_length (by omega)]
  omega

theorem frameLength_of_le {stream later : List UInt8} {n : ℕ}
    (hlength : frameLength (stream ++ later) = some n)
    (hle : n ≤ stream.length) : frameLength stream = some n := by
  rw [frameLength_eq_some_iff] at hlength ⊢
  simp only [FrameHeader.size] at hlength ⊢
  rw [List.take_append_of_le_length (by omega)] at hlength
  exact ⟨by omega, hlength.2⟩

def framing : Framing UInt8 where
  frameLength := frameLength
  frameLength_pos := frameLength_pos
  frameLength_append := frameLength_append
  frameLength_of_le := frameLength_of_le

theorem bodyLen_toNat (memory : Memory) (address : ℕ) :
    (FrameHeader.read memory address).bodyLen.toNat =
      decode (memory.bytes address 2) := by
  have hlt := decode_lt (memory.bytes address 2)
  rw [Memory.length_bytes] at hlt
  simp only [FrameHeader.read, readUInt16]
  exact UInt16.toNat_ofNat_of_lt' hlt

theorem next_bytes (memory : Memory) (address count : ℕ) :
    framing.next (memory.bytes address count) =
      if count < FrameHeader.size then none
      else if (FrameHeader.read memory address).bodyLen.toNat +
        FrameHeader.size > count then none
      else some (GCMDDeserialiser.getMessageSize memory address) := by
  have htake (hsize : ¬ count < FrameHeader.size) :
      (memory.bytes address count).take 2 = memory.bytes address 2 := by
    apply Memory.take_bytes
    rw [FrameHeader.size] at hsize
    omega
  split
  next hshort =>
    rw [Framing.next_eq_none_iff]
    intro n hlength
    simp [framing, frameLength, hshort] at hlength
  next hsize =>
    have hlength : framing.frameLength (memory.bytes address count) =
        some (GCMDDeserialiser.getMessageSize memory address) := by
      simp [framing, frameLength, hsize, htake hsize,
        GCMDDeserialiser.getMessageSize, GCMDDeserialiser.getBodySize,
        bodyLen_toNat]
    rw [GCMDDeserialiser.getMessageSize, GCMDDeserialiser.getBodySize]
      at hlength ⊢
    split
    next hincomplete =>
      rw [Framing.next_eq_none_iff, hlength]
      rintro n ⟨⟩
      rw [Memory.length_bytes]
      omega
    next hcomplete =>
      rw [Framing.next_eq_some_iff, Memory.length_bytes]
      exact ⟨hlength, by omega⟩

theorem isFrame_frame (message : MDMessage) :
    framing.IsFrame (GCMDSerialiser.frame message) := by
  have hlength := GCMDSerialiser.length_frame message
  rw [Framing.IsFrame, framing, frameLength_eq_some_iff, hlength]
  refine ⟨Nat.le_add_right _ _, ?_⟩
  rw [GCMDSerialiser.frame_eq, FrameHeader.toBytes, List.append_assoc,
    List.take_left' (length_uint16Bytes _), uint16Bytes,
    decode_encode_of_lt (UInt16.toNat_lt _)]
  cases message <;> rfl

structure MessagesRecieved where
  start : Option ℕ
  messagesCount : ℕ
  deriving DecidableEq

structure MessageReconstructor where
  buffer : Memory
  size : ℕ
  dirtyStart : ℕ

def framesAt (memory : Memory) : ℕ → ℕ → List (List UInt8)
  | _, 0 => []
  | address, count + 1 =>
      let messageSize := GCMDDeserialiser.getMessageSize memory address
      memory.bytes address messageSize ::
        framesAt memory (address + messageSize) count

@[simp] theorem length_framesAt (memory : Memory) (address count : ℕ) :
    (framesAt memory address count).length = count := by
  induction count generalizing address with
  | zero => rfl
  | succ count ih => simp [framesAt, ih]

theorem framesAt_split (memory : Memory) (address count : ℕ)
    {stream : List UInt8} (hstream : memory.bytes address count = stream) :
    framesAt memory address (framing.split stream).1.length =
      (framing.split stream).1 := by
  induction stream using framing.split_induction
    generalizing address count with
  | hpending stream hnext =>
      rw [framing.split_of_next_none hnext]
      rfl
  | hframe stream n hnext ih =>
      have hle := (framing.next_eq_some_iff.mp hnext).2
      rw [← hstream, Memory.length_bytes] at hle
      have hsize : n = GCMDDeserialiser.getMessageSize memory address := by
        rw [← hstream, next_bytes] at hnext
        split at hnext
        next => contradiction
        next =>
          split at hnext
          next => contradiction
          next => exact (Option.some.inj hnext).symm
      have hlater := ih (address + n) (count - n) (by
        rw [← hstream, Memory.drop_bytes _ hle])
      rw [framing.split_of_next_some hnext, List.length_cons, framesAt,
        ← hsize, hlater, ← hstream, Memory.take_bytes _ hle]

/-- The frames that a result of `recieve` points to. -/
def MessagesRecieved.frames (received : MessagesRecieved)
    (memory : Memory) : List (List UInt8) :=
  match received.start with
  | none => []
  | some start => framesAt memory start received.messagesCount

namespace MessageReconstructor

def bufferSize : ℕ := 2048

/-- A new reconstructor; its buffer is not initialised. -/
def initial (buffer : Memory) : MessageReconstructor where
  buffer := buffer
  size := 0
  dirtyStart := 0

def getMessages (reconstructor : MessageReconstructor)
    (buffer size : ℕ) : MessagesRecieved × MessageReconstructor :=
  if size < FrameHeader.size then (⟨none, 0⟩, reconstructor)
  else
    let header := FrameHeader.read reconstructor.buffer buffer
    if header.bodyLen.toNat + FrameHeader.size > size then
      (⟨none, 0⟩, reconstructor)
    else
      let messageSize := FrameHeader.size + header.bodyLen.toNat
      let inner := getMessages reconstructor (buffer + messageSize)
        (size - messageSize)
      let consumedOffset := buffer + messageSize
      (⟨some buffer, inner.1.messagesCount + 1⟩,
        { inner.2 with
          dirtyStart := max inner.2.dirtyStart consumedOffset
          size := inner.2.size - messageSize })
termination_by size
decreasing_by
  simp only [FrameHeader.size] at *
  omega

/-- The first copy of `recieve`: unconsumed bytes move to the front. -/
def compact (reconstructor : MessageReconstructor) : MessageReconstructor :=
  if reconstructor.dirtyStart ≠ 0 then
    { reconstructor with
      buffer := reconstructor.buffer.memmove 0 reconstructor.dirtyStart
        reconstructor.size
      dirtyStart := 0 }
  else reconstructor

/-- The second copy of `recieve`: new bytes go behind the present ones. -/
def append (reconstructor : MessageReconstructor) (mem : List UInt8) :
    MessageReconstructor :=
  { reconstructor with
    buffer := reconstructor.buffer.write reconstructor.size mem
    size := reconstructor.size + mem.length }

def recieve (reconstructor : MessageReconstructor) (mem : List UInt8) :
    Outcome MessageReconstructor MessagesRecieved :=
  if reconstructor.size + mem.length > bufferSize then
    (.error .badAlloc, reconstructor)
  else
    let reconstructor := reconstructor.compact.append mem
    let (received, reconstructor) :=
      reconstructor.getMessages 0 reconstructor.size
    (.ok received, reconstructor)

theorem getMessages_of_next_none {reconstructor : MessageReconstructor}
    {buffer size : ℕ}
    (hnext : framing.next (reconstructor.buffer.bytes buffer size) = none) :
    reconstructor.getMessages buffer size =
      (⟨none, 0⟩, reconstructor) := by
  rw [next_bytes] at hnext
  rw [getMessages]
  split at hnext
  next hshort => rw [if_pos hshort]
  next hsize =>
    rw [if_neg hsize]
    split at hnext
    next hincomplete => exact if_pos hincomplete
    next => contradiction

theorem getMessages_of_next_some {reconstructor : MessageReconstructor}
    {buffer size messageSize : ℕ}
    (hnext : framing.next (reconstructor.buffer.bytes buffer size) =
      some messageSize) :
    reconstructor.getMessages buffer size =
      let inner := reconstructor.getMessages (buffer + messageSize)
        (size - messageSize)
      (⟨some buffer, inner.1.messagesCount + 1⟩,
        { inner.2 with
          dirtyStart := max inner.2.dirtyStart (buffer + messageSize)
          size := inner.2.size - messageSize }) := by
  rw [next_bytes] at hnext
  rw [getMessages]
  split at hnext
  next => contradiction
  next hsize =>
    rw [if_neg hsize]
    split at hnext
    next => contradiction
    next hcomplete =>
      cases hnext
      exact if_neg hcomplete

/-- `getMessages` finds the frames that greedy framing finds: it reports
their number, and moves `dirtyStart` behind them. -/
theorem getMessages_eq (reconstructor : MessageReconstructor)
    (buffer size : ℕ) {stream : List UInt8}
    (hstream : reconstructor.buffer.bytes buffer size = stream) :
    reconstructor.getMessages buffer size =
      (⟨if (framing.split stream).1 = [] then none else some buffer,
          (framing.split stream).1.length⟩,
        { reconstructor with
          dirtyStart :=
            if (framing.split stream).1 = [] then reconstructor.dirtyStart
            else max reconstructor.dirtyStart (buffer + framing.consumed stream)
          size := reconstructor.size - framing.consumed stream }) := by
  induction stream using framing.split_induction
    generalizing buffer size with
  | hpending stream hnext =>
      rw [getMessages_of_next_none (by rwa [hstream]),
        framing.split_of_next_none hnext, framing.consumed_of_next_none hnext]
      simp
  | hframe stream n hnext ih =>
      have hle := (framing.next_eq_some_iff.mp hnext).2
      rw [← hstream, Memory.length_bytes] at hle
      have hlater := ih (buffer + n) (size - n) (by
        rw [← hstream, Memory.drop_bytes _ hle])
      rw [getMessages_of_next_some (by rwa [hstream]), hlater,
        framing.split_of_next_some hnext, framing.consumed_of_next_some hnext]
      by_cases hempty : (framing.split (stream.drop n)).1 = []
      · simp [hempty, framing.consumed_of_frames_nil hempty]
      · simp [hempty]
        omega

/-! ## The unconsumed bytes -/

/-- The bytes that no reported frame has consumed, and where they are. -/
structure Pending (reconstructor : MessageReconstructor)
    (pending : List UInt8) : Prop where
  bytes : reconstructor.buffer.bytes reconstructor.dirtyStart
    reconstructor.size = pending
  bounded : reconstructor.dirtyStart + reconstructor.size ≤ bufferSize

theorem Pending.size_eq {reconstructor : MessageReconstructor}
    {pending : List UInt8} (hpending : Pending reconstructor pending) :
    reconstructor.size = pending.length := by
  rw [← hpending.bytes, Memory.length_bytes]

theorem initial_pending (buffer : Memory) : Pending (initial buffer) [] :=
  ⟨rfl, Nat.zero_le _⟩

/-- The state in which `recieve` looks for frames: all unconsumed bytes,
old and new, lie at the start of the buffer. -/
structure Extended (reconstructor : MessageReconstructor)
    (stream : List UInt8) : Prop where
  bytes : reconstructor.buffer.bytes 0 reconstructor.size = stream
  clean : reconstructor.dirtyStart = 0

theorem Pending.compact {reconstructor : MessageReconstructor}
    {pending : List UInt8} (hpending : Pending reconstructor pending) :
    Extended reconstructor.compact pending := by
  unfold MessageReconstructor.compact
  split
  next hdirty =>
    refine ⟨?_, rfl⟩
    dsimp only [Memory.memmove]
    rw [hpending.bytes, hpending.size_eq, Memory.bytes_write]
  next hclean =>
    have hzero := not_not.mp hclean
    refine ⟨?_, hzero⟩
    have hbytes := hpending.bytes
    rwa [hzero] at hbytes

theorem Extended.append {reconstructor : MessageReconstructor}
    {stream : List UInt8} (hextended : Extended reconstructor stream)
    (mem : List UInt8) :
    Extended (reconstructor.append mem) (stream ++ mem) := by
  refine ⟨?_, hextended.clean⟩
  dsimp only [MessageReconstructor.append]
  rw [Memory.bytes_add, zero_add, Memory.bytes_write,
    Memory.bytes_write_of_disjoint _ (.inl (by omega)), hextended.bytes]

theorem Extended.getMessages {reconstructor : MessageReconstructor}
    {stream : List UInt8} (hextended : Extended reconstructor stream)
    (hfits : stream.length ≤ bufferSize) :
    let result := reconstructor.getMessages 0 reconstructor.size
    result.1.frames result.2.buffer = (framing.split stream).1 ∧
      Pending result.2 (framing.split stream).2 := by
  have hsize : reconstructor.size = stream.length := by
    rw [← hextended.bytes, Memory.length_bytes]
  have hconsumed := framing.consumed_le stream
  have hframes := framesAt_split reconstructor.buffer 0 reconstructor.size
    hextended.bytes
  have hpending : reconstructor.buffer.bytes (framing.consumed stream)
      (reconstructor.size - framing.consumed stream) =
        (framing.split stream).2 := by
    rw [← framing.drop_consumed, ← hextended.bytes,
      Memory.drop_bytes _ (by rw [hextended.bytes]; omega), zero_add]
  intro result
  have hresult : result = _ :=
    getMessages_eq reconstructor 0 reconstructor.size hextended.bytes
  by_cases hempty : (framing.split stream).1 = []
  · have hnone := framing.consumed_of_frames_nil hempty
    rw [hnone] at hpending
    rw [hresult, hempty, hextended.clean, hnone]
    refine ⟨rfl, ?_, ?_⟩
    · simpa using hpending
    · simp only [if_pos]
      omega
  · rw [hresult, hextended.clean]
    simp only [if_neg hempty, zero_add, Nat.zero_max]
    refine ⟨hframes, hpending, ?_⟩
    dsimp only
    omega

/-- One call of `recieve`: it throws, and changes nothing, exactly when the
unconsumed bytes and the new ones exceed the buffer; otherwise it reports
what greedy framing completes and keeps what greedy framing leaves. -/
theorem Pending.recieve {reconstructor : MessageReconstructor}
    {pending : List UInt8} (hpending : Pending reconstructor pending)
    (mem : List UInt8) :
    if bufferSize < pending.length + mem.length then
      reconstructor.recieve mem = (.error .badAlloc, reconstructor)
    else
      ∃ received, (reconstructor.recieve mem).1 = .ok received ∧
        received.frames (reconstructor.recieve mem).2.buffer =
          (framing.feed pending mem).2 ∧
        Pending (reconstructor.recieve mem).2
          (framing.feed pending mem).1 := by
  have hsize := hpending.size_eq
  split
  next hover =>
    rw [MessageReconstructor.recieve, if_pos (by omega)]
  next hfits =>
    have hextended := hpending.compact.append mem
    rcases hextended.getMessages
        (by rw [List.length_append]; omega) with ⟨hframes, hleft⟩
    rw [MessageReconstructor.recieve, if_neg (by omega)]
    exact ⟨_, rfl, hframes, hleft⟩

/-- A call that throws changes nothing. -/
theorem recieve_error {reconstructor : MessageReconstructor}
    {mem : List UInt8} {exception : Exception}
    (herror : (reconstructor.recieve mem).1 = .error exception) :
    exception = .badAlloc ∧ (reconstructor.recieve mem).2 = reconstructor := by
  unfold recieve at herror ⊢
  split at herror
  next hover =>
    rw [if_pos hover]
    exact ⟨(Except.error.inj herror).symm, rfl⟩
  next => contradiction

theorem Pending.recieve_returns_iff {reconstructor : MessageReconstructor}
    {pending : List UInt8} (hpending : Pending reconstructor pending)
    (mem : List UInt8) :
    (∃ received, (reconstructor.recieve mem).1 = .ok received) ↔
      pending.length + mem.length ≤ bufferSize := by
  have hcall := hpending.recieve mem
  split at hcall
  next hover =>
    rw [hcall]
    exact iff_of_false (by simp) (by omega)
  next hfits =>
    rcases hcall with ⟨received, hresult, -⟩
    exact iff_of_true ⟨received, hresult⟩ (by omega)

/-! ## Runs of `recieve` -/

/-- A call of `recieve`, with the frames it reports, which are to be read
before the next call. -/
def reassemble (reconstructor : MessageReconstructor) (mem : List UInt8) :
    MessageReconstructor × Except Exception (List (List UInt8)) :=
  let outcome := reconstructor.recieve mem
  (outcome.2, outcome.1.map fun received =>
    received.frames outcome.2.buffer)

def after (buffer : Memory) (chunks : List (List UInt8)) :
    MessageReconstructor :=
  RunHistory.exec reassemble (initial buffer) chunks

def reports (buffer : Memory) (chunks : List (List UInt8)) :
    List (Except Exception (List (List UInt8))) :=
  RunHistory.outputs reassemble (initial buffer) chunks

def AllReturn (buffer : Memory) (chunks : List (List UInt8)) : Prop :=
  ∀ report ∈ reports buffer chunks, ∃ frames, report = .ok frames

def reportedFrames (buffer : Memory) (chunks : List (List UInt8)) :
    List (List UInt8) :=
  (reports buffer chunks).flatMap fun report =>
    match report with
    | .ok frames => frames
    | .error _ => []

section Concat

variable (buffer : Memory) (chunks : List (List UInt8)) (chunk : List UInt8)

theorem after_concat :
    after buffer (chunks ++ [chunk]) =
      ((after buffer chunks).recieve chunk).2 := by
  simp [after, reassemble]

theorem reports_concat :
    reports buffer (chunks ++ [chunk]) =
      reports buffer chunks ++
        [(reassemble (after buffer chunks) chunk).2] := by
  simp [reports, after]

theorem allReturn_concat :
    AllReturn buffer (chunks ++ [chunk]) ↔
      AllReturn buffer chunks ∧
        ∃ received,
          ((after buffer chunks).recieve chunk).1 = .ok received := by
  unfold AllReturn
  rw [reports_concat]
  constructor
  · intro hall
    refine ⟨fun report hreport => hall report (by simp [hreport]), ?_⟩
    obtain ⟨frames, hframes⟩ :=
      hall (reassemble (after buffer chunks) chunk).2 (by simp)
    cases hresult : ((after buffer chunks).recieve chunk).1 with
    | error exception =>
        simp [reassemble, hresult, Except.map] at hframes
    | ok received => exact ⟨received, rfl⟩
  · rintro ⟨hbefore, received, hresult⟩ report hreport
    rw [List.mem_append, List.mem_singleton] at hreport
    rcases hreport with hold | rfl
    · exact hbefore report hold
    · simp [reassemble, hresult, Except.map]

end Concat

/-- As long as no call throws, the reconstructor simulates greedy framing
piece by piece. -/
theorem simulates_feed (buffer : Memory) {chunks : List (List UInt8)}
    (hreturn : AllReturn buffer chunks) :
    reports buffer chunks =
        (RunHistory.outputs framing.feed [] chunks).map .ok ∧
      Pending (after buffer chunks)
        (RunHistory.exec framing.feed [] chunks) := by
  induction chunks using List.reverseRecOn with
  | nil => exact ⟨rfl, initial_pending buffer⟩
  | append_singleton before chunk ih =>
      rw [allReturn_concat] at hreturn
      rcases hreturn with ⟨hbefore, received, hresult⟩
      rcases ih hbefore with ⟨hreports, hpending⟩
      have hcall := hpending.recieve chunk
      split at hcall
      next => rw [hcall] at hresult; contradiction
      next =>
        rcases hcall with ⟨again, hagain, hreported, hleft⟩
        constructor
        · rw [reports_concat, hreports, RunHistory.outputs_append,
            List.map_append]
          simp [reassemble, hagain, Except.map, hreported]
        · rw [after_concat, RunHistory.exec_append]
          exact hleft

theorem reassembles (buffer : Memory) {chunks : List (List UInt8)}
    (hreturn : AllReturn buffer chunks) :
    reportedFrames buffer chunks = (framing.split chunks.flatten).1 ∧
      Pending (after buffer chunks) (framing.split chunks.flatten).2 := by
  rcases simulates_feed buffer hreturn with ⟨hreports, hpending⟩
  rw [framing.exec_feed] at hpending
  refine ⟨?_, hpending⟩
  rw [← framing.outputs_feed, reportedFrames, hreports, List.flatMap_map,
    List.flatMap_id']

theorem allReturn_of_isPrefix {buffer : Memory}
    {before chunks : List (List UInt8)} (hpre : before <+: chunks)
    (hreturn : AllReturn buffer chunks) : AllReturn buffer before := by
  rcases hpre with ⟨later, rfl⟩
  intro report hreport
  apply hreturn
  unfold reports at hreport ⊢
  rw [RunHistory.outputs_append, List.mem_append]
  exact .inl hreport

section Throwing

variable (buffer : Memory) (chunks : List (List UInt8))

theorem allReturn_nil : AllReturn buffer [] := by
  simp [AllReturn, reports]

theorem forall_prefix_allReturn_iff :
    (∀ before, before <+: chunks → AllReturn buffer before) ↔
      AllReturn buffer chunks := by
  constructor
  · intro hall
    exact hall chunks (List.prefix_refl chunks)
  · intro hreturn before hpre
    exact allReturn_of_isPrefix hpre hreturn

/-- The calls of a run return as long as what is pending leaves room. -/
theorem allReturn_iff :
    AllReturn buffer chunks ↔
      ∀ before chunk, before ++ [chunk] <+: chunks →
        (framing.split before.flatten).2.length + chunk.length ≤
          bufferSize := by
  rw [← forall_prefix_allReturn_iff]
  apply RunHistory.forall_prefix_iff_forall_step (allReturn_nil buffer)
  intro before chunk _ hreturn
  have hpending := (reassembles buffer hreturn).2
  rw [allReturn_concat, and_iff_right hreturn]
  exact hpending.recieve_returns_iff chunk

end Throwing

/-- However a stream is cut into chunks: the frames reported are the frames
of the whole stream, the unconsumed bytes are its remainder and lie inside
the buffer, and a call throws exactly when the remainder and its chunk do
not fit, changing nothing. -/
theorem chunking_independence (buffer : Memory)
    (chunks : List (List UInt8)) (hreturn : AllReturn buffer chunks) :
    reportedFrames buffer chunks = (framing.split chunks.flatten).1 ∧
      ∀ before, before <+: chunks →
        let reconstructor := after buffer before
        let remainder := (framing.split before.flatten).2
        reconstructor.buffer.bytes reconstructor.dirtyStart
            reconstructor.size = remainder ∧
          (∀ n, frameLength remainder = some n → remainder.length < n) ∧
          reconstructor.dirtyStart + reconstructor.size ≤ bufferSize ∧
          ∀ chunk,
            ((∃ exception,
                (reconstructor.recieve chunk).1 = .error exception) ↔
              bufferSize < remainder.length + chunk.length) ∧
            ∀ exception,
              (reconstructor.recieve chunk).1 = .error exception →
                exception = .badAlloc ∧
                  (reconstructor.recieve chunk).2 = reconstructor := by
  refine ⟨(reassembles buffer hreturn).1, ?_⟩
  intro before hpre reconstructor remainder
  have hpending : Pending reconstructor remainder :=
    (reassembles buffer (allReturn_of_isPrefix hpre hreturn)).2
  refine ⟨hpending.bytes,
    framing.next_eq_none_iff.mp (framing.next_pending before.flatten),
    hpending.bounded, ?_⟩
  intro chunk
  refine ⟨?_, fun exception => recieve_error⟩
  rw [← not_le, ← hpending.recieve_returns_iff chunk]
  cases (reconstructor.recieve chunk).1 <;> simp

theorem allReturn_of_length_le (buffer : Memory)
    {chunks : List (List UInt8)}
    (hfits : chunks.flatten.length ≤ bufferSize) :
    AllReturn buffer chunks := by
  rw [allReturn_iff]
  rintro before chunk ⟨later, rfl⟩
  have hle := (framing.pending_suffix before.flatten).length_le
  simp only [List.flatten_append, List.flatten_singleton,
    List.length_append] at hfits
  omega

/-- Two frames, the first with an empty body, in three chunks that cut both
headers. -/
theorem chunking_independence_three_chunks :
    reportedFrames (fun _ => 0) [[0, 0, 9], [1, 2], [0, 1, 1, 7, 8, 5]] =
      (framing.split
        ([[0, 0, 9], [1, 2], [0, 1, 1, 7, 8, 5]] :
          List (List UInt8)).flatten).1 :=
  (chunking_independence (fun _ => 0) [[0, 0, 9], [1, 2], [0, 1, 1, 7, 8, 5]]
    (allReturn_of_length_le _ (by decide))).1

end MessageReconstructor

end Slipstream
