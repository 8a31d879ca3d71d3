import Slipstream.NetworkMessageReceiver

/-!
# The heartbeat timeout

The thread of a receiver receives in a loop and after each receive compares
its clock with the latest heartbeat.  Both are unsigned, and heartbeats are
stamped by the peer: when the latest one is ahead of the local clock their
difference wraps around and the connection is given up at once, unless the
timeout is as large as the wrapped difference.
-/

namespace Slipstream

open PackedBytes

namespace NetworkMessageReceiver

def heartbeatStale (receiver : NetworkMessageReceiver)
    (heartbeatTimeoutMs now : UInt64) : Bool :=
  now - receiver.lastHeartbeat > heartbeatTimeoutMs

/-! ## The latest heartbeat -/

def heartbeatTime? : MDMessage → Option ℕ
  | .heartbeat hb => some hb.timestamp.toNat
  | _ => none

/-- The maximum of the construction time and the heartbeats received. -/
def latestHeartbeat (constructed : UInt64) (messages : List MDMessage) : ℕ :=
  (messages.filterMap heartbeatTime?).foldl max constructed.toNat

theorem latestHeartbeat_concat (constructed : UInt64)
    (messages : List MDMessage) (message : MDMessage) :
    latestHeartbeat constructed (messages ++ [message]) =
      (heartbeatTime? message).toList.foldl max
        (latestHeartbeat constructed messages) := by
  rw [latestHeartbeat, List.filterMap_append, List.foldl_append]
  cases message <;> rfl

/-- The receiver remembers the latest heartbeat. -/
def Tracks (constructed : UInt64) (receiver : NetworkMessageReceiver) :
    Prop :=
  receiver.lastHeartbeat.toNat =
    latestHeartbeat constructed receiver.messageQueue

theorem tracks_initial (buffer : Memory) (constructed : UInt64) :
    Tracks constructed (initial buffer constructed) := rfl

section Tracks

variable {constructed : UInt64} {receiver : NetworkMessageReceiver}
  (htracks : Tracks constructed receiver)
include htracks

theorem Tracks.push (message : MDMessage) :
    Tracks constructed (receiver.push message) := by
  rw [Tracks, push_messageQueue, latestHeartbeat_concat, ← htracks]
  cases message with
  | heartbeat hb =>
      have hmax : (receiver.push (.heartbeat hb)).lastHeartbeat =
          if receiver.lastHeartbeat < hb.timestamp then hb.timestamp
          else receiver.lastHeartbeat := rfl
      rw [hmax]
      simp only [heartbeatTime?, Option.toList_some, List.foldl_cons,
        List.foldl_nil]
      split
      next hlater =>
        rw [UInt64.lt_iff_toNat_lt] at hlater
        exact (max_eq_right hlater.le).symm
      next hearlier =>
        rw [UInt64.lt_iff_toNat_lt, not_lt] at hearlier
        exact (max_eq_left hearlier).symm
  | quote quote => rfl
  | trade trade => rfl
  | sessionControl control => rfl

theorem Tracks.deliver (memory : Memory) (ptr count : ℕ) :
    Tracks constructed
      (NetworkMessageReceiver.deliver memory ptr count receiver).2 := by
  induction count generalizing ptr receiver with
  | zero => exact htracks
  | succ count ih =>
      rw [NetworkMessageReceiver.deliver]
      split
      next => exact htracks
      next message hmessage => exact ih (htracks.push message) _

theorem Tracks.tryReceive (networkBuffer : List UInt8) :
    Tracks constructed (receiver.tryReceive networkBuffer).2 := by
  unfold NetworkMessageReceiver.tryReceive
  split
  next => exact htracks
  next =>
    split
    next => exact htracks
    next received messageReconstructor hcall =>
      have hkept : Tracks constructed
          { receiver with messageReconstructor := messageReconstructor } :=
        htracks
      dsimp only
      split
      next => exact hkept
      next => exact hkept.deliver _ _ _

end Tracks

/-! ## One comparison -/

theorem heartbeatStale_iff (receiver : NetworkMessageReceiver)
    (heartbeatTimeoutMs now : UInt64) :
    receiver.heartbeatStale heartbeatTimeoutMs now = true ↔
      heartbeatTimeoutMs.toNat <
        (2 ^ 64 - receiver.lastHeartbeat.toNat + now.toNat) % 2 ^ 64 := by
  rw [heartbeatStale, decide_eq_true_iff, gt_iff_lt,
    UInt64.lt_iff_toNat_lt, UInt64.toNat_sub]

/-- A comparison is right unless the clock is behind the latest heartbeat
and the wrapped difference exceeds the timeout. -/
theorem heartbeatStale_exact_iff (receiver : NetworkMessageReceiver)
    (heartbeatTimeoutMs now : UInt64) :
    (receiver.heartbeatStale heartbeatTimeoutMs now = true →
        receiver.lastHeartbeat.toNat + heartbeatTimeoutMs.toNat <
          now.toNat) ↔
      (now.toNat < receiver.lastHeartbeat.toNat →
        2 ^ 64 ≤ receiver.lastHeartbeat.toNat - now.toNat +
          heartbeatTimeoutMs.toNat) := by
  have hlast := receiver.lastHeartbeat.toNat_lt
  have hnow := now.toNat_lt
  rw [heartbeatStale_iff]
  rcases Nat.lt_or_ge now.toNat receiver.lastHeartbeat.toNat with
    hbehind | hahead
  · have hwrapped : 2 ^ 64 - receiver.lastHeartbeat.toNat + now.toNat <
        2 ^ 64 := by omega
    rw [Nat.mod_eq_of_lt hwrapped]
    omega
  · have hpassed : (2 ^ 64 - receiver.lastHeartbeat.toNat + now.toNat) %
        2 ^ 64 = now.toNat - receiver.lastHeartbeat.toNat := by omega
    rw [hpassed]
    omega

end NetworkMessageReceiver

/-! ## The loop of the receiver thread -/

/-- A receiver with the thread that executes its `run`.  When `run` is left
the shutdown signal has been triggered. -/
structure ReceiverRun where
  receiver : NetworkMessageReceiver
  shouldStop : Bool
  connectionShutdown : Bool
  returned : Bool

namespace ReceiverRun

open NetworkMessageReceiver

def initial (buffer : Memory) (constructed : UInt64) : ReceiverRun where
  receiver := NetworkMessageReceiver.initial buffer constructed
  shouldStop := false
  connectionShutdown := false
  returned := false

def shutdown (thread : ReceiverRun) : ReceiverRun :=
  { thread with connectionShutdown := true, shouldStop := true }

/-- Another thread calls `shutdown`, or the loop goes round once:
`receiveBuffer` gives bytes or throws, and the clock is read after them. -/
inductive Turn where
  | shutdown
  | round (received : Except Exception (List UInt8)) (now : UInt64)

/-- A call of `heartbeatStale`, with the receiver and the clock it uses. -/
structure Reading where
  receiver : NetworkMessageReceiver
  now : UInt64

def Reading.stale (heartbeatTimeoutMs : UInt64) (reading : Reading) : Bool :=
  reading.receiver.heartbeatStale heartbeatTimeoutMs reading.now

def round (heartbeatTimeoutMs : UInt64) (thread : ReceiverRun)
    (received : Except Exception (List UInt8)) (now : UInt64) :
    ReceiverRun × Option Reading :=
  match received with
  | .error _ => ({ thread with returned := true }, none)
  | .ok networkBuffer =>
      match thread.receiver.tryReceive networkBuffer with
      | (.error _, receiver) =>
          ({ thread with receiver := receiver, returned := true }, none)
      | (.ok (), receiver) =>
          let thread := { thread with receiver := receiver }
          if receiver.heartbeatStale heartbeatTimeoutMs now then
            ({ thread.shutdown with returned := true },
              some ⟨receiver, now⟩)
          else (thread, some ⟨receiver, now⟩)

def step (heartbeatTimeoutMs : UInt64) (thread : ReceiverRun) :
    Turn → ReceiverRun × Option Reading
  | .shutdown => (thread.shutdown, none)
  | .round received now =>
      if thread.returned then (thread, none)
      else if thread.shouldStop then
        ({ thread with returned := true }, none)
      else thread.round heartbeatTimeoutMs received now

def readings (heartbeatTimeoutMs : UInt64) (thread : ReceiverRun)
    (turns : List Turn) : List Reading :=
  (RunHistory.outputs (step heartbeatTimeoutMs) thread turns).reduceOption

section Step

variable {constructed : UInt64} {thread : ReceiverRun}
  (htracks : Tracks constructed thread.receiver)
  (heartbeatTimeoutMs : UInt64)
include htracks

theorem round_tracks (received : Except Exception (List UInt8))
    (now : UInt64) :
    let outcome := thread.round heartbeatTimeoutMs received now
    Tracks constructed outcome.1.receiver ∧
      ∀ reading ∈ outcome.2, Tracks constructed reading.receiver := by
  cases received with
  | error exception => exact ⟨htracks, by simp [round]⟩
  | ok networkBuffer =>
      have hreceived := htracks.tryReceive networkBuffer
      cases hcall : thread.receiver.tryReceive networkBuffer with
      | mk result receiver =>
          rw [hcall] at hreceived
          cases result with
          | error exception =>
              simp only [round, hcall]
              exact ⟨hreceived, by simp⟩
          | ok =>
              simp only [round, hcall]
              split
              · exact ⟨hreceived, by simpa using hreceived⟩
              · exact ⟨hreceived, by simpa using hreceived⟩

theorem step_tracks (turn : Turn) :
    let outcome := step heartbeatTimeoutMs thread turn
    Tracks constructed outcome.1.receiver ∧
      ∀ reading ∈ outcome.2, Tracks constructed reading.receiver := by
  cases turn with
  | shutdown => exact ⟨htracks, by simp [step]⟩
  | round received now =>
      simp only [step]
      split
      next => exact ⟨htracks, by simp⟩
      next =>
        split
        next => exact ⟨htracks, by simp⟩
        next => exact round_tracks htracks heartbeatTimeoutMs received now

theorem readings_track (turns : List Turn) :
    ∀ reading ∈ readings heartbeatTimeoutMs thread turns,
      Tracks constructed reading.receiver := by
  induction turns generalizing thread with
  | nil => simp [readings]
  | cons turn rest ih =>
      rcases step_tracks htracks heartbeatTimeoutMs turn with
        ⟨hnext, hreading⟩
      intro reading hmem
      rw [readings, RunHistory.outputs_cons] at hmem
      cases houtput : (step heartbeatTimeoutMs thread turn).2 with
      | none =>
          rw [houtput, List.reduceOption_cons_of_none] at hmem
          exact ih hnext reading hmem
      | some first =>
          rw [houtput, List.reduceOption_cons_of_some] at hmem
          rcases List.mem_cons.mp hmem with rfl | hlater
          · exact hreading reading houtput
          · exact ih hnext reading hlater

end Step

/-- In a run staleness is never declared early if and only if no clock
reading is so far behind the latest heartbeat that the wrapped difference
exceeds the timeout. -/
theorem never_stale_early_iff (buffer : Memory)
    (constructed heartbeatTimeoutMs : UInt64) (turns : List Turn) :
    (∀ reading ∈ readings heartbeatTimeoutMs (initial buffer constructed)
        turns,
      reading.stale heartbeatTimeoutMs = true →
        latestHeartbeat constructed reading.receiver.messageQueue +
          heartbeatTimeoutMs.toNat < reading.now.toNat) ↔
      ∀ reading ∈ readings heartbeatTimeoutMs (initial buffer constructed)
          turns,
        reading.now.toNat <
            latestHeartbeat constructed reading.receiver.messageQueue →
          2 ^ 64 ≤
            latestHeartbeat constructed reading.receiver.messageQueue -
              reading.now.toNat + heartbeatTimeoutMs.toNat := by
  refine forall₂_congr fun reading hreading => ?_
  rw [← readings_track (tracks_initial buffer constructed)
    heartbeatTimeoutMs turns reading hreading]
  exact heartbeatStale_exact_iff reading.receiver heartbeatTimeoutMs
    reading.now

/-! ## A heartbeat from a clock that is ahead -/

theorem tryReceive_heartbeat (buffer : Memory) (constructed : UInt64)
    (heartbeat : Heartbeat) :
    ∃ receiver,
      (NetworkMessageReceiver.initial buffer constructed).tryReceive
          (GCMDSerialiser.frame (.heartbeat heartbeat)) =
        (.ok (), receiver) ∧
      receiver.messageQueue = [.heartbeat heartbeat] := by
  have hkinds : ∀ message ∈ [MDMessage.heartbeat heartbeat],
      Decodes message := by
    simp [Decodes, GCMDSerialiser.messageType]
  have hlength : (GCMDSerialiser.frame (.heartbeat heartbeat)).length = 12 :=
    rfl
  have hchunks : ∀ chunk ∈ [GCMDSerialiser.frame (.heartbeat heartbeat)],
      chunk ≠ [] ∧ chunk.length ≤ maxChunkSize := by
    intro chunk hchunk
    rw [List.mem_singleton.mp hchunk, ← List.length_pos_iff, hlength]
    decide
  rcases after_progress hkinds rfl hchunks buffer
      constructed List.prefix_rfl with ⟨hresults, hprogress⟩
  have hwhole := framing.split_flatten
    (forall_isFrame [MDMessage.heartbeat heartbeat])
  have hqueued := hprogress.queued
  rw [hwhole] at hqueued
  refine ⟨_, Prod.ext (hresults _ List.mem_cons_self) rfl, ?_⟩
  refine hprogress.queue_isPrefix.eq_of_length ?_
  simpa using congrArg List.length hqueued

/-- One heartbeat, stamped a millisecond ahead of the local clock. -/
theorem closed_by_heartbeat_ahead :
    let thread := initial (fun _ => 0) 1000
    let turns : List Turn :=
      [.round (.ok (GCMDSerialiser.frame (.heartbeat ⟨1001⟩))) 1000]
    (¬ ∀ reading ∈ readings 5000 thread turns,
        reading.stale 5000 = true →
          latestHeartbeat 1000 reading.receiver.messageQueue + 5000 <
            reading.now.toNat) ∧
      (RunHistory.exec (step 5000) thread turns).connectionShutdown =
        true := by
  intro thread turns
  obtain ⟨receiver, hcall, hqueue⟩ :=
    tryReceive_heartbeat (fun _ => 0) 1000 ⟨1001⟩
  have htracks := (tracks_initial (fun _ => 0) 1000).tryReceive
    (GCMDSerialiser.frame (.heartbeat ⟨1001⟩))
  rw [hcall, Tracks, hqueue] at htracks
  have hlast : receiver.lastHeartbeat.toNat = 1001 := htracks
  have hstale : receiver.heartbeatStale 5000 1000 = true := by
    rw [heartbeatStale_iff, hlast]
    decide
  have hstep : step 5000 thread
      (.round (.ok (GCMDSerialiser.frame (.heartbeat ⟨1001⟩))) 1000) =
        ({ receiver := receiver, shouldStop := true
           connectionShutdown := true, returned := true },
          some ⟨receiver, 1000⟩) := by
    simp [step, round, thread, initial, hcall, hstale, shutdown]
  constructor
  · intro hexact
    have hearly : latestHeartbeat 1000 receiver.messageQueue + 5000 <
        (1000 : UInt64).toNat :=
      hexact ⟨receiver, 1000⟩ (by simp [readings, turns, hstep]) hstale
    rw [hqueue] at hearly
    exact absurd hearly (by decide)
  · simp [turns, hstep]

end ReceiverRun

end Slipstream
