import CydMonitor.Device.LinkSteps
import CydMonitor.Lib.IdleScan

/-!
# Ticks over an idle stream (`firmware/domain/src/host_feed.cpp`)

The loop of `HostFeed::Tick` touches the stream only; what happens to a result is the rest of the
feed and its control handler, which leave the stream alone. A loop that ends with nothing buffered,
or before the idle time, ended by its own condition.
-/

namespace CydMonitor.Device

open Codec Framing

namespace HostFeed

/-- The results that the loop of `Tick` hands on, and the stream after it. -/
def tickResults (now lastPushMs : UInt64) : ℕ → Cpp.FrameStream → List Result × Cpp.FrameStream
  | 0, stream => ([], stream)
  | rounds + 1, stream =>
    if stream.buffer.length > 0 ∧ now - lastPushMs ≥ kPartialFrameIdleMs then
      let r := drain stream.dropLeadingByte
      let t := tickResults now lastPushMs rounds r.2
      (r.1 ++ t.1, t.2)
    else ([], stream)

/-- What a tick owes: late, the results of the frames of the scan that does not wait, and an empty
stream; early, nothing. -/
def TickOwes (now lastPushMs : UInt64) (stream : Cpp.FrameStream) (delivered : List Result)
    (after : Cpp.FrameStream) : Prop :=
  (lastPushMs.toNat + 250 ≤ now.toNat → ∃ frames n,
    IdleScan frameRule stream.buffer frames n ∧
      (∀ frames' n', IdleScan frameRule stream.buffer frames' n' → frames' = frames ∧ n' = n) ∧
      delivered = frames.map Cpp.decode ∧
      after = { buffer := [], droppedBytes := stream.droppedBytes + n }) ∧
  (lastPushMs ≤ now → now.toNat < lastPushMs.toNat + 250 → delivered = [] ∧ after = stream)

theorem wait_of_drain (stream : Cpp.FrameStream) :
    frameLook (drain stream).2.buffer = .wait := by
  obtain ⟨_, _, _, _, _, hwait⟩ :=
    deviceFramer_follows.drain_scan (s := stream) (Nat.lt_succ_self stream.buffer.length)
  exact hwait

theorem tickResults_late {now lastPushMs : UInt64} (h : lastPushMs.toNat + 250 ≤ now.toNat)
    (rounds : ℕ) (stream : Cpp.FrameStream) :
    tickResults now lastPushMs rounds stream =
      deviceFramer.drainIdle Cpp.FrameStream.dropLeadingByte Cpp.FrameStream.buffer rounds
        stream := by
  have hidle : now - lastPushMs ≥ kPartialFrameIdleMs := by
    have hle : lastPushMs ≤ now := UInt64.le_iff_toNat_le.mpr (by omega)
    rw [ge_iff_le, UInt64.le_iff_toNat_le, UInt64.toNat_sub_of_le _ _ hle]
    have h250 : kPartialFrameIdleMs.toNat = 250 := rfl
    omega
  induction rounds generalizing stream with
  | zero => rfl
  | succ rounds ih =>
    rw [tickResults, Framer.drainIdle]
    by_cases hlen : stream.buffer.length > 0
    · rw [if_pos ⟨hlen, hidle⟩, if_pos hlen]
      simp only [ih]
      rfl
    · rw [if_neg (fun h => hlen h.1), if_neg hlen]

theorem tickResults_early {now lastPushMs : UInt64} (hle : lastPushMs ≤ now)
    (h : now.toNat < lastPushMs.toNat + 250) (rounds : ℕ) (stream : Cpp.FrameStream) :
    tickResults now lastPushMs rounds stream = ([], stream) := by
  have hidle : ¬now - lastPushMs ≥ kPartialFrameIdleMs := by
    rw [ge_iff_le, UInt64.le_iff_toNat_le, UInt64.toNat_sub_of_le _ _ hle]
    have h250 : kPartialFrameIdleMs.toNat = 250 := rfl
    omega
  cases rounds with
  | zero => rfl
  | succ rounds => rw [tickResults, if_neg (fun hc => hidle hc.2)]

theorem dropLeadingByte_buffer (s : Cpp.FrameStream) (b : UInt8) (l : List UInt8)
    (h : s.buffer = b :: l) : s.dropLeadingByte.buffer = l := by
  rw [Cpp.FrameStream.dropLeadingByte, h]

theorem dropLeadingByte_droppedBytes (s : Cpp.FrameStream) (h : s.buffer ≠ []) :
    s.dropLeadingByte.droppedBytes = s.droppedBytes + 1 := by
  obtain ⟨b, l, hl⟩ := List.exists_cons_of_ne_nil h
  rw [Cpp.FrameStream.dropLeadingByte, hl]

/-- The loop of `Tick` from where the framing rules wait. -/
theorem tickOwes_of_wait (now lastPushMs : UInt64) {stream : Cpp.FrameStream}
    (hwait : frameLook stream.buffer = .wait) :
    TickOwes now lastPushMs stream
      (tickResults now lastPushMs stream.buffer.length stream).1
      (tickResults now lastPushMs stream.buffer.length stream).2 := by
  constructor
  · intro hlate
    rw [tickResults_late hlate]
    obtain ⟨frames, n, hscan, hout, hempty, hdropped⟩ :=
      deviceFramer_follows.drainIdle_scan dropLeadingByte_buffer dropLeadingByte_droppedBytes
        hwait (Nat.le_refl stream.buffer.length)
    refine ⟨frames, n, hscan, fun _ _ h => h.unique hscan, hout, ?_⟩
    generalize deviceFramer.drainIdle _ _ _ stream = r at *
    obtain ⟨_, buffer, dropped⟩ := r
    exact congrArg₂ Cpp.FrameStream.mk hempty hdropped
  · intro hle hearly
    rw [tickResults_early hle hearly]
    exact ⟨rfl, rfl⟩

theorem wait_of_tickResults (now lastPushMs : UInt64) (rounds : ℕ) {stream : Cpp.FrameStream}
    (hwait : frameLook stream.buffer = .wait) :
    frameLook (tickResults now lastPushMs rounds stream).2.buffer = .wait := by
  induction rounds generalizing stream with
  | zero => exact hwait
  | succ rounds ih =>
    rw [tickResults]
    split_ifs
    · exact ih (wait_of_drain _)
    · exact hwait

end HostFeed

/-- A feed: its stream, and all that its results are handled in. -/
structure Feed (σ : Type) where
  stream : Cpp.FrameStream := {}
  lastPushMs : UInt64 := 0
  rest : σ

/-- A call of a feed; the calls that leave the stream alone change the rest. -/
inductive FeedCall (σ : Type) where
  | push (now : UInt64) (bytes : List UInt8)
  | tick (now : UInt64)
  | other (change : σ → σ)

/-- What a feed does besides framing: how it handles a result, and `Advance`. -/
structure Handlers (σ : Type) where
  onResult : UInt64 → Result → σ → σ
  advance : UInt64 → σ → σ

namespace Feed

variable {σ : Type} (handlers : Handlers σ) (now : UInt64)

/-- `Drain` -/
def drain (f : Feed σ) : Feed σ :=
  let (results, stream) := HostFeed.drain f.stream
  { f with
    stream, rest := results.foldl (fun rest result => handlers.onResult now result rest) f.rest }

def push (bytes : List UInt8) (f : Feed σ) : Feed σ :=
  drain handlers now { f with stream := f.stream.push bytes, lastPushMs := now }

/-- The loop of `Tick`; each round drops a byte, so the buffer bounds it. -/
def dropPartial : ℕ → Feed σ → Feed σ
  | 0, f => f
  | rounds + 1, f =>
    if f.stream.buffer.length > 0 ∧ now - f.lastPushMs ≥ kPartialFrameIdleMs then
      dropPartial rounds (drain handlers now { f with stream := f.stream.dropLeadingByte })
    else f

def tick (f : Feed σ) : Feed σ :=
  dropPartial handlers now f.stream.buffer.length { f with rest := handlers.advance now f.rest }

def call (f : Feed σ) : FeedCall σ → Feed σ
  | .push now bytes => f.push handlers now bytes
  | .tick now => f.tick handlers now
  | .other change => { f with rest := change f.rest }

/-- The loop of `Tick` handles the results that it hands on, one after another. -/
theorem dropPartial_eq (rounds : ℕ) (f : Feed σ) :
    dropPartial handlers now rounds f =
      { f with
        stream := (HostFeed.tickResults now f.lastPushMs rounds f.stream).2
        rest := (HostFeed.tickResults now f.lastPushMs rounds f.stream).1.foldl
          (fun rest result => handlers.onResult now result rest) f.rest } := by
  induction rounds generalizing f with
  | zero => rfl
  | succ rounds ih =>
    rw [dropPartial, HostFeed.tickResults]
    split_ifs
    · rw [ih]
      simp only [drain, List.foldl_append]
    · rfl

theorem wait_call {f : Feed σ} (h : frameLook f.stream.buffer = .wait) (c : FeedCall σ) :
    frameLook (f.call handlers c).stream.buffer = .wait := by
  cases c with
  | push now bytes => exact HostFeed.wait_of_drain _
  | tick now =>
    rw [call, tick, dropPartial_eq]
    exact HostFeed.wait_of_tickResults _ _ _ h
  | other change => exact h

theorem wait_run {f : Feed σ} (h : frameLook f.stream.buffer = .wait) (calls : List (FeedCall σ)) :
    frameLook (calls.foldl (call handlers) f).stream.buffer = .wait := by
  induction calls generalizing f with
  | nil => exact h
  | cons c calls ih => exact ih (wait_call handlers h c)

end Feed

/-- The result that an action handles. -/
def Action.result? : Action → Option Result
  | .frame _ result => some result
  | _ => none

namespace HostLink

theorem results_drainActions (now lastPushMs : UInt64) (stream : Cpp.FrameStream) :
    (drainActions now lastPushMs stream).filterMap Action.result? = (HostFeed.drain stream).1 := by
  rw [drainActions, List.filterMap_cons_none rfl, List.filterMap_map]
  exact List.filterMap_some

theorem results_partialActions (now lastPushMs : UInt64) (rounds : ℕ) (stream : Cpp.FrameStream) :
    (partialActions now lastPushMs rounds stream).filterMap Action.result? =
      (HostFeed.tickResults now lastPushMs rounds stream).1 := by
  induction rounds generalizing stream with
  | zero => rfl
  | succ rounds ih =>
    rw [partialActions, HostFeed.tickResults]
    split_ifs
    · rw [List.filterMap_append, results_drainActions, ih]
    · rfl

theorem results_tick (now : UInt64) (l : HostLink) :
    (l.actions (.tick now)).filterMap Action.result? =
      (HostFeed.tickResults now l.feed.lastPushMs l.feed.stream.buffer.length l.feed.stream).1 := by
  rw [actions, List.filterMap_append, List.filterMap_cons_none rfl, results_partialActions]
  exact List.append_nil _

theorem decline_feed (l : HostLink) : l.decline.feed = l.feed := by
  rw [decline, sendError, send_feed]

theorem dropPartial_stream (now : UInt64) (rounds : ℕ) (l : HostLink) :
    (l.dropPartial now rounds).feed.stream =
      (HostFeed.tickResults now l.feed.lastPushMs rounds l.feed.stream).2 := by
  induction rounds generalizing l with
  | zero => rfl
  | succ rounds ih =>
    rw [dropPartial, HostFeed.tickResults]
    split_ifs
    · obtain ⟨hstream, hpush⟩ := drain_stream now
        { l with feed := { l.feed with stream := l.feed.stream.dropLeadingByte } }
      rw [ih, hstream, hpush]
    · rfl

theorem expire_feed (now : UInt64) (l : HostLink) : (l.expire now).feed = l.feed := by
  rw [expire]
  split_ifs
  · rw [confirmPairing]
    split_ifs
    · rfl
    · exact decline_feed l
    · contradiction
  · rfl

theorem tick_stream (now : UInt64) (l : HostLink) :
    (l.tick now).feed.stream =
      (HostFeed.tickResults now l.feed.lastPushMs l.feed.stream.buffer.length l.feed.stream).2 := by
  rw [tick, expire_feed, dropPartial_stream]

theorem confirmPairing_stream (accepted : Bool) (l : HostLink) :
    (l.confirmPairing accepted).feed.stream = l.feed.stream := by
  rw [confirmPairing]
  split_ifs
  · rfl
  · rw [decline_feed]
  · dsimp only
    split_ifs
    · rw [decline_feed]
    · rw [openSession, send_feed]
      rfl

theorem closeSession_stream (l : HostLink) : l.closeSession.feed.stream = l.feed.stream := rfl

theorem wait_call {l : HostLink} (h : frameLook l.feed.stream.buffer = .wait) (c : Call) :
    frameLook (l.call c).feed.stream.buffer = .wait := by
  cases c with
  | push now bytes =>
    obtain ⟨hstream, -⟩ := drain_stream now
      { l with feed := { l.feed with stream := l.feed.stream.push bytes, lastPushMs := now } }
    rw [call, push, hstream]
    exact HostFeed.wait_of_drain _
  | tick now =>
    rw [call, tick_stream]
    exact HostFeed.wait_of_tickResults _ _ _ h
  | confirmPairing accepted =>
    rw [call, confirmPairing_stream]
    exact h
  | unpair =>
    rw [call, unpair, closeSession_stream]
    exact h
  | takeOutgoing => exact h
  | setCalibrationResetHandler handler => exact h

theorem wait_run {l : HostLink} (h : frameLook l.feed.stream.buffer = .wait) (calls : List Call) :
    frameLook (calls.foldl call l).feed.stream.buffer = .wait := by
  induction calls generalizing l with
  | nil => exact h
  | cons c calls ih => exact ih (wait_call h c)

end HostLink

/-- In every run of a feed, whatever handles its results, and in every run of the link, a tick
hands on what it owes, each result once and in order. -/
theorem tick_drains_idle :
    (∀ (σ : Type) (handlers : Handlers σ) (rest : σ) (calls : List (FeedCall σ)) (now : UInt64),
      let f := calls.foldl (Feed.call handlers) { rest }
      ∃ delivered, HostFeed.TickOwes now f.lastPushMs f.stream delivered
          (f.tick handlers now).stream ∧
        (f.tick handlers now).rest = delivered.foldl
          (fun rest result => handlers.onResult now result rest) (handlers.advance now f.rest)) ∧
    ∀ (store : PairingStore) (bootIdentity : UInt32) (calls : List Call) (now : UInt64),
      let l := calls.foldl HostLink.call (.new store bootIdentity)
      HostFeed.TickOwes now l.feed.lastPushMs l.feed.stream
          ((l.actions (.tick now)).filterMap Action.result?) (l.tick now).feed.stream ∧
        l.tick now = (l.actions (.tick now)).foldl HostLink.step l := by
  constructor
  · intro σ handlers rest calls now f
    have hwait : frameLook f.stream.buffer = .wait := Feed.wait_run handlers rfl calls
    have howes := HostFeed.tickOwes_of_wait now f.lastPushMs hwait
    rw [Feed.tick, Feed.dropPartial_eq]
    exact ⟨_, howes, rfl⟩
  · intro store bootIdentity calls now l
    have hwait : frameLook l.feed.stream.buffer = .wait := HostLink.wait_run rfl calls
    refine ⟨?_, call_eq l (.tick now)⟩
    rw [HostLink.results_tick, HostLink.tick_stream]
    exact HostFeed.tickOwes_of_wait now l.feed.lastPushMs hwait

end CydMonitor.Device
