import CydMonitor.Codec.Framing
import CydMonitor.Device.HostLink
import CydMonitor.Lib.Trace

/-!
# Runs of the device's link

A call of `HostLink` is a few actions: one for each frame it handles, and those
around them. What the handlers leave alone is stated once, field by field.
-/

namespace CydMonitor.Device

open Trace

/-- A call of the link's owner. -/
inductive Call where
  | push (now : UInt64) (bytes : List UInt8)
  | tick (now : UInt64)
  | confirmPairing (accepted : Bool)
  | unpair
  | takeOutgoing
  | setCalibrationResetHandler (handler : ℕ → Bool)

/-- What a call does, one action after another. -/
inductive Action where
  | frame (now : UInt64) (result : Result)
  | buffer (stream : Cpp.FrameStream) (lastPushMs : UInt64)
  | advance (now : UInt64)
  | expire (now : UInt64)
  | confirmPairing (accepted : Bool)
  | unpair
  | takeOutgoing
  | setCalibrationResetHandler (handler : ℕ → Bool)

namespace HostLink

def call (l : HostLink) : Call → HostLink
  | .push now bytes => l.push now bytes
  | .tick now => l.tick now
  | .confirmPairing accepted => l.confirmPairing accepted
  | .unpair => l.unpair
  | .takeOutgoing => l.takeOutgoing.2
  | .setCalibrationResetHandler handler => l.setCalibrationResetHandler handler

def step (l : HostLink) : Action → HostLink
  | .frame now result => l.onFrame now result
  | .buffer stream lastPushMs => { l with feed := { l.feed with stream, lastPushMs } }
  | .advance now => { l with feed := { l.feed with reducer := l.feed.reducer.advance now } }
  | .expire now => l.expire now
  | .confirmPairing accepted => l.confirmPairing accepted
  | .unpair => l.unpair
  | .takeOutgoing => l.takeOutgoing.2
  | .setCalibrationResetHandler handler => l.setCalibrationResetHandler handler

/-- The actions of `Drain` from a stream and the time of the last push. -/
def drainActions (now lastPushMs : UInt64) (stream : Cpp.FrameStream) : List Action :=
  .buffer (HostFeed.drain stream).2 lastPushMs :: (HostFeed.drain stream).1.map (.frame now)

/-- The actions of the loop of `Tick`. -/
def partialActions (now lastPushMs : UInt64) : ℕ → Cpp.FrameStream → List Action
  | 0, _ => []
  | rounds + 1, stream =>
    if stream.buffer.length > 0 ∧ now - lastPushMs ≥ kPartialFrameIdleMs then
      drainActions now lastPushMs stream.dropLeadingByte ++
        partialActions now lastPushMs rounds (HostFeed.drain stream.dropLeadingByte).2
    else []

def actions (l : HostLink) : Call → List Action
  | .push now bytes => drainActions now now (l.feed.stream.push bytes)
  | .tick now => .advance now ::
      partialActions now l.feed.lastPushMs l.feed.stream.buffer.length l.feed.stream ++
        [.expire now]
  | .confirmPairing accepted => [.confirmPairing accepted]
  | .unpair => [.unpair]
  | .takeOutgoing => [.takeOutgoing]
  | .setCalibrationResetHandler handler => [.setCalibrationResetHandler handler]

/-- The actions of a sequence of calls. -/
def runActions (l : HostLink) : List Call → List Action
  | [] => []
  | c :: calls => l.actions c ++ runActions (l.call c) calls

/-- The moments of a sequence of calls. -/
def run (l : HostLink) (calls : List Call) : List (Moment HostLink Action) :=
  moments step l (l.runActions calls)

theorem map_action_run (l : HostLink) (calls : List Call) :
    (l.run calls).map Moment.action = l.runActions calls := by
  rw [run, map_action_moments]

section Send

variable (l : HostLink) (e : Cpp.Envelope)

/-- What a handler may change by sending. -/
theorem send_eq : ∃ outgoing, l.send e = { l with txSequence := l.txSequence + 1, outgoing } := by
  rw [send]
  cases Cpp.encode { e with sequence := l.txSequence + 1 } with
  | error err => exact ⟨l.outgoing, rfl⟩
  | ok frame => exact ⟨enqueue l.outgoing frame, rfl⟩

@[simp] theorem send_store : (l.send e).store = l.store := by
  obtain ⟨_, h⟩ := send_eq l e; rw [h]

@[simp] theorem send_feed : (l.send e).feed = l.feed := by
  obtain ⟨_, h⟩ := send_eq l e; rw [h]

@[simp] theorem send_phase : (l.send e).phase = l.phase := by
  obtain ⟨_, h⟩ := send_eq l e; rw [h]

@[simp] theorem send_diagnostics : (l.send e).diagnostics = l.diagnostics := by
  obtain ⟨_, h⟩ := send_eq l e; rw [h]

@[simp] theorem send_txSequence : (l.send e).txSequence = l.txSequence + 1 := by
  obtain ⟨_, h⟩ := send_eq l e; rw [h]

@[simp] theorem send_pendingHost : (l.send e).pendingHost = l.pendingHost := by
  obtain ⟨_, h⟩ := send_eq l e; rw [h]

@[simp] theorem send_pendingSession : (l.send e).pendingSession = l.pendingSession := by
  obtain ⟨_, h⟩ := send_eq l e; rw [h]

@[simp] theorem send_pendingCode : (l.send e).pendingCode = l.pendingCode := by
  obtain ⟨_, h⟩ := send_eq l e; rw [h]

@[simp] theorem send_session : (l.send e).session = l.session := by
  obtain ⟨_, h⟩ := send_eq l e; rw [h]

@[simp] theorem send_cachedCommand : (l.send e).cachedCommand = l.cachedCommand := by
  obtain ⟨_, h⟩ := send_eq l e; rw [h]

@[simp] theorem send_cachedResult : (l.send e).cachedResult = l.cachedResult := by
  obtain ⟨_, h⟩ := send_eq l e; rw [h]

@[simp] theorem send_calibrationReset : (l.send e).calibrationReset = l.calibrationReset := by
  obtain ⟨_, h⟩ := send_eq l e; rw [h]

@[simp] theorem send_resets : (l.send e).resets = l.resets := by
  obtain ⟨_, h⟩ := send_eq l e; rw [h]

end Send

end HostLink

end CydMonitor.Device
