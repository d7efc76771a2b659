import CydMonitor.Device.HostState
import CydMonitor.Lib.Framing

/-!
# From serial bytes to display state (`firmware/domain/src/host_feed.cpp`)

A `FrameStream::Result` is an `Except`. The control handler is the link's, so what is
not a snapshot is left to `HostLink`.
-/

namespace CydMonitor

abbrev Identity := Octets Cpp.kSessionIdBytes

namespace Cpp

/-- The receiver's gate (`protocol/core/cpp/protocol.cpp`). -/
structure SessionReceiver where
  session : Identity := Octets.zero kSessionIdBytes
  lastSequence : UInt32 := 0
  active : Bool := false

namespace SessionReceiver

def reset (session : Identity) : SessionReceiver := { session, lastSequence := 0, active := true }

/-- The gate's answer and the receiver after it. -/
def accept (d : Decoded) (r : SessionReceiver) : Option Error × SessionReceiver :=
  let r := if r.active then r else reset d.envelope.session
  if d.envelope.session ≠ r.session then (some .kWrongSession, r)
  else if d.envelope.sequence ≤ r.lastSequence then (some .kStaleSequence, r)
  else (none, { r with lastSequence := d.envelope.sequence })

end SessionReceiver

end Cpp

namespace Device

/-- What `FrameStream::Next` returns. -/
abbrev Result := Except Cpp.Error Cpp.Decoded

def kPartialFrameIdleMs : UInt64 := 250

structure FeedStats where
  applied : UInt32 := 0
  rejected : UInt32 := 0
  lastError : Option Cpp.Error := none

structure HostFeed where
  reducer : HostState := {}
  stream : Cpp.FrameStream := {}
  session : Cpp.SessionReceiver := {}
  stats : FeedStats := {}
  lastPushMs : UInt64 := 0
  explicitSession : Bool := false
  sessionOpen : Bool := false

namespace HostFeed

def startSession (session : Identity) (feed : HostFeed) : HostFeed :=
  { feed with session := .reset session, sessionOpen := true }

def requireExplicitSession (feed : HostFeed) : HostFeed := { feed with explicitSession := true }

def endSession (feed : HostFeed) : HostFeed := { feed with sessionOpen := false }

def applyHostUtc (now utcMs : UInt64) (localOffsetMinutes : Option ℤ) (feed : HostFeed) :
    HostFeed :=
  { feed with reducer := feed.reducer.setUtcAnchor utcMs now localOffsetMinutes }

/-- A rejected result is counted. -/
def reject (error : Cpp.Error) (feed : HostFeed) : HostFeed :=
  { feed with
    stats := { feed.stats with rejected := feed.stats.rejected + 1, lastError := some error } }

/-- The part of `Drain` for a decoding error, before the control handler. -/
def onError (error : Cpp.Error) (feed : HostFeed) : HostFeed :=
  reject error (if error = .kUnsupportedMajor then
    { feed with reducer := feed.reducer.markIncompatible } else feed)

/-- The part of `Drain` for a snapshot. -/
def onSnapshot (now : UInt64) (d : Cpp.Decoded) (feed : HostFeed) : HostFeed :=
  if feed.explicitSession ∧ !feed.sessionOpen then feed.reject .kWrongSession
  else
    let (gate, session) := feed.session.accept d
    let feed := { feed with session }
    match gate with
    | some error => feed.reject error
    | none =>
      let age := d.cpu.sourceAgeMs
      let reducer := feed.reducer.applySnapshot d now (agedTime now age)
      let reducer := match d.envelope.utcMs with
        | some utcMs => reducer.setUtcAnchor utcMs now d.envelope.localOffsetMinutes
        | none => reducer
      { feed with reducer, stats := { feed.stats with applied := feed.stats.applied + 1 } }

/-- The results of `while (stream_.Next(&result))`, and the stream after it. A result takes
bytes out of the buffer, so its length bounds the rounds. -/
def drain (stream : Cpp.FrameStream) : List Result × Cpp.FrameStream :=
  Framing.Framer.drain ⟨Cpp.FrameStream.push, Cpp.FrameStream.next⟩ (stream.buffer.length + 1)
    stream

end HostFeed

end Device

end CydMonitor
