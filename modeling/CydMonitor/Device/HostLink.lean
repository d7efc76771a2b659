import CydMonitor.Cpp.Encoder
import CydMonitor.Device.HostFeed

/-!
# The device side of the link (`firmware/domain/src/host_link.cpp`)

The pairing store is a register whose fallible operations succeed as given in advance;
one that fails leaves it as it is. The calibration-reset handler answers as given in
advance. A call reads the clock once.
-/

namespace CydMonitor.Device

/-- `PairingStore`: the `n`th save or clear succeeds when `succeeds n` says so. -/
structure PairingStore where
  deviceIdentity : Identity
  pairedHost : Option Identity
  succeeds : ℕ → Bool
  operations : ℕ := 0

namespace PairingStore

def savePairedHost (host : Identity) (s : PairingStore) : Bool × PairingStore :=
  (s.succeeds s.operations,
    { s with
      pairedHost := if s.succeeds s.operations then some host else s.pairedHost,
      operations := s.operations + 1 })

def clearPairedHost (s : PairingStore) : PairingStore :=
  { s with
    pairedHost := if s.succeeds s.operations then none else s.pairedHost,
    operations := s.operations + 1 }

end PairingStore

inductive LinkPhase where
  | kIdle | kNegotiated | kAwaitingConfirmation | kSessionOpen | kIncompatible
  deriving DecidableEq, Repr

inductive LinkFault where
  | kNone | kIncompatibleMajor | kNotPairedWithHost | kDeclined
  deriving DecidableEq, Repr

inductive LinkErrorCode where
  | kIncompatible | kNotPairedWithYou | kDeclined | kBadRequest
  deriving DecidableEq, Repr

def LinkErrorCode.code : LinkErrorCode → UInt8
  | .kIncompatible => 1
  | .kNotPairedWithYou => 2
  | .kDeclined => 3
  | .kBadRequest => 4

def kPairingConfirmTimeoutMs : UInt64 := 60000

def kMaxQueuedFrames : ℕ := 8

def kMaxMatchingCode : UInt32 := 999999

def kZeroIdentity : Identity := Octets.zero Cpp.kSessionIdBytes

structure LinkDiagnostics where
  supportedMajor : UInt8 := 1
  supportedMinor : UInt8 := 0
  hostMajor : Option UInt8 := none
  hostMinor : Option UInt8 := none
  negotiatedMinor : Option UInt8 := none
  fault : LinkFault := .kNone

structure HostLink where
  store : PairingStore
  feed : HostFeed
  phase : LinkPhase := .kIdle
  diagnostics : LinkDiagnostics := {}
  outgoing : List (List UInt8) := []
  txSequence : UInt32 := 0
  pendingHost : Identity := kZeroIdentity
  pendingSession : Identity := kZeroIdentity
  pendingCode : UInt32 := 0
  pendingSinceMs : UInt64 := 0
  session : Identity := kZeroIdentity
  host : Identity := kZeroIdentity
  cachedCommand : Option UInt32 := none
  cachedResult : UInt8 := 0
  /-- The handler's answers, when one is set, and how often it was called. -/
  calibrationReset : Option (ℕ → Bool) := none
  resets : ℕ := 0

/-- The queue after a frame, which pushes out the oldest of eight. -/
def enqueue (outgoing : List (List UInt8)) (frame : List UInt8) : List (List UInt8) :=
  (if outgoing.length ≥ kMaxQueuedFrames then outgoing.tail else outgoing) ++ [frame]

namespace HostLink

/-- `HostLink::HostLink` -/
def new (store : PairingStore) (bootIdentity : UInt32) : HostLink :=
  { store, feed := HostFeed.requireExplicitSession { reducer := { bootIdentity } } }

def send (envelope : Cpp.Envelope) (l : HostLink) : HostLink :=
  let envelope := { envelope with sequence := l.txSequence + 1 }
  let l := { l with txSequence := l.txSequence + 1 }
  match Cpp.encode envelope with
  | .error _ => l
  | .ok frame => { l with outgoing := enqueue l.outgoing frame }

def sendError (code : LinkErrorCode) (l : HostLink) : HostLink :=
  l.send { type := .kError, body := [code.code] }

def openSession (session host : Identity) (code : UInt32) (l : HostLink) : HostLink :=
  send { type := .kPair, session,
         pair := some { senderIdentity := l.store.deviceIdentity, intendedPeerIdentity := host,
                        matchingCode := code } }
    { l with
      session, host, cachedCommand := none, txSequence := 0, feed := l.feed.startSession session,
      phase := .kSessionOpen, diagnostics := { l.diagnostics with fault := .kNone } }

def closeSession (l : HostLink) : HostLink :=
  { l with
    feed := l.feed.endSession,
    phase := if l.phase = .kSessionOpen ∨ l.phase = .kAwaitingConfirmation then .kNegotiated
      else l.phase }

def onHello (now : UInt64) (envelope : Cpp.Envelope) (l : HostLink) : HostLink :=
  match envelope.hello with
  | none => l
  | some hello =>
    let l := { l with diagnostics := { l.diagnostics with
      hostMajor := some hello.supportedMajor, hostMinor := some hello.supportedMinor } }
    let l := l.closeSession
    if hello.supportedMajor ≠ l.diagnostics.supportedMajor then
      sendError .kIncompatible { l with
        diagnostics := { l.diagnostics with fault := .kIncompatibleMajor, negotiatedMinor := none },
        phase := .kIncompatible }
    else
      let l := { l with
        diagnostics := { l.diagnostics with
          fault := .kNone,
          negotiatedMinor := some (min hello.supportedMinor l.diagnostics.supportedMinor) },
        phase := .kNegotiated }
      let l := match hello.utcMs with
        | some utcMs => { l with feed := l.feed.applyHostUtc now utcMs envelope.localOffsetMinutes }
        | none => l
      l.send { type := .kHelloReply,
               hello := some { supportedMajor := l.diagnostics.supportedMajor,
                               supportedMinor := l.diagnostics.supportedMinor } }

def onPair (now : UInt64) (envelope : Cpp.Envelope) (l : HostLink) : HostLink :=
  match envelope.pair with
  | none => l.sendError .kBadRequest
  | some pair =>
    if l.phase = .kIdle ∨ l.phase = .kIncompatible ∨ pair.matchingCode > kMaxMatchingCode then
      l.sendError .kBadRequest
    else
      let namesThisDevice := pair.intendedPeerIdentity = kZeroIdentity ∨
        pair.intendedPeerIdentity = l.store.deviceIdentity
      if l.store.pairedHost = some pair.senderIdentity ∧ namesThisDevice then
        l.openSession envelope.session pair.senderIdentity pair.matchingCode
      else if l.store.pairedHost.isSome ∨ pair.intendedPeerIdentity ≠ kZeroIdentity then
        sendError .kNotPairedWithYou
          { l with diagnostics := { l.diagnostics with fault := .kNotPairedWithHost } }
      else
        { l with
          pendingHost := pair.senderIdentity, pendingSession := envelope.session,
          pendingCode := pair.matchingCode, pendingSinceMs := now,
          phase := .kAwaitingConfirmation }

/-- The branch of `ConfirmPairing` that declines. -/
def decline (l : HostLink) : HostLink :=
  sendError .kDeclined
    { l with diagnostics := { l.diagnostics with fault := .kDeclined }, phase := .kNegotiated }

def confirmPairing (accepted : Bool) (l : HostLink) : HostLink :=
  if l.phase ≠ .kAwaitingConfirmation then l
  else if !accepted then l.decline
  else
    let (saved, store) := l.store.savePairedHost l.pendingHost
    if !saved then decline { l with store }
    else openSession l.pendingSession l.pendingHost l.pendingCode { l with store }

def unpair (l : HostLink) : HostLink :=
  closeSession { l with store := l.store.clearPairedHost }

/-- Runs the calibration-reset handler: `calibration_reset_ && calibration_reset_()`. -/
def resetCalibration (l : HostLink) : Bool × HostLink :=
  match l.calibrationReset with
  | none => (false, l)
  | some handler => (handler l.resets, { l with resets := l.resets + 1 })

/-- A command that is not a retry: its result, and whether it ends the session. -/
def execute (command : Cpp.CommandBody) (l : HostLink) : UInt8 × Bool × HostLink :=
  if command.operation = 1 then (if l.store.pairedHost.isSome then 0 else 1, true, l)
  else if command.operation = 2 then
    let (applied, l) := l.resetCalibration
    (if applied then 0 else 2, false, l)
  else (2, false, l)

def cache (command : Cpp.CommandBody) (result : UInt8) (l : HostLink) : HostLink :=
  { l with
    cachedCommand := some command.commandIdentity,
    cachedResult := if result = 0 then 1 else result }

/-- A CommandReply. -/
def reply (command : Cpp.CommandBody) (result : UInt8) (l : HostLink) : HostLink :=
  l.send { type := .kCommandReply, session := l.session,
           command := some { commandIdentity := command.commandIdentity,
                             operation := command.operation, result := some result } }

def onCommand (envelope : Cpp.Envelope) (l : HostLink) : HostLink :=
  match envelope.command with
  | none => l
  | some command =>
    if envelope.session ≠ l.session then l
    else if l.cachedCommand = some command.commandIdentity then l.reply command l.cachedResult
    else if l.phase ≠ .kSessionOpen then l
    else
      let (result, closeAfter, l) := l.execute command
      let l := (l.cache command result).reply command result
      if closeAfter then closeSession { l with store := l.store.clearPairedHost } else l

/-- `OnResult` -/
def onResult (now : UInt64) (result : Result) (l : HostLink) : HostLink :=
  match result with
  | .error error =>
    if error = .kUnsupportedMajor then
      sendError .kIncompatible <| closeSession
        { l with
          diagnostics := { l.diagnostics with fault := .kIncompatibleMajor },
          phase := .kIncompatible }
    else l
  | .ok d =>
    if d.envelope.type = .kHello then l.onHello now d.envelope
    else if d.envelope.type = .kPair then l.onPair now d.envelope
    else if d.envelope.type = .kCommand then l.onCommand d.envelope
    else l

/-- One round of `Drain`, with the link as its control handler. -/
def onFrame (now : UInt64) (result : Result) (l : HostLink) : HostLink :=
  match result with
  | .error error => onResult now result { l with feed := l.feed.onError error }
  | .ok d =>
    if d.envelope.type ≠ .kSnapshot then l.onResult now result
    else { l with feed := l.feed.onSnapshot now d }

/-- `Drain`: the results are handled in order, and the handlers leave the stream alone. -/
def drain (now : UInt64) (l : HostLink) : HostLink :=
  let (results, stream) := HostFeed.drain l.feed.stream
  results.foldl (fun l result => l.onFrame now result) { l with feed := { l.feed with stream } }

def push (now : UInt64) (bytes : List UInt8) (l : HostLink) : HostLink :=
  drain now { l with feed := { l.feed with stream := l.feed.stream.push bytes, lastPushMs := now } }

/-- The loop of `HostFeed::Tick`; each round drops a byte, so the buffer bounds it. -/
def dropPartial (now : UInt64) : ℕ → HostLink → HostLink
  | 0, l => l
  | rounds + 1, l =>
    if l.feed.stream.buffer.length > 0 ∧ now - l.feed.lastPushMs ≥ kPartialFrameIdleMs then
      dropPartial now rounds
        (drain now { l with feed := { l.feed with stream := l.feed.stream.dropLeadingByte } })
    else l

/-- The end of `Tick`: a pairing that was not confirmed in time is declined. -/
def expire (now : UInt64) (l : HostLink) : HostLink :=
  if l.phase = .kAwaitingConfirmation ∧ now - l.pendingSinceMs ≥ kPairingConfirmTimeoutMs then
    l.confirmPairing false
  else l

def tick (now : UInt64) (l : HostLink) : HostLink :=
  let l := { l with feed := { l.feed with reducer := l.feed.reducer.advance now } }
  expire now (dropPartial now l.feed.stream.buffer.length l)

def takeOutgoing (l : HostLink) : List (List UInt8) × HostLink :=
  (l.outgoing, { l with outgoing := [] })

def setCalibrationResetHandler (handler : ℕ → Bool) (l : HostLink) : HostLink :=
  { l with calibrationReset := some handler }

end HostLink

end CydMonitor.Device
