import CydMonitor.Codec.Framing
import CydMonitor.Lib.Trace
import CydMonitor.Rust.Encoder

/-!
# The Host side of the link (`host/transport/src/client.rs`)

A frame of the device is one message; handling it leaves the stream alone. The sequence and command
counters wrap.
-/

namespace CydMonitor.Transport

open Rust

def zero : Rust.Identity := Octets.zero 16

/-- The device's reason for refusing the Host. -/
inductive Refusal where
  | incompatible | notPairedWithYou | declined | badRequest
  | unknown (code : UInt8)
  deriving DecidableEq

def Refusal.fromBody : List UInt8 → Refusal
  | [] => .unknown 0
  | code :: _ =>
    if code = 1 then .incompatible
    else if code = 2 then .notPairedWithYou
    else if code = 3 then .declined
    else if code = 4 then .badRequest
    else .unknown code

inductive Phase where
  | idle | helloSent | pairSent | live
  | refused (refusal : Refusal)
  deriving DecidableEq

inductive Event where
  | negotiated (deviceMajor deviceMinor : UInt8)
  | paired (deviceIdentity : Rust.Identity)
  | refused (refusal : Refusal)
  | commandReply (commandIdentity : UInt32) (operation : CommandOperation) (result : CommandResult)
  deriving DecidableEq

structure Output where
  frames : List (List UInt8) := []
  events : List Event := []

structure HostClient where
  host : Rust.Identity
  knownDevice : Option Rust.Identity
  code : UInt32
  session : Rust.Identity
  phase : Phase := .idle
  stream : FrameStream := {}
  sequence : UInt32 := 0
  nextCommand : UInt32 := 1
  minor : UInt8 := 0
  localOffsetMinutes : Option ℤ := none

namespace HostClient

def new (host : Rust.Identity) (knownDevice : Option Rust.Identity) (code : UInt32)
    (session : Rust.Identity) :
    HostClient :=
  { host, knownDevice, code, session }

def setLocalOffsetMinutes (offset : Option ℤ) (c : HostClient) : HostClient :=
  { c with localOffsetMinutes := offset }

def envelope (kind : MessageType) (session : Rust.Identity) (sequence : UInt32) (c : HostClient) :
    Envelope :=
  { major := 1, minor := c.minor, kind, session, sequence, utcMs := none,
    utcUncertaintyMs := none, localOffsetMinutes := c.localOffsetMinutes }

/-- The opening `Hello`. -/
def start (utcMs : Option UInt64) (c : HostClient) : Except Error (List UInt8) × HostClient :=
  let c := { c with phase := .helloSent }
  (encodeControl (c.envelope .hello zero 1)
    (.hello { supportedMajor := 1, supportedMinor := 0, capabilities := 0,
              configurationRevision := 0, utcMs, utcUncertaintyMs := none }), c)

/-- One message of the device. -/
def handle (c : HostClient × Output) : Message → HostClient × Output
  | .snapshot _ _ => c
  | .control envelope body =>
    let (c, out) := c
    match c.phase, body with
    | .helloSent, .helloReply reply =>
      let c := { c with minor := 0 }
      let out := { out with
        events := out.events ++ [.negotiated reply.supportedMajor reply.supportedMinor] }
      let intended := c.knownDevice.getD zero
      match encodeControl (c.envelope .pair c.session 2)
          (.pair { pairingIdentity := c.host, intendedPeerIdentity := intended,
                   matchingCode := c.code }) with
      | .ok frame => ({ c with phase := .pairSent }, { out with frames := out.frames ++ [frame] })
      | .error _ => (c, out)
    | .pairSent, .pair pair =>
      if envelope.session = c.session ∧ pair.intendedPeerIdentity = c.host ∧
          pair.matchingCode = c.code then
        ({ c with phase := .live, sequence := 0 },
          { out with events := out.events ++ [.paired pair.pairingIdentity] })
      else (c, out)
    | .helloSent, .error body | .pairSent, .error body =>
      let refusal := Refusal.fromBody body
      ({ c with phase := .refused refusal },
        { out with events := out.events ++ [.refused refusal] })
    | .live, .commandReply reply =>
      if envelope.session = c.session then
        (c, { out with events := out.events ++
          [.commandReply reply.commandIdentity reply.operation reply.result] })
      else (c, out)
    | _, _ => (c, out)

/-- The messages that a read completes, and the stream after it. -/
def messages (bytes : List UInt8) (c : HostClient) : List Message × FrameStream :=
  let stream := c.stream.push bytes
  let r := Codec.hostFramer.drain (stream.buffer.length + 1) stream
  (r.1.filterMap fun frame => (decode frame).toOption, r.2)

def receive (bytes : List UInt8) (c : HostClient) : HostClient × Output :=
  let (messages, stream) := c.messages bytes
  messages.foldl handle ({ c with stream }, {})

def nextSequence (c : HostClient) : HostClient := { c with sequence := c.sequence + 1 }

/-- A complete snapshot: only valid once paired. -/
def snapshot (snapshot : Snapshot) (utcMs : Option UInt64) (c : HostClient) :
    Option (List UInt8) × HostClient :=
  if c.phase ≠ .live then (none, c)
  else
    let c := c.nextSequence
    ((encodeGroups { c.envelope .snapshot c.session c.sequence with utcMs } snapshot).toOption, c)

def retryCommand (identity : UInt32) (operation : CommandOperation) (c : HostClient) :
    Option (List UInt8) × HostClient :=
  if c.phase ≠ .live then (none, c)
  else
    let c := c.nextSequence
    ((encodeControl (c.envelope .command c.session c.sequence)
      (.command { commandIdentity := identity, operation })).toOption, c)

/-- A command frame and the identity to match its reply against. -/
def command (operation : CommandOperation) (c : HostClient) :
    Option (UInt32 × List UInt8) × HostClient :=
  let identity := c.nextCommand
  let r := retryCommand identity operation { c with nextCommand := c.nextCommand + 1 }
  (r.1.map fun frame => (identity, frame), r.2)

end HostClient

/-- A call of the client's owner. -/
inductive Call where
  | start (utcMs : Option UInt64)
  | receive (bytes : List UInt8)
  | snapshot (snapshot : Snapshot) (utcMs : Option UInt64)
  | command (operation : CommandOperation)
  | retryCommand (identity : UInt32) (operation : CommandOperation)
  | setLocalOffsetMinutes (offset : Option ℤ)

def Call.isStart : Call → Bool
  | .start _ => true
  | _ => false

namespace HostClient

def call (c : HostClient) : Call → HostClient
  | .start utcMs => (c.start utcMs).2
  | .receive bytes => (c.receive bytes).1
  | .snapshot snapshot utcMs => (c.snapshot snapshot utcMs).2
  | .command operation => (c.command operation).2
  | .retryCommand identity operation => (c.retryCommand identity operation).2
  | .setLocalOffsetMinutes offset => c.setLocalOffsetMinutes offset

/-- The moments at which a read's messages are handled. -/
def handling (bytes : List UInt8) (c : HostClient) :
    List (Trace.Moment (HostClient × Output) Message) :=
  let (messages, stream) := c.messages bytes
  Trace.moments handle ({ c with stream }, {}) messages

end HostClient

/-- The reads of `Link::serve` (`host/hostcore/src/link.rs`): a refusal ends it. -/
def serveRead (bytes : List UInt8) (c : HostClient) : Except Refusal HostClient :=
  let (c, out) := c.receive bytes
  match out.events.findSome? (fun | .refused refusal => some refusal | _ => none) with
  | some refusal => .error refusal
  | none => .ok c

end CydMonitor.Transport
