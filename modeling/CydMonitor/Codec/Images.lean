import CydMonitor.Rust.Types
import CydMonitor.Cpp.Types

/-!
# What a Host message is on the device

Each Host value has one device value with the same fields: enumerations become
their wire byte, and a body the message does not carry is absent.
-/

namespace CydMonitor.Codec

def ofCpu (c : Rust.CpuSnapshot) : Cpp.CpuSnapshot :=
  { availability := UInt8.ofNat c.availability.code, utilizationPerMille := c.utilizationPerMille,
    sourceAgeMs := c.sourceAgeMs, freshness := UInt8.ofNat c.freshness.code,
    configurationRevision := c.configurationRevision }

def ofRam (r : Rust.RamSnapshot) : Cpp.RamSnapshot :=
  { availability := UInt8.ofNat r.availability.code, usedBytes := r.usedBytes,
    totalBytes := r.totalBytes, sourceAgeMs := r.sourceAgeMs,
    freshness := UInt8.ofNat r.freshness.code }

def ofStorage (s : Rust.StorageSnapshot) : Cpp.StorageSnapshot :=
  { capacityAvailability := UInt8.ofNat s.capacityAvailability.code, totalBytes := s.totalBytes,
    availableBytes := s.availableBytes, capacityAgeMs := s.capacityAgeMs,
    ioAvailability := UInt8.ofNat s.ioAvailability.code, readBytesPerS := s.readBytesPerS,
    writeBytesPerS := s.writeBytesPerS, ioAgeMs := s.ioAgeMs }

def ofBattery (b : Rust.BatterySnapshot) : Cpp.BatterySnapshot :=
  { chargeAvailability := UInt8.ofNat b.chargeAvailability.code,
    chargePerMille := b.chargePerMille, state := b.state, timeRemainingMin := b.timeRemainingMin,
    chargeAgeMs := b.chargeAgeMs,
    conditionAvailability := UInt8.ofNat b.conditionAvailability.code,
    maxCapacityPerMille := b.maxCapacityPerMille, condition := b.condition,
    cycleCount := b.cycleCount, conditionAgeMs := b.conditionAgeMs }

def ofAgents (a : Rust.AgentsSnapshot) : Cpp.AgentsSnapshot :=
  { availability := UInt8.ofNat a.availability.code, sourceAgeMs := a.sourceAgeMs,
    state := a.state }

def ofLinks (links : List Rust.RouteKind) : List Cpp.RouteKind :=
  links.map fun k => UInt8.ofNat k.code

def ofNetwork (n : Rust.NetworkSnapshot) : Cpp.NetworkSnapshot :=
  { trafficAvailability := UInt8.ofNat n.trafficAvailability.code,
    trafficAgeMs := n.trafficAgeMs, routeKind := UInt8.ofNat n.routeKind.code,
    viaTunnel := n.viaTunnel, rxBytesPerS := n.rxBytesPerS, txBytesPerS := n.txBytesPerS,
    contextAvailability := UInt8.ofNat n.contextAvailability.code,
    contextAgeMs := n.contextAgeMs, coverage := UInt8.ofNat n.coverage.code,
    channel := n.channel, station := n.station, ssid := n.ssid, bssid := n.bssid,
    links := n.links.map ofLinks }

def ofGroups (s : Rust.Snapshot) : Cpp.SnapshotGroups :=
  { ram := s.ram.map ofRam, storage := s.storage.map ofStorage,
    battery := s.battery.map ofBattery, agents := s.agents.map ofAgents,
    network := s.network.map ofNetwork }

def ofHello (h : Rust.HelloBody) : Cpp.HelloBody :=
  { supportedMajor := h.supportedMajor, supportedMinor := h.supportedMinor,
    capabilityBits := h.capabilities, configurationRevision := h.configurationRevision,
    utcMs := h.utcMs, utcUncertaintyMs := h.utcUncertaintyMs }

def ofPair (p : Rust.PairBody) : Cpp.PairBody :=
  { senderIdentity := p.pairingIdentity, intendedPeerIdentity := p.intendedPeerIdentity,
    matchingCode := p.matchingCode }

def ofCommand (c : Rust.CommandBody) : Cpp.CommandBody :=
  { commandIdentity := c.commandIdentity, operation := UInt8.ofNat c.operation.code }

def ofCommandReply (c : Rust.CommandReplyBody) : Cpp.CommandBody :=
  { commandIdentity := c.commandIdentity, operation := UInt8.ofNat c.operation.code,
    result := some (UInt8.ofNat c.result.code) }

/-- The envelope fields that do not depend on the body. -/
def ofEnvelope (e : Rust.Envelope) : Cpp.Envelope :=
  { version := { major := e.major, minor := e.minor }, type := UInt8.ofNat e.kind.code,
    session := e.session, sequence := e.sequence, utcMs := e.utcMs,
    utcUncertaintyMs := e.utcUncertaintyMs, localOffsetMinutes := e.localOffsetMinutes }

def withBody (e : Cpp.Envelope) : Rust.ControlBody → Cpp.Envelope
  | .hello b => { e with hello := some (ofHello b) }
  | .helloReply b => { e with hello := some (ofHello b) }
  | .pair b => { e with pair := some (ofPair b) }
  | .command b => { e with command := some (ofCommand b) }
  | .commandReply b => { e with command := some (ofCommandReply b) }
  | .error b => { e with body := b }

/-- The device's decoded frame for a Host message. -/
def image : Rust.Message → Cpp.Decoded
  | .snapshot e s =>
    { envelope := ofEnvelope e, cpu := ofCpu s.cpu, hasCpu := true, groups := ofGroups s }
  | .control e b => { envelope := withBody (ofEnvelope e) b }

/-- The device's name for a Host error. -/
def ofError : Rust.Error → Cpp.Error
  | .truncated => .kTruncated
  | .tooLarge => .kTooLarge
  | .badCrc => .kBadCrc
  | .malformed => .kMalformed
  | .unsupportedMajor => .kUnsupportedMajor
  | .wrongSession => .kWrongSession
  | .staleSequence => .kStaleSequence

end CydMonitor.Codec
