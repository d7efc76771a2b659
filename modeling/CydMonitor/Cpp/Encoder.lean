import CydMonitor.Cpp.Decoder

/-!
# The device encoder (`protocol/core/cpp/protocol.cpp`)

The source appends to a vector as it checks; here each function returns the bytes
it appends, or the error it stops with.
-/

namespace CydMonitor.Cpp

open BigEndian

def uInt (major value : ℕ) : List UInt8 :=
  if value < 24 then [UInt8.ofNat (major * 32 + value)]
  else if value ≤ 0xff then [UInt8.ofNat (major * 32 + 24), UInt8.ofNat value]
  else if value ≤ 0xffff then
    [UInt8.ofNat (major * 32 + 25), UInt8.ofNat (value / 256), UInt8.ofNat value]
  else if value ≤ 2 ^ 32 - 1 then UInt8.ofNat (major * 32 + 26) :: bytes 4 value
  else UInt8.ofNat (major * 32 + 27) :: bytes 8 value

/-- `Bytes` -/
def byteString (value : List UInt8) : List UInt8 := uInt 2 value.length ++ value

/-- `Map` -/
def map (fields : ℕ) : List UInt8 := [UInt8.ofNat (0xa0 ||| fields)]

/-- Keys and numbers, `UInt(cbor, 0, key); UInt(cbor, 0, value)` for each. -/
def numbers (entries : List (ℕ × ℕ)) : List UInt8 :=
  entries.flatMap fun e => uInt 0 e.1 ++ uInt 0 e.2

def helloBytes (b : HelloBody) : List UInt8 :=
  map (4 + b.utcMs.isSome.toNat + b.utcUncertaintyMs.isSome.toNat) ++
    numbers [(0, b.supportedMajor.toNat), (1, b.supportedMinor.toNat),
      (2, b.capabilityBits.toNat), (3, b.configurationRevision.toNat)] ++
    (b.utcMs.elim [] fun v => numbers [(4, v.toNat)]) ++
    b.utcUncertaintyMs.elim [] fun v => numbers [(5, v.toNat)]

def pairBytes (p : PairBody) : List UInt8 :=
  map 3 ++ uInt 0 0 ++ byteString p.senderIdentity.val ++ uInt 0 1 ++
    byteString p.intendedPeerIdentity.val ++ numbers [(2, p.matchingCode.toNat)]

def commandBytes (reply : Bool) (c : CommandBody) : List UInt8 :=
  map (if reply then 3 else 2) ++
    numbers [(0, c.commandIdentity.toNat), (1, c.operation.toNat)] ++
    c.result.elim [] fun result => numbers [(2, result.toNat)]

/-- The value a message type needs, `if (!e.hello ...) return Error::kMalformed`. -/
def needed {α : Type} (c : α → Bool) : Option α → Except Error α
  | some a => if c a then .ok a else .error .kMalformed
  | none => .error .kMalformed

def encodeControlBody (e : Envelope) : Except Error (List UInt8) :=
  if e.type = .kHello ∨ e.type = .kHelloReply then helloBytes <$> needed (fun _ => true) e.hello
  else if e.type = .kPair then
    pairBytes <$> needed (fun p => !(p.matchingCode < 100000 || p.matchingCode > 999999)) e.pair
  else if e.type = .kCommand ∨ e.type = .kCommandReply then
    commandBytes (e.type == .kCommandReply) <$>
      needed (fun c => validCommand c (e.type == .kCommandReply)) e.command
  else if e.body.length > 512 then .error .kTooLarge
  else .ok (byteString e.body)

/-- A group that is there, unless its check fails. -/
def group {α : Type} (malformed : α → Bool) (bytes : α → List UInt8) :
    Option α → Except Error (List UInt8)
  | none => .ok []
  | some a => if malformed a then .error .kMalformed else .ok (bytes a)

def cpuBytes (cpu : CpuSnapshot) : List UInt8 :=
  numbers [(0, cpu.availability.toNat), (1, cpu.utilizationPerMille.toNat),
    (2, cpu.sourceAgeMs.toNat), (3, cpu.freshness.toNat), (4, cpu.configurationRevision.toNat)]

def ramBytes (ram : RamSnapshot) : List UInt8 :=
  uInt 0 5 ++ map 5 ++ numbers [(0, ram.availability.toNat), (1, ram.usedBytes.toNat),
    (2, ram.totalBytes.toNat), (3, ram.sourceAgeMs.toNat), (4, ram.freshness.toNat)]

def storageBytes (storage : StorageSnapshot) : List UInt8 :=
  uInt 0 6 ++ map 8 ++ numbers [(0, storage.capacityAvailability.toNat),
    (1, storage.totalBytes.toNat), (2, storage.availableBytes.toNat),
    (3, storage.capacityAgeMs.toNat), (4, storage.ioAvailability.toNat),
    (5, storage.readBytesPerS.toNat), (6, storage.writeBytesPerS.toNat),
    (7, storage.ioAgeMs.toNat)]

def batteryBytes (battery : BatterySnapshot) : List UInt8 :=
  uInt 0 7 ++ map 10 ++ numbers [(0, battery.chargeAvailability.toNat),
    (1, battery.chargePerMille.toNat), (2, battery.state.toNat),
    (3, battery.timeRemainingMin.toNat), (4, battery.chargeAgeMs.toNat),
    (5, battery.conditionAvailability.toNat), (6, battery.maxCapacityPerMille.toNat),
    (7, battery.condition.toNat), (8, battery.cycleCount.toNat),
    (9, battery.conditionAgeMs.toNat)]

def agentsBytes (agents : AgentsSnapshot) : List UInt8 :=
  uInt 0 8 ++ map (2 + kAgentSlots) ++
    numbers [(0, agents.availability.toNat), (1, agents.sourceAgeMs.toNat)] ++
    numbers (agents.state.val.zipIdx.map fun s => (2 + s.2, s.1.toNat))

def networkBytes (network : NetworkSnapshot) : List UInt8 :=
  uInt 0 9 ++ map (if network.links.isSome then 14 else 13) ++
    numbers [(0, network.trafficAvailability.toNat), (1, network.trafficAgeMs.toNat),
      (2, network.routeKind.toNat), (3, if network.viaTunnel then 1 else 0),
      (4, network.rxBytesPerS.toNat), (5, network.txBytesPerS.toNat),
      (6, network.contextAvailability.toNat), (7, network.contextAgeMs.toNat),
      (8, network.coverage.toNat), (9, network.channel.toNat)] ++
    uInt 0 10 ++ byteString (network.station.elim [] (·.val)) ++
    uInt 0 11 ++ byteString network.ssid ++
    uInt 0 12 ++ byteString (network.bssid.elim [] (·.val)) ++
    network.links.elim [] fun links => uInt 0 13 ++ byteString links

def encodeGroups (cpu : CpuSnapshot) (groups : SnapshotGroups) : Except Error (List UInt8) := do
  let ram ← group (fun r => r.usedBytes > r.totalBytes) ramBytes groups.ram
  let storage ← group (fun s => s.availableBytes > s.totalBytes) storageBytes groups.storage
  let battery ← group (fun b => b.chargePerMille > 1000 || b.maxCapacityPerMille > 1000 ||
    b.state > .kAcIdle || b.condition > .kPoor) batteryBytes groups.battery
  let agents ← group (fun a => a.state.val.any fun s => s > AgentState.kIdle) agentsBytes
    groups.agents
  let network ← group (fun n => !validNetwork n) networkBytes groups.network
  pure (map (5 + groups.ram.isSome.toNat + groups.storage.isSome.toNat +
      groups.battery.isSome.toNat + groups.agents.isSome.toNat + groups.network.isSome.toNat) ++
    cpuBytes cpu ++ ram ++ storage ++ battery ++ agents ++ network)

/-- The envelope up to the body key. -/
def envelopeStart (e : Envelope) : List UInt8 :=
  [UInt8.ofNat (0xa0 ||| (6 + e.utcMs.isSome.toNat + e.utcUncertaintyMs.isSome.toNat +
      e.localOffsetMinutes.isSome.toNat))] ++
    numbers [(0, e.version.major.toNat), (1, e.version.minor.toNat), (2, e.type.toNat)] ++
    uInt 0 3 ++ byteString e.session.val ++ numbers [(4, e.sequence.toNat)] ++ uInt 0 5

/-- The optional envelope entries after the body. -/
def envelopeEnd (e : Envelope) : Except Error (List UInt8) :=
  let times := (e.utcMs.elim [] fun v => numbers [(6, v.toNat)]) ++
    (e.utcUncertaintyMs.elim [] fun v => numbers [(7, v.toNat)])
  match e.localOffsetMinutes with
  | none => .ok times
  | some offset =>
    if offset < -1440 ∨ offset > 1440 then .error .kMalformed
    else .ok (times ++ numbers [(8, (offset + 1440).toNat)])

/-- The message after the body key: a snapshot when there is one. -/
def messageBody (e : Envelope) : Option (CpuSnapshot × SnapshotGroups) →
    Except Error (List UInt8)
  | some (cpu, groups) => encodeGroups cpu groups
  | none => encodeControlBody e

def encodeBody (e : Envelope) (snapshot : Option (CpuSnapshot × SnapshotGroups)) :
    Except Error (List UInt8) := do
  let body ← messageBody e snapshot
  let times ← envelopeEnd e
  let cbor := envelopeStart e ++ body ++ times
  if cbor.length + 6 ≤ kMaxFrameBytes then .ok cbor else .error .kTooLarge

/-- The frame around the CBOR bytes. -/
def sealFrame (c : List UInt8) : List UInt8 :=
  bytes 2 (c.length + 4) ++ c ++ bytes 4 (crc32 c).toNat

def encode (e : Envelope) : Except Error (List UInt8) := sealFrame <$> encodeBody e none

def encodeSnapshot (e : Envelope) (cpu : CpuSnapshot) (groups : SnapshotGroups) :
    Except Error (List UInt8) := sealFrame <$> encodeBody e (some (cpu, groups))

end CydMonitor.Cpp
