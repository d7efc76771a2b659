import CydMonitor.Rust.Types

/-!
# The Host encoder (`host/protocol/src/lib.rs`)

The source appends to a `Vec`; here each function returns the bytes it appends.
-/

namespace CydMonitor.Rust

open BigEndian

/-- `uint`: the shortest head for a value. -/
def uint (major value : ℕ) : List UInt8 :=
  if value < 24 then [UInt8.ofNat (major * 32 + value)]
  else if value ≤ 255 then [UInt8.ofNat (major * 32 + 24), UInt8.ofNat value]
  else if value ≤ 65535 then
    [UInt8.ofNat (major * 32 + 25), UInt8.ofNat (value / 256), UInt8.ofNat value]
  else if value ≤ 2 ^ 32 - 1 then UInt8.ofNat (major * 32 + 26) :: bytes 4 value
  else UInt8.ofNat (major * 32 + 27) :: bytes 8 value

/-- One bit of the reflected IEEE polynomial division. -/
def crcBit (c : UInt32) : UInt32 := (c >>> 1) ^^^ (0xedb88320 &&& (0 - (c &&& 1)))

def crc32 (bytes : List UInt8) : UInt32 :=
  ~~~ bytes.foldl (fun c b => crcBit^[8] (c ^^^ b.toUInt32)) 0xffffffff

/-- The loops `for (k, v) in [...] { uint(k); uint(v) }`. -/
def uintEntries (entries : List (ℕ × ℕ)) : List UInt8 :=
  entries.flatMap fun e => uint 0 e.1 ++ uint 0 e.2

/-- A byte string entry of a map. -/
def bytesEntry (key : ℕ) (value : List UInt8) : List UInt8 :=
  uint 0 key ++ uint 2 value.length ++ value

/-- The length, the CBOR bytes and their CRC. -/
def sealFrame (c : List UInt8) : List UInt8 :=
  bytes 2 (c.length + 4) ++ c ++ bytes 4 (crc32 c).toNat

/-- The envelope up to the body key, as `encode_groups` and `encode_frame` write it. -/
def envelopeStart (e : Envelope) : List UInt8 :=
  [UInt8.ofNat (0xa6 + e.utcMs.isSome.toNat + e.utcUncertaintyMs.isSome.toNat +
      e.localOffsetMinutes.isSome.toNat)] ++
    uintEntries [(0, e.major.toNat), (1, e.minor.toNat), (2, e.kind.code)] ++
    bytesEntry 3 e.session.val ++ uintEntries [(4, e.sequence.toNat)] ++ uint 0 5

/-- The optional envelope entries after the body; an offset of more than a day is
refused before anything is returned. -/
def envelopeEnd (e : Envelope) : Except Error (List UInt8) :=
  let times := (e.utcMs.elim [] fun v => uintEntries [(6, v.toNat)]) ++
    (e.utcUncertaintyMs.elim [] fun v => uintEntries [(7, v.toNat)])
  match e.localOffsetMinutes with
  | none => .ok times
  | some offset =>
    if offset < -1440 ∨ 1440 < offset then .error .malformed
    else .ok (times ++ uintEntries [(8, (offset + 1440).toNat)])

/-- The shared end of both encoders: the frame, unless it is over the limit. -/
def finishFrame (c : List UInt8) : Except Error (List UInt8) :=
  if c.length + 6 > maxFrameBytes then .error .tooLarge else .ok (sealFrame c)

def cpuEntries (cpu : CpuSnapshot) : List UInt8 :=
  uintEntries [(0, cpu.availability.code), (1, cpu.utilizationPerMille.toNat),
    (2, cpu.sourceAgeMs.toNat), (3, cpu.freshness.code), (4, cpu.configurationRevision.toNat)]

def ramGroup (ram : RamSnapshot) : List UInt8 :=
  uint 0 5 ++ [0xa5] ++ uintEntries [(0, ram.availability.code), (1, ram.usedBytes.toNat),
    (2, ram.totalBytes.toNat), (3, ram.sourceAgeMs.toNat), (4, ram.freshness.code)]

def storageGroup (storage : StorageSnapshot) : List UInt8 :=
  uint 0 6 ++ [0xa8] ++ uintEntries [(0, storage.capacityAvailability.code),
    (1, storage.totalBytes.toNat), (2, storage.availableBytes.toNat),
    (3, storage.capacityAgeMs.toNat), (4, storage.ioAvailability.code),
    (5, storage.readBytesPerS.toNat), (6, storage.writeBytesPerS.toNat),
    (7, storage.ioAgeMs.toNat)]

def batteryGroup (battery : BatterySnapshot) : List UInt8 :=
  uint 0 7 ++ [0xaa] ++ uintEntries [(0, battery.chargeAvailability.code),
    (1, battery.chargePerMille.toNat), (2, battery.state.toNat),
    (3, battery.timeRemainingMin.toNat), (4, battery.chargeAgeMs.toNat),
    (5, battery.conditionAvailability.code), (6, battery.maxCapacityPerMille.toNat),
    (7, battery.condition.toNat), (8, battery.cycleCount.toNat),
    (9, battery.conditionAgeMs.toNat)]

def agentsGroup (agents : AgentsSnapshot) : List UInt8 :=
  uint 0 8 ++ [UInt8.ofNat (0xa0 + 2 + agentSlots)] ++
    uintEntries [(0, agents.availability.code), (1, agents.sourceAgeMs.toNat)] ++
    uintEntries (agents.state.val.zipIdx.map fun s => (2 + s.2, s.1.toNat))

def networkGroup (network : NetworkSnapshot) : List UInt8 :=
  uint 0 9 ++ [if network.links.isSome then 0xae else 0xad] ++
    uintEntries [(0, network.trafficAvailability.code), (1, network.trafficAgeMs.toNat),
      (2, network.routeKind.code), (3, network.viaTunnel.toNat), (4, network.rxBytesPerS.toNat),
      (5, network.txBytesPerS.toNat), (6, network.contextAvailability.code),
      (7, network.contextAgeMs.toNat), (8, network.coverage.code), (9, network.channel.toNat)] ++
    bytesEntry 10 (network.station.elim [] (·.val)) ++ bytesEntry 11 network.ssid ++
    bytesEntry 12 (network.bssid.elim [] (·.val)) ++
    network.links.elim [] fun links => bytesEntry 13 (links.map fun k => UInt8.ofNat k.code)

/-- The snapshot body: CPU and each group that is there. -/
def snapshotBody (s : Snapshot) : List UInt8 :=
  [UInt8.ofNat (0xa5 + s.ram.isSome.toNat + s.storage.isSome.toNat + s.battery.isSome.toNat +
      s.agents.isSome.toNat + s.network.isSome.toNat)] ++
    cpuEntries s.cpu ++ s.ram.elim [] ramGroup ++ s.storage.elim [] storageGroup ++
    s.battery.elim [] batteryGroup ++ s.agents.elim [] agentsGroup ++
    s.network.elim [] networkGroup

/-- What `encode_groups` refuses before it writes anything. -/
def refusesGroups (s : Snapshot) : Bool :=
  s.ram.any (fun r => r.usedBytes > r.totalBytes) ||
    s.storage.any (fun s => s.availableBytes > s.totalBytes) ||
    s.battery.any (fun b => b.chargePerMille > 1000 || b.maxCapacityPerMille > 1000 ||
      b.state > 4 || b.condition > 3) ||
    s.agents.any (fun a => a.state.val.any fun s => s > 3) ||
    s.network.any (fun n => !n.isValid)

def encodeGroups (envelope : Envelope) (snapshot : Snapshot) : Except Error (List UInt8) := do
  if refusesGroups snapshot then throw .malformed
  let tail ← envelopeEnd envelope
  finishFrame (envelopeStart envelope ++ snapshotBody snapshot ++ tail)

def encodeFrame (envelope : Envelope) (body : List UInt8) : Except Error (List UInt8) := do
  if body.length > 512 then throw .tooLarge
  let tail ← envelopeEnd envelope
  finishFrame (envelopeStart envelope ++ body ++ tail)

def helloBytes (value : HelloBody) : List UInt8 :=
  [UInt8.ofNat (0xa4 + value.utcMs.isSome.toNat + value.utcUncertaintyMs.isSome.toNat)] ++
    uintEntries [(0, value.supportedMajor.toNat), (1, value.supportedMinor.toNat),
      (2, value.capabilities.toNat), (3, value.configurationRevision.toNat)] ++
    (value.utcMs.elim [] fun item => uintEntries [(4, item.toNat)]) ++
    value.utcUncertaintyMs.elim [] fun item => uintEntries [(5, item.toNat)]

def pairBytes (value : PairBody) : List UInt8 :=
  [0xa3] ++ bytesEntry 0 value.pairingIdentity.val ++
    bytesEntry 1 value.intendedPeerIdentity.val ++ uintEntries [(2, value.matchingCode.toNat)]

def commandBytes (value : CommandBody) : List UInt8 :=
  [0xa2] ++ uintEntries [(0, value.commandIdentity.toNat), (1, value.operation.code)]

def commandReplyBytes (value : CommandReplyBody) : List UInt8 :=
  [0xa3] ++ uintEntries [(0, value.commandIdentity.toNat), (1, value.operation.code),
    (2, value.result.code)]

/-- The encoded body, when it goes with the envelope's type. -/
def controlBytes (kind : MessageType) : ControlBody → Except Error (List UInt8)
  | .hello value => if kind = .hello then .ok (helloBytes value) else .error .malformed
  | .helloReply value => if kind = .helloReply then .ok (helloBytes value) else .error .malformed
  | .pair value =>
    if kind ≠ .pair ∨ value.matchingCode < 100000 ∨ 999999 < value.matchingCode then
      .error .malformed
    else .ok (pairBytes value)
  | .command value => if kind = .command then .ok (commandBytes value) else .error .malformed
  | .error value =>
    if kind ≠ .error ∨ value.length > 512 - 3 then .error .malformed
    else .ok (uint 2 value.length ++ value)
  | .commandReply value =>
    if kind = .commandReply then .ok (commandReplyBytes value) else .error .malformed

def encodeControl (envelope : Envelope) (body : ControlBody) : Except Error (List UInt8) := do
  let c ← controlBytes envelope.kind body
  encodeFrame envelope c

end CydMonitor.Rust
