import CydMonitor.Lib.BigEndian

/-!
# The message types of the Host codec (`host/protocol/src/lib.rs`)

`u8` to `u64` fields are `UInt8` to `UInt64`, fixed arrays are `Octets`. The
local offset, an `i16` in the source, is an integer: both codecs check its range.
-/

namespace CydMonitor.Rust

def maxFrameBytes : ℕ := 2048

abbrev Identity := Octets 16

inductive Error where
  | truncated | tooLarge | badCrc | malformed | unsupportedMajor | wrongSession | staleSequence
  deriving DecidableEq, Repr

inductive MessageType where
  | hello | helloReply | pair | snapshot | command | commandReply | error
  deriving DecidableEq, Repr

/-- The wire value (`as u64`). -/
def MessageType.code : MessageType → ℕ
  | .hello => 1
  | .helloReply => 2
  | .pair => 3
  | .snapshot => 4
  | .command => 5
  | .commandReply => 6
  | .error => 7

inductive Availability where
  | available | unsupported | absent | temporarilyUnavailable | error
  deriving DecidableEq, Repr

def Availability.code : Availability → ℕ
  | .available => 0
  | .unsupported => 1
  | .absent => 2
  | .temporarilyUnavailable => 3
  | .error => 4

inductive Freshness where
  | fresh | stale
  deriving DecidableEq, Repr

def Freshness.code : Freshness → ℕ
  | .fresh => 0
  | .stale => 1

structure Envelope where
  major : UInt8
  minor : UInt8
  kind : MessageType
  session : Identity
  sequence : UInt32
  utcMs : Option UInt64
  utcUncertaintyMs : Option UInt32
  localOffsetMinutes : Option ℤ
  deriving DecidableEq

structure CpuSnapshot where
  availability : Availability
  utilizationPerMille : UInt16
  sourceAgeMs : UInt32
  freshness : Freshness
  configurationRevision : UInt32
  deriving DecidableEq

structure RamSnapshot where
  availability : Availability
  usedBytes : UInt64
  totalBytes : UInt64
  sourceAgeMs : UInt32
  freshness : Freshness
  deriving DecidableEq

structure StorageSnapshot where
  capacityAvailability : Availability
  totalBytes : UInt64
  availableBytes : UInt64
  capacityAgeMs : UInt32
  ioAvailability : Availability
  readBytesPerS : UInt64
  writeBytesPerS : UInt64
  ioAgeMs : UInt32
  deriving DecidableEq

structure BatterySnapshot where
  chargeAvailability : Availability
  chargePerMille : UInt16
  state : UInt8
  timeRemainingMin : UInt16
  chargeAgeMs : UInt32
  conditionAvailability : Availability
  maxCapacityPerMille : UInt16
  condition : UInt8
  cycleCount : UInt16
  conditionAgeMs : UInt32
  deriving DecidableEq

def agentSlots : ℕ := 5

structure AgentsSnapshot where
  availability : Availability
  sourceAgeMs : UInt32
  state : Octets agentSlots
  deriving DecidableEq

inductive RouteKind where
  | unknown | wifi | ethernet | other | none
  deriving DecidableEq, Repr

def RouteKind.code : RouteKind → ℕ
  | .unknown => 0
  | .wifi => 1
  | .ethernet => 2
  | .other => 3
  | .none => 4

inductive AssociationContext where
  | available | permissionNotRequested | denied | restricted | authorizedUnavailable
  | unsupported | error
  deriving DecidableEq, Repr

def AssociationContext.code : AssociationContext → ℕ
  | .available => 0
  | .permissionNotRequested => 1
  | .denied => 2
  | .restricted => 3
  | .authorizedUnavailable => 4
  | .unsupported => 5
  | .error => 6

inductive WifiCoverage where
  | unknown | observable | outsideSupported
  deriving DecidableEq, Repr

def WifiCoverage.code : WifiCoverage → ℕ
  | .unknown => 0
  | .observable => 1
  | .outsideSupported => 2

def maxSsidBytes : ℕ := 32

def maxLinks : ℕ := 8

structure NetworkSnapshot where
  trafficAvailability : Availability
  trafficAgeMs : UInt32
  routeKind : RouteKind
  viaTunnel : Bool
  rxBytesPerS : UInt64
  txBytesPerS : UInt64
  contextAvailability : AssociationContext
  contextAgeMs : UInt32
  coverage : WifiCoverage
  channel : UInt8
  station : Option (Octets 6)
  ssid : List UInt8
  bssid : Option (Octets 6)
  links : Option (List RouteKind)
  deriving DecidableEq

/-- The kinds that may stand in the list of active links. -/
def RouteKind.isLink : RouteKind → Bool
  | .wifi | .ethernet | .other => true
  | .unknown | .none => false

/-- `NetworkSnapshot::is_valid`, check by check in the source's order. -/
def NetworkSnapshot.isValid (n : NetworkSnapshot) : Bool :=
  if n.viaTunnel && (n.routeKind == .unknown || n.routeKind == .none) then false
  else if n.trafficAvailability != .available && (n.rxBytesPerS != 0 || n.txBytesPerS != 0) then
    false
  else if n.coverage == .unknown && n.channel != 0 then false
  else if n.ssid.length > maxSsidBytes then false
  else if n.links.any fun links => links.length > maxLinks || links.any (!·.isLink) then false
  else (n.ssid.isEmpty && n.bssid.isNone) || n.contextAvailability == .available

structure Snapshot where
  cpu : CpuSnapshot
  ram : Option RamSnapshot
  storage : Option StorageSnapshot
  battery : Option BatterySnapshot
  agents : Option AgentsSnapshot
  network : Option NetworkSnapshot
  deriving DecidableEq

structure HelloBody where
  supportedMajor : UInt8
  supportedMinor : UInt8
  capabilities : UInt32
  configurationRevision : UInt32
  utcMs : Option UInt64
  utcUncertaintyMs : Option UInt32
  deriving DecidableEq

structure PairBody where
  pairingIdentity : Identity
  intendedPeerIdentity : Identity
  matchingCode : UInt32
  deriving DecidableEq

inductive CommandOperation where
  | unpair | calibrationReset
  deriving DecidableEq, Repr

def CommandOperation.code : CommandOperation → ℕ
  | .unpair => 1
  | .calibrationReset => 2

structure CommandBody where
  commandIdentity : UInt32
  operation : CommandOperation
  deriving DecidableEq

inductive CommandResult where
  | applied | alreadyApplied | rejected
  deriving DecidableEq, Repr

def CommandResult.code : CommandResult → ℕ
  | .applied => 0
  | .alreadyApplied => 1
  | .rejected => 2

structure CommandReplyBody where
  commandIdentity : UInt32
  operation : CommandOperation
  result : CommandResult
  deriving DecidableEq

inductive ControlBody where
  | hello (body : HelloBody)
  | helloReply (body : HelloBody)
  | pair (body : PairBody)
  | command (body : CommandBody)
  | commandReply (body : CommandReplyBody)
  | error (body : List UInt8)
  deriving DecidableEq

/-- A decoded frame of any message type. -/
inductive Message where
  | snapshot (envelope : Envelope) (snapshot : Snapshot)
  | control (envelope : Envelope) (body : ControlBody)
  deriving DecidableEq

end CydMonitor.Rust
