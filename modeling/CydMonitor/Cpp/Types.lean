import CydMonitor.Lib.BigEndian

/-!
# The message types of the device codec (`protocol/core/cpp/protocol.hpp`)

An `enum class : uint8_t` is its underlying byte: the decoder casts before it
checks. `Error::kNone` is a success and has no constructor.
-/

namespace CydMonitor.Cpp

def kMaxFrameBytes : ℕ := 2048

abbrev kSessionIdBytes : ℕ := 16

inductive Error where
  | kTruncated | kTooLarge | kBadCrc | kMalformed | kUnsupportedMajor | kWrongSession
  | kStaleSequence
  deriving DecidableEq, Repr

abbrev MessageType := UInt8

namespace MessageType

def kHello : MessageType := 1
def kHelloReply : MessageType := 2
def kPair : MessageType := 3
def kSnapshot : MessageType := 4
def kCommand : MessageType := 5
def kCommandReply : MessageType := 6
def kError : MessageType := 7

end MessageType

abbrev Availability := UInt8

namespace Availability

def kAvailable : Availability := 0
def kTemporarilyUnavailable : Availability := 3
def kError : Availability := 4

end Availability

abbrev Freshness := UInt8

namespace Freshness

def kFresh : Freshness := 0
def kStale : Freshness := 1

end Freshness

structure Version where
  major : UInt8 := 1
  minor : UInt8 := 0
  deriving DecidableEq

structure CpuSnapshot where
  availability : Availability := .kTemporarilyUnavailable
  utilizationPerMille : UInt16 := 0
  sourceAgeMs : UInt32 := 0
  freshness : Freshness := .kFresh
  configurationRevision : UInt32 := 0

structure RamSnapshot where
  availability : Availability := .kTemporarilyUnavailable
  usedBytes : UInt64 := 0
  totalBytes : UInt64 := 0
  sourceAgeMs : UInt32 := 0
  freshness : Freshness := .kFresh

structure StorageSnapshot where
  capacityAvailability : Availability := .kTemporarilyUnavailable
  totalBytes : UInt64 := 0
  availableBytes : UInt64 := 0
  capacityAgeMs : UInt32 := 0
  ioAvailability : Availability := .kTemporarilyUnavailable
  readBytesPerS : UInt64 := 0
  writeBytesPerS : UInt64 := 0
  ioAgeMs : UInt32 := 0

def kBatteryUnknownU16 : UInt16 := 0xFFFF

abbrev BatteryState := UInt8

namespace BatteryState

def kUnknown : BatteryState := 0
def kAcIdle : BatteryState := 4

end BatteryState

abbrev BatteryCondition := UInt8

namespace BatteryCondition

def kUnknown : BatteryCondition := 0
def kPoor : BatteryCondition := 3

end BatteryCondition

structure BatterySnapshot where
  chargeAvailability : Availability := .kTemporarilyUnavailable
  chargePerMille : UInt16 := 0
  state : BatteryState := .kUnknown
  timeRemainingMin : UInt16 := kBatteryUnknownU16
  chargeAgeMs : UInt32 := 0
  conditionAvailability : Availability := .kTemporarilyUnavailable
  maxCapacityPerMille : UInt16 := 0
  condition : BatteryCondition := .kUnknown
  cycleCount : UInt16 := kBatteryUnknownU16
  conditionAgeMs : UInt32 := 0

def kAgentSlots : ℕ := 5

abbrev AgentState := UInt8

namespace AgentState

def kIdle : AgentState := 3

end AgentState

structure AgentsSnapshot where
  availability : Availability := .kTemporarilyUnavailable
  sourceAgeMs : UInt32 := 0
  state : Octets kAgentSlots := Octets.zero kAgentSlots

abbrev RouteKind := UInt8

namespace RouteKind

def kUnknown : RouteKind := 0
def kWifi : RouteKind := 1
def kEthernet : RouteKind := 2
def kOther : RouteKind := 3
def kNone : RouteKind := 4

end RouteKind

abbrev AssociationContext := UInt8

namespace AssociationContext

def kAvailable : AssociationContext := 0
def kPermissionNotRequested : AssociationContext := 1
def kError : AssociationContext := 6

end AssociationContext

abbrev WifiCoverage := UInt8

namespace WifiCoverage

def kUnknown : WifiCoverage := 0
def kOutsideSupported : WifiCoverage := 2

end WifiCoverage

abbrev kMacBytes : ℕ := 6

def kMaxSsidBytes : ℕ := 32

def kMaxLinks : ℕ := 8

structure NetworkSnapshot where
  trafficAvailability : Availability := .kTemporarilyUnavailable
  trafficAgeMs : UInt32 := 0
  routeKind : RouteKind := .kUnknown
  viaTunnel : Bool := false
  rxBytesPerS : UInt64 := 0
  txBytesPerS : UInt64 := 0
  contextAvailability : AssociationContext := .kPermissionNotRequested
  contextAgeMs : UInt32 := 0
  coverage : WifiCoverage := .kUnknown
  channel : UInt8 := 0
  station : Option (Octets kMacBytes) := none
  ssid : List UInt8 := []
  bssid : Option (Octets kMacBytes) := none
  links : Option (List RouteKind) := none

structure HelloBody where
  supportedMajor : UInt8 := 1
  supportedMinor : UInt8 := 0
  capabilityBits : UInt32 := 0
  configurationRevision : UInt32 := 0
  utcMs : Option UInt64 := none
  utcUncertaintyMs : Option UInt32 := none
  deriving DecidableEq

structure PairBody where
  senderIdentity : Octets kSessionIdBytes := Octets.zero kSessionIdBytes
  intendedPeerIdentity : Octets kSessionIdBytes := Octets.zero kSessionIdBytes
  matchingCode : UInt32 := 0
  deriving DecidableEq

structure CommandBody where
  commandIdentity : UInt32 := 0
  operation : UInt8 := 0
  result : Option UInt8 := none
  deriving DecidableEq

structure Envelope where
  version : Version := {}
  type : MessageType := .kHello
  session : Octets kSessionIdBytes := Octets.zero kSessionIdBytes
  sequence : UInt32 := 0
  utcMs : Option UInt64 := none
  utcUncertaintyMs : Option UInt32 := none
  localOffsetMinutes : Option ℤ := none
  body : List UInt8 := []
  hello : Option HelloBody := none
  pair : Option PairBody := none
  command : Option CommandBody := none

structure SnapshotGroups where
  ram : Option RamSnapshot := none
  storage : Option StorageSnapshot := none
  battery : Option BatterySnapshot := none
  agents : Option AgentsSnapshot := none
  network : Option NetworkSnapshot := none

structure Decoded where
  envelope : Envelope := {}
  cpu : CpuSnapshot := {}
  hasCpu : Bool := false
  groups : SnapshotGroups := {}

end CydMonitor.Cpp
