import CydMonitor.Cpp.FrameStream

/-!
# The device's view of the Host (`firmware/domain/src/host_state.cpp`)

Times are milliseconds of the monotonic clock. A time that may lie before the clock's
start is signed, as in the source.
-/

namespace CydMonitor.Device

inductive ConnectionState where
  | kNegotiating | kLive | kStale | kDisconnected | kIncompatible
  deriving DecidableEq, Repr

structure HostMetricState where
  availability : Cpp.Availability := .kTemporarilyUnavailable
  freshness : Cpp.Freshness := .kFresh
  adapterEnabled : Bool := true
  valuePerMille : UInt16 := 0
  sourceTimeMs : UInt64 := 0
  receivedAtMs : UInt64 := 0
  deriving DecidableEq

structure RamMetricState where
  hasData : Bool := false
  availability : Cpp.Availability := .kTemporarilyUnavailable
  freshness : Cpp.Freshness := .kFresh
  usedBytes : UInt64 := 0
  totalBytes : UInt64 := 0
  sourceTimeMs : UInt64 := 0
  receivedAtMs : UInt64 := 0
  deriving DecidableEq

def kStorageIoStaleMs : UInt64 := 3000

def kStorageCapacityStaleMs : UInt64 := 90000

structure StorageMetricState where
  hasData : Bool := false
  capacityAvailability : Cpp.Availability := .kTemporarilyUnavailable
  capacityFreshness : Cpp.Freshness := .kFresh
  totalBytes : UInt64 := 0
  availableBytes : UInt64 := 0
  capacitySourceTimeMs : Int64 := 0
  ioAvailability : Cpp.Availability := .kTemporarilyUnavailable
  ioFreshness : Cpp.Freshness := .kFresh
  readBytesPerS : UInt64 := 0
  writeBytesPerS : UInt64 := 0
  ioReceivedAtMs : Int64 := 0
  deriving DecidableEq

def kBatteryChargeStaleMs : UInt64 := 90000

def kBatteryConditionStaleMs : UInt64 := 3 * 3600 * 1000

structure BatteryMetricState where
  hasData : Bool := false
  chargeAvailability : Cpp.Availability := .kTemporarilyUnavailable
  chargeFreshness : Cpp.Freshness := .kFresh
  chargePerMille : UInt16 := 0
  state : Cpp.BatteryState := .kUnknown
  timeRemainingMin : UInt16 := Cpp.kBatteryUnknownU16
  chargeSourceTimeMs : Int64 := 0
  conditionAvailability : Cpp.Availability := .kTemporarilyUnavailable
  conditionFreshness : Cpp.Freshness := .kFresh
  maxCapacityPerMille : UInt16 := 0
  condition : Cpp.BatteryCondition := .kUnknown
  cycleCount : UInt16 := Cpp.kBatteryUnknownU16
  conditionSourceTimeMs : Int64 := 0
  deriving DecidableEq

def kAgentsStaleMs : UInt64 := 15000

structure AgentsMetricState where
  hasData : Bool := false
  availability : Cpp.Availability := .kTemporarilyUnavailable
  freshness : Cpp.Freshness := .kFresh
  state : Octets Cpp.kAgentSlots := Octets.zero Cpp.kAgentSlots
  sourceTimeMs : Int64 := 0
  deriving DecidableEq

def kNetworkTrafficStaleMs : UInt64 := 3000

def kNetworkContextStaleMs : UInt64 := 15000

structure NetworkMetricState where
  hasData : Bool := false
  trafficAvailability : Cpp.Availability := .kTemporarilyUnavailable
  trafficFreshness : Cpp.Freshness := .kFresh
  routeKind : Cpp.RouteKind := .kUnknown
  viaTunnel : Bool := false
  rxBytesPerS : UInt64 := 0
  txBytesPerS : UInt64 := 0
  trafficSourceTimeMs : Int64 := 0
  contextAvailability : Cpp.AssociationContext := .kPermissionNotRequested
  contextFreshness : Cpp.Freshness := .kFresh
  coverage : Cpp.WifiCoverage := .kUnknown
  channel : UInt8 := 0
  station : Option (Octets Cpp.kMacBytes) := none
  ssid : List UInt8 := []
  bssid : Option (Octets Cpp.kMacBytes) := none
  contextSourceTimeMs : Int64 := 0
  links : Option (List Cpp.RouteKind) := none
  deriving DecidableEq

structure HostState where
  connection : ConnectionState := .kNegotiating
  cpu : HostMetricState := {}
  ram : RamMetricState := {}
  storage : StorageMetricState := {}
  battery : BatteryMetricState := {}
  agents : AgentsMetricState := {}
  network : NetworkMetricState := {}
  hostLastSeenMs : UInt64 := 0
  hasSeenHost : Bool := false
  timeAvailable : Bool := false
  utcAnchorMs : UInt64 := 0
  utcAnchorMonotonicMs : UInt64 := 0
  hasUtcOffset : Bool := false
  utcOffsetMinutes : ℤ := 0
  bootIdentity : UInt32 := 0
  configurationRevision : UInt32 := 0
  deriving DecidableEq

/-- The time a sample was taken, from when it came and how old it was. -/
def sourceTime (nowMs : UInt64) (ageMs : UInt32) : Int64 :=
  nowMs.toInt64 - ageMs.toUInt64.toInt64

def freshnessAt (nowMs : UInt64) (sourceTimeMs : Int64) (staleAfterMs : UInt64) : Cpp.Freshness :=
  if nowMs.toInt64 - sourceTimeMs ≥ staleAfterMs.toInt64 then .kStale else .kFresh

def deriveStorageFreshness (nowMs : UInt64) (s : StorageMetricState) : StorageMetricState :=
  { s with
    ioFreshness := freshnessAt nowMs s.ioReceivedAtMs kStorageIoStaleMs,
    capacityFreshness := freshnessAt nowMs s.capacitySourceTimeMs kStorageCapacityStaleMs }

def deriveBatteryFreshness (nowMs : UInt64) (s : BatteryMetricState) : BatteryMetricState :=
  { s with
    chargeFreshness := freshnessAt nowMs s.chargeSourceTimeMs kBatteryChargeStaleMs,
    conditionFreshness := freshnessAt nowMs s.conditionSourceTimeMs kBatteryConditionStaleMs }

def deriveAgentsFreshness (nowMs : UInt64) (s : AgentsMetricState) : AgentsMetricState :=
  { s with freshness := freshnessAt nowMs s.sourceTimeMs kAgentsStaleMs }

def deriveNetworkFreshness (nowMs : UInt64) (s : NetworkMetricState) : NetworkMetricState :=
  { s with
    trafficFreshness := freshnessAt nowMs s.trafficSourceTimeMs kNetworkTrafficStaleMs,
    contextFreshness := freshnessAt nowMs s.contextSourceTimeMs kNetworkContextStaleMs }

/-- `now >= age ? now - age : 0` -/
def agedTime (nowMs : UInt64) (ageMs : UInt32) : UInt64 :=
  if nowMs ≥ ageMs.toUInt64 then nowMs - ageMs.toUInt64 else 0

def ramMetric (nowMs : UInt64) (g : Cpp.RamSnapshot) : RamMetricState :=
  { hasData := true, availability := g.availability, freshness := g.freshness,
    usedBytes := g.usedBytes, totalBytes := g.totalBytes,
    sourceTimeMs := agedTime nowMs g.sourceAgeMs, receivedAtMs := nowMs }

def storageMetric (nowMs : UInt64) (g : Cpp.StorageSnapshot) : StorageMetricState :=
  deriveStorageFreshness nowMs
    { hasData := true, capacityAvailability := g.capacityAvailability,
      totalBytes := g.totalBytes, availableBytes := g.availableBytes,
      capacitySourceTimeMs := sourceTime nowMs g.capacityAgeMs,
      ioAvailability := g.ioAvailability, readBytesPerS := g.readBytesPerS,
      writeBytesPerS := g.writeBytesPerS, ioReceivedAtMs := sourceTime nowMs g.ioAgeMs }

def batteryMetric (nowMs : UInt64) (g : Cpp.BatterySnapshot) : BatteryMetricState :=
  deriveBatteryFreshness nowMs
    { hasData := true, chargeAvailability := g.chargeAvailability,
      chargePerMille := g.chargePerMille, state := g.state,
      timeRemainingMin := g.timeRemainingMin,
      chargeSourceTimeMs := sourceTime nowMs g.chargeAgeMs,
      conditionAvailability := g.conditionAvailability,
      maxCapacityPerMille := g.maxCapacityPerMille, condition := g.condition,
      cycleCount := g.cycleCount, conditionSourceTimeMs := sourceTime nowMs g.conditionAgeMs }

def agentsMetric (nowMs : UInt64) (g : Cpp.AgentsSnapshot) : AgentsMetricState :=
  deriveAgentsFreshness nowMs
    { hasData := true, availability := g.availability, state := g.state,
      sourceTimeMs := sourceTime nowMs g.sourceAgeMs }

def networkMetric (nowMs : UInt64) (g : Cpp.NetworkSnapshot) : NetworkMetricState :=
  deriveNetworkFreshness nowMs
    { hasData := true, trafficAvailability := g.trafficAvailability, routeKind := g.routeKind,
      viaTunnel := g.viaTunnel, rxBytesPerS := g.rxBytesPerS, txBytesPerS := g.txBytesPerS,
      trafficSourceTimeMs := sourceTime nowMs g.trafficAgeMs,
      contextAvailability := g.contextAvailability, coverage := g.coverage,
      channel := g.channel, station := g.station, ssid := g.ssid, bssid := g.bssid,
      contextSourceTimeMs := sourceTime nowMs g.contextAgeMs, links := g.links }

namespace HostState

def applySnapshot (decoded : Cpp.Decoded) (nowMs resolvedSourceTimeMs : UInt64)
    (s : HostState) : HostState :=
  if !decoded.hasCpu then s
  else
    { s with
      connection := .kLive,
      cpu := { s.cpu with
        availability := decoded.cpu.availability, freshness := decoded.cpu.freshness,
        valuePerMille := decoded.cpu.utilizationPerMille, sourceTimeMs := resolvedSourceTimeMs,
        receivedAtMs := nowMs },
      hostLastSeenMs := nowMs, hasSeenHost := true,
      configurationRevision := decoded.cpu.configurationRevision,
      ram := decoded.groups.ram.elim s.ram (ramMetric nowMs),
      storage := decoded.groups.storage.elim s.storage (storageMetric nowMs),
      battery := decoded.groups.battery.elim s.battery (batteryMetric nowMs),
      agents := decoded.groups.agents.elim s.agents (agentsMetric nowMs),
      network := decoded.groups.network.elim s.network (networkMetric nowMs) }

def advance (nowMs : UInt64) (s : HostState) : HostState :=
  if s.connection = .kIncompatible ∨ !s.hasSeenHost then s
  else
    let age := nowMs - s.hostLastSeenMs
    let s := if age ≥ 15000 then { s with connection := .kDisconnected }
      else if age ≥ 3000 then
        { s with connection := .kStale, cpu := { s.cpu with freshness := .kStale } }
      else s
    { s with
      ram := if s.ram.hasData ∧ nowMs - s.ram.receivedAtMs ≥ 3000 then
        { s.ram with freshness := .kStale } else s.ram,
      storage := if s.storage.hasData then deriveStorageFreshness nowMs s.storage else s.storage,
      battery := if s.battery.hasData then deriveBatteryFreshness nowMs s.battery else s.battery,
      agents := if s.agents.hasData then deriveAgentsFreshness nowMs s.agents else s.agents,
      network := if s.network.hasData then deriveNetworkFreshness nowMs s.network else s.network }

def markIncompatible (s : HostState) : HostState := { s with connection := .kIncompatible }

def correctTime (s : HostState) : HostState := { s with timeAvailable := true }

def setUtcAnchor (utcMs monotonicMs : UInt64) (localOffsetMinutes : Option ℤ)
    (s : HostState) : HostState :=
  { s with
    timeAvailable := true, hasUtcOffset := localOffsetMinutes.isSome,
    utcOffsetMinutes := localOffsetMinutes.getD 0, utcAnchorMs := utcMs,
    utcAnchorMonotonicMs := monotonicMs }

end HostState

end CydMonitor.Device
