import CydMonitor.Wifi.Provider
import CydMonitor.Wifi.Tracker

/-!
# Network (`host/metrics/src/network.rs` and the counter sampler of `lib.rs`)

A sampler that was never used is the same as none, so the map of samplers is a function from
names. The clock is a natural number of milliseconds.
-/

namespace CydMonitor.Metrics

open Wifi
open Text (decimal)

inductive MetricAvailability where
  | available | unsupported | absent | temporarilyUnavailable | error
  deriving DecidableEq, Repr

structure MetricSample (α : Type) where
  availability : MetricAvailability
  value : Option α
  deriving DecidableEq

namespace MetricSample

variable {α : Type}

def ofValue (value : α) : MetricSample α := { availability := .available, value := some value }

def unavailable (availability : MetricAvailability) : MetricSample α :=
  { availability, value := none }

end MetricSample

inductive LinkKind where
  | wifi | ethernet | other | tunnel | loopback
  deriving DecidableEq, Repr

inductive RouteKind where
  | unknown | wifi | ethernet | other | none
  deriving DecidableEq, Repr

structure InterfaceCounters where
  rxBytes : UInt64
  txBytes : UInt64
  deriving DecidableEq

structure NetworkRate where
  rxBytesPerS : UInt64
  txBytesPerS : UInt64
  deriving DecidableEq

structure InterfaceInfo where
  name : String
  index : UInt32
  kind : LinkKind
  upRunning : Bool
  linkActive : Bool
  station : Option (Octets 6)
  counters : Option InterfaceCounters
  deriving DecidableEq

structure DefaultRoute where
  interface : String
  isScoped : Bool
  deriving DecidableEq

structure SystemView where
  interfaces : List InterfaceInfo
  defaultRoutes : List DefaultRoute
  deriving DecidableEq

structure PrimaryRoute where
  interface : String
  index : UInt32
  kind : RouteKind
  viaTunnel : Bool
  station : Option (Octets 6)
  deriving DecidableEq

def routeKind : LinkKind → RouteKind
  | .wifi => .wifi
  | .ethernet => .ethernet
  | .other | .tunnel => .other
  | .loopback => .unknown

namespace SystemView

def usable (view : SystemView) (route : DefaultRoute) : Bool :=
  view.interfaces.any fun i => i.name == route.interface && i.upRunning && i.kind != .loopback

def interfaceOf (view : SystemView) (route : DefaultRoute) : Option InterfaceInfo :=
  view.interfaces.find? (·.name == route.interface)

def chosenRoute (view : SystemView) : Option DefaultRoute :=
  ((view.defaultRoutes.filter view.usable).find? (!·.isScoped)).orElse fun _ =>
    view.defaultRoutes.find? view.usable

/-- What a tunnel's route runs over. -/
def underlying (view : SystemView) : Option InterfaceInfo :=
  ((view.defaultRoutes.filter view.usable).filterMap view.interfaceOf).find? (·.kind != .tunnel)

end SystemView

def selectPrimaryRoute (view : SystemView) : Option PrimaryRoute := do
  let primary ← view.interfaceOf (← view.chosenRoute)
  if primary.kind ≠ .tunnel then
    some { interface := primary.name, index := primary.index, kind := routeKind primary.kind,
           viaTunnel := false, station := primary.station }
  else
    some { interface := primary.name, index := primary.index,
           kind := (view.underlying.map fun i => routeKind i.kind).getD .other,
           viaTunnel := true, station := none }

def maxRateSampleGapMs : ℕ := 5000

structure CounterRateSampler (κ : Type) where
  baseline : Option (κ × InterfaceCounters × ℕ)
  deriving DecidableEq

/-- Bytes per second, saturating. -/
def perS (delta : UInt64) (elapsed : ℕ) : UInt64 :=
  UInt64.ofNat (min (delta.toNat * 1000 / elapsed) (2 ^ 64 - 1))

/-- The rate since the baseline, where the two are comparable. -/
def rateSince {κ : Type} [DecidableEq κ] (baseline : κ × InterfaceCounters × ℕ) (key : κ)
    (counters : InterfaceCounters) (nowMs : ℕ) : MetricSample NetworkRate :=
  let (beforeKey, before, beforeMs) := baseline
  if key ≠ beforeKey ∨ ¬ (beforeMs < nowMs ∧ nowMs - beforeMs ≤ maxRateSampleGapMs) ∨
      ¬ (before.rxBytes ≤ counters.rxBytes ∧ before.txBytes ≤ counters.txBytes) then
    .unavailable .temporarilyUnavailable
  else
    .ofValue
      { rxBytesPerS := perS (counters.rxBytes - before.rxBytes) (nowMs - beforeMs)
        txBytesPerS := perS (counters.txBytes - before.txBytes) (nowMs - beforeMs) }

/-- The rate, and the sampler with these counters as its baseline. -/
def CounterRateSampler.sample {κ : Type} [DecidableEq κ] (sampler : CounterRateSampler κ) (key : κ)
    (counters : InterfaceCounters) (nowMs : ℕ) : MetricSample NetworkRate × CounterRateSampler κ :=
  (match sampler.baseline with
    | none => .unavailable .temporarilyUnavailable
    | some baseline => rateSince baseline key counters nowMs,
    { baseline := some (key, counters, nowMs) })

inductive Coverage where
  | unknown | observable | outsideSupported
  deriving DecidableEq, Repr

/-- A band and channel that agree; `none`: they contradict each other or say nothing. -/
def coverageOf (band : Option WifiBand) (channel : Option UInt16) : Option (Coverage × UInt8) :=
  match band, channel with
  | some .ghz2_4, none => some (.observable, 0)
  | some .ghz2_4, some c => if c ≤ 14 then some (.observable, c.toUInt8) else none
  | some .ghz5, none | some .ghz6, none => some (.outsideSupported, 0)
  | some .ghz5, some c =>
    if 32 ≤ c ∧ c ≤ 177 then some (.outsideSupported, c.toUInt8) else none
  | some .ghz6, some c => some (.outsideSupported, c.toUInt8)
  | none, some c => if c > 14 then some (.outsideSupported, c.toUInt8) else none
  | none, none => none

def coverageFor (band : Option WifiBand) (channel : Option UInt16) : Coverage × UInt8 :=
  match channel with
  | some c =>
    if c = 0 then (coverageOf band none).getD (.unknown, 0)
    else if c > 233 then (.unknown, 0)
    else (coverageOf band (some c)).getD (.unknown, 0)
  | none => (coverageOf band none).getD (.unknown, 0)

def maxLinks : ℕ := 8

def LinkKind.rank : LinkKind → ℕ
  | .wifi => 0
  | .ethernet => 1
  | .other | .tunnel | .loopback => 2

/-- The order of links; the sort is stable. -/
def linkBefore (a b : InterfaceInfo) : Bool :=
  a.kind.rank < b.kind.rank || (a.kind.rank == b.kind.rank && a.index ≤ b.index)

def isActiveLink (primary : Option PrimaryRoute) (i : InterfaceInfo) : Bool :=
  (i.linkActive && (i.kind == .wifi || i.kind == .ethernet)) ||
    primary.any fun p => !p.viaTunnel && p.interface == i.name && i.kind == .other

def activeLinks (view : SystemView) (primary : Option PrimaryRoute) : List InterfaceInfo :=
  ((view.interfaces.filter (isActiveLink primary)).mergeSort linkBefore).take maxLinks

def linkKind : LinkKind → RouteKind
  | .wifi => .wifi
  | .ethernet => .ethernet
  | .other | .tunnel | .loopback => .other

structure TrafficHalf where
  availability : MetricAvailability
  routeKind : RouteKind
  viaTunnel : Bool
  rate : Option NetworkRate
  links : List RouteKind
  deriving DecidableEq

structure WifiHalf where
  availability : ContextAvailability
  ageMs : UInt32
  coverage : Coverage
  channel : UInt8
  station : Option (Octets 6)
  ssid : List UInt8
  bssid : Option (Octets 6)
  deriving DecidableEq

structure NetworkReading where
  traffic : TrafficHalf
  wifi : WifiHalf
  deriving DecidableEq

def saturatingAdd (a b : UInt64) : UInt64 := UInt64.ofNat (min (a.toNat + b.toNat) (2 ^ 64 - 1))

def NetworkRate.add (a b : NetworkRate) : NetworkRate :=
  { rxBytesPerS := saturatingAdd a.rxBytesPerS b.rxBytesPerS
    txBytesPerS := saturatingAdd a.txBytesPerS b.txBytesPerS }

/-- A sampler's key: name, index and the station's hex digits. -/
def InterfaceInfo.key (i : InterfaceInfo) : List Char :=
  i.name.toList ++ '#' :: (decimal i.index.toNat ++ '#' ::
    (i.station.elim [] fun m => m.val.flatMap hexByte))

abbrev Samplers := String → CounterRateSampler (List Char)

def Samplers.clear : Samplers := fun _ => { baseline := none }

def Samplers.set (samplers : Samplers) (name : String) (sampler : CounterRateSampler (List Char)) :
    Samplers :=
  fun n => if n = name then sampler else samplers n

def Samplers.retain (samplers : Samplers) (seen : List String) : Samplers :=
  fun n => if n ∈ seen then samplers n else { baseline := none }

/-- What the loop over the links carries. -/
structure Totals where
  samplers : Samplers
  total : Option NetworkRate
  availability : MetricAvailability
  seen : List String

def Totals.link (nowMs : ℕ) (t : Totals) (link : InterfaceInfo) : Totals :=
  let seen := link.name :: t.seen
  match link.counters with
  | none => { t with availability := .error, total := none, seen }
  | some counters =>
    let (sample, sampler) := (t.samplers link.name).sample link.key counters nowMs
    let samplers := t.samplers.set link.name sampler
    match sample.value, t.total with
    | some rate, some sum => { t with samplers, seen, total := some (sum.add rate) }
    | none, _ =>
      { samplers, seen, total := none
        availability := if t.availability ≠ .error then sample.availability else t.availability }
    | some _, none => { t with samplers, seen }

def traffic (samplers : Samplers) (view : Option SystemView) (nowMs : ℕ) :
    TrafficHalf × Samplers :=
  match view with
  | none =>
    ({ availability := .error, routeKind := .unknown, viaTunnel := false, rate := none,
       links := [] }, .clear)
  | some view =>
    let route := selectPrimaryRoute view
    let links := activeLinks view route
    let kinds := links.map fun i => linkKind i.kind
    match route with
    | none =>
      ({ availability := .absent, routeKind := .none, viaTunnel := false, rate := none,
         links := kinds }, .clear)
    | some route =>
      let start : Totals :=
        { samplers, total := some { rxBytesPerS := 0, txBytesPerS := 0 },
          availability := .available, seen := [] }
      let t := links.foldl (Totals.link nowMs) start
      ({ availability := if links.isEmpty then .error else t.availability
         routeKind := route.kind
         viaTunnel := route.viaTunnel
         rate := if links.isEmpty then none else t.total
         links := kinds }, t.samplers.retain t.seen)

def isActiveWifi (i : InterfaceInfo) : Bool := i.kind == .wifi && i.upRunning

/-- The provider's context for the host's own association. -/
def wifi (view : Option SystemView) (reading : ContextReading) : WifiHalf :=
  let interfaces := view.elim [] (·.interfaces)
  let station := (interfaces.filter isActiveWifi).findSome? (·.station)
  let context := reading.context
  if !interfaces.any isActiveWifi then
    { availability := context.availability, ageMs := 0, coverage := .unknown, channel := 0,
      station := none, ssid := [], bssid := none }
  else
    let (coverage, channel) := coverageFor context.band context.channel
    { availability := context.availability, ageMs := reading.ageMs, coverage, channel, station
      ssid := if context.availability = .available then context.ssid.getD [] else []
      bssid := if context.availability = .available then context.bssid else none }

/-- One collect: the reading and the samplers for the next one. -/
def collect (samplers : Samplers) (view : Option SystemView) (context : ContextReading)
    (nowMs : ℕ) : NetworkReading × Samplers :=
  let (traffic, samplers) := traffic samplers view nowMs
  ({ traffic, wifi := wifi view context }, samplers)

end CydMonitor.Metrics
