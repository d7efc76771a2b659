import CydMonitor.Observation.Schedule

/-!
# What the radio task tells the app loop (`firmware/domain/src/radio_messages.cpp`)

The source tags one record by its kind and gives meaning to one member; here a message is
that member.
-/

namespace CydMonitor.Observation

inductive FaultOp where
  | kInit | kStart | kStop | kSetChannel | kHciTimeout | kHciRejected | kReportQueueOverflow
  | kHardwareError
  deriving DecidableEq, Repr

def kMaxPlanChannels : ℕ := kMaxWifiChannel.toNat

structure WindowStartedMessage where
  windowId : UInt32 := 0
  configGeneration : UInt32 := 0
  radio : Radio := .kWifi
  channel : UInt8 := 0
  rxStartMs : UInt64 := 0
  plannedMs : UInt32 := 0
  deriving DecidableEq, Repr

structure FaultMessage where
  radio : Radio := .kWifi
  op : FaultOp := .kStart
  code : Int32 := 0
  deriving DecidableEq

structure ConfigAppliedMessage where
  configGeneration : UInt32 := 0
  wifiEnabled : Bool := true
  bleEnabled : Bool := true
  channels : List UInt8 := []
  wifiDwellMs : UInt32 := kDefaultWifiDwellMs
  bleWindowMs : UInt32 := kDefaultBleWindowMs
  deriving DecidableEq

inductive RadioMessage where
  | windowStarted (started : WindowStartedMessage)
  | windowReport (report : WindowReport)
  | fault (fault : FaultMessage)
  | faultCleared (radio : Radio)
  | configApplied (config : ConfigAppliedMessage)
  deriving DecidableEq

def toConfigApplied (configGeneration : UInt32) (config : ObservationConfig) :
    ConfigAppliedMessage where
  configGeneration
  wifiEnabled := (normalizeConfig config).wifiEnabled
  bleEnabled := (normalizeConfig config).bleEnabled
  channels := (normalizeConfig config).wifiChannels.take kMaxPlanChannels
  wifiDwellMs := (normalizeConfig config).wifiDwellMs
  bleWindowMs := (normalizeConfig config).bleWindowMs

def toObservationConfig (message : ConfigAppliedMessage) : ObservationConfig :=
  normalizeConfig
    { wifiEnabled := message.wifiEnabled
      bleEnabled := message.bleEnabled
      wifiChannels := message.channels.take kMaxPlanChannels
      wifiDwellMs := message.wifiDwellMs
      bleWindowMs := message.bleWindowMs }

/-- The message carries the whole of a configuration. -/
theorem toObservationConfig_toConfigApplied (configGeneration : UInt32)
    (config : ObservationConfig) :
    toObservationConfig (toConfigApplied configGeneration config) = normalizeConfig config := by
  have htake : (normalizeConfig config).wifiChannels.take kMaxPlanChannels =
      (normalizeConfig config).wifiChannels :=
    List.take_of_length_le (inRange_normalize config).length_le
  rw [toObservationConfig, toConfigApplied, htake, htake]
  exact normalizeConfig_idem config

end CydMonitor.Observation
