import Mathlib.Data.UInt

/-!
# What a power profile says (`host/metrics/src/battery.rs`)
-/

namespace CydMonitor.Metrics

inductive BatteryCondition where
  | unknown | normal | serviceRecommended | poor
  deriving DecidableEq, Repr

structure BatteryConditionReading where
  maxCapacityPerMille : Option UInt16
  condition : BatteryCondition
  cycleCount : Option UInt16
  deriving DecidableEq

inductive PowerProfile where
  | noBattery
  | battery (reading : BatteryConditionReading)
  deriving DecidableEq

inductive ProfileError where
  | tooLarge | malformed | noPowerSection | noUsableFields
  deriving DecidableEq, Repr

end CydMonitor.Metrics
