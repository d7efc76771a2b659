import CydMonitor.Observation.Messages

/-!
# The hardware seam (`firmware/domain/include/firmware/domain/radio_runner.hpp`)

A driver answers from a state of its own, which is arbitrary: its clock, its results and
the controls it delivers are whatever its programs compute. Every call is noted together
with its answer.
-/

namespace CydMonitor.Observation

inductive WakeReason where
  | kDeadline | kControl
  deriving DecidableEq, Repr

structure DriverResult where
  ok : Bool := true
  op : FaultOp := .kStart
  code : Int32 := 0
  deriving DecidableEq

structure ControlRequest where
  wifiEnabled : Option Bool := none
  bleEnabled : Option Bool := none
  hasChannels : Bool := false
  channelCount : UInt8 := 0
  channels : Vector UInt8 kMaxPlanChannels := Vector.replicate kMaxPlanChannels 0
  wifiDwellMs : Option UInt32 := none
  bleWindowMs : Option UInt32 := none
  deriving DecidableEq

/-- The driver and the control source over one state. -/
structure RadioDriver (δ : Type) where
  nowUs : StateM δ UInt64
  beginWindow : (windowId configGeneration : UInt32) → (startUs deadlineUs : UInt64) →
    StateM δ Unit
  endWindow : StateM δ Unit
  startWifi : (channel : UInt8) → StateM δ DriverResult
  stopWifi : StateM δ DriverResult
  startBle : StateM δ DriverResult
  stopBle : StateM δ DriverResult
  waitUntilUs : (deadlineUs : UInt64) → StateM δ WakeReason
  yield : StateM δ Unit
  drainEvents : StateM δ Unit
  takeDrops : (windowId : UInt32) → StateM δ UInt32
  takeUnattributed : StateM δ UInt32
  /-- Not a call: which of two calls that are arguments of one call comes first. -/
  dropsFirst : δ → Bool
  poll : StateM δ (Option ControlRequest)

/-- A call of the runner with what it answered, or a message it emitted. -/
inductive Event where
  | nowUs (us : UInt64)
  | beginWindow (windowId configGeneration : UInt32) (startUs deadlineUs : UInt64)
  | endWindow
  | start (radio : Radio) (channel : UInt8) (result : DriverResult)
  | stop (radio : Radio) (result : DriverResult)
  | waitUntilUs (deadlineUs : UInt64) (reason : WakeReason)
  | yield
  | drainEvents
  | takeDrops (windowId count : UInt32)
  | takeUnattributed (count : UInt32)
  | poll (request : Option ControlRequest)
  | emit (message : RadioMessage)
  deriving DecidableEq

end CydMonitor.Observation
