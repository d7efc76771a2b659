import CydMonitor.Observation.Driver
import Mathlib.Data.List.Basic

/-!
# The window contract of the seam

What the header of the driver interface asks of the runner's calls, as a machine that
reads them: the order of the calls of each window, and which receiver may be started when.
Clock readings, waits, polls and messages may fall anywhere.
-/

namespace CydMonitor.Observation

/-- Where the calls of a window stand, by the call that must come next. -/
inductive Phase where
  /-- No receiver is on: only a start. -/
  | off
  /-- A start succeeded: BeginWindow. -/
  | started (radio : Radio)
  /-- A start failed: the stop of the same radio. -/
  | failed (radio : Radio)
  /-- EndWindow. -/
  | receiving (radio : Radio) (windowId : UInt32)
  /-- The measured interval is over: the stop. -/
  | ended (radio : Radio) (windowId : UInt32)
  /-- DrainEvents, whether or not the receiver is stuck. -/
  | stopped (left : Option Radio) (windowId : UInt32)
  /-- TakeDrops of the window that ended and TakeUnattributed, in any order. -/
  | drained (left : Option Radio) (windowId : UInt32)
  /-- The window never began: both at once. -/
  | held (left : Option Radio)
  /-- TakeUnattributed. -/
  | counted (left : Option Radio)
  /-- TakeDrops, of the window that ended if one did. -/
  | pooled (left : Option Radio) (windowId : Option UInt32)
  /-- A stop failed: only that stop again. -/
  | stuck (radio : Radio)
  /-- The stop worked at last: DrainEvents. -/
  | recovered
  /-- TakeUnattributed. -/
  | emptied
  deriving DecidableEq

namespace Phase

def afterStop (radio : Radio) (result : DriverResult) : Option Radio :=
  if result.ok then none else some radio

/-- A receiver that would not stop is all that outlasts a window. -/
def rest : Option Radio → Phase
  | none => .off
  | some radio => .stuck radio

def next : Phase → Event → Option Phase
  | .off, .start radio _ result => some (if result.ok then .started radio else .failed radio)
  | .started radio, .beginWindow windowId _ _ _ => some (.receiving radio windowId)
  | .failed radio, .stop radio' result =>
    if radio' = radio then some (.held (afterStop radio result)) else none
  | .receiving radio windowId, .endWindow => some (.ended radio windowId)
  | .ended radio windowId, .stop radio' result =>
    if radio' = radio then some (.stopped (afterStop radio result) windowId) else none
  | .stopped left windowId, .drainEvents => some (.drained left windowId)
  | .drained left windowId, .takeDrops windowId' _ =>
    if windowId' = windowId then some (.counted left) else none
  | .held left, .takeDrops _ _ => some (.counted left)
  | .counted left, .takeUnattributed _ => some (rest left)
  | .drained left windowId, .takeUnattributed _ => some (.pooled left windowId)
  | .held left, .takeUnattributed _ => some (.pooled left none)
  | .pooled left expected, .takeDrops windowId _ =>
    if expected = none ∨ expected = some windowId then some (rest left) else none
  | .stuck radio, .stop radio' result =>
    if radio' = radio then some (if result.ok then .recovered else .stuck radio) else none
  | .recovered, .drainEvents => some .emptied
  | .emptied, .takeUnattributed _ => some .off
  | phase, .nowUs _ => some phase
  | phase, .waitUntilUs _ _ => some phase
  | phase, .yield => some phase
  | phase, .poll _ => some phase
  | phase, .emit _ => some phase
  | _, _ => none

section Quiet

variable (p : Phase)

@[simp] theorem next_nowUs (us : UInt64) : p.next (.nowUs us) = some p := by
  cases p <;> rfl

@[simp] theorem next_waitUntilUs (deadlineUs : UInt64) (reason : WakeReason) :
    p.next (.waitUntilUs deadlineUs reason) = some p := by
  cases p <;> rfl

@[simp] theorem next_yield : p.next .yield = some p := by
  cases p <;> rfl

@[simp] theorem next_poll (request : Option ControlRequest) :
    p.next (.poll request) = some p := by
  cases p <;> rfl

@[simp] theorem next_emit (message : RadioMessage) : p.next (.emit message) = some p := by
  cases p <;> rfl

end Quiet

section Arms

variable (radio radio' : Radio) (windowId windowId' : UInt32) (left : Option Radio)
  (result : DriverResult)

@[simp] theorem next_start (channel : UInt8) : Phase.off.next (.start radio channel result) =
    some (if result.ok then .started radio else .failed radio) :=
  rfl

@[simp] theorem next_beginWindow (configGeneration : UInt32) (startUs deadlineUs : UInt64) :
    (Phase.started radio).next (.beginWindow windowId configGeneration startUs deadlineUs) =
      some (.receiving radio windowId) :=
  rfl

@[simp] theorem next_stop_failed : (Phase.failed radio).next (.stop radio' result) =
    if radio' = radio then some (.held (afterStop radio result)) else none :=
  rfl

@[simp] theorem next_endWindow :
    (Phase.receiving radio windowId).next .endWindow = some (.ended radio windowId) :=
  rfl

@[simp] theorem next_stop_ended : (Phase.ended radio windowId).next (.stop radio' result) =
    if radio' = radio then some (.stopped (afterStop radio result) windowId) else none :=
  rfl

@[simp] theorem next_drainEvents :
    (Phase.stopped left windowId).next .drainEvents = some (.drained left windowId) :=
  rfl

@[simp] theorem next_takeDrops_drained (count : UInt32) :
    (Phase.drained left windowId).next (.takeDrops windowId' count) =
      if windowId' = windowId then some (.counted left) else none :=
  rfl

@[simp] theorem next_takeDrops_held (count : UInt32) :
    (Phase.held left).next (.takeDrops windowId count) = some (.counted left) :=
  rfl

@[simp] theorem next_takeUnattributed (count : UInt32) :
    (Phase.counted left).next (.takeUnattributed count) = some (rest left) :=
  rfl

@[simp] theorem next_takeUnattributed_drained (count : UInt32) :
    (Phase.drained left windowId).next (.takeUnattributed count) =
      some (.pooled left windowId) :=
  rfl

@[simp] theorem next_takeUnattributed_held (count : UInt32) :
    (Phase.held left).next (.takeUnattributed count) = some (.pooled left none) :=
  rfl

@[simp] theorem next_takeDrops_pooled (expected : Option UInt32) (count : UInt32) :
    (Phase.pooled left expected).next (.takeDrops windowId count) =
      if expected = none ∨ expected = some windowId then some (rest left) else none :=
  rfl

@[simp] theorem next_stop_stuck : (Phase.stuck radio).next (.stop radio' result) =
    if radio' = radio then some (if result.ok then .recovered else .stuck radio) else none :=
  rfl

@[simp] theorem next_drainEvents_recovered : Phase.recovered.next .drainEvents = some .emptied :=
  rfl

@[simp] theorem next_takeUnattributed_emptied (count : UInt32) :
    Phase.emptied.next (.takeUnattributed count) = some .off :=
  rfl

end Arms

/-- The phase after a list of calls, if they keep the contract. -/
def after (calls : List Event) : Option Phase :=
  calls.foldlM next .off

/-- The receivers that had a start not yet followed by a stop that worked. -/
def maybeOn : Phase → List Radio
  | .off | .recovered | .emptied => []
  | .started radio | .failed radio | .receiving radio _ | .ended radio _ | .stuck radio =>
    [radio]
  | .stopped left _ | .drained left _ | .held left | .counted left | .pooled left _ => left.toList

end Phase

end CydMonitor.Observation
