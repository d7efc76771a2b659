import CydMonitor.Hci.Commands
import CydMonitor.Lib.Prog

/-!
# The HCI transport (`firmware/platform/esp32/radio/hci_transport.cpp`)

The controller library and the exchange of one command answer from a state of their own,
which is arbitrary. Every command that was executed and every controller cycle is noted.
-/

namespace CydMonitor.Hci

inductive CommandResult.Code where
  | kCompleted | kRejected | kTimedOut | kUnavailable | kNeedsReset
  deriving DecidableEq, Repr

/-- `sent`: the packet was handed to the controller, whatever followed. -/
structure CommandResult where
  code : CommandResult.Code := .kUnavailable
  detail : UInt8 := 0
  sent : Bool := false
  deriving DecidableEq, Repr

inductive Recovery where
  | kRecovered | kCycledNotBooted | kNotCycled
  deriving DecidableEq, Repr

def ESP_OK : Int32 := 0
def ESP_FAIL : Int32 := -1
def ESP_ERR_NO_MEM : Int32 := 0x101
def ESP_ERR_INVALID_STATE : Int32 := 0x103

def kCommandTimeoutUs : UInt64 := 500000
def kResetTimeoutUs : UInt64 := 1000000
def kMaxBootAttempts : ℕ := 3

/-- What the transport is built on. -/
structure HciLine (τ : Type) where
  execute : Command → Options → (timeoutUs : UInt64) → StateM τ CommandResult
  takeHardwareError : StateM τ (Option UInt8)
  initialise : StateM τ Int32
  disable : StateM τ Int32
  enable : StateM τ Int32
  registerCallback : StateM τ Int32

inductive Entry where
  | executed (command : Command) (options : Options) (result : CommandResult)
  | cycled
  deriving DecidableEq

structure HciTransport (τ : Type) where
  line : τ
  log : List Entry := []
  controllerInitialised : Bool := false

namespace HciTransport

variable {τ : Type}

abbrev TransportM (τ : Type) := StateM (HciTransport τ)

def ask {α : Type} (c : StateM τ α) : TransportM τ α :=
  fun t => ((c t.line).1, { t with line := (c t.line).2 })

def note (e : Entry) : TransportM τ Unit :=
  fun t => ((), { t with log := t.log ++ [e] })

variable (h : HciLine τ)

def execute (command : Command) (options : Options) (timeoutUs : UInt64) :
    TransportM τ CommandResult := do
  let result ← ask (h.execute command options timeoutUs)
  note (.executed command options result)
  pure result

def takeHardwareError : TransportM τ (Option UInt8) := ask h.takeHardwareError

def stepTimeoutUs (step : BootStep) : UInt64 :=
  if step.command = .kReset then kResetTimeoutUs else kCommandTimeoutUs

def runBootFrom (sequencer : BootSequencer) : TransportM τ Bool :=
  match _hstep : sequencer.current with
  | none => pure sequencer.complete
  | some step => do
    let result ← execute h step.command step.options (stepTimeoutUs step)
    match result.code with
    | .kCompleted => runBootFrom (sequencer.onResult ⟨.kCompleted, 0⟩)
    | .kRejected => runBootFrom (sequencer.onResult ⟨.kRejected, result.detail⟩)
    | .kTimedOut => runBootFrom (sequencer.onResult ⟨.kTimedOut, 0⟩)
    | .kUnavailable | .kNeedsReset => pure false
termination_by sequencer.remaining
decreasing_by
  · exact BootSequencer.remaining_completed (by simp [_hstep]) 0
  · exact BootSequencer.remaining_failed (by simp [_hstep]) (.inl rfl)
  · exact BootSequencer.remaining_failed (by simp [_hstep]) (.inr rfl)

def runBoot : TransportM τ Bool := runBootFrom h (BootSequencer.make 0x50 0x50)

/-- The controller is enabled again and its callbacks registered; the tracker starts anew. -/
def enableController : TransportM τ Bool := do
  let enabled ← ask h.enable
  if enabled ≠ ESP_OK then pure false
  else do
    let registered ← ask h.registerCallback
    if registered ≠ ESP_OK then pure false
    else do
      note .cycled
      pure true

def cycleController : TransportM τ Bool := do
  let disabled ← ask h.disable
  if disabled ≠ ESP_OK && disabled ≠ ESP_ERR_INVALID_STATE then pure false
  else enableController h

def cycleIf (cycle : Bool) : TransportM τ Bool :=
  if cycle then cycleController h else pure true

/-- The attempts that are left of a boot; `cycle`: whether the next one cycles first. -/
def bootAttempts : ℕ → (cycle : Bool) → TransportM τ Bool
  | 0, _ => pure false
  | attempts + 1, cycle => do
    let cycled ← cycleIf h cycle
    if !cycled then bootAttempts attempts true
    else do
      let booted ← runBoot h
      if booted then pure true else bootAttempts attempts true

def bootWithRetries (cycleFirst : Bool) : TransportM τ Bool :=
  bootAttempts h kMaxBootAttempts cycleFirst

/-- The controller is initialised at the first call only. -/
def initialiseOnce : TransportM τ Int32 := fun t =>
  if t.controllerInitialised then (ESP_OK, t) else ask h.initialise t

def markInitialised : TransportM τ Unit :=
  fun t => ((), { t with controllerInitialised := true })

def bringUp : TransportM τ Int32 := do
  let err ← initialiseOnce h
  if err ≠ ESP_OK then pure err
  else do
    markInitialised
    let booted ← bootWithRetries h false
    pure (if booted then ESP_OK else ESP_FAIL)

def recoverAttempts : ℕ → (cycled : Bool) → TransportM τ Recovery
  | 0, cycled => pure (if cycled then .kCycledNotBooted else .kNotCycled)
  | attempts + 1, cycled => do
    let cycledNow ← cycleController h
    if !cycledNow then recoverAttempts attempts cycled
    else do
      let booted ← runBoot h
      if booted then pure .kRecovered else recoverAttempts attempts true

def recover : TransportM τ Recovery := recoverAttempts h kMaxBootAttempts false

end HciTransport

end CydMonitor.Hci
