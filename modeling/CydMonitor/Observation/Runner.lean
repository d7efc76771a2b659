import CydMonitor.Lib.Prog
import CydMonitor.Observation.Driver
import Mathlib.Logic.Function.Basic

/-!
# The radio task's scheduling loop (`firmware/domain/src/radio_runner.cpp`)
-/

namespace CydMonitor.Observation

def kUsPerMs : UInt64 := 1000
def kForeverUs : UInt64 := 18446744073709551615
def kMaxControlsPerStep : ℕ := 16
def kMaxStalledWakes : ℕ := 64
def kStopRetryBackoffUs : UInt64 := 1000000

def saturatingAdd (a b : UInt64) : UInt64 :=
  if b > kForeverUs - a then kForeverUs else a + b

def kUint32Max : UInt32 := 4294967295

def saturatingAdd32 (a b : UInt32) : UInt32 :=
  if b > kUint32Max - a then kUint32Max else a + b

def sameConfig (a b : ObservationConfig) : Bool :=
  a.wifiEnabled == b.wifiEnabled && a.bleEnabled == b.bleEnabled &&
    a.wifiChannels == b.wifiChannels && a.wifiDwellMs == b.wifiDwellMs &&
    a.bleWindowMs == b.bleWindowMs

def merged (config : ObservationConfig) (request : ControlRequest) : ObservationConfig :=
  normalizeConfig
    { wifiEnabled := request.wifiEnabled.getD config.wifiEnabled
      bleEnabled := request.bleEnabled.getD config.bleEnabled
      wifiChannels :=
        if request.hasChannels then
          request.channels.toList.take (min request.channelCount.toNat kMaxPlanChannels)
        else config.wifiChannels
      wifiDwellMs := request.wifiDwellMs.getD config.wifiDwellMs
      bleWindowMs := request.bleWindowMs.getD config.bleWindowMs }

def other : Radio → Radio
  | .kWifi => .kBle
  | .kBle => .kWifi

structure OpenWindow where
  window : Window
  report : WindowReport
  startUs : UInt64 := 0
  deadlineUs : UInt64 := 0
  rxStartUs : UInt64 := 0
  started : Bool := false
  faulted : Bool := false

structure RadioRunner where
  scheduler : ObservationScheduler
  announced : Bool := false
  configGeneration : UInt32 := 0
  windowId : UInt32 := 0
  nextStartUs : Option UInt64 := none
  running : Radio → Bool := fun _ => false
  faultActive : Radio → Bool := fun _ => false
  faultOp : Radio → FaultOp := fun _ => .kInit
  faultCode : Radio → Int32 := fun _ => 0
  cleanWindows : Radio → UInt32 := fun _ => 0
  carriedDrops : UInt32 := 0
  openWindow : Option OpenWindow := none
  stuck : Option Radio := none
  stopRetryAtUs : UInt64 := 0

/-- The runner with its driver and everything that crossed the seam, oldest first. -/
structure World (δ : Type) where
  runner : RadioRunner
  driver : δ
  calls : List Event := []

abbrev RadioM (δ : Type) := StateM (World δ)

namespace RadioRunner

variable {δ : Type}

def init (config : ObservationConfig) : RadioRunner where
  scheduler := ObservationScheduler.make config

def read : RadioM δ RadioRunner := fun w => (w.runner, w)

def update (f : RadioRunner → RadioRunner) : RadioM δ Unit :=
  fun w => ((), { w with runner := f w.runner })

/-- A call through the seam. -/
def call {α : Type} (f : StateM δ α) (note : α → Event) : RadioM δ α :=
  fun w => ((f w.driver).1,
    { w with driver := (f w.driver).2, calls := w.calls ++ [note (f w.driver).1] })

def emit (message : RadioMessage) : RadioM δ Unit :=
  fun w => ((), { w with calls := w.calls ++ [.emit message] })

variable (d : RadioDriver δ)

def nowUs : RadioM δ UInt64 := call d.nowUs .nowUs

def poll : RadioM δ (Option ControlRequest) := call d.poll .poll

def startReceiver (window : Window) : RadioM δ DriverResult :=
  match window.radio with
  | .kWifi => call (d.startWifi window.channel) (.start .kWifi window.channel)
  | .kBle => call d.startBle (.start .kBle window.channel)

def emitConfig : RadioM δ Unit := do
  let r ← read
  emit (.configApplied (toConfigApplied r.configGeneration r.scheduler.config))

def clearFault (radio : Radio) : RadioM δ Unit := do
  update fun r => { r with cleanWindows := Function.update r.cleanWindows radio 0 }
  let r ← read
  if !r.faultActive radio then pure ()
  else do
    update fun r => { r with faultActive := Function.update r.faultActive radio false }
    emit (.faultCleared radio)

/-- A new plan or an enable change restarts the radio's clean pass. -/
def restartCleanPass (before next : ObservationConfig) (clean : Radio → UInt32) :
    Radio → UInt32
  | .kWifi =>
    if next.wifiEnabled != before.wifiEnabled || next.wifiChannels != before.wifiChannels then 0
    else clean .kWifi
  | .kBle => if next.bleEnabled != before.bleEnabled then 0 else clean .kBle

def enabled (config : ObservationConfig) : Radio → Bool
  | .kWifi => config.wifiEnabled
  | .kBle => config.bleEnabled

/-- A disabled radio's fault clears, unless its receiver is still stuck on. -/
def clearDisabled (radio : Radio) : RadioM δ Unit := do
  let r ← read
  if !enabled r.scheduler.config radio && r.stuck != some radio then clearFault radio
  else pure ()

def applyControl (request : ControlRequest) : RadioM δ Bool := do
  let r ← read
  if sameConfig (merged r.scheduler.config request) r.scheduler.config then pure false
  else do
    update fun r =>
      { r with
        cleanWindows :=
          restartCleanPass r.scheduler.config (merged r.scheduler.config request) r.cleanWindows
        scheduler := r.scheduler.configure (merged r.scheduler.config request)
        configGeneration := r.configGeneration + 1
        nextStartUs := none }
    emitConfig
    clearDisabled .kWifi
    clearDisabled .kBle
    pure true

/-- One wake of a wait: a request that would change the configuration, if it brought one. -/
def wake (deadlineUs : UInt64) : RadioM δ (Option ControlRequest) := do
  let reason ← call (d.waitUntilUs deadlineUs) (.waitUntilUs deadlineUs)
  if reason = .kControl then do
    let request ← poll d
    let r ← read
    pure (request.filter fun q =>
      !sameConfig (merged r.scheduler.config q) r.scheduler.config)
  else pure none

def waitLoop (deadlineUs lastNowUs : UInt64) (stalledWakes : ℕ) :
    RadioM δ (Option ControlRequest) :=
  if hbefore : lastNowUs < deadlineUs then do
    let request ← wake d deadlineUs
    if request.isSome then pure request
    else do
      let now ← nowUs d
      if hmoved : now > lastNowUs then waitLoop deadlineUs now 0
      else if hstalled : stalledWakes + 1 > kMaxStalledWakes then do
        call d.yield fun _ => .yield
        pure none
      else waitLoop deadlineUs lastNowUs (stalledWakes + 1)
  else pure none
termination_by
  (deadlineUs.toNat - lastNowUs.toNat) * (kMaxStalledWakes + 1) + (kMaxStalledWakes - stalledWakes)
decreasing_by
  · have h₁ : lastNowUs.toNat < deadlineUs.toNat := UInt64.lt_iff_toNat_lt.mp hbefore
    have h₂ : lastNowUs.toNat < now.toNat := UInt64.lt_iff_toNat_lt.mp hmoved
    simp only [kMaxStalledWakes]
    omega
  · simp only [kMaxStalledWakes] at hstalled ⊢
    omega

def waitUntil (deadlineUs : UInt64) : RadioM δ (Option ControlRequest) := do
  let lastNowUs ← nowUs d
  waitLoop d deadlineUs lastNowUs 0

def issueStop : Radio → RadioM δ DriverResult
  | .kWifi => call d.stopWifi (.stop .kWifi)
  | .kBle => call d.stopBle (.stop .kBle)

def stopReceiver (radio : Radio) : RadioM δ DriverResult := do
  let result ← issueStop d radio
  update fun r =>
    { r with
      running := if result.ok then Function.update r.running radio false else r.running }
  pure result

def noteFault (radio : Radio) (result : DriverResult) : RadioM δ Unit := do
  update fun r => { r with cleanWindows := Function.update r.cleanWindows radio 0 }
  let r ← read
  if r.faultActive radio && r.faultOp radio == result.op && r.faultCode radio == result.code then
    pure ()
  else do
    update fun r =>
      { r with
        faultActive := Function.update r.faultActive radio true
        faultOp := Function.update r.faultOp radio result.op
        faultCode := Function.update r.faultCode radio result.code }
    emit (.fault ⟨radio, result.op, result.code⟩)

def noteStopFailure (radio : Radio) (result : DriverResult) : RadioM δ Unit := do
  update fun r => { r with stuck := some radio }
  let now ← nowUs d
  update fun r =>
    { r with stopRetryAtUs := saturatingAdd now kStopRetryBackoffUs, nextStartUs := none }
  noteFault radio result

/-- Ends the measured interval of a started window and stops its receiver; whether the
window is faulted. -/
def closeReceiver (o : OpenWindow) : RadioM δ Bool :=
  if o.started then do
    call d.endWindow fun _ => .endWindow
    let stopped ← stopReceiver d o.window.radio
    call d.drainEvents fun _ => .drainEvents
    if !stopped.ok then do
      noteStopFailure d o.window.radio stopped
      pure true
    else pure o.faulted
  else pure o.faulted

def dropsFirst : RadioM δ Bool :=
  fun w => (d.dropsFirst w.driver, w)

/-- The sum of the window's drops and the unattributed ones. -/
def takeBoth (windowId : UInt32) : RadioM δ UInt32 := do
  let first ← dropsFirst d
  -- Both calls are arguments of SaturatingAdd32, whose order C++ leaves open.
  if first then do
    let drops ← call (d.takeDrops windowId) (.takeDrops windowId)
    let unattributed ← call d.takeUnattributed .takeUnattributed
    pure (saturatingAdd32 drops unattributed)
  else do
    let unattributed ← call d.takeUnattributed .takeUnattributed
    let drops ← call (d.takeDrops windowId) (.takeDrops windowId)
    pure (saturatingAdd32 drops unattributed)

/-- The drops the report is charged with; the carried ones go with it. -/
def chargeDrops (windowId : UInt32) : RadioM δ UInt32 := do
  let taken ← takeBoth d windowId
  let r ← read
  update fun r => { r with carriedDrops := 0 }
  pure (saturatingAdd32 taken r.carriedDrops)

/-- The measured interval clipped to the planned window. -/
def observedMs (o : OpenWindow) (rxEndUs : UInt64) : UInt32 :=
  if o.started && min rxEndUs o.deadlineUs > max o.rxStartUs o.startUs then
    ((min rxEndUs o.deadlineUs - max o.rxStartUs o.startUs) / kUsPerMs).toUInt32
  else 0

def closing (o : OpenWindow) (rxEndUs doneUs : UInt64) (faulted cut : Bool) (dropped : UInt32) :
    WindowReport :=
  { o.report with
    droppedEvents := dropped
    observedMs := observedMs o rxEndUs
    completedMs := doneUs / kUsPerMs
    ended := if faulted then .kDriverFault else if cut then .kConfigurationChanged
      else .kCompleted }

/-- Clean windows needed to clear a fault: a pass over the channel plan for WiFi. -/
def cleanNeeded (r : RadioRunner) : Radio → ℕ
  | .kWifi => r.scheduler.channels.length
  | .kBle => 1

def countClean (radio : Radio) (faulted : Bool) (report : WindowReport) : RadioM δ Unit :=
  if faulted then
    update fun r => { r with cleanWindows := Function.update r.cleanWindows radio 0 }
  else if report.ended = .kCompleted ∧ report.observedMs > 0 then do
    update fun r =>
      { r with cleanWindows := Function.update r.cleanWindows radio (r.cleanWindows radio + 1) }
    let r ← read
    if r.faultActive radio ∧ cleanNeeded r radio ≤ (r.cleanWindows radio).toNat then
      clearFault radio
    else pure ()
  else pure ()

/-- Applies a request, if there is one. -/
def applyPending (pending : Option ControlRequest) : RadioM δ Unit :=
  match pending with
  | some request => do
    let _ ← applyControl request
    pure ()
  | none => pure ()

def finishWindow (o : OpenWindow) (pending : Option ControlRequest) : RadioM δ Unit := do
  let rxEndUs ← nowUs d
  let faulted ← closeReceiver d o
  let dropped ← chargeDrops d o.report.windowId
  let doneUs ← nowUs d
  countClean o.window.radio faulted (closing o rxEndUs doneUs faulted pending.isSome dropped)
  emit (.windowReport (closing o rxEndUs doneUs faulted pending.isSome dropped))
  update fun r =>
    { r with
      nextStartUs := if r.stuck.isSome then none else some (max o.deadlineUs doneUs) }
  applyPending pending

/-- Whether a wait without a request ended before the time it was to wait for. -/
def gaveUp (deadlineUs : UInt64) (pending : Option ControlRequest) : RadioM δ Bool :=
  if pending.isSome then pure false
  else do
    let now ← nowUs d
    pure (decide (now < deadlineUs))

def holdWindow (o : OpenWindow) : RadioM δ (Option ControlRequest × Bool) := do
  let r ← read
  if r.stuck.isSome then pure (none, false)
  else do
    let pending ← waitUntil d o.deadlineUs
    let early ← gaveUp d o.deadlineUs pending
    pure (pending, early)

def resumeWindow (o : OpenWindow) : RadioM δ Unit := do
  let held ← holdWindow d o
  if held.2 then pure ()
  else do
    finishWindow d o held.1
    update fun r => { r with openWindow := none }

/-- The other receiver must be off before this one starts; whether it would not stop. -/
def stopOther (radio : Radio) : RadioM δ Bool := do
  let r ← read
  if r.running (other radio) then do
    let stopped ← stopReceiver d (other radio)
    if !stopped.ok then do
      noteStopFailure d (other radio) stopped
      pure true
    else pure false
  else pure false

def noteStop (radio : Radio) (result : DriverResult) : RadioM δ Unit :=
  if !result.ok then noteStopFailure d radio result else pure ()

/-- A failed start may still have enabled receive: it is stopped. -/
def abandonStart (o : OpenWindow) (result : DriverResult) : RadioM δ OpenWindow := do
  noteFault o.window.radio result
  update fun r => { r with running := Function.update r.running o.window.radio true }
  let stopped ← stopReceiver d o.window.radio
  noteStop d o.window.radio stopped
  pure { o with faulted := true }

def startWindow (o : OpenWindow) : RadioM δ OpenWindow := do
  let result ← startReceiver d o.window
  if result.ok then do
    update fun r => { r with running := Function.update r.running o.window.radio true }
    let rxStartUs ← nowUs d
    call (d.beginWindow o.report.windowId o.report.configGeneration rxStartUs o.deadlineUs)
      fun _ =>
        .beginWindow o.report.windowId o.report.configGeneration rxStartUs o.deadlineUs
    emit (.windowStarted
      ⟨o.report.windowId, o.report.configGeneration, o.window.radio, o.window.channel,
        rxStartUs / kUsPerMs, o.window.plannedMs⟩)
    pure { o with started := true, rxStartUs }
  else abandonStart d o result

/-- The window as `RunWindow` sets it up, before any driver call. -/
def opening (r : RadioRunner) (window : Window) (startUs : UInt64) : OpenWindow where
  window
  report := { window, windowId := r.windowId, configGeneration := r.configGeneration }
  startUs
  deadlineUs := saturatingAdd startUs (window.plannedMs.toUInt64 * kUsPerMs)

def beginOpen (o : OpenWindow) : RadioM δ OpenWindow := do
  let faulted ← stopOther d o.window.radio
  if faulted then pure { o with faulted := true } else startWindow d o

def takeWindow (startUs : UInt64) : RadioM δ (Option Window) := do
  let r ← read
  update fun r => { r with scheduler := (r.scheduler.nextWindow (startUs / kUsPerMs)).2 }
  pure (r.scheduler.nextWindow (startUs / kUsPerMs)).1

def openWindowAt (startUs : UInt64) (window : Window) : RadioM δ Unit := do
  update fun r => { r with windowId := r.windowId + 1 }
  let r ← read
  let o ← beginOpen d (opening r window startUs)
  update fun r => { r with openWindow := some o }
  resumeWindow d o

def openNext (startUs : UInt64) : RadioM δ Unit := do
  let window ← takeWindow startUs
  match window with
  | none => pure ()
  | some window => openWindowAt d startUs window

def runWindow : RadioM δ Unit := do
  let now ← nowUs d
  let r ← read
  let request ← waitUntil d (r.nextStartUs.getD now)
  let early ← gaveUp d (r.nextStartUs.getD now) request
  if request.isSome then applyPending request
  else if early then pure ()
  else openNext d (r.nextStartUs.getD now)

/-- The stop that worked: what came in meanwhile is drained and its drops carried. -/
def recover (radio : Radio) : RadioM δ Unit := do
  update fun r => { r with stuck := none }
  call d.drainEvents fun _ => .drainEvents
  let unattributed ← call d.takeUnattributed .takeUnattributed
  update fun r =>
    { r with
      carriedDrops := saturatingAdd32 r.carriedDrops unattributed
      nextStartUs := none }
  clearFault radio

def retryStop (radio : Radio) : RadioM δ Unit := do
  let r ← read
  let request ← waitUntil d r.stopRetryAtUs
  let early ← gaveUp d r.stopRetryAtUs request
  if request.isSome then applyPending request
  else if early then pure ()
  else do
    let stopped ← stopReceiver d radio
    if !stopped.ok then do
      let now ← nowUs d
      update fun r => { r with stopRetryAtUs := saturatingAdd now kStopRetryBackoffUs }
    else recover d radio

def announce : RadioM δ Unit := do
  let r ← read
  if r.announced then pure ()
  else do
    update fun r =>
      { r with announced := true, configGeneration := r.configGeneration + 1 }
    emitConfig

/-- Applies the waiting controls, at most so many. -/
def pollControls : ℕ → RadioM δ Unit
  | 0 => pure ()
  | rounds + 1 => do
    let request ← poll d
    if request.isSome then do
      applyPending request
      pollControls rounds
    else pure ()

/-- Host-only monitoring: sleeps until a request changes something. -/
def idle : RadioM δ Unit := do
  update fun r => { r with nextStartUs := none }
  let request ← waitUntil d kForeverUs
  applyPending request

def schedule : RadioM δ Unit := do
  pollControls d kMaxControlsPerStep
  let r ← read
  match r.stuck with
  | some radio => retryStop d radio
  | none =>
    if !r.scheduler.config.wifiEnabled && !r.scheduler.config.bleEnabled then idle d
    else runWindow d

def step : RadioM δ Unit := do
  announce
  let r ← read
  match r.openWindow with
  | some o => resumeWindow d o
  | none => schedule d

/-- A runner over a driver's state, before its first step. -/
def boot (config : ObservationConfig) (driver : δ) : World δ where
  runner := init config
  driver

/-- The world after so many steps. -/
def run (config : ObservationConfig) (driver : δ) (steps : ℕ) : World δ :=
  Prog.repeated (step d) steps (boot config driver)

end RadioRunner

end CydMonitor.Observation
