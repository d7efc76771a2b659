import CydMonitor.Observation.Messages
import Mathlib.Logic.Function.Basic

/-!
# Coverage (`firmware/domain/src/coverage.cpp`, `firmware/main/main.cpp`)

The books of the windows that were reported, the app loop's picture of the radio task and what
the status bar shows of it.
-/

namespace CydMonitor.Observation

def kMaxGaps : ℕ := 16
def kStaleRevisitPeriods : UInt64 := 3

/-- Observed under half the planned time; exactly half is not a gap. -/
def isGap (observedMs plannedMs : UInt32) : Bool :=
  observedMs.toUInt64 * 2 < plannedMs.toUInt64

structure CoverageGap where
  radio : Radio
  startMs : UInt64
  durationMs : UInt32
  deriving DecidableEq

structure RadioTotals where
  plannedMs : UInt64 := 0
  observedMs : UInt64 := 0
  droppedEvents : UInt64 := 0
  windows : UInt32 := 0
  lastChannel : UInt8 := 0
  lastReportMs : Option UInt64 := none
  lastPlannedMs : UInt32 := 0
  lastObservedMs : UInt32 := 0
  deriving DecidableEq

structure CoverageLedger where
  totals : Radio → RadioTotals := fun _ => {}
  /-- The reason of a fault; empty when there is none. -/
  faults : Radio → List Char := fun _ => []
  gaps : List CoverageGap := []

/-- The time a report counts as observed. -/
def WindowReport.counted (report : WindowReport) : UInt32 :=
  min report.observedMs report.window.plannedMs

def WindowReport.gap (report : WindowReport) : CoverageGap where
  radio := report.window.radio
  startMs := report.window.startMs
  durationMs := report.window.plannedMs - report.counted

def RadioTotals.add (totals : RadioTotals) (report : WindowReport) : RadioTotals where
  plannedMs := totals.plannedMs + report.window.plannedMs.toUInt64
  observedMs := totals.observedMs + report.counted.toUInt64
  droppedEvents := totals.droppedEvents + report.droppedEvents.toUInt64
  windows := totals.windows + 1
  lastChannel := report.window.channel
  lastReportMs := some report.completedMs
  lastPlannedMs := report.window.plannedMs
  lastObservedMs := report.counted

namespace CoverageLedger

/-- A deque that drops its oldest gap. -/
def pushGap (gaps : List CoverageGap) (gap : CoverageGap) : List CoverageGap :=
  if (gaps ++ [gap]).length > kMaxGaps then (gaps ++ [gap]).tail else gaps ++ [gap]

def record (ledger : CoverageLedger) (report : WindowReport) : CoverageLedger :=
  { ledger with
    totals := Function.update ledger.totals report.window.radio
      ((ledger.totals report.window.radio).add report)
    gaps :=
      if isGap report.counted report.window.plannedMs then pushGap ledger.gaps report.gap
      else ledger.gaps }

def setFault (ledger : CoverageLedger) (radio : Radio) (reason : List Char) : CoverageLedger :=
  { ledger with faults := Function.update ledger.faults radio reason }

def clearFault (ledger : CoverageLedger) (radio : Radio) : CoverageLedger :=
  ledger.setFault radio []

end CoverageLedger

def opName : FaultOp → List Char
  | .kInit => "init".toList
  | .kStart => "start".toList
  | .kStop => "stop".toList
  | .kSetChannel => "set channel".toList
  | .kHciTimeout => "hci timeout".toList
  | .kHciRejected => "hci rejected".toList
  | .kReportQueueOverflow => "report overflow".toList
  | .kHardwareError => "hardware error".toList

/-- `std::to_string` -/
def toText (code : Int32) : List Char :=
  if code < 0 then '-' :: Nat.toDigits 10 code.toInt.natAbs
  else Nat.toDigits 10 code.toInt.natAbs

def faultText (op : FaultOp) (code : Int32) : List Char :=
  if code ≠ 0 then opName op ++ " (".toList ++ toText code ++ ")".toList else opName op

/-- A fault always has a reason. -/
theorem faultText_ne_nil (op : FaultOp) (code : Int32) : faultText op code ≠ [] := by
  have hname : opName op ≠ [] := by cases op <;> decide
  rw [faultText]
  split_ifs
  · simp [hname]
  · exact hname

structure ActiveWindow where
  radio : Radio := .kWifi
  channel : UInt8 := 0
  windowId : UInt32 := 0
  rxStartMs : UInt64 := 0
  plannedMs : UInt32 := 0
  deriving DecidableEq

/-- The app loop's picture of the radio task. -/
structure RadioApp where
  config : ObservationConfig := {}
  generation : UInt32 := 0
  active : Option ActiveWindow := none
  last : Option WindowReport := none
  ledger : CoverageLedger := {}

/-- What `PumpRadio` makes of a message. -/
def RadioApp.pump (app : RadioApp) : RadioMessage → RadioApp
  | .configApplied config =>
    { app with config := toObservationConfig config, generation := config.configGeneration }
  | .windowStarted started =>
    { app with
      active := some ⟨started.radio, started.channel, started.windowId, started.rxStartMs,
        started.plannedMs⟩ }
  | .windowReport report =>
    { app with
      ledger := app.ledger.record report
      last := some report
      active := app.active.filter fun active => active.windowId ≠ report.windowId }
  | .fault f => { app with ledger := app.ledger.setFault f.radio (faultText f.op f.code) }
  | .faultCleared radio => { app with ledger := app.ledger.clearFault radio }

/-- The picture after so many messages. -/
def picture (messages : List RadioMessage) : RadioApp := messages.foldl RadioApp.pump {}

inductive RadioState where
  | kOperatorDisabled | kFault | kNoData | kObserving | kGap
  deriving DecidableEq

structure RadioCoverageView where
  state : RadioState := .kNoData
  note : List Char := []
  observedPermille : UInt32 := 0
  droppedEvents : UInt64 := 0
  lastChannel : UInt8 := 0
  deriving DecidableEq

structure CoverageView where
  wifi : RadioCoverageView
  ble : RadioCoverageView
  current : Option Radio := none
  hostOnly : Bool
  wifiRevisitMs : UInt32
  deriving DecidableEq

def kUInt32Max64 : UInt64 := 4294967295

/-- Time for one WiFi channel to come round again. -/
def wifiRevisitFor (config : ObservationConfig) : UInt32 :=
  if !config.wifiEnabled then 0
  else
    let channels : ℕ :=
      if config.wifiChannels.isEmpty then kDefaultWifiChannelLast - kDefaultWifiChannelFirst + 1
      else config.wifiChannels.length
    let perChannel : UInt64 :=
      config.wifiDwellMs.toUInt64 + if config.bleEnabled then config.bleWindowMs.toUInt64 else 0
    (min (perChannel * UInt64.ofNat channels) kUInt32Max64).toUInt32

def bleRevisitFor (config : ObservationConfig) : UInt32 :=
  (min
    (if config.wifiEnabled then config.wifiDwellMs.toUInt64 + config.bleWindowMs.toUInt64
      else config.bleWindowMs.toUInt64) kUInt32Max64).toUInt32

/-- No report, or one too old to tell anything. -/
def stale (totals : RadioTotals) (revisitMs : UInt32) (nowMs : UInt64) : Bool :=
  match totals.lastReportMs with
  | none => true
  | some lastMs => nowMs > lastMs && nowMs - lastMs > kStaleRevisitPeriods * revisitMs.toUInt64

def makeRadioView (enabled : Bool) (totals : RadioTotals) (fault : List Char) (revisitMs : UInt32)
    (nowMs : UInt64) : RadioCoverageView :=
  if !enabled then { state := .kOperatorDisabled }
  else
    let view : RadioCoverageView :=
      { droppedEvents := totals.droppedEvents
        lastChannel := totals.lastChannel
        observedPermille :=
          if totals.plannedMs > 0 then (totals.observedMs * 1000 / totals.plannedMs).toUInt32
          else 0 }
    if !fault.isEmpty then { view with state := .kFault, note := fault }
    else if stale totals revisitMs nowMs then { view with state := .kNoData }
    else
      { view with
        state := if isGap totals.lastObservedMs totals.lastPlannedMs then .kGap else .kObserving }

namespace CoverageView

def radio (view : CoverageView) : Radio → RadioCoverageView
  | .kWifi => view.wifi
  | .kBle => view.ble

/-- A normally observing radio shows the channel of its window. -/
def showChannel (view : CoverageView) (which : Radio) (channel : UInt8) : CoverageView :=
  match which with
  | .kWifi =>
    if view.wifi.state = .kObserving then
      { view with wifi := { view.wifi with lastChannel := channel } }
    else view
  | .kBle =>
    if view.ble.state = .kObserving then
      { view with ble := { view.ble with lastChannel := channel } }
    else view

def fresh (v : RadioCoverageView) : Bool := v.state = .kObserving || v.state = .kGap

/-- No active window: the radio with the latest fresh report. -/
def latest (view : CoverageView) (ledger : CoverageLedger) : CoverageView :=
  if fresh view.wifi &&
      (!fresh view.ble ||
        decide ((ledger.totals .kBle).lastReportMs.getD 0 ≤
          (ledger.totals .kWifi).lastReportMs.getD 0)) then
    { view with current := some .kWifi }
  else if fresh view.ble then { view with current := some .kBle }
  else view

end CoverageView

def plannedEnd (active : ActiveWindow) : UInt64 :=
  if active.rxStartMs + active.plannedMs.toUInt64 < active.rxStartMs then 18446744073709551615
  else active.rxStartMs + active.plannedMs.toUInt64

/-- The radio's enable flag. -/
def enabledIn (config : ObservationConfig) : Radio → Bool
  | .kWifi => config.wifiEnabled
  | .kBle => config.bleEnabled

/-- A later report supersedes the window. -/
def superseded (ledger : CoverageLedger) (active : ActiveWindow) : Bool :=
  (ledger.totals active.radio).lastReportMs.any fun lastMs => lastMs > active.rxStartMs

def makeCoverageView (given : ObservationConfig) (ledger : CoverageLedger) (nowMs : UInt64)
    (active : Option ActiveWindow) : CoverageView :=
  let config := normalizeConfig given
  let view : CoverageView :=
    { hostOnly := !config.wifiEnabled && !config.bleEnabled
      wifiRevisitMs := wifiRevisitFor config
      wifi := makeRadioView config.wifiEnabled (ledger.totals .kWifi) (ledger.faults .kWifi)
        (wifiRevisitFor config) nowMs
      ble := makeRadioView config.bleEnabled (ledger.totals .kBle) (ledger.faults .kBle)
        (bleRevisitFor config) nowMs }
  match active with
  | none => view.latest ledger
  | some window =>
    if superseded ledger window then view.latest ledger
    else if nowMs > plannedEnd window then
      -- Overdue: the newest channel all the same, but no longer current.
      (if window.radio = .kWifi ∧ config.wifiEnabled then view.showChannel .kWifi window.channel
        else view).latest ledger
    else if enabledIn config window.radio then
      { view.showChannel window.radio window.channel with current := some window.radio }
    else view.latest ledger

inductive RadioSlotState where
  | kScanning | kIdle | kOff | kGap | kNoData | kFault
  deriving DecidableEq

structure RadioSlotView where
  state : RadioSlotState := .kNoData
  channel : UInt8 := 0
  deriving DecidableEq

structure CoverageStatus where
  wifi : RadioSlotView
  ble : RadioSlotView
  deriving DecidableEq

def slot (view : CoverageView) (which : Radio) : RadioSlotView :=
  let v := view.radio which
  let channel : UInt8 := if which = .kWifi then v.lastChannel else 0
  match v.state with
  | .kOperatorDisabled => { state := .kOff }
  | .kNoData => { state := .kNoData }
  | .kFault => { state := .kFault, channel }
  | .kGap => { state := .kGap, channel }
  | .kObserving => { state := if view.current = some which then .kScanning else .kIdle, channel }

def makeCoverageStatus (view : CoverageView) : CoverageStatus where
  wifi := slot view .kWifi
  ble := slot view .kBle

/-- What `DrawMonitor` shows of the picture. -/
def RadioApp.status (app : RadioApp) (nowMs : UInt64) : CoverageStatus :=
  makeCoverageStatus (makeCoverageView app.config app.ledger nowMs app.active)

end CydMonitor.Observation
