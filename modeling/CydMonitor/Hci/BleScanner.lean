import CydMonitor.Hci.Transport
import CydMonitor.Lib.Latch
import CydMonitor.Observation.Driver

/-!
# Passive BLE scanning (`firmware/platform/esp32/radio/ble_scanner.cpp`)

A stop answers that it worked exactly when no scan can still be running.
-/

namespace CydMonitor.Hci

open CydMonitor.Observation (DriverResult FaultOp)

def kHciCommandDisallowed : UInt8 := 0x0c
def kCodeNotIssuedBase : Int32 := 100
def kCodeControllerReset : Int32 := 200

structure BleScanner where
  initResult : DriverResult := { ok := false, op := .kInit, code := 0 }
  transportStarted : Bool := false
  scanning : Bool := false
  stopAlreadyOff : UInt32 := 0

/-- The scanner with its transport. -/
structure Ble (τ : Type) where
  scanner : BleScanner := {}
  transport : HciTransport τ

namespace BleScanner

variable {τ : Type}

abbrev BleM (τ : Type) := StateM (Ble τ)

def read : BleM τ BleScanner := fun b => (b.scanner, b)

def update (f : BleScanner → BleScanner) : BleM τ Unit :=
  fun b => ((), { b with scanner := f b.scanner })

def via {α : Type} (c : HciTransport.TransportM τ α) : BleM τ α :=
  fun b => ((c b.transport).1, { b with transport := (c b.transport).2 })

def failed (op : FaultOp) (code : Int32) : DriverResult := { ok := false, op := op, code := code }

def map (result : CommandResult) (op : FaultOp) : DriverResult :=
  match result.code with
  | .kCompleted => {}
  | .kRejected => failed .kHciRejected result.detail.toUInt32.toInt32
  | .kTimedOut => failed .kHciTimeout 0
  | .kUnavailable => failed op (kCodeNotIssuedBase + result.detail.toUInt32.toInt32)
  | .kNeedsReset => failed op kCodeControllerReset

variable (h : HciLine τ)

def init : BleM τ DriverResult := do
  let s ← read
  if !s.transportStarted then do
    update fun s => { s with initResult := failed .kInit ESP_ERR_NO_MEM }
    pure (failed .kInit ESP_ERR_NO_MEM)
  else do
    let err ← via (HciTransport.bringUp h)
    update fun s => { s with initResult := if err = ESP_OK then {} else failed .kInit err }
    pure (if err = ESP_OK then {} else failed .kInit err)

/-- What a recovery leaves of the scanner: a controller that was cycled scans nothing. -/
def recovered (recovery : Recovery) (s : BleScanner) : BleScanner :=
  match recovery with
  | .kRecovered => { s with scanning := false, initResult := {} }
  | .kCycledNotBooted =>
    { s with scanning := false, initResult := failed .kInit kCodeControllerReset }
  | .kNotCycled => { s with initResult := failed .kInit kCodeControllerReset }

def recoverController : BleM τ Bool := do
  let recovery ← via (HciTransport.recover h)
  update (recovered recovery)
  pure (recovery == .kRecovered)

/-- A disable refused because no scan is running: it is off, which is what was asked. -/
def alreadyOff (result : CommandResult) : Bool :=
  result.code == .kRejected && result.detail == kHciCommandDisallowed

/-- What the answer to a scan enable or disable says of the scan. -/
def answered (enable : Bool) (result : CommandResult) (s : BleScanner) : BleScanner :=
  if enable then { s with scanning := s.scanning || result.sent }
  else if result.code == .kCompleted then { s with scanning := false }
  else if alreadyOff result then
    { s with scanning := false, stopAlreadyOff := s.stopAlreadyOff + 1 }
  else s

/-- The window is lost either way; recovering now leaves the next one clean. -/
def recoverIfNeeded (result : CommandResult) : BleM τ Bool :=
  if result.code = .kNeedsReset then recoverController h else pure true

/-- The end of a scan command that was not refused as already off. -/
def mapAndRecover (enable : Bool) (result : CommandResult) : BleM τ DriverResult := do
  let _ ← recoverIfNeeded h result
  pure (map result (if enable then .kStart else .kStop))

/-- A scan is only known to have changed once its packet was sent. -/
def askScan (enable : Bool) : BleM τ CommandResult := do
  let result ← via (HciTransport.execute h .kLeSetScanEnable { enable := enable }
    kCommandTimeoutUs)
  update (answered enable result)
  pure result

def setScan (enable : Bool) : BleM τ DriverResult := do
  let result ← askScan h enable
  if !enable && alreadyOff result then pure {} else mapAndRecover h enable result

/-- A start once the controller is known to be sound. -/
def startScan : BleM τ DriverResult := do
  let result ← setScan h true
  let s ← read
  pure (if s.initResult.ok then result else s.initResult)

/-- The controller said it is broken: it is reset and this window lost. -/
def startBroken (hardwareError : UInt8) : BleM τ DriverResult := do
  let usable ← recoverController h
  let s ← read
  pure (if usable then failed .kHardwareError hardwareError.toUInt32.toInt32 else s.initResult)

def startReady : BleM τ DriverResult := do
  let hardwareError ← via (HciTransport.takeHardwareError h)
  match hardwareError with
  | some code => startBroken h code
  | none => startScan h

def start : BleM τ DriverResult := do
  let s ← read
  if !s.initResult.ok then pure s.initResult else startReady h

/-- The disable did not do: a controller cycle is tried. -/
def stopByCycle (disabled : DriverResult) : BleM τ DriverResult := do
  let _ ← recoverController h
  let s ← read
  pure (if !s.scanning then {}
    else if disabled.ok then failed .kStop kCodeControllerReset else disabled)

def stopScan : BleM τ DriverResult := do
  let disabled ← setScan h false
  let s ← read
  if !s.scanning then pure {} else stopByCycle h disabled

def stop : BleM τ DriverResult := do
  let s ← read
  if !s.scanning then pure {} else stopScan h

inductive Call where
  | start | stop
  deriving DecidableEq, Repr

def perform : Call → BleM τ DriverResult
  | .start => start h
  | .stop => stop h

/-- The scanner is initialised once, then called. -/
def session (calls : List Call) : BleM τ Unit := do
  let _ ← init h
  calls.forM fun call => do
    let _ ← perform h call
    pure ()

end BleScanner

namespace Entry

/-- A scan-enable packet was handed to the controller. -/
def enables : Entry → Bool
  | .executed .kLeSetScanEnable options result => options.enable && result.sent
  | _ => false

/-- A disable that completed, a disable refused as Command Disallowed, a controller cycle. -/
def disables : Entry → Bool
  | .executed .kLeSetScanEnable options result =>
    !options.enable && (result.code == .kCompleted ||
      result.code == .kRejected && result.detail == kHciCommandDisallowed)
  | .executed _ _ _ => false
  | .cycled => true

end Entry

/-- Some scan-enable packet was followed by nothing that ends a scan. -/
def Outstanding (log : List Entry) : Prop :=
  Latch.Pending Entry.enables Entry.disables log

/-- Whether a scan may be running, read along the log. -/
def mayScan (log : List Entry) : Bool :=
  Latch.held Entry.enables Entry.disables log

section Transport

open HciTransport

variable {τ : Type} (h : HciLine τ)

theorem ask_mayScan {α : Type} (c : StateM τ α) (on : Bool) :
    Prog.Triple (fun t : HciTransport τ => mayScan t.log = on) (ask c)
      fun _ t => mayScan t.log = on :=
  fun _ ht => ht

theorem cycled_mayScan :
    Prog.Triple (fun _ : HciTransport τ => True) (note .cycled)
      fun _ t => mayScan t.log = false := by
  intro t _
  show mayScan (t.log ++ [.cycled]) = false
  simp [mayScan, Entry.enables, Entry.disables]

/-- A command other than the scan enable says nothing of the scan. -/
theorem execute_mayScan {command : Command} (hcommand : command ≠ .kLeSetScanEnable)
    (options : Options) (timeoutUs : UInt64) (on : Bool) :
    Prog.Triple (fun t : HciTransport τ => mayScan t.log = on)
      (execute h command options timeoutUs) fun _ t => mayScan t.log = on := by
  intro t ht
  have hlog : (execute h command options timeoutUs t).2.log =
      t.log ++ [.executed command options (execute h command options timeoutUs t).1] := rfl
  rw [hlog, mayScan, Latch.held_concat_of_neutral]
  · exact ht
  all_goals cases command <;> first | rfl | exact absurd rfl hcommand

private theorem current_mem {b : BootSequencer} {step : BootStep} (hstep : b.current = some step) :
    step ∈ b.steps.toList := by
  rw [BootSequencer.current] at hstep
  split_ifs at hstep
  exact List.mem_of_getElem? hstep

theorem runBootFrom_mayScan (sequencer : BootSequencer) (on : Bool)
    (hs : ∀ step ∈ sequencer.steps.toList, step.command ≠ .kLeSetScanEnable) :
    Prog.Triple (fun t : HciTransport τ => mayScan t.log = on) (runBootFrom h sequencer)
      fun _ t => mayScan t.log = on := by
  induction sequencer using runBootFrom.induct with
  | case1 sequencer hstep =>
    rw [runBootFrom]
    split
    · exact Prog.Triple.pure fun _ ht => ht
    · simp_all
  | case2 sequencer step hstep ih₁ ih₂ ih₃ =>
    rw [runBootFrom]
    split
    · exact Prog.Triple.pure fun _ ht => ht
    · rename_i step' hstep'
      obtain rfl : step = step' := Option.some.inj (hstep.symm.trans hstep')
      have hexec := execute_mayScan h (hs step (current_mem hstep)) step.options
        (stepTimeoutUs step) on
      refine hexec.bind fun result => ?_
      cases result.code with
      | kCompleted => exact ih₁ (by simpa using hs)
      | kRejected => exact ih₂ result (by simpa using hs)
      | kTimedOut => exact ih₃ (by simpa using hs)
      | kUnavailable | kNeedsReset => exact Prog.Triple.pure fun _ ht => ht

theorem runBoot_mayScan (on : Bool) :
    Prog.Triple (fun t : HciTransport τ => mayScan t.log = on) (runBoot h)
      fun _ t => mayScan t.log = on :=
  runBootFrom_mayScan h _ on (by decide)

/-- A cycle ends the scan; short of one, it stays as it was. -/
theorem cycleController_mayScan (on : Bool) :
    Prog.Triple (fun t : HciTransport τ => mayScan t.log = on) (cycleController h)
      fun cycled t => mayScan t.log = if cycled then false else on := by
  have henabled : Prog.Triple (fun t : HciTransport τ => mayScan t.log = on)
      (enableController h) fun cycled t => mayScan t.log = if cycled then false else on := by
    refine (ask_mayScan _ on).bind fun enabled => .ite (fun _ => .pure fun _ ht => ht) fun _ => ?_
    refine (ask_mayScan _ on).bind fun registered =>
      .ite (fun _ => .pure fun _ ht => ht) fun _ => ?_
    exact (cycled_mayScan.pre fun _ _ => trivial).bind fun _ => .pure fun _ ht => ht
  exact (ask_mayScan _ on).bind fun disabled => .ite (fun _ => .pure fun _ ht => ht) fun _ =>
    henabled

theorem recoverAttempts_mayScan (attempts : ℕ) (cycled on : Bool) :
    Prog.Triple (fun t : HciTransport τ => mayScan t.log = if cycled then false else on)
      (recoverAttempts h attempts cycled)
      fun recovery t => mayScan t.log = if recovery = .kNotCycled then on else false := by
  induction attempts generalizing cycled with
  | zero => exact .pure fun t ht => by cases cycled <;> simpa using ht
  | succ attempts ih =>
    refine (cycleController_mayScan h _).bind fun cycledNow => ?_
    cases cycledNow with
    | false => exact (ih cycled).pre fun t ht => by simpa using ht
    | true =>
      refine (runBoot_mayScan h false).bind fun booted => ?_
      cases booted with
      | false => exact ih true
      | true => exact .pure fun t ht => by simpa using ht

end Transport

namespace BleScanner

variable {τ : Type} (h : HciLine τ)

/-- The scanner knows whether a scan may be running. -/
def Tracks (b : Ble τ) : Prop :=
  b.scanner.scanning = mayScan b.transport.log

theorem recovered_scanning (recovery : Recovery) (s : BleScanner) :
    (recovered recovery s).scanning = if recovery = .kNotCycled then s.scanning else false := by
  cases recovery <;> rfl

theorem recoverController_tracks :
    Prog.Triple (Tracks (τ := τ)) (recoverController h) fun _ => Tracks := by
  intro b hb
  have hrecover : mayScan (HciTransport.recover h b.transport).2.log =
      if (HciTransport.recover h b.transport).1 = .kNotCycled then mayScan b.transport.log
      else false :=
    recoverAttempts_mayScan h kMaxBootAttempts false (mayScan b.transport.log) b.transport rfl
  show (recovered (HciTransport.recover h b.transport).1 b.scanner).scanning = _
  rw [recovered_scanning, hb]
  exact hrecover.symm

theorem answered_scanning (enable : Bool) (result : CommandResult) (s : BleScanner) :
    (answered enable result s).scanning =
      (s.scanning &&
          !(Entry.executed .kLeSetScanEnable { enable := enable } result).disables ||
        (Entry.executed .kLeSetScanEnable { enable := enable } result).enables) := by
  cases enable with
  | true => simp [answered, Entry.disables, Entry.enables]
  | false =>
    by_cases hcompleted : result.code = .kCompleted
    · simp [answered, Entry.disables, Entry.enables, hcompleted]
    · cases hoff : alreadyOff result with
      | true => simp_all [answered, Entry.disables, Entry.enables, alreadyOff]
      | false =>
        have hdisables : (Entry.executed .kLeSetScanEnable { enable := false } result).disables =
            false := by
          simpa [Entry.disables, hcompleted, alreadyOff] using hoff
        simp [answered, hdisables, Entry.enables, hcompleted, hoff]

theorem mapAndRecover_tracks (enable : Bool) (result : CommandResult) :
    Prog.Triple (Tracks (τ := τ)) (mapAndRecover h enable result) fun _ => Tracks := by
  have hrecovered : Prog.Triple (Tracks (τ := τ)) (recoverIfNeeded h result) fun _ => Tracks :=
    .ite (fun _ => recoverController_tracks h) fun _ _ hb => hb
  exact hrecovered.bind fun _ _ hb => hb

theorem askScan_tracks (enable : Bool) :
    Prog.Triple (Tracks (τ := τ)) (askScan h enable) fun _ => Tracks := by
  intro b hb
  show (answered enable _ b.scanner).scanning = mayScan (_ ++ [_])
  rw [answered_scanning, hb]
  exact (Latch.held_concat _ _).symm

theorem setScan_tracks (enable : Bool) :
    Prog.Triple (Tracks (τ := τ)) (setScan h enable) fun _ => Tracks :=
  (askScan_tracks h enable).bind fun result =>
    .ite (fun _ => .pure fun _ hb => hb) fun _ => mapAndRecover_tracks h enable result

theorem read_bind {α : Type} {f : BleScanner → BleM τ α} {Q : α → Ble τ → Prop}
    (hf : ∀ s, Prog.Triple (fun b => Tracks b ∧ b.scanner = s) (f s) Q) :
    Prog.Triple Tracks (read >>= f) Q :=
  fun b hb => hf b.scanner b ⟨hb, rfl⟩

theorem start_tracks : Prog.Triple (Tracks (τ := τ)) (start h) fun _ => Tracks := by
  have hscan : Prog.Triple (Tracks (τ := τ)) (startScan h) fun _ => Tracks :=
    (setScan_tracks h true).bind fun _ => read_bind fun _ => .pure fun _ hb => hb.1
  have hbroken (code : UInt8) : Prog.Triple (Tracks (τ := τ)) (startBroken h code)
      fun _ => Tracks :=
    (recoverController_tracks h).bind fun _ => read_bind fun _ => .pure fun _ hb => hb.1
  have hready : Prog.Triple (Tracks (τ := τ)) (startReady h) fun _ => Tracks := by
    have hasked : Prog.Triple (Tracks (τ := τ)) (via (HciTransport.takeHardwareError h))
        fun _ => Tracks := fun _ hb => hb
    refine hasked.bind fun hardwareError => ?_
    cases hardwareError with
    | none => exact hscan
    | some code => exact hbroken code
  exact read_bind fun _ => .ite (fun _ => .pure fun _ hb => hb.1) fun _ =>
    hready.pre fun _ hb => hb.1

/-- A stop answers ok exactly when it leaves no scan on. -/
def Told (result : DriverResult) (b : Ble τ) : Prop :=
  Tracks b ∧ (result.ok = true ↔ b.scanner.scanning = false)

theorem stopByCycle_told (disabled : DriverResult) :
    Prog.Triple (Tracks (τ := τ)) (stopByCycle h disabled) Told := by
  refine (recoverController_tracks h).bind fun _ => read_bind fun s => .pure ?_
  rintro b ⟨hb, rfl⟩
  refine ⟨hb, ?_⟩
  cases hon : b.scanner.scanning with
  | false => simp
  | true => cases hok : disabled.ok <;> simp [hok, failed]

/-- What each stage of a stop begins with: nothing is left to do once no scan is on. -/
theorem told_of_off {next : BleM τ DriverResult} (hnext : Prog.Triple Tracks next Told) :
    Prog.Triple (Tracks (τ := τ))
      (do
        let s ← read
        if !s.scanning then pure {} else next) Told := by
  refine read_bind fun s => .ite (fun hoff => .pure ?_) fun _ => hnext.pre fun _ hb => hb.1
  rintro b ⟨hb, rfl⟩
  exact ⟨hb, by simpa using hoff⟩

theorem stop_told : Prog.Triple (Tracks (τ := τ)) (stop h) Told := by
  have hscan : Prog.Triple (Tracks (τ := τ)) (stopScan h) Told :=
    (setScan_tracks h false).bind fun disabled => told_of_off (stopByCycle_told h disabled)
  exact told_of_off hscan

end BleScanner

section Init

open HciTransport

variable {τ : Type} (h : HciLine τ)

private theorem bootAttempts_mayScan (attempts : ℕ) (cycle : Bool) :
    Prog.Triple (fun t : HciTransport τ => mayScan t.log = false) (bootAttempts h attempts cycle)
      fun _ t => mayScan t.log = false := by
  induction attempts generalizing cycle with
  | zero => exact .pure fun _ ht => ht
  | succ attempts ih =>
    have hcycled : Prog.Triple (fun t : HciTransport τ => mayScan t.log = false)
        (cycleIf h cycle) fun _ t => mayScan t.log = false := by
      refine .ite (fun _ => ?_) fun _ _ ht => ht
      exact (cycleController_mayScan h false).conseq (fun _ ht => ht) fun cycled t ht => by
        simpa using ht
    have hbooted : Prog.Triple (fun t : HciTransport τ => mayScan t.log = false)
        (do
          let booted ← runBoot h
          if booted then pure true else bootAttempts h attempts true)
        fun _ t => mayScan t.log = false :=
      (runBoot_mayScan h false).bind fun booted => .ite (fun _ _ ht => ht) fun _ => ih true
    exact hcycled.bind fun cycled => .ite (fun _ => ih true) fun _ => hbooted

private theorem bringUp_mayScan :
    Prog.Triple (fun t : HciTransport τ => mayScan t.log = false) (bringUp h)
      fun _ t => mayScan t.log = false := by
  have hinitialised : Prog.Triple (fun t : HciTransport τ => mayScan t.log = false)
      (initialiseOnce h) fun _ t => mayScan t.log = false := by
    intro t ht
    rw [initialiseOnce]
    split_ifs <;> exact ht
  have hbooted : Prog.Triple (fun t : HciTransport τ => mayScan t.log = false)
      (bootWithRetries h false) fun _ t => mayScan t.log = false :=
    bootAttempts_mayScan h kMaxBootAttempts false
  have hmarked : Prog.Triple (fun t : HciTransport τ => mayScan t.log = false)
      markInitialised fun _ t => mayScan t.log = false := fun _ ht => ht
  exact hinitialised.bind fun err => .ite (fun _ _ ht => ht) fun _ =>
    hmarked.bind fun _ => hbooted.bind fun _ _ ht => ht

end Init

namespace BleScanner

variable {τ : Type} (h : HciLine τ)

/-- The scanner before its initialisation, with its transport started or not. -/
def initial (transportStarted : Bool) (line : τ) : Ble τ where
  scanner := { transportStarted := transportStarted }
  transport := { line := line }

private theorem init_tracks (transportStarted : Bool) (line : τ) :
    Tracks (init h (initial transportStarted line)).2 := by
  cases transportStarted with
  | false => rfl
  | true => exact (bringUp_mayScan h { line := line } rfl).symm

theorem perform_tracks (call : Call) :
    Prog.Triple (Tracks (τ := τ)) (perform h call) fun _ => Tracks := by
  cases call with
  | start => exact start_tracks h
  | stop => exact (stop_told h).conseq (fun _ hb => hb) fun _ _ hb => hb.1

private theorem calls_tracks (calls : List Call) :
    Prog.Triple (Tracks (τ := τ))
      (calls.forM fun call => do
        let _ ← perform h call
        pure ()) fun _ => Tracks := by
  induction calls with
  | nil => exact fun _ hb => hb
  | cons call calls ih =>
    refine Prog.Triple.bind ?_ fun _ => ih
    exact (perform_tracks h call).bind fun _ _ hb => hb

/-- After any starts and stops, whatever the controller answered them, a stop answers ok
exactly when every scan enable that reached the controller has been followed by a completed
disable, a disable refused as not allowed or a controller cycle. -/
theorem stop_ok_iff (transportStarted : Bool) (line : τ) (calls : List Call) :
    let b := (session h calls (initial transportStarted line)).2
    (stop h b).1.ok = true ↔ ¬ Outstanding (stop h b).2.transport.log := by
  intro b
  have hb : Tracks b := calls_tracks h calls _ (init_tracks h transportStarted line)
  obtain ⟨htracks, htold⟩ := stop_told h b hb
  rw [htold, htracks, Outstanding, ← Latch.held_iff, Bool.not_eq_true]
  rfl

end BleScanner

end CydMonitor.Hci
