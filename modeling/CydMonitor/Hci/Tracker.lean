import CydMonitor.Hci.Commands
import Mathlib.Logic.Function.Basic

/-!
# The command tracker (`firmware/domain/src/hci.cpp`)

Times are microseconds below 2^64; the two places where the source guards that bound keep
their guards.
-/

namespace CydMonitor.Hci

inductive Kind where
  | kMalformed | kIgnored | kComplete | kStatus | kAdvertising | kHardwareError
  deriving DecidableEq, Repr

structure Event where
  kind : Kind := .kMalformed
  code : UInt8 := 0
  status : UInt8 := 0
  credit : UInt8 := 0
  opcode : UInt16 := 0
  deriving DecidableEq, Repr

def kMaxUs : ℕ := 2 ^ 64 - 1

def Command.opcode : Command → UInt16
  | .kReset => 0x0c03
  | .kSetEventMask => 0x0c01
  | .kLeSetEventMask => 0x2001
  | .kLeSetScanParameters => 0x200b
  | .kLeSetScanEnable => 0x200c

def index (opcode : UInt16) : Option Command :=
  [Command.kReset, .kSetEventMask, .kLeSetEventMask, .kLeSetScanParameters,
    .kLeSetScanEnable].find? fun c => c.opcode == opcode

@[simp] theorem index_opcode (c : Command) : index c.opcode = some c := by
  cases c <;> decide

theorem opcode_of_index {opcode : UInt16} {c : Command} (h : index opcode = some c) :
    c.opcode = opcode := by
  simpa using List.find?_some h

theorem index_zero : index 0 = none := by
  decide

def Event.isCommandEvent (e : Event) : Bool :=
  e.kind == .kComplete || e.kind == .kStatus

def isStaleAfterReset (e : Event) (arrivalUs resetUs : ℕ) : Bool :=
  e.isCommandEvent && arrivalUs < resetUs

structure Tracker where
  pending : Bool := false
  sent : Bool := false
  reserved : Bool := false
  floorUs : ℕ := 0
  stale : UInt64 := 0
  opcode : UInt16 := 0
  deadline : ℕ := 0
  timeout : ℕ := 0
  credit : UInt8 := 1
  quarantineUntil : Command → ℕ := fun _ => 0
  quarantined : Command → Bool := fun _ => false
  unexpected : UInt64 := 0
  late : UInt64 := 0

namespace Tracker

/-- Quarantines that are over end when a command is issued. -/
def expire (t : Tracker) (now : ℕ) : Tracker :=
  { t with quarantined := fun c => t.quarantined c && now < t.quarantineUntil c }

def anyQuarantined (t : Tracker) : Bool :=
  t.quarantined .kReset || t.quarantined .kSetEventMask || t.quarantined .kLeSetEventMask ||
    t.quarantined .kLeSetScanParameters || t.quarantined .kLeSetScanEnable

def begin (t : Tracker) (c : Command) (now timeout : ℕ) : IssueResult × Tracker :=
  if t.quarantined c then (.kQuarantined, t)
  else if t.credit == 0 then
    if t.anyQuarantined then (.kNoCredit, t) else (.kNeedsControllerReset, t)
  else
    (.kIssued,
      { t with
        pending := true
        sent := false
        reserved := false
        opcode := c.opcode
        deadline := now + timeout
        timeout := timeout })

def issue (t : Tracker) (opcode : UInt16) (now timeout : ℕ) : IssueResult × Tracker :=
  match index opcode with
  | none => (.kInvalid, t)
  | some c =>
    if timeout = 0 ∨ kMaxUs - now < timeout then (.kInvalid, t)
    else if t.pending then (.kBusy, t)
    else (t.expire now).begin c now timeout

def tryBeginSend (t : Tracker) (now : ℕ) : Bool × Tracker :=
  if !t.pending || t.sent || t.reserved || now > t.deadline || t.credit == 0 then (false, t)
  else (true, { t with reserved := true, floorUs := now, credit := t.credit - 1 })

def markSent (t : Tracker) (sendUs : ℕ) : Tracker :=
  if !t.pending || !t.reserved || t.sent then t
  else { t with sent := true, floorUs := if sendUs > t.floorUs then sendUs else t.floorUs }

def quarantineEnd (now timeout : ℕ) : ℕ :=
  if timeout > (kMaxUs - now) / 2 then kMaxUs else now + 2 * timeout

/-- A command that timed out after it left quarantines its opcode. -/
def quarantine (t : Tracker) (now : ℕ) : Tracker :=
  match index t.opcode with
  | none => t
  | some c =>
    { t with
      quarantined := Function.update t.quarantined c true
      quarantineUntil := Function.update t.quarantineUntil c (quarantineEnd now t.timeout) }

def poll (t : Tracker) (now : ℕ) : Result × Tracker :=
  if !t.pending || now ≤ t.deadline then ({}, t)
  else
    (⟨.kTimedOut, 0⟩,
      { (if t.sent || t.reserved then t.quarantine now else t) with pending := false })

def resetController (t : Tracker) : Tracker :=
  { t with
    pending := false
    sent := false
    reserved := false
    credit := 1
    quarantined := fun _ => false }

/-- The packet is, or is about to be, out. -/
def engaged (t : Tracker) : Bool := t.pending && (t.sent || t.reserved)

def terminates (t : Tracker) (e : Event) : Bool :=
  e.opcode != 0 && t.engaged && t.opcode == e.opcode && (e.kind == .kComplete || e.status != 0)

def credited (t : Tracker) (e : Event) : Tracker :=
  { t with
    credit := if t.engaged && !t.terminates e && e.credit != 0 then e.credit - 1 else e.credit }

def isLate (t : Tracker) (e : Event) (now : ℕ) : Bool :=
  match index e.opcode with
  | none => false
  | some c => t.quarantined c && now < t.quarantineUntil c

/-- The opcode of the event is no longer quarantined. -/
def release (t : Tracker) (e : Event) : Tracker :=
  match index e.opcode with
  | none => t
  | some c => { t with quarantined := Function.update t.quarantined c false }

def answer (e : Event) : Result :=
  ⟨if e.status != 0 then .kRejected else .kCompleted, e.status⟩

/-- The command is answered; a completed reset of the controller ends every quarantine. -/
def finish (t : Tracker) (e : Event) : Tracker :=
  { t with
    pending := false
    quarantined :=
      if e.kind == .kComplete && e.status == 0 && e.opcode == Command.kReset.opcode then
        fun _ => false
      else t.quarantined }

/-- An event that ends a command or comes for one that is no longer waited for. -/
def conclude (t : Tracker) (timeout : Result) (e : Event) : Result × Tracker :=
  if !t.engaged || t.opcode != e.opcode then (timeout, { t with unexpected := t.unexpected + 1 })
  else if !t.terminates e then (timeout, t)
  else (answer e, t.finish e)

/-- A command event that was not buffered before the command left. -/
def accept (t : Tracker) (timeout : Result) (e : Event) (now : ℕ) : Result × Tracker :=
  if e.kind == .kStatus && e.status == 0 then (timeout, t)
  else if e.opcode == 0 then (timeout, t)
  else if t.isLate e now then (timeout, { t.release e with late := t.late + 1 })
  else (t.release e).conclude timeout e

def record (t : Tracker) (timeout : Result) (e : Event) (now arrival : ℕ) : Result × Tracker :=
  if t.terminates e && arrival < t.floorUs then (timeout, { t with stale := t.stale + 1 })
  else (t.credited e).accept timeout e now

def onEvent (t : Tracker) (e : Event) (now arrival : ℕ) : Result × Tracker :=
  if e.isCommandEvent then (t.poll now).2.record (t.poll now).1 e now arrival
  else t.poll now

end Tracker

end CydMonitor.Hci
