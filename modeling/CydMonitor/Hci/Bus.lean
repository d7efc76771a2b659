import CydMonitor.Hci.Tracker
import CydMonitor.Lib.GuardedRun

/-!
# The tracker between its sender, its controller and the worker

The sending task issues, reserves, hands over and polls; the controller answers what was
handed over and reports credit; the worker processes the command events in the order of
their arrival, however late. The calls share one clock.
-/

namespace CydMonitor.Hci

/-- A command whose packet was reserved. -/
structure Sent where
  id : ℕ
  command : Command
  deadline : ℕ
  deriving DecidableEq, Repr

/-- A received command event: what it answers, and the commands the controller had not
answered when it emitted it. -/
structure Arrival where
  event : Event
  arrivalUs : ℕ
  answers : Option Sent
  unanswered : List ℕ
  deriving DecidableEq, Repr

/-- What a poll or an event returned for the command that was issued last. -/
structure Return where
  command : ℕ
  result : Result
  nowUs : ℕ
  arrival : Option Arrival
  deriving DecidableEq, Repr

structure World where
  tracker : Tracker := {}
  nowUs : ℕ := 0
  resetUs : ℕ := 0
  issued : ℕ := 0
  sending : Option ℕ := none
  handedUs : ℕ → Option ℕ := fun _ => none
  reserved : List Sent := []
  queue : List Arrival := []
  owner : Command → ℕ := fun _ => 0
  endUs : ℕ → Option ℕ := fun _ => none
  liftedUs : ℕ → Option ℕ := fun _ => none
  log : List Return := []

inductive Action where
  | issue (opcode : UInt16) (now timeout : ℕ)
  | tryBeginSend (now : ℕ)
  | handOver (now : ℕ)
  | markSent
  | poll (now : ℕ)
  | arrive (now : ℕ) (event : Event) (answers : Option ℕ)
  | process (now : ℕ)
  | resetController (now : ℕ)
  deriving DecidableEq, Repr

/-- An event that ends a command if one is waited for. -/
def Event.isAnswer (e : Event) : Bool :=
  (e.kind == .kComplete || e.kind == .kStatus && e.status != 0) && (index e.opcode).isSome

namespace World

/-- The clock of a call: it does not run backwards. -/
def tick (w : World) (now : ℕ) : Option World :=
  if w.nowUs ≤ now ∧ now < kMaxUs then some { w with nowUs := now } else none

/-- The commands handed over that the controller has not answered. -/
def unanswered (w : World) : List Sent :=
  w.reserved.filter fun c => (w.handedUs c.id).isSome

def issue (w : World) (opcode : UInt16) (now timeout : ℕ) : World :=
  { w with
    tracker := (w.tracker.issue opcode now timeout).2
    issued := if (w.tracker.issue opcode now timeout).1 = .kIssued then w.issued + 1
      else w.issued }

def tryBeginSend (w : World) (now : ℕ) : World :=
  if (w.tracker.tryBeginSend now).1 then
    { w with
      tracker := (w.tracker.tryBeginSend now).2
      sending := some w.issued
      reserved := w.reserved ++
        ((index w.tracker.opcode).map fun c => ⟨w.issued, c, w.tracker.deadline⟩).toList }
  else w

/-- The reserved packet goes to the controller. -/
def handOver (w : World) (now : ℕ) : Option World :=
  match w.sending with
  | none => none
  | some id =>
    if w.handedUs id = none then
      some { w with handedUs := Function.update w.handedUs id (some now) }
    else none

/-- The sender tells when it handed the packet over. -/
def markSent (w : World) : Option World :=
  match w.sending.bind w.handedUs with
  | none => none
  | some sendUs => some { w with tracker := w.tracker.markSent sendUs, sending := none }

/-- The opcode that a poll at the time quarantines. -/
def timesOut (w : World) (now : ℕ) : Option Command :=
  if w.tracker.engaged ∧ w.tracker.deadline < now then index w.tracker.opcode else none

/-- The quarantine of an opcode is for the command that timed out, up to an end. -/
def polled (w : World) (now : ℕ) : World :=
  match w.timesOut now with
  | none => { w with tracker := (w.tracker.poll now).2 }
  | some c =>
    { w with
      tracker := (w.tracker.poll now).2
      owner := Function.update w.owner c w.issued
      endUs := Function.update w.endUs w.issued
        (some (Tracker.quarantineEnd now w.tracker.timeout)) }

def returned (w : World) (result : Result) (arrival : Option Arrival) : World :=
  { w with log := w.log ++ [⟨w.issued, result, w.nowUs, arrival⟩] }

def poll (w : World) (now : ℕ) : World :=
  (w.polled now).returned (w.tracker.poll now).1 none

def enqueue (w : World) (e : Event) (answers : Option Sent) : World :=
  { w with queue := w.queue ++ [⟨e, w.nowUs, answers, w.unanswered.map Sent.id⟩] }

/-- The controller answers a command at most once, and emits other events as it likes. -/
def arrive (w : World) (e : Event) : Option ℕ → Option World
  | none => if e.isAnswer then none else some (w.enqueue e none)
  | some id =>
    match w.reserved.find? fun c => c.id == id with
    | none => none
    | some c =>
      if e.isAnswer ∧ index e.opcode = some c.command ∧ (w.handedUs id).isSome then
        some ({ w with reserved := w.reserved.filter fun c => c.id != id }.enqueue e (some c))
      else none

/-- The opcode whose quarantine the event lifts before its end. -/
def lifts (w : World) (a : Arrival) (now : ℕ) : Option Command :=
  if a.event.isAnswer && !(w.tracker.terminates a.event && a.arrivalUs < w.tracker.floorUs) &&
      w.tracker.isLate a.event now then
    index a.event.opcode
  else none

/-- The answer of another command lifts the quarantine. -/
def noteLifted (w : World) (a : Arrival) (now : ℕ) : World :=
  match w.lifts a now with
  | none => w
  | some c =>
    if a.answers.map Sent.id = some (w.owner c) then w
    else { w with liftedUs := Function.update w.liftedUs (w.owner c) (some now) }

/-- A completed reset of the controller ends every quarantine. -/
def noteReset (w : World) (result : Result) (e : Event) (now : ℕ) : World :=
  if result.outcome = .kCompleted ∧ e.opcode = Command.kReset.opcode then
    { w with endUs := fun id => (w.endUs id).map (min now) }
  else w

/-- The tracker handles an event that no reset made stale. -/
def handle (w : World) (a : Arrival) (now : ℕ) : World :=
  let result := (w.tracker.onEvent a.event now a.arrivalUs).1
  let v := ((w.polled now).noteLifted a now).noteReset result a.event now
  { v with tracker := (w.tracker.onEvent a.event now a.arrivalUs).2 }.returned result (some a)

def process (w : World) (now : ℕ) : Option World :=
  match w.queue with
  | [] => none
  | a :: rest =>
    if isStaleAfterReset a.event a.arrivalUs w.resetUs then some { w with queue := rest }
    else some ({ w with queue := rest }.handle a now)

/-- What the old controller sent arrived before the reset, and it answers nothing more. -/
def resetController (w : World) (now : ℕ) : Option World :=
  if w.sending = none ∧ ∀ a ∈ w.queue, a.arrivalUs < now then
    some { w with tracker := w.tracker.resetController, resetUs := now, reserved := [] }
  else none

def step (w : World) : Action → Option World
  | .issue opcode now timeout => (w.tick now).map fun w => w.issue opcode now timeout
  | .tryBeginSend now =>
    if w.sending = none then (w.tick now).map fun w => w.tryBeginSend now else none
  | .handOver now => (w.tick now).bind fun w => w.handOver now
  | .markSent => w.markSent
  | .poll now => (w.tick now).map fun w => w.poll now
  | .arrive now event answers => (w.tick now).bind fun w => w.arrive event answers
  | .process now => (w.tick now).bind fun w => w.process now
  | .resetController now => (w.tick now).bind fun w => w.resetController now

end World

/-- A run from the start: no step of it is refused. -/
def run (actions : List Action) : Option World :=
  GuardedRun.run World.step {} actions

end CydMonitor.Hci
