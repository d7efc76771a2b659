import CydMonitor.Observation.Contract
import CydMonitor.Observation.Runner
import Mathlib.Data.List.Induction

/-!
# The books kept from the calls

One record for each window that was opened, from what the driver and the app loop saw of
it, beside the clock readings and the drops taken.
-/

namespace CydMonitor.Observation

/-- A window, from its start call on: the messages sent about it, and its measured receive
interval, from the start handed to BeginWindow to the last reading before EndWindow. -/
structure WindowRecord where
  radio : Radio
  channel : UInt8
  ok : Bool
  messages : List RadioMessage := []
  rxStartUs : Option UInt64 := none
  rxEndUs : Option UInt64 := none

structure Ledger where
  phase : Option Phase := some .off
  /-- Newest first. -/
  windows : List WindowRecord := []
  readings : List UInt64 := []
  sent : List RadioMessage := []
  taken : ℕ := 0

namespace Ledger

/-- The messages about a window. -/
def ofWindow : RadioMessage → List RadioMessage
  | .windowStarted started => [.windowStarted started]
  | .windowReport report => [.windowReport report]
  | _ => []

def noteWindow (readings : List UInt64) : List WindowRecord → Event → List WindowRecord
  | ws, .start radio channel result => { radio, channel, ok := result.ok } :: ws
  | v :: ws, .beginWindow _ _ startUs _ => { v with rxStartUs := some startUs } :: ws
  | v :: ws, .endWindow => { v with rxEndUs := readings.getLast? } :: ws
  | v :: ws, .emit message => { v with messages := v.messages ++ ofWindow message } :: ws
  | ws, _ => ws

def noteReading (readings : List UInt64) : Event → List UInt64
  | .nowUs us => readings ++ [us]
  | _ => readings

def noteSent (sent : List RadioMessage) : Event → List RadioMessage
  | .emit message => sent ++ ofWindow message
  | _ => sent

def noteTaken (taken : ℕ) : Event → ℕ
  | .takeDrops _ count => taken + count.toNat
  | .takeUnattributed count => taken + count.toNat
  | _ => taken

def note (l : Ledger) (e : Event) : Ledger where
  phase := l.phase.bind fun p => p.next e
  windows := noteWindow l.readings l.windows e
  readings := noteReading l.readings e
  sent := noteSent l.sent e
  taken := noteTaken l.taken e

def of (calls : List Event) : Ledger :=
  calls.foldl note {}

@[simp] theorem of_append (calls : List Event) (e : Event) :
    of (calls ++ [e]) = (of calls).note e :=
  List.foldl_concat ..

theorem of_phase (calls : List Event) : (of calls).phase = Phase.after calls := by
  induction calls using List.reverseRecOn with
  | nil => rfl
  | append_singleton calls e ih =>
    rw [of_append, Phase.after, List.foldlM_append]
    show (of calls).phase.bind _ = _
    rw [ih]
    simp only [Phase.after]
    cases List.foldlM Phase.next Phase.off calls with
    | none => rfl
    | some p => simp

section Quiet

variable (l : Ledger)

@[simp] theorem note_nowUs (us : UInt64) :
    l.note (.nowUs us) = { l with readings := l.readings ++ [us] } := by
  rcases l with ⟨_, _ | _, _, _, _⟩ <;> simp [note, noteWindow, noteReading, noteSent, noteTaken]

@[simp] theorem note_waitUntilUs (deadlineUs : UInt64) (reason : WakeReason) :
    l.note (.waitUntilUs deadlineUs reason) = l := by
  rcases l with ⟨_, _ | _, _, _, _⟩ <;> simp [note, noteWindow, noteReading, noteSent, noteTaken]

@[simp] theorem note_yield : l.note .yield = l := by
  rcases l with ⟨_, _ | _, _, _, _⟩ <;> simp [note, noteWindow, noteReading, noteSent, noteTaken]

@[simp] theorem note_poll (request : Option ControlRequest) : l.note (.poll request) = l := by
  rcases l with ⟨_, _ | _, _, _, _⟩ <;> simp [note, noteWindow, noteReading, noteSent, noteTaken]

/-- A message about no window leaves the books as they are. -/
theorem note_emit {message : RadioMessage} (h : ofWindow message = []) :
    l.note (.emit message) = l := by
  rcases l with ⟨_, _ | _, _, _, _⟩ <;>
    simp [note, noteWindow, noteReading, noteSent, noteTaken, h]

end Quiet

end Ledger

/-- The books of a world. -/
def World.ledger {δ : Type} (w : World δ) : Ledger :=
  Ledger.of w.calls

end CydMonitor.Observation
