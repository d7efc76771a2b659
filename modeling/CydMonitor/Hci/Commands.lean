import Mathlib.Data.UInt
import Mathlib.Data.Vector.Basic

/-!
# HCI commands (`firmware/domain/include/firmware/domain/hci/hci.hpp`)
-/

namespace CydMonitor.Hci

inductive Command where
  | kReset | kSetEventMask | kLeSetEventMask | kLeSetScanParameters | kLeSetScanEnable
  deriving DecidableEq, Repr

structure Options where
  mask : Vector UInt8 8 := Vector.replicate 8 0
  interval : UInt16 := 0x50
  window : UInt16 := 0x50
  enable : Bool := false
  deriving DecidableEq

inductive Outcome where
  | kNone | kCompleted | kRejected | kTimedOut | kInvalid
  deriving DecidableEq, Repr

structure Result where
  outcome : Outcome := .kNone
  status : UInt8 := 0
  deriving DecidableEq, Repr

inductive IssueResult where
  | kIssued | kBusy | kNoCredit | kNeedsControllerReset | kQuarantined | kInvalid
  deriving DecidableEq, Repr

structure BootStep where
  command : Command
  options : Options := {}
  deriving DecidableEq

def bootSequence (interval window : UInt16) : Vector BootStep 4 :=
  #v[{ command := .kReset },
    { command := .kSetEventMask
      options := { mask := #v[0xff, 0xff, 0xff, 0xff, 0xff, 0x1f, 0, 0x20] } },
    { command := .kLeSetEventMask, options := { mask := #v[2, 0, 0, 0, 0, 0, 0, 0] } },
    { command := .kLeSetScanParameters
      options := { interval := interval, window := window } }]

structure BootSequencer where
  steps : Vector BootStep 4
  index : ℕ := 0
  failure : Result := {}

namespace BootSequencer

def make (interval window : UInt16) : BootSequencer :=
  if interval < 4 || interval > 0x4000 || window < 4 || window > 0x4000 || window > interval then
    { steps := bootSequence interval window, index := 3, failure := ⟨.kInvalid, 0⟩ }
  else { steps := bootSequence interval window }

def complete (b : BootSequencer) : Bool := b.index == 4

def failed (b : BootSequencer) : Bool := b.failure.outcome != .kNone

def current (b : BootSequencer) : Option BootStep :=
  if b.complete || b.failed then none else b.steps.toList[b.index]?

def onResult (b : BootSequencer) (r : Result) : BootSequencer :=
  if b.current.isNone then b
  else
    match r.outcome with
    | .kCompleted => { b with index := b.index + 1 }
    | .kRejected | .kTimedOut => { b with failure := r }
    | _ => b

/-- What is left of the boot: nothing once it failed. -/
def remaining (b : BootSequencer) : ℕ :=
  if b.current.isNone then 0 else 5 - b.index

variable {b : BootSequencer}

@[simp] theorem steps_onResult (r : Result) : (b.onResult r).steps = b.steps := by
  simp only [onResult]
  split_ifs
  · rfl
  · split <;> rfl

theorem index_lt_of_current (h : b.current.isNone = false) : b.index < 4 := by
  rw [current] at h
  by_cases hdone : (b.complete || b.failed) = true
  · rw [if_pos hdone] at h
    cases h
  · rw [if_neg hdone] at h
    have hlt : ¬ b.steps.toList.length ≤ b.index := by
      rw [← List.getElem?_eq_none_iff, ← Option.isNone_iff_eq_none, h]
      simp
    simpa using hlt

/-- A completed step leaves less of the boot. -/
theorem remaining_completed (h : b.current.isNone = false) (status : UInt8) :
    (b.onResult ⟨.kCompleted, status⟩).remaining < b.remaining := by
  have hindex := index_lt_of_current h
  simp only [remaining, onResult, h, Bool.false_eq_true, if_false]
  split_ifs <;> omega

/-- So does a step that failed. -/
theorem remaining_failed (h : b.current.isNone = false) {r : Result}
    (hr : r.outcome = .kRejected ∨ r.outcome = .kTimedOut) :
    (b.onResult r).remaining < b.remaining := by
  have hindex := index_lt_of_current h
  have hresult : b.onResult r = { b with failure := r } := by
    rw [onResult, h]
    rcases hr with hr | hr <;> rw [hr] <;> rfl
  have hnone : (b.onResult r).current = none := by
    rw [hresult]
    rcases hr with hr | hr <;> simp [current, failed, hr]
  simp only [remaining, h, hnone, Option.isNone_none, if_true, Bool.false_eq_true, if_false]
  omega

end BootSequencer

end CydMonitor.Hci
