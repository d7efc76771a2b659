import CydMonitor.Observation.Frames
import Mathlib.Algebra.BigOperators.Group.List.Basic
import Mathlib.Algebra.GroupWithZero.Nat

/-!
# The books balance

What the books say of the runner after every step: each window but an open one has sent
its messages and its report, the measured intervals are clock readings in order, the drops
taken are the drops reported and carried, and the calls stand where the window contract
puts them.
-/

namespace CydMonitor.Observation

open RadioRunner Prog World

namespace WindowRecord

/-- The length of the measured receive interval. -/
def receiveUs (v : WindowRecord) : ℕ :=
  match v.rxStartUs, v.rxEndUs with
  | some rxStartUs, some rxEndUs => rxEndUs.toNat - rxStartUs.toNat
  | _, _ => 0

/-- The `n`th window sent WindowStarted exactly when its start worked, then one report. -/
structure Reported (v : WindowRecord) (n : ℕ) (report : WindowReport) : Prop where
  messages : if v.ok then
      ∃ started, v.messages = [.windowStarted started, .windowReport report] ∧
        started.windowId = report.windowId ∧ started.radio = v.radio ∧
        started.channel = v.channel
    else v.messages = [.windowReport report]
  windowId : report.windowId = UInt32.ofNat n
  radio : report.window.radio = v.radio
  channel : report.window.channel = v.channel
  planned : report.observedMs ≤ report.window.plannedMs
  failed : v.ok = false → report.observedMs = 0
  measured : report.observedMs.toNat * 1000 ≤ v.receiveUs

end WindowRecord

def startedMessage (o : OpenWindow) : WindowStartedMessage :=
  ⟨o.report.windowId, o.report.configGeneration, o.window.radio, o.window.channel,
    o.rxStartUs / kUsPerMs, o.window.plannedMs⟩

/-- The record of the open window, the `n`th; its interval has the end given. -/
structure Opened (v : WindowRecord) (n : ℕ) (o : OpenWindow) (rxEndUs : Option UInt64) :
    Prop where
  radio : v.radio = o.window.radio
  channel : v.channel = o.window.channel
  ok : v.ok = o.started
  window : o.report.window = o.window
  windowId : o.report.windowId = UInt32.ofNat n
  deadline : o.deadlineUs = saturatingAdd o.startUs (o.window.plannedMs.toUInt64 * kUsPerMs)
  messages : v.messages = if o.started then [.windowStarted (startedMessage o)] else []
  rxStart : v.rxStartUs = if o.started then some o.rxStartUs else none
  rxEnd : v.rxEndUs = if o.started then rxEndUs else none

def AllReported : List WindowRecord → Prop
  | [] => True
  | v :: ws => (∃ report, v.Reported (ws.length + 1) report) ∧ AllReported ws

/-- The ends of the measured intervals, oldest first. -/
def stamps : List WindowRecord → List UInt64
  | [] => []
  | v :: ws => stamps ws ++ v.rxStartUs.toList ++ v.rxEndUs.toList

/-- The messages of the windows, oldest first. -/
def messagesOf : List WindowRecord → List RadioMessage
  | [] => []
  | v :: ws => messagesOf ws ++ v.messages

def dropsOf : RadioMessage → ℕ
  | .windowReport report => report.droppedEvents.toNat
  | _ => 0

/-- The drops the reports were charged with. -/
def charged (sent : List RadioMessage) : ℕ :=
  (sent.map dropsOf).sum

/-- No report has reached the largest count. -/
def Unsaturated (sent : List RadioMessage) : Prop :=
  ∀ report, .windowReport report ∈ sent → report.droppedEvents < kUint32Max

structure Sound (l : Ledger) (k : Core) : Prop where
  ids : k.windowId = UInt32.ofNat l.windows.length
  stamps : (stamps l.windows).Sublist l.readings
  sent : l.sent = messagesOf l.windows

/-- Every drop taken was reported or is still owed. -/
def Taken (l : Ledger) (owed : UInt32) : Prop :=
  Unsaturated l.sent → owed < kUint32Max → l.taken = charged l.sent + owed.toNat

/-- The contract stands at `p`, and the runner knows the receivers that may be on. -/
structure At (p : Phase) (l : Ledger) (k : Core) : Prop where
  phase : l.phase = some p
  running : ∀ radio, k.running radio = decide (radio ∈ p.maybeOn)

/-- No window is open. -/
structure Closed (l : Ledger) (k : Core) : Prop where
  reported : AllReported l.windows
  sound : Sound l k
  taken : Taken l k.carriedDrops
  phase : At (Phase.rest k.stuck) l k

/-- The phase of an open window. -/
def heldPhase (o : OpenWindow) (left : Option Radio) : Phase :=
  if o.started then .receiving o.window.radio o.report.windowId else .held left

/-- The window `o` is open. -/
structure Pending (o : OpenWindow) (l : Ledger) (k : Core) : Prop where
  record : ∃ v ws, l.windows = v :: ws ∧ Opened v (ws.length + 1) o none ∧ AllReported ws
  sound : Sound l k
  taken : Taken l k.carriedDrops
  phase : At (heldPhase o k.stuck) l k
  stuck : o.started = true → k.stuck = none

/-- How the books stand between two steps. A window is left open only by a wait that gave
up before its deadline. -/
def Balanced (l : Ledger) (k : Core) : Prop :=
  match k.openWindow with
  | none => Closed l k
  | some o => k.stuck = none ∧ Pending o l k ∧
      ∃ us, l.readings.getLast? = some us ∧ us < o.deadlineUs

section Readings

variable {l : Ledger} {k : Core} {rs : List UInt64}

theorem Sound.later (h : Sound l k) (hrs : l.readings <+: rs) :
    Sound { l with readings := rs } k :=
  ⟨h.ids, h.stamps.trans hrs.sublist, h.sent⟩

theorem Closed.later (h : Closed l k) (hrs : l.readings <+: rs) :
    Closed { l with readings := rs } k :=
  ⟨h.reported, h.sound.later hrs, h.taken, h.phase.phase, h.phase.running⟩

theorem Pending.later {o : OpenWindow} (h : Pending o l k) (hrs : l.readings <+: rs) :
    Pending o { l with readings := rs } k :=
  ⟨h.record, h.sound.later hrs, h.taken, ⟨h.phase.phase, h.phase.running⟩, h.stuck⟩

end Readings

theorem toNat_saturatingAdd_le (a b : UInt64) :
    (saturatingAdd a b).toNat ≤ a.toNat + b.toNat := by
  rw [saturatingAdd]
  split
  · rename_i h
    have h : (kForeverUs - a).toNat < b.toNat := UInt64.lt_iff_toNat_lt.mp h
    rw [UInt64.toNat_sub_of_le _ _ (UInt64.le_iff_toNat_le.mpr
      (by have := a.toNat_lt; simp only [kForeverUs]; simp; omega))] at h
    omega
  · rw [UInt64.toNat_add]
    exact Nat.mod_le _ _

theorem toNat_planned (plannedMs : UInt32) :
    (plannedMs.toUInt64 * kUsPerMs).toNat = plannedMs.toNat * 1000 := by
  have h := plannedMs.toNat_lt
  rw [UInt64.toNat_mul]
  simp only [kUsPerMs, UInt32.toNat_toUInt64]
  exact Nat.mod_eq_of_lt (by simp; omega)

theorem toNat_min (a b : UInt64) : (min a b).toNat = min a.toNat b.toNat := by
  show (if a ≤ b then a else b).toNat = _
  split
  · rename_i h
    exact (Nat.min_eq_left (UInt64.le_iff_toNat_le.mp h)).symm
  · rename_i h
    rw [UInt64.le_iff_toNat_le] at h
    exact (Nat.min_eq_right (by omega)).symm

theorem toNat_max (a b : UInt64) : (max a b).toNat = max a.toNat b.toNat := by
  show (if a ≤ b then b else a).toNat = _
  split
  · rename_i h
    exact (Nat.max_eq_right (UInt64.le_iff_toNat_le.mp h)).symm
  · rename_i h
    rw [UInt64.le_iff_toNat_le] at h
    exact (Nat.max_eq_left (by omega)).symm

theorem toNat_sub {a b : UInt64} (h : b < a) : (a - b).toNat = a.toNat - b.toNat :=
  UInt64.toNat_sub_of_le _ _ (UInt64.le_of_lt h)

/-- The observed time lies within the planned time and the measured interval. -/
theorem toNat_observedMs_le {o : OpenWindow} {rxEndUs : UInt64}
    (hdeadline : o.deadlineUs =
      saturatingAdd o.startUs (o.window.plannedMs.toUInt64 * kUsPerMs)) :
    (observedMs o rxEndUs).toNat ≤ o.window.plannedMs.toNat ∧
      (observedMs o rxEndUs).toNat * 1000 ≤ rxEndUs.toNat - o.rxStartUs.toNat := by
  have hend : o.deadlineUs.toNat ≤ o.startUs.toNat + o.window.plannedMs.toNat * 1000 := by
    rw [hdeadline, ← toNat_planned]
    exact toNat_saturatingAdd_le _ _
  have hplanned := o.window.plannedMs.toNat_lt
  rw [observedMs]
  split
  · rename_i hopen
    simp only [Bool.and_eq_true, decide_eq_true_eq] at hopen
    have hlt := UInt64.lt_iff_toNat_lt.mp hopen.2
    have hquot : ((min rxEndUs o.deadlineUs - max o.rxStartUs o.startUs) / kUsPerMs).toNat =
        (min rxEndUs.toNat o.deadlineUs.toNat - max o.rxStartUs.toNat o.startUs.toNat) / 1000 := by
      rw [UInt64.toNat_div, toNat_sub hopen.2, toNat_min, toNat_max]
      rfl
    rw [UInt64.toNat_toUInt32, hquot]
    rw [toNat_min, toNat_max] at hlt
    omega
  · simp

theorem observedMs_failed {o : OpenWindow} (h : o.started = false) (rxEndUs : UInt64) :
    observedMs o rxEndUs = 0 := by
  simp [observedMs, h]

/-- A sum below the largest count is exact. -/
theorem saturatingAdd32_lt {a b : UInt32} (h : saturatingAdd32 a b < kUint32Max) :
    a < kUint32Max ∧ b < kUint32Max ∧ (saturatingAdd32 a b).toNat = a.toNat + b.toNat := by
  rw [saturatingAdd32] at h ⊢
  have ha := a.toNat_lt
  have hle : a ≤ kUint32Max := UInt32.le_iff_toNat_le.mpr (by simp only [kUint32Max]; simp; omega)
  split at h
  · exact absurd h (UInt32.lt_irrefl _)
  · rename_i hfits
    rw [if_neg hfits]
    have hfits : ¬ (kUint32Max - a).toNat < b.toNat := fun hlt =>
      hfits (UInt32.lt_iff_toNat_lt.mpr hlt)
    rw [UInt32.toNat_sub_of_le _ _ hle] at hfits
    have hsum := UInt32.lt_iff_toNat_lt.mp h
    simp only [UInt32.lt_iff_toNat_lt]
    have hmax : kUint32Max.toNat = 4294967295 := rfl
    rw [UInt32.toNat_add] at hsum ⊢
    have hmod : (a.toNat + b.toNat) % 2 ^ 32 = a.toNat + b.toNat := Nat.mod_eq_of_lt (by omega)
    rw [hmod] at hsum ⊢
    omega

end CydMonitor.Observation
