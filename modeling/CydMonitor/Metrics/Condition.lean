import CydMonitor.Lib.GuardedRun
import CydMonitor.Metrics.Cache
import CydMonitor.Metrics.PowerProfile
import Mathlib.Data.List.Nodup

/-!
# Battery condition runs (`host/platform-macos/src/battery.rs`)

A collect has two locked sections and the spawning of a thread between them and its end; a thread
answers at any time, or never. Runs are numbered in the order of their threads. A log holds what was
applied, the newest outcome first.
-/

namespace CydMonitor.Metrics

open GuardedRun

def conditionRefreshMs : ℕ := 3600000
def conditionRetryMs : ℕ := 300000
def conditionAbandonMs : ℕ := 15000

inductive ProfileFailure where
  | profile (error : ProfileError)
  | spawn | timeout | exitStatus
  deriving DecidableEq, Repr

inductive ConditionCache where
  | none | absent
  | sample (reading : BatteryConditionReading) (startedMs : ℕ)
  deriving DecidableEq

/-- A thread's answer. The run is known to the log only. -/
structure Answer where
  run : ℕ
  startedMs : ℕ
  result : Except ProfileFailure PowerProfile

structure Slot where
  generation : ℕ
  startedMs : Option ℕ
  done : Option Answer

namespace Slot

def isAbandoned (slot : Slot) (nowMs : ℕ) : Bool :=
  slot.done.isNone && slot.startedMs.any fun s => decide (conditionAbandonMs < nowMs - s)

/-- The slot once its answer is taken or its run given up. -/
def take (slot : Slot) (nowMs : ℕ) : Slot :=
  if slot.isAbandoned nowMs then
    { generation := slot.generation + 1, startedMs := none, done := none }
  else if slot.done.isSome then { slot with startedMs := none, done := none }
  else slot

/-- The end of a thread. -/
def complete (slot : Slot) (generation : ℕ) (answer : Answer) : Slot :=
  if slot.generation = generation then { slot with done := some answer } else slot

end Slot

structure BatteryCollector where
  slot : Slot
  condition : ConditionCache
  conditionFailure : Option ProfileFailure
  nextConditionMs : ℕ

namespace BatteryCollector

def init : BatteryCollector :=
  { slot := { generation := 0, startedMs := none, done := none }
    condition := .none
    conditionFailure := none
    nextConditionMs := 0 }

def apply (c : BatteryCollector) (nowMs : ℕ) (answer : Answer) : BatteryCollector :=
  match answer.result with
  | .ok (.battery reading) =>
    { c with condition := .sample reading answer.startedMs, conditionFailure := none,
             nextConditionMs := min (answer.startedMs + conditionRefreshMs) clockEndMs }
  | .ok .noBattery =>
    { c with condition := .absent, conditionFailure := none,
             nextConditionMs := min (answer.startedMs + conditionRefreshMs) clockEndMs }
  | .error failure =>
    { c with conditionFailure := some failure,
             nextConditionMs := min (nowMs + conditionRetryMs) clockEndMs }

def giveUp (c : BatteryCollector) (nowMs : ℕ) (failure : ProfileFailure) : BatteryCollector :=
  { c with
    conditionFailure := some failure
    nextConditionMs := min (nowMs + conditionRetryMs) clockEndMs }

/-- The first part of a collect: what finished or hangs. -/
def settle (c : BatteryCollector) (nowMs : ℕ) : BatteryCollector :=
  let settled := { c with slot := c.slot.take nowMs }
  match c.slot.done with
  | some answer => settled.apply nowMs answer
  | none => if c.slot.isAbandoned nowMs then settled.giveUp nowMs .timeout else settled

/-- The second part starts a run. -/
def starts (c : BatteryCollector) (nowMs : ℕ) : Bool :=
  decide (c.nextConditionMs ≤ nowMs) && c.slot.startedMs.isNone

def age (nowMs sampledMs : ℕ) : UInt32 := UInt32.ofNat (min (nowMs - sampledMs) (2 ^ 32 - 1))

def unsampled (failure : Option ProfileFailure) : MetricAvailability :=
  match failure with
  | none => .temporarilyUnavailable
  | some (.profile .noPowerSection) | some (.profile .noUsableFields) => .unsupported
  | some _ => .error

def report (c : BatteryCollector) (nowMs : ℕ) : MetricSample BatteryConditionReading × UInt32 :=
  match c.condition with
  | .sample reading startedMs => (.ofValue reading, age nowMs startedMs)
  | .absent => (.unavailable .absent, 0)
  | .none => (.unavailable (unsampled c.conditionFailure), 0)

end BatteryCollector

/-- Where the collecting thread is. -/
inductive Phase where
  | idle
  | settled (nowMs : ℕ)
  | spawning (nowMs generation : ℕ)
  deriving DecidableEq

structure RunThread where
  run : ℕ
  generation : ℕ
  startedMs : ℕ
  deriving DecidableEq

inductive Outcome where
  | answered (answer : Answer)
  | abandoned (run : ℕ)
  | unspawned

/-- An outcome with the time of the collect that applied it. -/
structure Applied where
  outcome : Outcome
  atMs : ℕ

namespace Applied

/-- The refresh or retry time that an outcome sets; the sum saturates. -/
def notBefore (e : Applied) : ℕ :=
  match e.outcome with
  | .answered { startedMs, result := .ok _, .. } => min (startedMs + conditionRefreshMs) clockEndMs
  | .answered { result := .error _, .. } | .abandoned _ | .unspawned =>
    min (e.atMs + conditionRetryMs) clockEndMs

def run? (e : Applied) : Option ℕ :=
  match e.outcome with
  | .answered answer => some answer.run
  | .abandoned run => some run
  | .unspawned => none

/-- The answer of a run that succeeded. -/
def success? (e : Applied) : Option (PowerProfile × ℕ) :=
  match e.outcome with
  | .answered { startedMs, result := .ok profile, .. } => some (profile, startedMs)
  | .answered { result := .error _, .. } | .abandoned _ | .unspawned => none

def abandoned? (e : Applied) : Option ℕ :=
  match e.outcome with
  | .abandoned run => some run
  | .answered _ | .unspawned => none

end Applied

structure BatteryWorld where
  collector : BatteryCollector
  phase : Phase
  clockMs : ℕ
  threads : List RunThread
  runs : ℕ
  log : List Applied

inductive BatteryAction where
  | settle (nowMs : ℕ)
  | start
  | spawned
  | spawnFailed
  | answer (thread : RunThread) (result : Except ProfileFailure PowerProfile)

namespace BatteryWorld

def init : BatteryWorld :=
  { collector := .init, phase := .idle, clockMs := 0, threads := [], runs := 0, log := [] }

/-- What a collect applies. -/
def outcome? (w : BatteryWorld) (nowMs : ℕ) : Option Outcome :=
  match w.collector.slot.done with
  | some answer => some (.answered answer)
  | none =>
    if w.collector.slot.isAbandoned nowMs then some (.abandoned (w.runs - 1)) else none

def settle (w : BatteryWorld) (nowMs : ℕ) : BatteryWorld :=
  { w with
    collector := w.collector.settle nowMs
    phase := .settled nowMs
    clockMs := nowMs
    log := ((w.outcome? nowMs).map fun outcome => { outcome, atMs := nowMs }).toList ++ w.log }

def start (w : BatteryWorld) (nowMs : ℕ) : BatteryWorld :=
  if w.collector.starts nowMs then
    { w with
      collector.slot.startedMs := some nowMs
      phase := .spawning nowMs w.collector.slot.generation }
  else { w with phase := .idle }

def spawned (w : BatteryWorld) (nowMs generation : ℕ) : BatteryWorld :=
  { w with
    phase := .idle
    threads := { run := w.runs, generation, startedMs := nowMs } :: w.threads
    runs := w.runs + 1 }

def spawnFailed (w : BatteryWorld) (nowMs : ℕ) : BatteryWorld :=
  { w with
    collector := { w.collector with slot.startedMs := none }.giveUp nowMs .spawn
    phase := .idle
    log := { outcome := .unspawned, atMs := nowMs } :: w.log }

def answer (w : BatteryWorld) (thread : RunThread) (result : Except ProfileFailure PowerProfile) :
    BatteryWorld :=
  { w with
    collector.slot := w.collector.slot.complete thread.generation
      { run := thread.run, startedMs := thread.startedMs, result }
    threads := w.threads.erase thread }

/-- `none`: the action is not possible. The clock does not go back. -/
def step (w : BatteryWorld) : BatteryAction → Option BatteryWorld
  | .settle nowMs =>
    if w.phase = .idle ∧ w.clockMs ≤ nowMs then some (w.settle nowMs) else none
  | .start =>
    match w.phase with
    | .settled nowMs => some (w.start nowMs)
    | .idle | .spawning .. => none
  | .spawned =>
    match w.phase with
    | .spawning nowMs generation => some (w.spawned nowMs generation)
    | .idle | .settled _ => none
  | .spawnFailed =>
    match w.phase with
    | .spawning nowMs _ => some (w.spawnFailed nowMs)
    | .idle | .settled _ => none
  | .answer thread result => if thread ∈ w.threads then some (w.answer thread result) else none

def abandonedRuns (w : BatteryWorld) : List ℕ := w.log.filterMap Applied.abandoned?

def isSpawning (w : BatteryWorld) : Bool :=
  match w.phase with
  | .spawning .. => true
  | .idle | .settled _ => false

/-- The runs that still run or whose answer waits, except the abandoned ones. -/
def outstanding (w : BatteryWorld) : List ℕ :=
  (w.threads.map (·.run) ++ (w.collector.slot.done.map (·.run)).toList).filter
    (· ∉ w.abandonedRuns)

end BatteryWorld

def ConditionCache.keep : PowerProfile → ℕ → ConditionCache
  | .battery reading, startedMs => .sample reading startedMs
  | .noBattery, _ => .absent

/-- The condition that a log leaves behind. -/
def conditionOf : List Applied → ConditionCache
  | [] => .none
  | e :: log =>
    match e.success? with
    | some (profile, startedMs) => .keep profile startedMs
    | none => conditionOf log

/-- The runs are numbered, all but the current one are logged or abandoned, and what the collector
keeps is what the log says. -/
structure Sound (w : BatteryWorld) : Prop where
  next : w.collector.nextConditionMs = (w.log.head?.map Applied.notBefore).getD 0
  condition : w.collector.condition = conditionOf w.log
  stale : ∀ t ∈ w.threads, t.generation ≠ w.collector.slot.generation →
    t.generation < w.collector.slot.generation ∧ t.run ∈ w.abandonedRuns
  live : ∀ t ∈ w.threads, t.generation = w.collector.slot.generation →
    w.collector.slot.startedMs = some t.startedMs ∧ w.collector.slot.done = none ∧
      t.run + 1 = w.runs ∧ w.isSpawning = false
  done : ∀ a ∈ w.collector.slot.done,
    w.collector.slot.startedMs.isSome ∧ a.run + 1 = w.runs ∧ w.isSpawning = false
  numbered : ∀ t ∈ w.threads, t.run < w.runs
  distinct : (w.threads.map (·.run)).Nodup
  logged : ∀ r ∈ w.log.filterMap Applied.run?, r < w.runs
  once : (w.log.filterMap Applied.run?).Nodup
  current : w.collector.slot.startedMs.isSome → w.isSpawning = false →
    0 < w.runs ∧ ∀ r ∈ w.log.filterMap Applied.run?, r + 1 < w.runs
  spawning : ∀ nowMs generation, w.phase = .spawning nowMs generation →
    w.collector.slot.startedMs = some nowMs ∧ w.collector.slot.done = none ∧
      generation = w.collector.slot.generation ∧ w.collector.nextConditionMs ≤ nowMs

section Steps

open BatteryWorld

variable {w : BatteryWorld} {nowMs : ℕ}

@[simp] theorem apply_slot (c : BatteryCollector) (nowMs : ℕ) (a : Answer) :
    (c.apply nowMs a).slot = c.slot := by
  obtain ⟨run, startedMs, _ | _ | _⟩ := a <;> rfl

theorem apply_nextConditionMs (c : BatteryCollector) (nowMs : ℕ) (a : Answer) :
    (c.apply nowMs a).nextConditionMs =
      Applied.notBefore { outcome := .answered a, atMs := nowMs } := by
  obtain ⟨run, startedMs, _ | _ | _⟩ := a <;> rfl

theorem apply_condition {c : BatteryCollector} {log : List Applied}
    (h : c.condition = conditionOf log) (nowMs : ℕ) (a : Answer) :
    (c.apply nowMs a).condition =
      conditionOf ({ outcome := .answered a, atMs := nowMs } :: log) := by
  obtain ⟨run, startedMs, _ | _ | _⟩ := a
  · exact h
  · rfl
  · rfl

theorem giveUp_nextConditionMs {c : BatteryCollector} {failure : ProfileFailure} {e : Applied}
    (h : e.success? = none) (log : List Applied) :
    (c.giveUp e.atMs failure).nextConditionMs =
      ((e :: log).head?.map Applied.notBefore).getD 0 := by
  have hretry : e.notBefore = min (e.atMs + conditionRetryMs) clockEndMs := by
    obtain ⟨⟨run, startedMs, _ | _⟩ | _ | _, atMs⟩ := e
    · rfl
    · cases h
    · rfl
    · rfl
  rw [List.head?_cons, Option.map_some, Option.getD_some, hretry, BatteryCollector.giveUp]

theorem Sound.init : Sound .init :=
  { next := rfl
    condition := rfl
    stale := nofun
    live := nofun
    done := nofun
    numbered := nofun
    distinct := List.nodup_nil
    logged := nofun
    once := List.nodup_nil
    current := nofun
    spawning := nofun }

/-- No thread of a free slot's generation is left. -/
theorem Sound.free (h : Sound w) (hfree : w.collector.slot.startedMs = none) :
    w.collector.slot.done = none ∧ ∀ t ∈ w.threads, t.generation ≠ w.collector.slot.generation := by
  constructor
  · cases hdone : w.collector.slot.done with
    | none => rfl
    | some a =>
      have hstarted := (h.done a hdone).1
      simp [hfree] at hstarted
  · intro t ht hgeneration
    have hstarted := (h.live t ht hgeneration).1
    simp [hfree] at hstarted

private theorem settle_answered {a : Answer} (hdone : w.collector.slot.done = some a) :
    ∃ c : BatteryCollector,
      w.settle nowMs =
        { w with
          collector := c
          phase := .settled nowMs
          clockMs := nowMs
          log := { outcome := .answered a, atMs := nowMs } :: w.log } ∧
      c.slot = { generation := w.collector.slot.generation, startedMs := none, done := none } ∧
      c.nextConditionMs = Applied.notBefore { outcome := .answered a, atMs := nowMs } ∧
      (w.collector.condition = conditionOf w.log →
        c.condition = conditionOf ({ outcome := .answered a, atMs := nowMs } :: w.log)) := by
  refine ⟨w.collector.settle nowMs, ?_, ?_⟩
  · simp [BatteryWorld.settle, outcome?, hdone]
  · simp only [BatteryCollector.settle, hdone]
    refine ⟨?_, apply_nextConditionMs .., fun h => ?_⟩
    · simp [Slot.take, Slot.isAbandoned, hdone]
    · exact apply_condition
        (c := { w.collector with slot := w.collector.slot.take nowMs }) h nowMs a

private theorem settle_abandoned (hdone : w.collector.slot.done = none)
    (habandoned : w.collector.slot.isAbandoned nowMs = true) :
    w.settle nowMs =
      { w with
        collector := { w.collector with
          slot :=
            { generation := w.collector.slot.generation + 1, startedMs := none, done := none }
          }.giveUp nowMs .timeout
        phase := .settled nowMs
        clockMs := nowMs
        log := { outcome := .abandoned (w.runs - 1), atMs := nowMs } :: w.log } := by
  simp [BatteryWorld.settle, BatteryCollector.settle, Slot.take, outcome?, hdone, habandoned]

private theorem settle_waiting (hdone : w.collector.slot.done = none)
    (habandoned : w.collector.slot.isAbandoned nowMs = false) :
    w.settle nowMs = { w with phase := .settled nowMs, clockMs := nowMs } := by
  simp [BatteryWorld.settle, BatteryCollector.settle, Slot.take, outcome?, hdone, habandoned]

private theorem started_of_isAbandoned {slot : Slot} (h : slot.isAbandoned nowMs = true) :
    slot.startedMs.isSome := by
  rw [Slot.isAbandoned, Bool.and_eq_true] at h
  obtain ⟨s, hs, -⟩ := (Option.any_eq_true _ _).mp h.2
  simp [hs]

theorem Sound.settle (h : Sound w) (hidle : w.phase = .idle) : Sound (w.settle nowMs) := by
  have hspawning : w.isSpawning = false := by rw [isSpawning, hidle]
  cases hdone : w.collector.slot.done with
  | some a =>
    obtain ⟨hstarted, hrun, -⟩ := h.done a hdone
    obtain ⟨hpos, hcurrent⟩ := h.current hstarted hspawning
    obtain ⟨c, hsettle, hslot, hnext, hcondition⟩ := @settle_answered w nowMs a hdone
    rw [hsettle]
    exact
      { next := hnext
        condition := hcondition h.condition
        stale := fun t ht hgeneration => by
          simp only [hslot] at hgeneration ⊢
          exact h.stale t ht hgeneration
        live := fun t ht hgeneration => by
          simp only [hslot] at hgeneration
          have hlive := h.live t ht hgeneration
          simp [hdone] at hlive
        done := by simp [hslot]
        numbered := h.numbered
        distinct := h.distinct
        logged := List.forall_mem_cons.mpr ⟨by simp only; omega, h.logged⟩
        once := List.nodup_cons.mpr ⟨fun hmem => by
          have hlt := hcurrent a.run hmem
          omega, h.once⟩
        current := by simp [hslot]
        spawning := nofun }
  | none =>
    cases habandoned : w.collector.slot.isAbandoned nowMs with
    | true =>
      obtain ⟨hpos, hcurrent⟩ := h.current (started_of_isAbandoned habandoned) hspawning
      rw [settle_abandoned hdone habandoned]
      exact
        { next := giveUp_nextConditionMs
            (e := { outcome := .abandoned (w.runs - 1), atMs := nowMs }) rfl w.log
          condition := h.condition
          stale := fun t ht _ => by
            by_cases hgeneration : t.generation = w.collector.slot.generation
            · obtain ⟨-, -, hrun, -⟩ := h.live t ht hgeneration
              refine ⟨by simp only [BatteryCollector.giveUp]; omega, List.mem_cons.mpr (.inl ?_)⟩
              omega
            · obtain ⟨hlt, hmem⟩ := h.stale t ht hgeneration
              exact ⟨Nat.lt_succ_of_lt hlt, List.mem_cons_of_mem _ hmem⟩
          live := fun t ht hgeneration => by
            have hgeneration' : t.generation = w.collector.slot.generation + 1 := hgeneration
            have hlt := (h.stale t ht (by omega)).1
            omega
          done := nofun
          numbered := h.numbered
          distinct := h.distinct
          logged := List.forall_mem_cons.mpr ⟨by simp only; omega, h.logged⟩
          once := List.nodup_cons.mpr ⟨fun hmem => by
            have hlt := hcurrent _ hmem
            omega, h.once⟩
          current := nofun
          spawning := nofun }
    | false =>
      rw [settle_waiting hdone habandoned]
      exact
        { h with
          live := fun t ht hgeneration => by
            obtain ⟨hstarted, hnone, hrun, -⟩ := h.live t ht hgeneration
            exact ⟨hstarted, hnone, hrun, rfl⟩
          done := fun a ha => by simp [hdone] at ha
          current := fun hstarted _ => h.current hstarted hspawning
          spawning := nofun }

theorem Sound.start (h : Sound w) (hphase : w.phase = .settled nowMs) : Sound (w.start nowMs) := by
  have hspawning : w.isSpawning = false := by rw [isSpawning, hphase]
  rw [BatteryWorld.start]
  split_ifs with hstarts
  · rw [BatteryCollector.starts, Bool.and_eq_true, decide_eq_true_eq, Option.isNone_iff_eq_none]
      at hstarts
    obtain ⟨hdone, hthreads⟩ := h.free hstarts.2
    exact
      { next := h.next
        condition := h.condition
        stale := h.stale
        live := fun t ht hgeneration => absurd hgeneration (hthreads t ht)
        done := fun a ha => by simp [hdone] at ha
        numbered := h.numbered
        distinct := h.distinct
        logged := h.logged
        once := h.once
        current := nofun
        spawning := fun now generation hnow => by
          obtain ⟨rfl, rfl⟩ := Phase.spawning.inj hnow
          exact ⟨rfl, hdone, rfl, hstarts.1⟩ }
  · exact
      { h with
        live := fun t ht hgeneration => by
          obtain ⟨hstarted, hnone, hrun, -⟩ := h.live t ht hgeneration
          exact ⟨hstarted, hnone, hrun, rfl⟩
        done := fun a ha => by
          obtain ⟨hstarted, hrun, -⟩ := h.done a ha
          exact ⟨hstarted, hrun, rfl⟩
        current := fun hstarted _ => h.current hstarted hspawning
        spawning := nofun }

/-- While a thread is spawned, all others are abandoned. -/
theorem Sound.alone (h : Sound w) {generation : ℕ} (hphase : w.phase = .spawning nowMs generation) :
    ∀ t ∈ w.threads, t.generation ≠ w.collector.slot.generation := by
  intro t ht hgeneration
  have hspawning := (h.live t ht hgeneration).2.2.2
  rw [isSpawning, hphase] at hspawning
  cases hspawning

theorem Sound.spawned (h : Sound w) {generation : ℕ}
    (hphase : w.phase = .spawning nowMs generation) : Sound (w.spawned nowMs generation) := by
  obtain ⟨hstarted, hdone, rfl, -⟩ := h.spawning nowMs generation hphase
  have halone := h.alone hphase
  exact
    { next := h.next
      condition := h.condition
      stale := List.forall_mem_cons.mpr ⟨fun hne => absurd rfl hne, h.stale⟩
      live := List.forall_mem_cons.mpr ⟨fun _ => ⟨hstarted, hdone, rfl, rfl⟩,
        fun t ht hgeneration => absurd hgeneration (halone t ht)⟩
      done := fun a ha => by
        rw [Option.mem_def] at ha
        exact absurd (hdone.symm.trans ha) nofun
      numbered := List.forall_mem_cons.mpr ⟨Nat.lt_succ_self _,
        fun t ht => Nat.lt_succ_of_lt (h.numbered t ht)⟩
      distinct := List.nodup_cons.mpr ⟨fun hmem => by
        obtain ⟨t, ht, hrun⟩ := List.mem_map.mp hmem
        exact absurd hrun (Nat.ne_of_lt (h.numbered t ht)), h.distinct⟩
      logged := fun r hr => Nat.lt_succ_of_lt (h.logged r hr)
      once := h.once
      current := fun _ _ => ⟨Nat.succ_pos _, fun r hr => Nat.succ_lt_succ (h.logged r hr)⟩
      spawning := nofun }

theorem Sound.spawnFailed (h : Sound w) {generation : ℕ}
    (hphase : w.phase = .spawning nowMs generation) : Sound (w.spawnFailed nowMs) := by
  obtain ⟨-, hdone, -, -⟩ := h.spawning nowMs generation hphase
  have halone := h.alone hphase
  exact
    { next := giveUp_nextConditionMs (e := { outcome := .unspawned, atMs := nowMs }) rfl w.log
      condition := h.condition
      stale := h.stale
      live := fun t ht hgeneration => absurd hgeneration (halone t ht)
      done := fun a ha => by
        rw [Option.mem_def] at ha
        exact absurd (hdone.symm.trans ha) nofun
      numbered := h.numbered
      distinct := h.distinct
      logged := h.logged
      once := h.once
      current := nofun
      spawning := nofun }

private theorem run_ne_of_mem_erase {threads : List RunThread} {t u : RunThread}
    (hdistinct : (threads.map (·.run)).Nodup) (ht : t ∈ threads) (hu : u ∈ threads.erase t) :
    u.run ≠ t.run := by
  have hperm := (List.perm_cons_erase ht).map (·.run)
  rw [hperm.nodup_iff, List.map_cons, List.nodup_cons] at hdistinct
  exact fun heq => hdistinct.1 (heq ▸ List.mem_map_of_mem hu)

theorem Sound.answer (h : Sound w) {t : RunThread} (ht : t ∈ w.threads)
    (result : Except ProfileFailure PowerProfile) : Sound (w.answer t result) := by
  have hdistinct : ((w.threads.erase t).map (·.run)).Nodup :=
    h.distinct.sublist (List.erase_sublist.map _)
  by_cases hgeneration : w.collector.slot.generation = t.generation
  · obtain ⟨hstarted, -, hrun, hspawning⟩ := h.live t ht hgeneration.symm
    have hslot : (w.answer t result).collector.slot =
        { w.collector.slot with
          done := some { run := t.run, startedMs := t.startedMs, result } } := if_pos hgeneration
    exact
      { next := h.next
        condition := h.condition
        stale := fun u hu hne => by
          rw [hslot] at hne ⊢
          exact h.stale u (List.mem_of_mem_erase hu) hne
        live := fun u hu heq => by
          rw [hslot] at heq
          have hother := (h.live u (List.mem_of_mem_erase hu) heq).2.2.1
          exact absurd (by omega) (run_ne_of_mem_erase h.distinct ht hu)
        done := fun a ha => by
          rw [hslot] at ha ⊢
          obtain rfl := Option.some.inj ha
          exact ⟨by simp [hstarted], hrun, hspawning⟩
        numbered := fun u hu => h.numbered u (List.mem_of_mem_erase hu)
        distinct := hdistinct
        logged := h.logged
        once := h.once
        current := fun hsome => by
          rw [hslot] at hsome
          exact h.current hsome
        spawning := fun now generation hphase => by
          rw [isSpawning] at hspawning
          rw [show w.phase = _ from hphase] at hspawning
          cases hspawning }
  · have hslot : (w.answer t result).collector.slot = w.collector.slot := if_neg hgeneration
    exact
      { next := h.next
        condition := h.condition
        stale := fun u hu hne => by
          rw [hslot] at hne ⊢
          exact h.stale u (List.mem_of_mem_erase hu) hne
        live := fun u hu heq => by
          rw [hslot] at heq ⊢
          exact h.live u (List.mem_of_mem_erase hu) heq
        done := by
          rw [hslot]
          exact h.done
        numbered := fun u hu => h.numbered u (List.mem_of_mem_erase hu)
        distinct := hdistinct
        logged := h.logged
        once := h.once
        current := by
          rw [hslot]
          exact h.current
        spawning := by
          rw [hslot]
          exact h.spawning }

/-- Every action keeps the slot and its threads in step. -/
theorem Sound.step (h : Sound w) {w' : BatteryWorld} {a : BatteryAction}
    (hstep : w.step a = some w') : Sound w' := by
  cases a with
  | settle now =>
    obtain ⟨hguard, hsome⟩ := Option.ite_none_right_eq_some.mp hstep
    obtain rfl := Option.some.inj hsome
    exact h.settle hguard.1
  | start =>
    cases hphase : w.phase with
    | settled now =>
      rw [BatteryWorld.step, hphase] at hstep
      obtain rfl := Option.some.inj hstep
      exact h.start hphase
    | idle => simp [BatteryWorld.step, hphase] at hstep
    | spawning now generation => simp [BatteryWorld.step, hphase] at hstep
  | spawned =>
    cases hphase : w.phase with
    | spawning now generation =>
      rw [BatteryWorld.step, hphase] at hstep
      obtain rfl := Option.some.inj hstep
      exact h.spawned hphase
    | idle => simp [BatteryWorld.step, hphase] at hstep
    | settled now => simp [BatteryWorld.step, hphase] at hstep
  | spawnFailed =>
    cases hphase : w.phase with
    | spawning now generation =>
      rw [BatteryWorld.step, hphase] at hstep
      obtain rfl := Option.some.inj hstep
      exact h.spawnFailed hphase
    | idle => simp [BatteryWorld.step, hphase] at hstep
    | settled now => simp [BatteryWorld.step, hphase] at hstep
  | answer t result =>
    obtain ⟨ht, hsome⟩ := Option.ite_none_right_eq_some.mp hstep
    obtain rfl := Option.some.inj hsome
    exact h.answer ht result

end Steps

theorem sound_run {actions : List BatteryAction} {w : BatteryWorld}
    (h : run BatteryWorld.step .init actions = some w) : Sound w := by
  induction actions using List.reverseRecOn generalizing w with
  | nil =>
    obtain rfl := Option.some.inj h
    exact Sound.init
  | append_singleton actions a ih =>
    obtain ⟨v, hv, ha⟩ := run_concat_eq_some h
    exact (ih hv).step ha

/-- The last answer that was applied with success, before any failed ones. -/
def LastApplied (log : List Applied) (profile : PowerProfile) (startedMs : ℕ) : Prop :=
  ∃ failed e earlier, log = failed ++ e :: earlier ∧ (∀ f ∈ failed, f.success? = none) ∧
    e.success? = some (profile, startedMs)

theorem conditionOf_lastApplied {log : List Applied} {profile : PowerProfile} {startedMs : ℕ}
    (h : LastApplied log profile startedMs) :
    conditionOf log = .keep profile startedMs := by
  obtain ⟨failed, e, earlier, rfl, hfailed, he⟩ := h
  induction failed with
  | nil =>
    rw [List.nil_append, conditionOf, he]
  | cons f failed ih =>
    rw [List.cons_append, conditionOf, hfailed f (by simp)]
    exact ih fun g hg => hfailed g (by simp [hg])

theorem conditionOf_never {log : List Applied} (h : ∀ e ∈ log, e.success? = none) :
    conditionOf log = .none := by
  induction log with
  | nil => rfl
  | cons e log ih =>
    rw [conditionOf, h e (by simp)]
    exact ih fun f hf => h f (by simp [hf])

private theorem run?_of_abandoned? {e : Applied} {r : ℕ} (h : e.abandoned? = some r) :
    e.run? = some r := by
  obtain ⟨_ | _ | _, atMs⟩ := e
  · cases h
  · exact h
  · cases h

theorem mem_logged_of_abandoned {w : BatteryWorld} {r : ℕ} (h : r ∈ w.abandonedRuns) :
    r ∈ w.log.filterMap Applied.run? := by
  obtain ⟨e, he, hr⟩ := List.mem_filterMap.mp h
  exact List.mem_filterMap.mpr ⟨e, he, run?_of_abandoned? hr⟩

/-- At most one run counts, and it is the last one. -/
theorem Sound.outstanding {w : BatteryWorld} (h : Sound w) :
    w.outstanding.length + (if w.isSpawning then 1 else 0) ≤ 1 := by
  have hlive {r : ℕ} (hr : r ∈ w.outstanding) : r + 1 = w.runs ∧ w.isSpawning = false := by
    rw [BatteryWorld.outstanding, List.mem_filter, List.mem_append, decide_eq_true_eq] at hr
    obtain ⟨hmem | hmem, habandoned⟩ := hr
    · obtain ⟨t, ht, rfl⟩ := List.mem_map.mp hmem
      by_cases hgeneration : t.generation = w.collector.slot.generation
      · exact (h.live t ht hgeneration).2.2
      · exact absurd (h.stale t ht hgeneration).2 habandoned
    · obtain ⟨a, ha, rfl⟩ := Option.map_eq_some_iff.mp (Option.mem_toList.mp hmem)
      exact (h.done a ha).2
  have hnodup : w.outstanding.Nodup := by
    refine List.Nodup.filter _ (List.nodup_append.mpr ⟨h.distinct, ?_, ?_⟩)
    · cases w.collector.slot.done <;> simp
    · intro r hr s hs hrs
      obtain ⟨t, ht, rfl⟩ := List.mem_map.mp hr
      obtain ⟨a, ha, rfl⟩ := Option.map_eq_some_iff.mp (Option.mem_toList.mp hs)
      obtain ⟨hstarted, hrun, hspawning⟩ := h.done a ha
      by_cases hgeneration : t.generation = w.collector.slot.generation
      · have hnone := (h.live t ht hgeneration).2.1
        exact absurd (hnone.symm.trans ha) nofun
      · have hlogged := mem_logged_of_abandoned (h.stale t ht hgeneration).2
        have hlt := (h.current hstarted hspawning).2 _ hlogged
        omega
  cases houtstanding : w.outstanding with
  | nil => split_ifs <;> simp
  | cons r rest =>
    obtain ⟨hr, hspawning⟩ := hlive (houtstanding ▸ List.mem_cons_self)
    cases rest with
    | nil => simp [hspawning]
    | cons s rest =>
      have hs := (hlive (r := s) (by simp [houtstanding])).1
      rw [houtstanding] at hnodup
      exact absurd (by omega : r = s) (by simp [List.nodup_cons] at hnodup; exact hnodup.1.1)

private theorem not_nodup_of_two {log : List Applied} {e f : Applied} {r : ℕ} (he : e ∈ log)
    (hf : f ∈ log) (hef : e ≠ f) (her : e.run? = some r) (hfr : f.run? = some r) :
    ¬ (log.filterMap Applied.run?).Nodup := by
  induction log with
  | nil => cases he
  | cons g log ih =>
    intro hnodup
    have hcons {g' : Applied} (hg : g.run? = some r) (hmem : g' ∈ log) (hg' : g'.run? = some r) :
        False := by
      rw [List.filterMap_cons_some hg, List.nodup_cons] at hnodup
      exact hnodup.1 (List.mem_filterMap.mpr ⟨g', hmem, hg'⟩)
    rcases List.mem_cons.mp he with rfl | he'
    · rcases List.mem_cons.mp hf with rfl | hf'
      · exact hef rfl
      · exact hcons her hf' hfr
    · rcases List.mem_cons.mp hf with rfl | hf'
      · exact hcons hfr he' her
      · exact ih he' hf' (hnodup.sublist ((List.sublist_cons_self g log).filterMap _))

/-- The answer of an abandoned run is not applied. -/
theorem Sound.answered {w : BatteryWorld} (h : Sound w) {e : Applied} (he : e ∈ w.log)
    {a : Answer} (ha : e.outcome = .answered a) : a.run ∉ w.abandonedRuns := by
  intro hmem
  obtain ⟨f, hf, hrun⟩ := List.mem_filterMap.mp hmem
  have he' : e.run? = some a.run := by rw [Applied.run?, ha]
  have hef : e ≠ f := by
    rintro rfl
    rw [Applied.abandoned?, ha] at hrun
    cases hrun
  exact absurd h.once (not_nodup_of_two he hf hef he' (run?_of_abandoned? hrun))

/-- Nor is it kept when it comes. -/
theorem Sound.answer_abandoned {w : BatteryWorld} (h : Sound w) {t : RunThread}
    (ht : t ∈ w.threads) (habandoned : t.run ∈ w.abandonedRuns)
    (result : Except ProfileFailure PowerProfile) :
    w.answer t result = { w with threads := w.threads.erase t } := by
  have hgeneration : w.collector.slot.generation ≠ t.generation := by
    intro heq
    obtain ⟨hstarted, -, hrun, hspawning⟩ := h.live t ht heq.symm
    have hlt := (h.current (by simp [hstarted]) hspawning).2 _ (mem_logged_of_abandoned habandoned)
    omega
  rw [BatteryWorld.answer, Slot.complete, if_neg hgeneration]

/-- What a collect reports at a time, and what the runs before it allow. -/
structure ConditionKept (w : BatteryWorld) : Prop where
  single : w.outstanding.length + (if w.isSpawning then 1 else 0) ≤ 1
  unanswered : ∀ e ∈ w.log, ∀ a, e.outcome = .answered a → a.run ∉ w.abandonedRuns
  ignored : ∀ t ∈ w.threads, t.run ∈ w.abandonedRuns → ∀ result,
    w.answer t result = { w with threads := w.threads.erase t }
  sampled : ∀ reading startedMs, LastApplied w.log (.battery reading) startedMs → ∀ nowMs,
    ((w.collector.report nowMs).1 = .ofValue reading ∧
      (w.collector.report nowMs).2.toNat = min (nowMs - startedMs) (2 ^ 32 - 1))
  absent : ∀ startedMs, LastApplied w.log .noBattery startedMs → ∀ nowMs,
    w.collector.report nowMs = (.unavailable .absent, 0)
  never : (∀ e ∈ w.log, e.success? = none) → ∀ nowMs, (w.collector.report nowMs).1.value = none
  waited : ∀ nowMs generation, w.phase = .spawning nowMs generation →
    ∀ e ∈ w.log.head?, e.notBefore ≤ nowMs

/-- Condition runs, in every interleaving of collects with the ends of their threads. -/
theorem condition_kept {actions : List BatteryAction} {w : BatteryWorld}
    (h : run BatteryWorld.step .init actions = some w) : ConditionKept w := by
  have hsound := sound_run h
  exact
    { single := hsound.outstanding
      unanswered := fun e he a ha => hsound.answered he ha
      ignored := fun t ht habandoned result => hsound.answer_abandoned ht habandoned result
      sampled := fun reading startedMs hlast nowMs => by
        have hcondition := hsound.condition.trans (conditionOf_lastApplied hlast)
        rw [BatteryCollector.report, hcondition]
        exact ⟨rfl,
          UInt32.toNat_ofNat_of_lt' (Nat.lt_of_le_of_lt (Nat.min_le_right ..) (by decide))⟩
      absent := fun startedMs hlast nowMs => by
        have hcondition := hsound.condition.trans (conditionOf_lastApplied hlast)
        rw [BatteryCollector.report, hcondition]
        rfl
      never := fun hnone nowMs => by
        have hcondition := hsound.condition.trans (conditionOf_never hnone)
        rw [BatteryCollector.report, hcondition]
        rfl
      waited := fun nowMs generation hphase e he => by
        have hnext := hsound.next
        rw [Option.mem_def.mp he] at hnext
        have hdue := (hsound.spawning nowMs generation hphase).2.2.2
        rw [hnext] at hdue
        exact hdue }

private def worn : BatteryConditionReading :=
  { maxCapacityPerMille := some 870, condition := .normal, cycleCount := some 412 }

/-- One good run, then a collect long after it. -/
private def longAgo (lastMs : ℕ) : List BatteryAction :=
  [.settle 0, .start, .spawned,
    .answer { run := 0, generation := 0, startedMs := 0 } (.ok (.battery worn)),
    .settle 1000, .start, .settle lastMs]

theorem condition_kept_worn :
    ∃ w, run BatteryWorld.step .init (longAgo 2000) = some w ∧ ConditionKept w ∧
      LastApplied w.log (.battery worn) 0 :=
  have h : run BatteryWorld.step .init (longAgo 2000) = some _ := rfl
  ⟨_, h, condition_kept h, [], _, [], rfl, nofun, rfl⟩

/-- The age on the wire ends at 32 bits. -/
theorem condition_age_saturates :
    ∃ w, run BatteryWorld.step .init (longAgo (2 ^ 32)) = some w ∧
      LastApplied w.log (.battery worn) 0 ∧ w.clockMs = 2 ^ 32 ∧
      (w.collector.report w.clockMs).1 = .ofValue worn ∧
      (w.collector.report w.clockMs).2.toNat ≠ w.clockMs - 0 := by
  refine ⟨_, rfl, ⟨[], _, [], rfl, nofun, rfl⟩, rfl, rfl, by decide⟩

end CydMonitor.Metrics
