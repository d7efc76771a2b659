import CydMonitor.Metrics.Rates

/-!
# The counter and processor samplers (`host/metrics/src/lib.rs`)

Here on machine numbers, every operation checked. The counter sampler does what the one on a
natural clock does.
-/

namespace CydMonitor.Counters

open Metrics (MetricSample InterfaceCounters NetworkRate maxRateSampleGapMs perS rateSince)

/-- A failed check of the program. -/
inductive Panic where
  | overflow | divideByZero
  deriving DecidableEq

def subU64 (a b : UInt64) : Except Panic UInt64 := if b ≤ a then .ok (a - b) else .error .overflow

def subU32 (a b : UInt32) : Except Panic UInt32 := if b ≤ a then .ok (a - b) else .error .overflow

/-- A number of so many bits, if it is one. -/
def unsigned (bits n : ℕ) : Except Panic ℕ := if n < 2 ^ bits then .ok n else .error .overflow

def quotient (a b : ℕ) : Except Panic ℕ := if b = 0 then .error .divideByZero else .ok (a / b)

/-- The clock went on, and not for too long. -/
def gapOk (beforeMs nowMs : UInt64) : Except Panic Bool :=
  if beforeMs < nowMs then do
    let gap ← subU64 nowMs beforeMs
    .ok (decide (gap.toNat ≤ maxRateSampleGapMs))
  else .ok false

section Checked

theorem subU64_of_le {a b : UInt64} (h : b ≤ a) : subU64 a b = .ok (a - b) := if_pos h

theorem subU32_of_le {a b : UInt32} (h : b ≤ a) : subU32 a b = .ok (a - b) := if_pos h

theorem unsigned_of_lt {bits n : ℕ} (h : n < 2 ^ bits) : unsigned bits n = .ok n := if_pos h

theorem quotient_of_pos {a b : ℕ} (h : 0 < b) : quotient a b = .ok (a / b) := if_neg (by omega)

theorem gapOk_eq (beforeMs nowMs : UInt64) :
    gapOk beforeMs nowMs = .ok (decide (beforeMs.toNat < nowMs.toNat ∧
      nowMs.toNat - beforeMs.toNat ≤ maxRateSampleGapMs)) := by
  rw [gapOk]
  by_cases hlt : beforeMs < nowMs
  · have hle : beforeMs ≤ nowMs := UInt64.le_of_lt hlt
    rw [if_pos hlt, subU64_of_le hle]
    simp [UInt64.toNat_sub_of_le _ _ hle, UInt64.lt_iff_toNat_lt.mp hlt]
  · rw [if_neg hlt]
    simp [mt UInt64.lt_iff_toNat_lt.mpr hlt]

end Checked

/-- A sample at some moment, or the baseline forgotten. -/
inductive SamplerCall (β : Type) where
  | sample (now : β)
  | reset

/-- The sample right before, if the baseline was not forgotten since. -/
def preceding {β : Type} (calls : List (SamplerCall β)) : Option β :=
  match calls.getLast? with
  | some (.sample before) => some before
  | _ => none

@[simp] theorem preceding_sample {β : Type} (calls : List (SamplerCall β)) (now : β) :
    preceding (calls ++ [.sample now]) = some now := by
  simp [preceding]

@[simp] theorem preceding_reset {β : Type} (calls : List (SamplerCall β)) :
    preceding (calls ++ [.reset]) = none := by
  simp [preceding]

structure CounterRateSampler (κ : Type) where
  baseline : Option (κ × (UInt64 × UInt64) × UInt64)

namespace CounterRateSampler

variable {κ : Type} [DecidableEq κ]

def default : CounterRateSampler κ := { baseline := none }

/-- Scaled in 128 bits and cut to 64. -/
def perSecond (elapsed : ℕ) (delta : UInt64) : Except Panic UInt64 := do
  let scaled ← unsigned 128 (delta.toNat * 1000)
  let rate ← quotient scaled elapsed
  .ok (UInt64.ofNat (min rate (2 ^ 64 - 1)))

/-- The rate since the baseline. -/
def since (before : κ × (UInt64 × UInt64) × UInt64) (key : κ) (counters : UInt64 × UInt64)
    (nowMs : UInt64) : Except Panic (MetricSample (UInt64 × UInt64)) := do
  let (beforeKey, before, beforeMs) := before
  let monotonic := decide (before.1 ≤ counters.1) && decide (before.2 ≤ counters.2)
  if !decide (key = beforeKey) || !(← gapOk beforeMs nowMs) || !monotonic then
    .ok (.unavailable .temporarilyUnavailable)
  else do
    let elapsed ← subU64 nowMs beforeMs
    let first ← perSecond elapsed.toNat (← subU64 counters.1 before.1)
    let second ← perSecond elapsed.toNat (← subU64 counters.2 before.2)
    .ok (.ofValue (first, second))

def sample (sampler : CounterRateSampler κ) (key : κ) (counters : UInt64 × UInt64)
    (nowMs : UInt64) :
    Except Panic (MetricSample (UInt64 × UInt64) × CounterRateSampler κ) := do
  let after : CounterRateSampler κ := { baseline := some (key, counters, nowMs) }
  match sampler.baseline with
  | none => .ok (.unavailable .temporarilyUnavailable, after)
  | some before => do
    let rate ← since before key counters nowMs
    .ok (rate, after)

def reset (_ : CounterRateSampler κ) : CounterRateSampler κ := { baseline := none }

def apply (sampler : CounterRateSampler κ) :
    SamplerCall (κ × (UInt64 × UInt64) × UInt64) → Except Panic (CounterRateSampler κ)
  | .sample (key, counters, nowMs) => do
    let (_, after) ← sampler.sample key counters nowMs
    .ok after
  | .reset => .ok sampler.reset

def run (calls : List (SamplerCall (κ × (UInt64 × UInt64) × UInt64))) :
    Except Panic (CounterRateSampler κ) :=
  calls.foldlM apply default

end CounterRateSampler

structure CpuTicks where
  user : UInt32
  system : UInt32
  idle : UInt32
  nice : UInt32
  deriving DecidableEq

structure CpuSampler where
  baseline : Option (CpuTicks × UInt64)

namespace CpuSampler

def default : CpuSampler := { baseline := none }

/-- The utilisation since the baseline. -/
def since (before : CpuTicks × UInt64) (ticks : CpuTicks) (nowMs : UInt64) :
    Except Panic (MetricSample UInt16) := do
  let (before, beforeMs) := before
  let monotonic := decide (before.user ≤ ticks.user) && decide (before.system ≤ ticks.system) &&
    decide (before.idle ≤ ticks.idle) && decide (before.nice ≤ ticks.nice)
  if !(← gapOk beforeMs nowMs) || !monotonic then
    .ok (.unavailable .temporarilyUnavailable)
  else do
    let user ← subU32 ticks.user before.user
    let nice ← subU32 ticks.nice before.nice
    let system ← subU32 ticks.system before.system
    let busy ← unsigned 64 ((← unsigned 64 (user.toNat + nice.toNat)) + system.toNat)
    let idle ← subU32 ticks.idle before.idle
    let total ← unsigned 64 (busy + idle.toNat)
    if total = 0 then
      .ok (.unavailable .temporarilyUnavailable)
    else do
      let scaled ← unsigned 64 (busy * 1000)
      let sum ← unsigned 64 (scaled + (← quotient total 2))
      let perMille ← quotient sum total
      .ok (.ofValue (UInt16.ofNat perMille))

def sample (sampler : CpuSampler) (ticks : CpuTicks) (nowMs : UInt64) :
    Except Panic (MetricSample UInt16 × CpuSampler) := do
  let after : CpuSampler := { baseline := some (ticks, nowMs) }
  match sampler.baseline with
  | none => .ok (.unavailable .temporarilyUnavailable, after)
  | some before => do
    let utilisation ← since before ticks nowMs
    .ok (utilisation, after)

def reset (_ : CpuSampler) : CpuSampler := { baseline := none }

def apply (sampler : CpuSampler) : SamplerCall (CpuTicks × UInt64) → Except Panic CpuSampler
  | .sample (ticks, nowMs) => do
    let (_, after) ← sampler.sample ticks nowMs
    .ok after
  | .reset => .ok sampler.reset

def run (calls : List (SamplerCall (CpuTicks × UInt64))) : Except Panic CpuSampler :=
  calls.foldlM apply default

end CpuSampler

section CounterRuns

variable {κ : Type} [DecidableEq κ]

def ofPair (counters : UInt64 × UInt64) : InterfaceCounters :=
  { rxBytes := counters.1, txBytes := counters.2 }

def toPair (rate : NetworkRate) : UInt64 × UInt64 := (rate.rxBytesPerS, rate.txBytesPerS)

theorem perSecond_eq {elapsed : ℕ} (h : 0 < elapsed) (delta : UInt64) :
    CounterRateSampler.perSecond elapsed delta = .ok (perS delta elapsed) := by
  have hdelta := delta.toNat_lt
  rw [CounterRateSampler.perSecond, unsigned_of_lt (by omega)]
  simp only [bind, Except.bind]
  rw [quotient_of_pos h]
  rfl

/-- No operation fails, and the rate is that of the natural clock. -/
theorem CounterRateSampler.since_eq (beforeKey key : κ) (before counters : UInt64 × UInt64)
    (beforeMs nowMs : UInt64) :
    since (beforeKey, before, beforeMs) key counters nowMs =
      .ok ((rateSince (beforeKey, ofPair before, beforeMs.toNat) key (ofPair counters)
        nowMs.toNat).map toPair) := by
  simp only [since, gapOk_eq, bind, Except.bind]
  by_cases hcomparable : key = beforeKey ∧ (beforeMs.toNat < nowMs.toNat ∧
      nowMs.toNat - beforeMs.toNat ≤ maxRateSampleGapMs) ∧
      before.1 ≤ counters.1 ∧ before.2 ≤ counters.2
  · obtain ⟨hkey, helapsed, hfirst, hsecond⟩ := hcomparable
    have hle : beforeMs ≤ nowMs := UInt64.le_iff_toNat_le.mpr (by omega)
    rw [if_neg (by simp [hkey, helapsed, hfirst, hsecond]), subU64_of_le hle,
      subU64_of_le hfirst, subU64_of_le hsecond]
    simp only [UInt64.toNat_sub_of_le _ _ hle,
      perSecond_eq (show 0 < nowMs.toNat - beforeMs.toNat by omega)]
    rw [rateSince, if_neg (by simp [hkey, helapsed, ofPair, hfirst, hsecond])]
    rfl
  · have hbool : (!decide (key = beforeKey) || !decide (beforeMs.toNat < nowMs.toNat ∧
        nowMs.toNat - beforeMs.toNat ≤ maxRateSampleGapMs) ||
        !(decide (before.1 ≤ counters.1) && decide (before.2 ≤ counters.2))) = true := by
      simp only [Bool.or_eq_true, Bool.not_eq_true', decide_eq_false_iff_not, Bool.and_eq_false_iff]
      tauto
    rw [if_pos hbool, rateSince, if_pos (by simp only [ofPair]; tauto)]
    rfl

/-- The sampler on a natural clock. -/
def CounterRateSampler.natural (sampler : CounterRateSampler κ) : Metrics.CounterRateSampler κ :=
  { baseline := sampler.baseline.map fun b => (b.1, ofPair b.2.1, b.2.2.toNat) }

theorem CounterRateSampler.sample_eq (sampler : CounterRateSampler κ) (key : κ)
    (counters : UInt64 × UInt64) (nowMs : UInt64) :
    sampler.sample key counters nowMs =
      .ok ((sampler.natural.sample key (ofPair counters) nowMs.toNat).1.map toPair,
        { baseline := some (key, counters, nowMs) }) := by
  obtain ⟨baseline⟩ := sampler
  cases baseline with
  | none => rfl
  | some before =>
    obtain ⟨beforeKey, before, beforeMs⟩ := before
    simp only [CounterRateSampler.sample, CounterRateSampler.since_eq, bind, Except.bind]
    rfl

/-- After every run the baseline is the sample right before. -/
theorem CounterRateSampler.run_eq (calls : List (SamplerCall (κ × (UInt64 × UInt64) × UInt64))) :
    CounterRateSampler.run calls = .ok { baseline := preceding calls } := by
  induction calls using List.reverseRecOn with
  | nil => rfl
  | append_singleton calls call ih =>
    rw [CounterRateSampler.run] at ih
    rw [CounterRateSampler.run, List.foldlM_append, ih]
    cases call with
    | sample now =>
      obtain ⟨key, counters, nowMs⟩ := now
      simp [bind, Except.bind, pure, Except.pure, CounterRateSampler.apply,
        CounterRateSampler.sample_eq]
    | reset =>
      simp [bind, Except.bind, pure, Except.pure, CounterRateSampler.apply,
        CounterRateSampler.reset]

end CounterRuns

section CpuRuns

def CpuTicks.Monotonic (before ticks : CpuTicks) : Prop :=
  before.user ≤ ticks.user ∧ before.system ≤ ticks.system ∧ before.idle ≤ ticks.idle ∧
    before.nice ≤ ticks.nice

def CpuTicks.busySince (before ticks : CpuTicks) : ℕ :=
  (ticks.user.toNat - before.user.toNat) + (ticks.nice.toNat - before.nice.toNat) +
    (ticks.system.toNat - before.system.toNat)

def CpuTicks.totalSince (before ticks : CpuTicks) : ℕ :=
  before.busySince ticks + (ticks.idle.toNat - before.idle.toNat)

/-- Rounded to nearest, a half up. -/
def perMille (busy total : ℕ) : ℕ := (busy * 1000 + total / 2) / total

theorem perMille_le {busy total : ℕ} (h : busy ≤ total) (hpos : 0 < total) :
    perMille busy total ≤ 1000 := by
  rw [perMille, Nat.div_le_iff_le_mul_add_pred hpos]
  omega

/-- The samples of a processor yield a utilisation. -/
def CpuTicks.Yields (before : CpuTicks × UInt64) (ticks : CpuTicks) (nowMs : UInt64) : Prop :=
  (before.2.toNat < nowMs.toNat ∧ nowMs.toNat - before.2.toNat ≤ maxRateSampleGapMs) ∧
    before.1.Monotonic ticks ∧ 0 < before.1.totalSince ticks

/-- No operation fails. -/
theorem CpuSampler.since_eq (before : CpuTicks × UInt64) (ticks : CpuTicks) (nowMs : UInt64) :
    ∃ utilisation, CpuSampler.since before ticks nowMs = .ok utilisation ∧
      ∀ value, utilisation.value = some value ↔ CpuTicks.Yields before ticks nowMs ∧
        value.toNat = perMille (before.1.busySince ticks) (before.1.totalSince ticks) := by
  obtain ⟨before, beforeMs⟩ := before
  simp only [CpuSampler.since, gapOk_eq, bind, Except.bind]
  by_cases hcomparable : (beforeMs.toNat < nowMs.toNat ∧
      nowMs.toNat - beforeMs.toNat ≤ maxRateSampleGapMs) ∧ before.Monotonic ticks
  · obtain ⟨helapsed, huser, hsystem, hidle, hnice⟩ := hcomparable
    rw [if_neg (by simp [helapsed, huser, hsystem, hidle, hnice]), subU32_of_le huser,
      subU32_of_le hnice, subU32_of_le hsystem, subU32_of_le hidle]
    have hbusy : (ticks.user - before.user).toNat + (ticks.nice - before.nice).toNat +
        (ticks.system - before.system).toNat = before.busySince ticks := by
      rw [UInt32.toNat_sub_of_le _ _ huser, UInt32.toNat_sub_of_le _ _ hnice,
        UInt32.toNat_sub_of_le _ _ hsystem, CpuTicks.busySince]
    have htotal : before.busySince ticks + (ticks.idle - before.idle).toNat =
        before.totalSince ticks := by
      rw [UInt32.toNat_sub_of_le _ _ hidle, CpuTicks.totalSince]
    have hbound : before.busySince ticks < 3 * 2 ^ 32 := by
      have h₁ := ticks.user.toNat_lt
      have h₂ := ticks.nice.toNat_lt
      have h₃ := ticks.system.toNat_lt
      rw [CpuTicks.busySince]
      omega
    have hle : before.busySince ticks ≤ before.totalSince ticks := by
      rw [← htotal]
      exact Nat.le_add_right _ _
    have hwide : before.totalSince ticks < 2 ^ 34 := by
      have hidleBound := (ticks.idle - before.idle).toNat_lt
      omega
    have hpair : (ticks.user - before.user).toNat + (ticks.nice - before.nice).toNat < 2 ^ 64 := by
      omega
    simp only [unsigned_of_lt hpair, hbusy,
      unsigned_of_lt (show before.busySince ticks < 2 ^ 64 by omega),
      htotal, unsigned_of_lt (show before.totalSince ticks < 2 ^ 64 by omega)]
    by_cases hzero : before.totalSince ticks = 0
    · rw [if_pos hzero]
      refine ⟨_, rfl, fun value => iff_of_false nofun fun h => ?_⟩
      exact absurd h.1.2.2 (by simp [hzero])
    · have hpos : 0 < before.totalSince ticks := Nat.pos_of_ne_zero hzero
      have hvalue := perMille_le hle hpos
      rw [if_neg hzero, unsigned_of_lt (show before.busySince ticks * 1000 < 2 ^ 64 by omega)]
      simp only [quotient_of_pos (Nat.zero_lt_two)]
      rw [unsigned_of_lt (show before.busySince ticks * 1000 + before.totalSince ticks / 2 < 2 ^ 64
        by omega)]
      simp only [quotient_of_pos hpos]
      refine ⟨_, rfl, fun value => ?_⟩
      have hnat : (UInt16.ofNat (perMille (before.busySince ticks) (before.totalSince ticks))).toNat
          = perMille (before.busySince ticks) (before.totalSince ticks) :=
        UInt16.toNat_ofNat_of_lt' (Nat.lt_of_le_of_lt hvalue (by decide))
      constructor
      · intro h
        obtain rfl := Option.some.inj h
        exact ⟨⟨helapsed, ⟨huser, hsystem, hidle, hnice⟩, hpos⟩, hnat⟩
      · rintro ⟨-, hval⟩
        exact congrArg some (UInt16.toNat_inj.mp (hnat.trans hval.symm))
  · refine ⟨.unavailable .temporarilyUnavailable, if_pos ?_, fun value => iff_of_false nofun
      fun h => hcomparable ⟨h.1.1, h.1.2.1⟩⟩
    simp only [Bool.or_eq_true, Bool.not_eq_true', decide_eq_false_iff_not, Bool.and_eq_false_iff]
    rw [CpuTicks.Monotonic] at hcomparable
    tauto

theorem CpuSampler.run_eq (calls : List (SamplerCall (CpuTicks × UInt64))) :
    CpuSampler.run calls = .ok { baseline := preceding calls } := by
  induction calls using List.reverseRecOn with
  | nil => rfl
  | append_singleton calls call ih =>
    rw [CpuSampler.run] at ih
    rw [CpuSampler.run, List.foldlM_append, ih]
    cases call with
    | sample now =>
      obtain ⟨ticks, nowMs⟩ := now
      cases hbefore : preceding calls with
      | none => simp [bind, Except.bind, pure, Except.pure, CpuSampler.apply, CpuSampler.sample]
      | some before =>
        obtain ⟨utilisation, hsince, -⟩ := CpuSampler.since_eq before ticks nowMs
        simp [bind, Except.bind, pure, Except.pure, CpuSampler.apply, CpuSampler.sample, hsince]
    | reset =>
      simp [bind, Except.bind, pure, Except.pure, CpuSampler.apply, CpuSampler.reset]

theorem CpuSampler.sample_spec (calls : List (SamplerCall (CpuTicks × UInt64))) (ticks : CpuTicks)
    (nowMs : UInt64) :
    ∃ utilisation after, CpuSampler.sample { baseline := preceding calls } ticks nowMs =
        .ok (utilisation, after) ∧
      ∀ value, utilisation.value = some value ↔
        ∃ before, preceding calls = some before ∧ CpuTicks.Yields before ticks nowMs ∧
          value.toNat = perMille (before.1.busySince ticks) (before.1.totalSince ticks) := by
  cases hbefore : preceding calls with
  | none => exact ⟨_, _, rfl, fun value => iff_of_false nofun (by simp)⟩
  | some before =>
    obtain ⟨utilisation, hsince, hvalue⟩ := CpuSampler.since_eq before ticks nowMs
    refine ⟨utilisation, { baseline := some (ticks, nowMs) }, ?_, fun value => ?_⟩
    · simp only [CpuSampler.sample, hsince, bind, Except.bind]
    · rw [hvalue]
      simp

end CpuRuns

/-- From one millisecond to the longest gap. -/
def InGap (beforeMs nowMs : UInt64) : Prop :=
  beforeMs.toNat + 1 ≤ nowMs.toNat ∧ nowMs.toNat ≤ beforeMs.toNat + 5000

/-- The floor per second, cut to 64 bits. -/
def IsRate (before now beforeMs nowMs rate : UInt64) : Prop :=
  rate.toNat =
    min ((now.toNat - before.toNat) * 1000 / (nowMs.toNat - beforeMs.toNat)) (2 ^ 64 - 1)

/-- The nearest number of thousandths, the larger of two. -/
def IsNearest (busy total perMille : ℕ) : Prop :=
  2000 * busy < (2 * perMille + 1) * total ∧ 2 * perMille * total ≤ 2000 * busy + total

theorem isNearest_iff {busy total n : ℕ} (hpos : 0 < total) :
    IsNearest busy total n ↔ n = perMille busy total := by
  have hlow : (2 * n + 1) * total = 2 * (n * total) + total := by
    rw [Nat.add_mul, Nat.mul_assoc, Nat.one_mul]
  have hhigh : 2 * n * total = 2 * (n * total) := Nat.mul_assoc _ _ _
  rw [IsNearest, hlow, hhigh, perMille, eq_comm, Nat.div_eq_iff hpos]
  omega

private theorem inGap_iff {beforeMs nowMs : UInt64} :
    InGap beforeMs nowMs ↔ beforeMs.toNat < nowMs.toNat ∧
      nowMs.toNat - beforeMs.toNat ≤ maxRateSampleGapMs := by
  rw [InGap, maxRateSampleGapMs]
  omega

private theorem isRate_perS {before now beforeMs nowMs : UInt64} (h : before ≤ now) :
    IsRate before now beforeMs nowMs (perS (now - before) (nowMs.toNat - beforeMs.toNat)) := by
  rw [IsRate, Metrics.toNat_perS, UInt64.toNat_sub_of_le _ _ h, Metrics.saturated]

section History

variable {κ : Type} [DecidableEq κ] (calls : List (SamplerCall (κ × (UInt64 × UInt64) × UInt64)))
  (key : κ) (counters : UInt64 × UInt64) (nowMs : UInt64)

theorem counter_value {rates : UInt64 × UInt64} :
    ((CounterRateSampler.natural { baseline := preceding calls }).sample key (ofPair counters)
        nowMs.toNat).1.value.map toPair = some rates ↔
      ∃ before beforeMs, preceding calls = some (key, before, beforeMs) ∧ InGap beforeMs nowMs ∧
        before.1 ≤ counters.1 ∧ before.2 ≤ counters.2 ∧
        rates = (perS (counters.1 - before.1) (nowMs.toNat - beforeMs.toNat),
          perS (counters.2 - before.2) (nowMs.toNat - beforeMs.toNat)) := by
  rw [Option.map_eq_some_iff]
  cases hbefore : preceding calls with
  | none => exact iff_of_false (by rintro ⟨_, h, -⟩; cases h) (by simp)
  | some baseline =>
    obtain ⟨beforeKey, before, beforeMs⟩ := baseline
    have hvalue (rate : NetworkRate) := @Metrics.rateSince_eq_some κ _ beforeKey key (ofPair before)
      (ofPair counters) beforeMs.toNat nowMs.toNat rate
    constructor
    · rintro ⟨rate, hrate, rfl⟩
      obtain ⟨rfl, hgap, ⟨hfirst, hsecond⟩, rfl⟩ := (hvalue rate).mp hrate
      exact ⟨before, beforeMs, rfl, inGap_iff.mpr hgap, hfirst, hsecond, rfl⟩
    · rintro ⟨before', beforeMs', heq, hgap, hfirst, hsecond, rfl⟩
      cases heq
      exact ⟨_, (hvalue _).mpr ⟨rfl, inGap_iff.mp hgap, ⟨hfirst, hsecond⟩, rfl⟩, rfl⟩

end History

/-- Both samplers over every history: nothing overflows, there is a value exactly when the sample
right before can be compared, and it is the rate or the utilisation since then. -/
theorem samplers_exact {κ : Type} [DecidableEq κ]
    (calls : List (SamplerCall (κ × (UInt64 × UInt64) × UInt64))) (key : κ)
    (counters : UInt64 × UInt64) (nowMs : UInt64)
    (cpuCalls : List (SamplerCall (CpuTicks × UInt64))) (ticks : CpuTicks) (cpuNowMs : UInt64) :
    (∃ sampler result after, CounterRateSampler.run calls = .ok sampler ∧
      sampler.sample key counters nowMs = .ok (result, after) ∧
      (result.value.isSome ↔ ∃ before beforeMs, preceding calls = some (key, before, beforeMs) ∧
        InGap beforeMs nowMs ∧ before.1 ≤ counters.1 ∧ before.2 ≤ counters.2) ∧
      ∀ rates, result.value = some rates →
        ∃ before beforeMs, preceding calls = some (key, before, beforeMs) ∧
          IsRate before.1 counters.1 beforeMs nowMs rates.1 ∧
          IsRate before.2 counters.2 beforeMs nowMs rates.2) ∧
    ∃ sampler result after, CpuSampler.run cpuCalls = .ok sampler ∧
      sampler.sample ticks cpuNowMs = .ok (result, after) ∧
      (result.value.isSome ↔ ∃ before beforeMs, preceding cpuCalls = some (before, beforeMs) ∧
        InGap beforeMs cpuNowMs ∧ before.Monotonic ticks ∧ 0 < before.totalSince ticks) ∧
      ∀ value, result.value = some value →
        ∃ before beforeMs, preceding cpuCalls = some (before, beforeMs) ∧
          IsNearest (before.busySince ticks) (before.totalSince ticks) value.toNat ∧
          value.toNat ≤ 1000 := by
  constructor
  · refine ⟨_, _, _, CounterRateSampler.run_eq calls, CounterRateSampler.sample_eq _ _ _ _, ?_,
      fun rates hrates => ?_⟩
    · rw [Option.isSome_iff_exists]
      constructor
      · rintro ⟨rates, hrates⟩
        obtain ⟨before, beforeMs, hbefore, hgap, hfirst, hsecond, -⟩ :=
          (counter_value calls key counters nowMs).mp hrates
        exact ⟨before, beforeMs, hbefore, hgap, hfirst, hsecond⟩
      · rintro ⟨before, beforeMs, hbefore, hgap, hfirst, hsecond⟩
        exact ⟨_, (counter_value calls key counters nowMs).mpr
          ⟨before, beforeMs, hbefore, hgap, hfirst, hsecond, rfl⟩⟩
    · obtain ⟨before, beforeMs, hbefore, -, hfirst, hsecond, rfl⟩ :=
        (counter_value calls key counters nowMs).mp hrates
      exact ⟨before, beforeMs, hbefore, isRate_perS hfirst, isRate_perS hsecond⟩
  · obtain ⟨result, after, hsample, hvalue⟩ := CpuSampler.sample_spec cpuCalls ticks cpuNowMs
    refine ⟨_, result, after, CpuSampler.run_eq cpuCalls, hsample, ?_, fun value hresult => ?_⟩
    · rw [Option.isSome_iff_exists]
      constructor
      · rintro ⟨value, hresult⟩
        obtain ⟨before, hbefore, ⟨hgap, hmonotonic, htotal⟩, -⟩ := (hvalue value).mp hresult
        exact ⟨before.1, before.2, hbefore, inGap_iff.mpr hgap, hmonotonic, htotal⟩
      · rintro ⟨before, beforeMs, hbefore, hgap, hmonotonic, htotal⟩
        have hle := perMille_le (Nat.le_add_right (before.busySince ticks) _) htotal
        refine ⟨UInt16.ofNat (perMille (before.busySince ticks) (before.totalSince ticks)),
          (hvalue _).mpr ⟨(before, beforeMs), hbefore, ⟨inGap_iff.mp hgap, hmonotonic, htotal⟩, ?_⟩⟩
        exact UInt16.toNat_ofNat_of_lt' (Nat.lt_of_le_of_lt hle (by decide))
    · obtain ⟨before, hbefore, ⟨-, -, htotal⟩, heq⟩ := (hvalue value).mp hresult
      refine ⟨before.1, before.2, hbefore, (isNearest_iff htotal).mpr heq, ?_⟩
      rw [heq]
      exact perMille_le (Nat.le_add_right _ _) htotal

end CydMonitor.Counters
