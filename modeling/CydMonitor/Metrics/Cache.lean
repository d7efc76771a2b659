import CydMonitor.Metrics.Network

/-!
# The cached sample of a slow source (`host/metrics/src/cache.rs`)
-/

namespace CydMonitor.Metrics

structure RefreshPolicy where
  refreshMs : ℕ
  retryUntilSampled : Bool
  deriving DecidableEq

structure Cached (τ : Type) where
  value : τ
  ageMs : ℕ
  deriving DecidableEq

/-- The age as a field of the wire, saturating. -/
def Cached.wireAgeMs {τ : Type} (c : Cached τ) : UInt32 := UInt32.ofNat (min c.ageMs (2 ^ 32 - 1))

/-- The last value of the 64-bit clock. -/
def clockEndMs : ℕ := 2 ^ 64 - 1

structure SampleCache (τ : Type) where
  policy : RefreshPolicy
  sample : Option (τ × ℕ)
  nextRefreshMs : ℕ
  failingSinceMs : Option ℕ

namespace SampleCache

variable {τ : Type}

def init (policy : RefreshPolicy) : SampleCache τ :=
  { policy, sample := none, nextRefreshMs := 0, failingSinceMs := none }

def isDue (c : SampleCache τ) (nowMs : ℕ) : Bool :=
  decide (c.nextRefreshMs ≤ nowMs) || (c.policy.retryUntilSampled && c.sample.isNone)

/-- Whether to ask the source, and the cache with the attempt recorded; the sum saturates. -/
def beginRefresh (c : SampleCache τ) (nowMs : ℕ) : Bool × SampleCache τ :=
  if c.isDue nowMs then
    (true, { c with nextRefreshMs := min (nowMs + c.policy.refreshMs) clockEndMs })
  else (false, c)

def succeed (c : SampleCache τ) (value : τ) (nowMs : ℕ) : SampleCache τ :=
  { c with sample := some (value, nowMs), failingSinceMs := none }

def fail (c : SampleCache τ) (nowMs : ℕ) : SampleCache τ :=
  { c with failingSinceMs := some (c.failingSinceMs.getD nowMs) }

def clear (c : SampleCache τ) : SampleCache τ :=
  { c with sample := none, failingSinceMs := none }

/-- One refresh; `source` is what the source answers if it is asked. -/
def refreshWith (c : SampleCache τ) (nowMs : ℕ) (source : Option τ) : SampleCache τ :=
  match c.beginRefresh nowMs with
  | (false, c) => c
  | (true, c) =>
    match source with
    | some value => c.succeed value nowMs
    | none => c.fail nowMs

def expire (c : SampleCache τ) : SampleCache τ := { c with nextRefreshMs := 0 }

def get (c : SampleCache τ) (nowMs : ℕ) : Option (Cached τ) :=
  c.sample.map fun (value, sampledMs) => { value, ageMs := nowMs - sampledMs }

variable {c : SampleCache τ} {nowMs : ℕ}

theorem refreshWith_of_not_due (h : c.isDue nowMs = false) (source : Option τ) :
    c.refreshWith nowMs source = c := by
  simp [refreshWith, beginRefresh, h]

theorem refreshWith_some (h : c.isDue nowMs = true) (value : τ) :
    c.refreshWith nowMs (some value) =
      { policy := c.policy, sample := some (value, nowMs),
        nextRefreshMs := min (nowMs + c.policy.refreshMs) clockEndMs, failingSinceMs := none } := by
  simp [refreshWith, beginRefresh, h, succeed]

theorem refreshWith_none (h : c.isDue nowMs = true) :
    c.refreshWith nowMs none =
      { policy := c.policy, sample := c.sample,
        nextRefreshMs := min (nowMs + c.policy.refreshMs) clockEndMs,
        failingSinceMs := some (c.failingSinceMs.getD nowMs) } := by
  simp [refreshWith, beginRefresh, h, fail]

end SampleCache

end CydMonitor.Metrics
