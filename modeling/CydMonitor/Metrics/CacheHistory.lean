import CydMonitor.Metrics.Cache

/-!
# The cached sample over whole runs

A run keeps a journal of what happened, the newest entry first. What the cache holds is read off
the journal: the sample, when the source was last asked, and since when it fails.
-/

namespace CydMonitor.Metrics

inductive CacheCall (τ : Type) where
  | refreshWith (nowMs : ℕ) (source : Option τ)
  | clear
  | expire

def CacheCall.time {τ : Type} : CacheCall τ → Option ℕ
  | .refreshWith nowMs _ => some nowMs
  | .clear | .expire => none

inductive CacheEntry (τ : Type) where
  | asked (atMs : ℕ) (answer : Option τ)
  | cleared
  | expired

namespace CacheEntry

variable {τ : Type}

def success : CacheEntry τ → Option (τ × ℕ)
  | .asked atMs (some value) => some (value, atMs)
  | _ => none

def failed : CacheEntry τ → Option ℕ
  | .asked atMs none => some atMs
  | _ => none

def askedAt : CacheEntry τ → Option ℕ
  | .asked atMs _ => some atMs
  | _ => none

def isClear : CacheEntry τ → Bool
  | .cleared => true
  | _ => false

def isExpire : CacheEntry τ → Bool
  | .expired => true
  | _ => false

end CacheEntry

abbrev CacheJournal (τ : Type) := List (CacheEntry τ)

namespace CacheJournal

variable {τ : Type}

/-- The last success since the last clear, and its time. -/
def sampled (j : CacheJournal τ) : Option (τ × ℕ) :=
  (j.takeWhile (!·.isClear)).findSome? CacheEntry.success

/-- When the source was last asked, if not before the last expire. -/
def lastAsked (j : CacheJournal τ) : Option ℕ :=
  (j.takeWhile (!·.isExpire)).findSome? CacheEntry.askedAt

/-- The first failure since the last success or clear. -/
def failingSince (j : CacheJournal τ) : Option ℕ :=
  ((j.takeWhile fun e => !e.isClear && e.success.isNone).filterMap CacheEntry.failed).getLast?

end CacheJournal

/-- A cache with the journal of its run. -/
structure CacheRun (τ : Type) where
  cache : SampleCache τ
  journal : CacheJournal τ

namespace CacheRun

variable {τ : Type}

def init (policy : RefreshPolicy) : CacheRun τ := { cache := .init policy, journal := [] }

def step (r : CacheRun τ) : CacheCall τ → CacheRun τ
  | .refreshWith nowMs source =>
    { cache := r.cache.refreshWith nowMs source
      journal := if (r.cache.beginRefresh nowMs).1 then .asked nowMs source :: r.journal
        else r.journal }
  | .clear => { cache := r.cache.clear, journal := .cleared :: r.journal }
  | .expire => { cache := r.cache.expire, journal := .expired :: r.journal }

def run (policy : RefreshPolicy) (calls : List (CacheCall τ)) : CacheRun τ :=
  calls.foldl step (init policy)

end CacheRun

/-- The clock does not go back over the calls and up to `nowMs`. -/
def CallsOrdered {τ : Type} (calls : List (CacheCall τ)) (nowMs : ℕ) : Prop :=
  (calls.filterMap CacheCall.time ++ [nowMs]).Pairwise (· ≤ ·)

/-- The cache holds what the journal says. -/
structure Recorded {τ : Type} (r : CacheRun τ) (policy : RefreshPolicy) (nowMs : ℕ) : Prop where
  samePolicy : r.cache.policy = policy
  sample : r.cache.sample = r.journal.sampled
  failing : r.cache.failingSinceMs = r.journal.failingSince
  next : r.cache.nextRefreshMs =
    (r.journal.lastAsked.map fun atMs => min (atMs + policy.refreshMs) clockEndMs).getD 0
  past : ∀ e ∈ r.journal, ∀ atMs ∈ e.askedAt, atMs ≤ nowMs

section Journal

variable {τ : Type} (j : CacheJournal τ) (nowMs : ℕ) (value : τ)

open CacheEntry CacheJournal

@[simp] theorem sampled_success : sampled (asked nowMs (some value) :: j) = some (value, nowMs) :=
  rfl

@[simp] theorem sampled_failure : sampled (asked nowMs none :: j) = sampled j := rfl

@[simp] theorem sampled_cleared : sampled (cleared :: j) = none := rfl

@[simp] theorem sampled_expired : sampled (expired :: j) = sampled j := rfl

@[simp] theorem lastAsked_asked (answer : Option τ) :
    lastAsked (asked nowMs answer :: j) = some nowMs := rfl

@[simp] theorem lastAsked_cleared : lastAsked (cleared :: j) = lastAsked j := rfl

@[simp] theorem lastAsked_expired : lastAsked (expired :: j) = none := rfl

@[simp] theorem failingSince_success : failingSince (asked nowMs (some value) :: j) = none := rfl

@[simp] theorem failingSince_failure :
    failingSince (asked nowMs none :: j) = some ((failingSince j).getD nowMs) := by
  rw [failingSince, List.takeWhile_cons_of_pos rfl, List.filterMap_cons_some (f := failed) rfl,
    List.getLast?_cons]
  rfl

@[simp] theorem failingSince_cleared : failingSince (cleared :: j) = none := rfl

@[simp] theorem failingSince_expired : failingSince (expired :: j) = failingSince j := by
  rw [failingSince, List.takeWhile_cons_of_pos rfl, List.filterMap_cons_none (f := failed) rfl]
  rfl

end Journal

section Steps

variable {τ : Type} {r : CacheRun τ} {policy : RefreshPolicy} {beforeMs nowMs : ℕ}

theorem Recorded.init (policy : RefreshPolicy) :
    Recorded (CacheRun.init (τ := τ) policy) policy 0 := by
  constructor
  · rfl
  · rfl
  · rfl
  · rfl
  · simp [CacheRun.init]

theorem Recorded.mono (h : Recorded r policy beforeMs) (hle : beforeMs ≤ nowMs) :
    Recorded r policy nowMs :=
  { h with past := fun e he atMs hat => (h.past e he atMs hat).trans hle }

theorem Recorded.clear (h : Recorded r policy nowMs) : Recorded (r.step .clear) policy nowMs where
  samePolicy := h.samePolicy
  sample := by simp [CacheRun.step, SampleCache.clear]
  failing := by simp [CacheRun.step, SampleCache.clear]
  next := by simpa [CacheRun.step, SampleCache.clear] using h.next
  past := by simpa [CacheRun.step, CacheEntry.askedAt] using h.past

theorem Recorded.expire (h : Recorded r policy nowMs) : Recorded (r.step .expire) policy nowMs where
  samePolicy := h.samePolicy
  sample := by simpa [CacheRun.step, SampleCache.expire] using h.sample
  failing := by simpa [CacheRun.step, SampleCache.expire] using h.failing
  next := by simp [CacheRun.step, SampleCache.expire]
  past := by simpa [CacheRun.step, CacheEntry.askedAt] using h.past

theorem beginRefresh_fst (c : SampleCache τ) : (c.beginRefresh nowMs).1 = c.isDue nowMs := by
  rw [SampleCache.beginRefresh]
  split
  · next hdue => exact hdue.symm
  · next hdue => exact (Bool.not_eq_true _ ▸ hdue : c.isDue nowMs = false).symm

theorem Recorded.refreshWith (h : Recorded r policy nowMs) (source : Option τ) :
    Recorded (r.step (.refreshWith nowMs source)) policy nowMs := by
  rw [CacheRun.step, beginRefresh_fst]
  cases hdue : r.cache.isDue nowMs with
  | false =>
    rw [SampleCache.refreshWith_of_not_due hdue]
    exact h
  | true =>
    have hpast : ∀ e ∈ .asked nowMs source :: r.journal, ∀ atMs ∈ e.askedAt, atMs ≤ nowMs := by
      refine List.forall_mem_cons.mpr ⟨fun atMs hat => ?_, h.past⟩
      obtain rfl := Option.some.inj hat
      exact Nat.le_refl _
    cases source with
    | some value =>
      rw [SampleCache.refreshWith_some hdue]
      exact ⟨h.samePolicy, by simp, by simp, by simp [h.samePolicy], hpast⟩
    | none =>
      rw [SampleCache.refreshWith_none hdue]
      exact ⟨h.samePolicy, by simp [h.sample], by simp [h.failing], by simp [h.samePolicy], hpast⟩

/-- The source is asked exactly then. -/
theorem Recorded.isDue_iff (h : Recorded r policy nowMs) :
    r.cache.isDue nowMs = true ↔ r.journal.lastAsked = none ∨
      (∃ atMs, r.journal.lastAsked = some atMs ∧ policy.refreshMs ≤ nowMs - atMs) ∨
      (policy.retryUntilSampled = true ∧ r.journal.sampled = none) ∨ clockEndMs ≤ nowMs := by
  rw [SampleCache.isDue, Bool.or_eq_true, Bool.and_eq_true, decide_eq_true_eq, h.samePolicy,
    h.sample,     Option.isNone_iff_eq_none, h.next]
  cases hlast : r.journal.lastAsked with
  | none => simp
  | some atMs =>
    have hle : atMs ≤ nowMs := by
      obtain ⟨e, he, hat⟩ := List.exists_of_findSome?_eq_some hlast
      exact h.past e (List.takeWhile_subset _ he) atMs hat
    have hnext : min (atMs + policy.refreshMs) clockEndMs ≤ nowMs ↔
        policy.refreshMs ≤ nowMs - atMs ∨ clockEndMs ≤ nowMs := by
      rw [min_le_iff]
      omega
    simp only [Option.map_some, Option.getD_some, hnext, reduceCtorEq, false_or, Option.some.injEq,
      exists_eq_left']
    tauto

end Steps

/-- After every run the cache holds what the journal says. -/
theorem recorded_run {τ : Type} (policy : RefreshPolicy) {calls : List (CacheCall τ)} {nowMs : ℕ}
    (h : CallsOrdered calls nowMs) : Recorded (CacheRun.run policy calls) policy nowMs := by
  induction calls using List.reverseRecOn generalizing nowMs with
  | nil => exact (Recorded.init policy).mono (Nat.zero_le _)
  | append_singleton calls call ih =>
    rw [CacheRun.run, List.foldl_concat]
    rw [CallsOrdered, List.filterMap_append, List.append_assoc, List.pairwise_append] at h
    obtain ⟨hcalls, hlast, hle⟩ := h
    have hnow : CallsOrdered calls nowMs := by
      refine List.pairwise_append.mpr ⟨hcalls, List.pairwise_singleton _ _, fun t ht u hu => ?_⟩
      exact hle t ht u (List.mem_append_right _ hu)
    cases call with
    | clear => exact (ih hnow).clear
    | expire => exact (ih hnow).expire
    | refreshWith atMs source =>
      have hat : CallsOrdered calls atMs := by
        refine List.pairwise_append.mpr ⟨hcalls, List.pairwise_singleton _ _, fun t ht u hu => ?_⟩
        exact hle t ht u (by simpa [CacheCall.time] using .inl (List.mem_singleton.mp hu))
      have hatNow : atMs ≤ nowMs := by simpa [CacheCall.time] using hlast
      exact ((ih hat).refreshWith source).mono hatNow

/-- Over every run: what is reported, when the source is asked, and since when it fails. -/
theorem cache_history {τ : Type} (policy : RefreshPolicy) (calls : List (CacheCall τ)) (nowMs : ℕ)
    (h : CallsOrdered calls nowMs) :
    let r := CacheRun.run policy calls
    (r.cache.get nowMs = r.journal.sampled.map fun s => { value := s.1, ageMs := nowMs - s.2 }) ∧
      (∀ value atMs, r.journal.sampled = some (value, atMs) → atMs ≤ nowMs) ∧
      ((r.cache.beginRefresh nowMs).1 = true ↔ r.journal.lastAsked = none ∨
        (∃ atMs, r.journal.lastAsked = some atMs ∧ policy.refreshMs ≤ nowMs - atMs) ∨
        (policy.retryUntilSampled = true ∧ r.cache.get nowMs = none) ∨ clockEndMs ≤ nowMs) ∧
      r.cache.failingSinceMs = r.journal.failingSince := by
  intro r
  have hr : Recorded r policy nowMs := recorded_run policy h
  have hget : r.cache.get nowMs =
      r.journal.sampled.map fun s => { value := s.1, ageMs := nowMs - s.2 } := by
    rw [SampleCache.get, hr.sample]
  refine ⟨hget, fun value atMs hsampled => ?_, ?_, hr.failing⟩
  · obtain ⟨e, he, hsuccess⟩ := List.exists_of_findSome?_eq_some hsampled
    refine hr.past e (List.takeWhile_subset _ he) atMs ?_
    cases e with
    | asked t answer =>
      cases answer with
      | some v =>
        cases hsuccess
        rfl
      | none => cases hsuccess
    | cleared => cases hsuccess
    | expired => cases hsuccess
  · rw [beginRefresh_fst, hr.isDue_iff, hget, Option.map_eq_none_iff]

/-- A failed first refresh, a success, and the cache asked again after an expire. -/
theorem cache_history_expired :
    CallsOrdered [.refreshWith 0 none, .refreshWith 30 (some 7), .expire] 40 ∧
      (CacheRun.run { refreshMs := 20, retryUntilSampled := false }
        [.refreshWith 0 none, .refreshWith 30 (some 7), .expire]).cache.get 40 =
        some { value := 7, ageMs := 10 } := by
  have h : CallsOrdered (τ := ℕ) [.refreshWith 0 none, .refreshWith 30 (some 7), .expire] 40 := by
    simp [CallsOrdered, CacheCall.time, List.filterMap_cons]
  exact ⟨h, (cache_history { refreshMs := 20, retryUntilSampled := false } _ 40 h).1.trans rfl⟩

/-- At the end of the clock the source is asked again at once. -/
theorem clock_end_asks :
    ¬∀ (policy : RefreshPolicy) (calls : List (CacheCall Unit)) (nowMs : ℕ),
      CallsOrdered calls nowMs → nowMs < 2 ^ 64 →
      ((CacheRun.run policy calls).cache.beginRefresh nowMs).1 = true →
      (CacheRun.run policy calls).journal.lastAsked = none ∨
        (∃ atMs, (CacheRun.run policy calls).journal.lastAsked = some atMs ∧
          policy.refreshMs ≤ nowMs - atMs) ∨
        (policy.retryUntilSampled = true ∧ (CacheRun.run policy calls).cache.get nowMs = none) := by
  intro h
  have hend := h { refreshMs := 10, retryUntilSampled := false }
    [.refreshWith (2 ^ 64 - 6) (some ())] (2 ^ 64 - 1)
    (by simp [CallsOrdered, CacheCall.time]) (by decide) (by decide)
  have hlast : (CacheRun.run { refreshMs := 10, retryUntilSampled := false }
      [CacheCall.refreshWith (2 ^ 64 - 6) (some ())]).journal.lastAsked = some (2 ^ 64 - 6) := rfl
  rw [hlast] at hend
  simp at hend

end CydMonitor.Metrics
