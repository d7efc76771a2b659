import CydMonitor.Metrics.Agents
import CydMonitor.Metrics.Cache

/-!
# The presence of agents (`host/platform-macos/src/agents.rs`)

A run of collects and wakes, with the scans that were really made, the newest one first. What a
collect reports is read off these scans.
-/

namespace CydMonitor.Metrics

def refreshMs : ℕ := 5000
def retainMs : ℕ := 15000

structure AgentsReading where
  states : States
  ageMs : UInt32

structure AgentsCollector where
  uid : UInt32
  home : List Char
  presence : SampleCache States

namespace AgentsCollector

def init (uid : UInt32) (home : List Char) : AgentsCollector :=
  { uid, home, presence := .init { refreshMs, retryUntilSampled := false } }

/-- What is reported of the cached presence. -/
def report (c : AgentsCollector) (nowMs : ℕ) : MetricSample AgentsReading :=
  let failingSince := c.presence.failingSinceMs
  match c.presence.get nowMs with
  | some cached =>
    if retainMs ≤ cached.ageMs ∧ failingSince.isSome then .unavailable .error
    else .ofValue { states := cached.value, ageMs := cached.wireAgeMs }
  | none =>
    match failingSince with
    | some since =>
      if retainMs ≤ nowMs - since then .unavailable .error
      else .unavailable .temporarilyUnavailable
    | none => .unavailable .temporarilyUnavailable

/-- One collect; `source` and `hooks` are what a scan finds if one is made. -/
def collect (c : AgentsCollector) (nowMs : ℕ) (source : Option (List ProcessRecord))
    (hooks : List HookRecord) : MetricSample AgentsReading × AgentsCollector :=
  let answer := source.map fun records => classifyActivity records c.uid c.home hooks
  let c := { c with presence := c.presence.refreshWith nowMs answer }
  (c.report nowMs, c)

def onWake (c : AgentsCollector) : AgentsCollector := { c with presence := c.presence.expire }

end AgentsCollector

/-- A scan that was made; no listing: it failed. -/
structure Scan where
  atMs : ℕ
  listing : Option (List ProcessRecord)
  hooks : List HookRecord

inductive PresenceEvent where
  | collect (nowMs : ℕ) (source : Option (List ProcessRecord)) (hooks : List HookRecord)
  | wake

/-- A collector with its scans, the newest one first. -/
structure Watch where
  collector : AgentsCollector
  scans : List Scan

namespace Watch

def init (uid : UInt32) (home : List Char) : Watch :=
  { collector := .init uid home, scans := [] }

/-- A collect, with the scan where one is due. -/
def collect (w : Watch) (nowMs : ℕ) (source : Option (List ProcessRecord))
    (hooks : List HookRecord) : Watch :=
  { collector := (w.collector.collect nowMs source hooks).2
    scans :=
      if w.collector.presence.isDue nowMs then
        { atMs := nowMs, listing := source, hooks } :: w.scans
      else w.scans }

def step (w : Watch) : PresenceEvent → Watch
  | .collect nowMs source hooks => w.collect nowMs source hooks
  | .wake => { w with collector := w.collector.onWake }

def run (uid : UInt32) (home : List Char) (events : List PresenceEvent) : Watch :=
  events.foldl step (init uid home)

end Watch

def PresenceEvent.time : PresenceEvent → Option ℕ
  | .collect nowMs _ _ => some nowMs
  | .wake => none

/-- The times of the collects do not decrease. -/
def Ordered (events : List PresenceEvent) : Prop :=
  (events.filterMap PresenceEvent.time).Pairwise (· ≤ ·)

/-- The last scan that succeeded, its listing, and the scans that failed since. -/
def LastSuccess (scans : List Scan) (s : Scan) (records : List ProcessRecord)
    (failed : List Scan) : Prop :=
  ∃ earlier, scans = failed ++ s :: earlier ∧ s.listing = some records ∧
    ∀ f ∈ failed, f.listing = none

/-- No scan succeeded so far, and the first one was then. -/
def NeverListed (scans : List Scan) (firstMs : ℕ) : Prop :=
  (∀ f ∈ scans, f.listing = none) ∧ ∃ first ∈ scans.getLast?, first.atMs = firstMs

/-- The cache holds what the scans say. -/
structure Holds (w : Watch) (uid : UInt32) (home : List Char) (nowMs : ℕ) : Prop where
  sameUid : w.collector.uid = uid
  sameHome : w.collector.home = home
  policy : w.collector.presence.policy = { refreshMs, retryUntilSampled := false }
  past : ∀ s ∈ w.scans, s.atMs ≤ nowMs
  sampled : ∀ states sampledMs, w.collector.presence.sample = some (states, sampledMs) →
    ∃ s records failed, LastSuccess w.scans s records failed ∧
      states = classifyActivity records uid home s.hooks ∧ s.atMs = sampledMs ∧
      (w.collector.presence.failingSinceMs.isSome ↔ failed ≠ []) ∧
      (failed = [] → w.collector.presence.nextRefreshMs ≤ sampledMs + refreshMs)
  unsampled : w.collector.presence.sample = none →
    match w.collector.presence.failingSinceMs with
    | some since => NeverListed w.scans since
    | none => w.scans = [] ∧ w.collector.presence.nextRefreshMs = 0

theorem LastSuccess.head {scans earlier : List Scan} {s first : Scan}
    {records : List ProcessRecord} {failed : List Scan} (h : LastSuccess scans s records failed)
    (hscans : scans = first :: earlier) (hnone : failed = []) : s = first := by
  obtain ⟨_, rfl, -⟩ := h
  subst hnone
  exact (List.cons.inj hscans).1

theorem LastSuccess.unique {scans : List Scan} {s s' : Scan} {records records' : List ProcessRecord}
    {failed failed' : List Scan} (h : LastSuccess scans s records failed)
    (h' : LastSuccess scans s' records' failed') :
    s = s' ∧ records = records' ∧ failed = failed' := by
  obtain ⟨earlier, rfl, hs, hfailed⟩ := h
  obtain ⟨earlier', heq, hs', hfailed'⟩ := h'
  induction failed generalizing failed' with
  | nil =>
    cases failed' with
    | nil =>
      obtain ⟨rfl, rfl⟩ := List.cons.inj heq
      exact ⟨rfl, Option.some.inj (hs.symm.trans hs'), rfl⟩
    | cons f failed' =>
      obtain ⟨rfl, -⟩ := List.cons.inj heq
      simp [hfailed' s] at hs
  | cons f failed ih =>
    cases failed' with
    | nil =>
      obtain ⟨rfl, -⟩ := List.cons.inj heq
      simp [hfailed f] at hs'
    | cons f' failed' =>
      obtain ⟨rfl, htail⟩ := List.cons.inj heq
      obtain ⟨rfl, rfl, rfl⟩ := ih (fun g hg => hfailed g (by simp [hg])) htail
        fun g hg => hfailed' g (by simp [hg])
      exact ⟨rfl, rfl, rfl⟩

theorem LastSuccess.mem {scans : List Scan} {s : Scan} {records : List ProcessRecord}
    {failed : List Scan} (h : LastSuccess scans s records failed) :
    s ∈ scans ∧ s.listing = some records := by
  obtain ⟨earlier, rfl, hs, -⟩ := h
  exact ⟨by simp, hs⟩

theorem LastSuccess.fail {scans : List Scan} {s : Scan} {records : List ProcessRecord}
    {failed : List Scan} (h : LastSuccess scans s records failed) {f : Scan}
    (hf : f.listing = none) : LastSuccess (f :: scans) s records (f :: failed) := by
  obtain ⟨earlier, rfl, hs, hfailed⟩ := h
  exact ⟨earlier, rfl, hs, List.forall_mem_cons.mpr ⟨hf, hfailed⟩⟩

theorem NeverListed.fail {scans : List Scan} {firstMs : ℕ} (h : NeverListed scans firstMs)
    {f : Scan} (hf : f.listing = none) : NeverListed (f :: scans) firstMs := by
  obtain ⟨hfailed, first, hfirst, hat⟩ := h
  refine ⟨List.forall_mem_cons.mpr ⟨hf, hfailed⟩, first, ?_, hat⟩
  rw [Option.mem_def] at hfirst ⊢
  rw [List.getLast?_cons, hfirst]
  rfl

theorem NeverListed.not_lastSuccess {scans : List Scan} {firstMs : ℕ}
    (h : NeverListed scans firstMs) {s : Scan} {records : List ProcessRecord}
    {failed : List Scan} : ¬ LastSuccess scans s records failed := by
  intro hlast
  obtain ⟨hmem, hlisting⟩ := hlast.mem
  simp [h.1 s hmem] at hlisting

section Steps

variable {w : Watch} {uid : UInt32} {home : List Char} {beforeMs nowMs : ℕ}

theorem Holds.init (uid : UInt32) (home : List Char) : Holds (.init uid home) uid home 0 :=
  { sameUid := rfl
    sameHome := rfl
    policy := rfl
    past := by simp [Watch.init]
    sampled := by simp [Watch.init, AgentsCollector.init, SampleCache.init]
    unsampled := fun _ => ⟨rfl, rfl⟩ }

theorem Holds.mono (h : Holds w uid home beforeMs) (hle : beforeMs ≤ nowMs) :
    Holds w uid home nowMs :=
  { h with past := fun s hs => Nat.le_trans (h.past s hs) hle }

theorem Holds.wake (h : Holds w uid home nowMs) : Holds (w.step .wake) uid home nowMs :=
  { sameUid := h.sameUid
    sameHome := h.sameHome
    policy := h.policy
    past := h.past
    sampled := fun states sampledMs hs => by
      obtain ⟨s, records, failed, hlast, hstates, hat, hfailing, -⟩ := h.sampled states sampledMs hs
      exact ⟨s, records, failed, hlast, hstates, hat, hfailing, fun _ => Nat.zero_le _⟩
    unsampled := fun hs => by
      have hold := h.unsampled hs
      show match w.collector.presence.failingSinceMs with
        | some since => NeverListed w.scans since
        | none => w.scans = [] ∧ 0 = 0
      cases hfailing : w.collector.presence.failingSinceMs with
      | none =>
        rw [hfailing] at hold
        exact ⟨hold.1, rfl⟩
      | some since =>
        rw [hfailing] at hold
        exact hold }

theorem collect_of_not_due (hdue : w.collector.presence.isDue nowMs = false)
    (source : Option (List ProcessRecord)) (hooks : List HookRecord) :
    w.collect nowMs source hooks = w := by
  simp [Watch.collect, AgentsCollector.collect, hdue, SampleCache.refreshWith_of_not_due]

theorem Holds.listed (h : Holds w uid home beforeMs) (hle : beforeMs ≤ nowMs)
    (hdue : w.collector.presence.isDue nowMs = true) (records : List ProcessRecord)
    (hooks : List HookRecord) : Holds (w.collect nowMs (some records) hooks) uid home nowMs := by
  have hpresence : (w.collect nowMs (some records) hooks).collector.presence =
      { policy := w.collector.presence.policy,
        sample := some (classifyActivity records uid home hooks, nowMs),
        nextRefreshMs := min (nowMs + refreshMs) clockEndMs, failingSinceMs := none } := by
    rw [← h.sameUid, ← h.sameHome]
    exact (SampleCache.refreshWith_some hdue _).trans (by rw [h.policy])
  have hscans : (w.collect nowMs (some records) hooks).scans =
      { atMs := nowMs, listing := some records, hooks } :: w.scans := if_pos hdue
  refine ⟨h.sameUid, h.sameHome, by rw [hpresence, h.policy], ?_, ?_, by simp [hpresence]⟩
  · rw [hscans]
    exact List.forall_mem_cons.mpr ⟨Nat.le_refl _, fun s hs => (h.past s hs).trans hle⟩
  · rintro states sampledMs hs
    rw [hpresence] at hs ⊢
    obtain ⟨rfl, rfl⟩ := Prod.mk.inj (Option.some.inj hs)
    rw [hscans]
    exact ⟨_, records, [], ⟨w.scans, rfl, rfl, by simp⟩, rfl, rfl, by simp,
      fun _ => Nat.min_le_left _ _⟩

theorem Holds.failed (h : Holds w uid home beforeMs) (hle : beforeMs ≤ nowMs)
    (hdue : w.collector.presence.isDue nowMs = true) (hooks : List HookRecord) :
    Holds (w.collect nowMs none hooks) uid home nowMs := by
  have hpresence : (w.collect nowMs none hooks).collector.presence =
      { policy := w.collector.presence.policy, sample := w.collector.presence.sample,
        nextRefreshMs := min (nowMs + refreshMs) clockEndMs,
        failingSinceMs := some (w.collector.presence.failingSinceMs.getD nowMs) } :=
    (SampleCache.refreshWith_none hdue).trans (by rw [h.policy])
  have hscans : (w.collect nowMs none hooks).scans =
      { atMs := nowMs, listing := none, hooks } :: w.scans := if_pos hdue
  refine ⟨h.sameUid, h.sameHome, by rw [hpresence, h.policy], ?_, ?_, ?_⟩
  · rw [hscans]
    exact List.forall_mem_cons.mpr ⟨Nat.le_refl _, fun s hs => (h.past s hs).trans hle⟩
  · rintro states sampledMs hs
    rw [hpresence] at hs ⊢
    obtain ⟨s, records, failed, hlast, hstates, hat, -, -⟩ := h.sampled states sampledMs hs
    rw [hscans]
    exact ⟨s, records, _, hlast.fail rfl, hstates, hat, by simp, by simp⟩
  · intro hs
    rw [hpresence] at hs ⊢
    have hold := h.unsampled hs
    rw [hscans]
    cases hfailing : w.collector.presence.failingSinceMs with
    | none =>
      rw [hfailing] at hold
      rw [hold.1]
      exact ⟨by simp, _, rfl, rfl⟩
    | some since =>
      rw [hfailing] at hold
      exact hold.fail rfl

/-- A collect keeps the cache in step with the scans. -/
theorem Holds.collect (h : Holds w uid home beforeMs) (hle : beforeMs ≤ nowMs)
    (source : Option (List ProcessRecord)) (hooks : List HookRecord) :
    Holds (w.collect nowMs source hooks) uid home nowMs := by
  cases hdue : w.collector.presence.isDue nowMs with
  | false =>
    rw [collect_of_not_due hdue]
    exact h.mono hle
  | true =>
    cases source with
    | some records => exact h.listed hle hdue records hooks
    | none => exact h.failed hle hdue hooks

/-- After a collect the next refresh is to come, or the last scan is this moment's. -/
theorem refreshed_collect (source : Option (List ProcessRecord)) (hooks : List HookRecord) :
    nowMs < (w.collect nowMs source hooks).collector.presence.nextRefreshMs ∨
      ∃ s earlier, (w.collect nowMs source hooks).scans = s :: earlier ∧ s.atMs = nowMs := by
  cases hdue : w.collector.presence.isDue nowMs with
  | false =>
    rw [collect_of_not_due hdue]
    rw [SampleCache.isDue, Bool.or_eq_false_iff, decide_eq_false_iff_not] at hdue
    exact .inl (Nat.lt_of_not_le hdue.1)
  | true => exact .inr ⟨_, w.scans, if_pos hdue, rfl⟩

end Steps

private theorem ordered_concat {events : List PresenceEvent} {event : PresenceEvent}
    (h : Ordered (events ++ [event])) :
    Ordered events ∧ ∀ t ∈ events.filterMap PresenceEvent.time, ∀ u ∈ event.time, t ≤ u := by
  rw [Ordered, List.filterMap_append, List.pairwise_append] at h
  refine ⟨h.1, fun t ht u hu => h.2.2 t ht u ?_⟩
  rw [Option.mem_def] at hu
  simp [hu]

/-- After every run whose clock does not go back, the cache holds what the scans say. -/
theorem holds_run (uid : UInt32) (home : List Char) {events : List PresenceEvent}
    (h : Ordered events) {nowMs : ℕ} (hnow : ∀ t ∈ events.filterMap PresenceEvent.time, t ≤ nowMs) :
    Holds (Watch.run uid home events) uid home nowMs := by
  induction events using List.reverseRecOn generalizing nowMs with
  | nil => exact (Holds.init uid home).mono (Nat.zero_le _)
  | append_singleton events event ih =>
    obtain ⟨hevents, hlast⟩ := ordered_concat h
    rw [Watch.run, List.foldl_concat]
    cases event with
    | wake => exact (ih hevents fun t ht => hnow t (by simp [ht])).wake
    | collect atMs source hooks =>
      have hbefore := ih hevents fun t ht => hlast t ht atMs rfl
      exact (hbefore.collect (Nat.le_refl _) source hooks).mono
        (hnow atMs (by simp [PresenceEvent.time]))

/-- What a collect may report, given the scans. -/
structure Truthful (scans : List Scan) (uid : UInt32) (home : List Char) (nowMs : ℕ)
    (r : MetricSample AgentsReading) : Prop where
  value : r.value.isSome ↔ r.availability = .available
  available : r.availability = .available ↔
    ∃ s records failed, LastSuccess scans s records failed ∧
      (nowMs - s.atMs < retainMs ∨ failed = [])
  states : ∀ reading, r.value = some reading →
    ∃ s records failed, LastSuccess scans s records failed ∧
      reading.states = classifyActivity records uid home s.hooks ∧
      s.atMs ≤ nowMs ∧ reading.ageMs.toNat = nowMs - s.atMs ∧ nowMs - s.atMs < retainMs
  temporarilyUnavailable : r.availability = .temporarilyUnavailable ↔
    ∃ firstMs, NeverListed scans firstMs ∧ nowMs - firstMs < retainMs
  otherwise : r.availability ≠ .available → r.availability ≠ .temporarilyUnavailable →
    r.availability = .error
  notRunning : ∀ reading agent, r.value = some reading → reading.states agent = .notRunning →
    ∃ s records failed, LastSuccess scans s records failed ∧
      ∀ p ∈ records, p.runs uid home agent = false

theorem NeverListed.unique {scans : List Scan} {firstMs firstMs' : ℕ}
    (h : NeverListed scans firstMs) (h' : NeverListed scans firstMs') : firstMs = firstMs' := by
  obtain ⟨-, first, hfirst, hat⟩ := h
  obtain ⟨-, first', hfirst', hat'⟩ := h'
  obtain rfl := Option.some.inj (hfirst.symm.trans hfirst')
  exact hat.symm.trans hat'

section Reports

variable {w : Watch} {uid : UInt32} {home : List Char} {nowMs : ℕ}

private theorem truthful_error {r : MetricSample AgentsReading} (hr : r = .unavailable .error)
    (hnever : ∀ firstMs, NeverListed w.scans firstMs → ¬ nowMs - firstMs < retainMs)
    (hlast : ∀ s records failed, LastSuccess w.scans s records failed →
      ¬ (nowMs - s.atMs < retainMs ∨ failed = [])) :
    Truthful w.scans uid home nowMs r := by
  subst hr
  refine ⟨by simp [MetricSample.unavailable], ⟨nofun, ?_⟩, nofun, ⟨nofun, ?_⟩, fun _ _ => rfl,
    nofun⟩
  · rintro ⟨s, records, failed, hs, hyoung⟩
    exact absurd hyoung (hlast s records failed hs)
  · rintro ⟨firstMs, hfirst, hyoung⟩
    exact absurd hyoung (hnever firstMs hfirst)

private theorem truthful_temporary {r : MetricSample AgentsReading}
    (hr : r = .unavailable .temporarilyUnavailable) {firstMs : ℕ}
    (hnever : NeverListed w.scans firstMs) (hyoung : nowMs - firstMs < retainMs) :
    Truthful w.scans uid home nowMs r := by
  subst hr
  refine ⟨by simp [MetricSample.unavailable], ⟨nofun, ?_⟩, nofun,
    ⟨fun _ => ⟨firstMs, hnever, hyoung⟩, fun _ => rfl⟩, fun _ h => absurd rfl h, nofun⟩
  rintro ⟨s, records, failed, hs, -⟩
  exact absurd hs hnever.not_lastSuccess

private theorem truthful_available {r : MetricSample AgentsReading} {s : Scan}
    {records : List ProcessRecord} {failed : List Scan}
    (hlast : LastSuccess w.scans s records failed) (hpast : s.atMs ≤ nowMs)
    (hyoung : nowMs - s.atMs < retainMs)
    (hr : r = .ofValue
      { states := classifyActivity records uid home s.hooks
        ageMs := UInt32.ofNat (min (nowMs - s.atMs) (2 ^ 32 - 1)) }) :
    Truthful w.scans uid home nowMs r := by
  subst hr
  have hage : (UInt32.ofNat (min (nowMs - s.atMs) (2 ^ 32 - 1))).toNat = nowMs - s.atMs := by
    rw [retainMs] at hyoung
    rw [Nat.min_eq_left (by omega)]
    exact UInt32.toNat_ofNat_of_lt' (Nat.lt_trans hyoung (by decide))
  refine ⟨by simp [MetricSample.ofValue], ⟨fun _ => ⟨s, records, failed, hlast, .inl hyoung⟩,
    fun _ => rfl⟩, ?_, ⟨nofun, ?_⟩, fun h => absurd rfl h, ?_⟩
  · rintro reading hreading
    obtain rfl := Option.some.inj hreading
    exact ⟨s, records, failed, hlast, rfl, hpast, hage, hyoung⟩
  · rintro ⟨firstMs, hfirst, -⟩
    exact absurd hlast hfirst.not_lastSuccess
  · rintro reading agent hreading hagent
    obtain rfl := Option.some.inj hreading
    exact ⟨s, records, failed, hlast, classifyActivity_eq_notRunning.mp hagent⟩

/-- What the cache reports is true of the scans. -/
theorem Holds.truthful (h : Holds w uid home nowMs)
    (hnext : nowMs < w.collector.presence.nextRefreshMs ∨
      ∃ s earlier, w.scans = s :: earlier ∧ s.atMs = nowMs) :
    Truthful w.scans uid home nowMs (w.collector.report nowMs) := by
  cases hsample : w.collector.presence.sample with
  | none =>
    have hnever := h.unsampled hsample
    cases hfailing : w.collector.presence.failingSinceMs with
    | none =>
      rw [hfailing] at hnever
      exact absurd hnext (by simp [hnever.1, hnever.2])
    | some since =>
      rw [hfailing] at hnever
      by_cases hold : retainMs ≤ nowMs - since
      · refine truthful_error ?_ (fun firstMs hfirst => ?_) fun s records failed hs => ?_
        · simp [AgentsCollector.report, SampleCache.get, hsample, hfailing, hold]
        · rw [hfirst.unique hnever]
          exact Nat.not_lt.mpr hold
        · exact absurd hs hnever.not_lastSuccess
      · refine truthful_temporary ?_ hnever (Nat.lt_of_not_le hold)
        simp [AgentsCollector.report, SampleCache.get, hsample, hfailing, hold]
  | some sample =>
    obtain ⟨states, sampledMs⟩ := sample
    obtain ⟨s, records, failed, hlast, rfl, rfl, hfailing, hfresh⟩ :=
      h.sampled states sampledMs hsample
    by_cases hold : retainMs ≤ nowMs - s.atMs ∧ w.collector.presence.failingSinceMs.isSome
    · refine truthful_error ?_ (fun firstMs hfirst => ?_) fun s' records' failed' hs' => ?_
      · simp [AgentsCollector.report, SampleCache.get, hsample, hold]
      · exact absurd hlast hfirst.not_lastSuccess
      · obtain ⟨rfl, rfl, rfl⟩ := hlast.unique hs'
        rintro (hyoung | hnone)
        · exact absurd hyoung (Nat.not_lt.mpr hold.1)
        · exact hfailing.mp hold.2 hnone
    · have hyoung : nowMs - s.atMs < retainMs := by
        by_cases hnone : failed = []
        · have hnextle := hfresh hnone
          rw [refreshMs] at hnextle
          rw [retainMs]
          cases hnext with
          | inl hlater => omega
          | inr hthen =>
            obtain ⟨first, earlier, hscans, rfl⟩ := hthen
            rw [hlast.head hscans hnone]
            omega
        · exact Nat.lt_of_not_le fun hle => hold ⟨hle, hfailing.mpr hnone⟩
      refine truthful_available hlast (h.past s hlast.mem.1) hyoung ?_
      simp only [AgentsCollector.report, SampleCache.get, hsample, Option.map_some, if_neg hold]
      rfl

end Reports

/-- Every collect of a run whose clock does not go back reports what its scans say. -/
theorem presence_truthful (uid : UInt32) (home : List Char) (events : List PresenceEvent)
    (nowMs : ℕ) (source : Option (List ProcessRecord)) (hooks : List HookRecord)
    (hordered : Ordered (events ++ [.collect nowMs source hooks])) :
    Truthful (Watch.run uid home (events ++ [.collect nowMs source hooks])).scans uid home nowMs
      ((Watch.run uid home events).collector.collect nowMs source hooks).1 := by
  obtain ⟨hevents, hlast⟩ := ordered_concat hordered
  have hbefore := holds_run uid home hevents fun t ht => hlast t ht nowMs rfl
  have hrun : Watch.run uid home (events ++ [.collect nowMs source hooks]) =
      (Watch.run uid home events).collect nowMs source hooks := List.foldl_concat ..
  rw [hrun]
  exact (hbefore.collect (Nat.le_refl _) source hooks).truthful
    (refreshed_collect source hooks)

/-- A listing, a failed one, and a collect before the next scan. -/
theorem presence_truthful_listed :
    ((Watch.run 501 [] [.collect 0 (some []) [], .wake, .collect 4000 none []]).collector.collect
      8000 none []).1.availability = .available ∧
      Truthful (Watch.run 501 [] [.collect 0 (some []) [], .wake, .collect 4000 none [],
        .collect 8000 none []]).scans 501 [] 8000
        ((Watch.run 501 [] [.collect 0 (some []) [], .wake,
          .collect 4000 none []]).collector.collect
          8000 none []).1 :=
  ⟨by decide, presence_truthful 501 [] [.collect 0 (some []) [], .wake, .collect 4000 none []] 8000
    none [] (by simp [Ordered, List.filterMap_cons, PresenceEvent.time])⟩

end CydMonitor.Metrics
