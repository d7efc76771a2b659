import CydMonitor.Device.HostState
import Mathlib.Data.Bool.AllAny
import Mathlib.Data.List.Basic
import Mathlib.Tactic.IntervalCases

/-!
# Freshness on the device (`firmware/domain/src/host_state.cpp`)

The wire carries no freshness for seven halves of the metric groups; the device derives it
from the time a sample was taken, which may lie before its clock's start.
-/

namespace CydMonitor.Device

open HostState

/-- A call of the reducer. -/
inductive HostCall where
  | applySnapshot (decoded : Cpp.Decoded) (nowMs resolvedSourceTimeMs : UInt64)
  | advance (nowMs : UInt64)
  | markIncompatible
  | correctTime
  | setUtcAnchor (utcMs monotonicMs : UInt64) (localOffsetMinutes : Option ℤ)

namespace HostCall

def run (s : HostState) : HostCall → HostState
  | applySnapshot decoded nowMs resolvedSourceTimeMs =>
    s.applySnapshot decoded nowMs resolvedSourceTimeMs
  | advance nowMs => s.advance nowMs
  | markIncompatible => s.markIncompatible
  | correctTime => s.correctTime
  | setUtcAnchor utcMs monotonicMs localOffsetMinutes =>
    s.setUtcAnchor utcMs monotonicMs localOffsetMinutes

/-- The clock at a call that reads it. -/
def nowMs? : HostCall → Option UInt64
  | applySnapshot _ nowMs _ => some nowMs
  | advance nowMs => some nowMs
  | _ => none

end HostCall

/-- The reducer's state after some calls. -/
def HostState.after (bootIdentity : UInt32) (calls : List HostCall) : HostState :=
  calls.foldl HostCall.run { bootIdentity }

theorem HostState.after_append (bootIdentity : UInt32) (calls : List HostCall) (c : HostCall) :
    HostState.after bootIdentity (calls ++ [c]) = c.run (HostState.after bootIdentity calls) :=
  List.foldl_concat ..

/-- The clock at the calls that read it. -/
def times (calls : List HostCall) : List UInt64 :=
  calls.filterMap HostCall.nowMs?

theorem mem_times_append {calls later : List HostCall} {t : UInt64} :
    t ∈ times (calls ++ later) ↔ t ∈ times calls ∨ t ∈ times later := by
  rw [times, List.filterMap_append, List.mem_append]
  rfl

/-- The clock does not go back between calls. -/
def InOrder (calls : List HostCall) : Prop :=
  (times calls).Pairwise (· ≤ ·)

instance (calls : List HostCall) : Decidable (InOrder calls) :=
  inferInstanceAs (Decidable (List.Pairwise _ _))

inductive Half where
  | storageCapacity | storageIo | batteryCharge | batteryCondition | agents
  | networkTraffic | networkContext
  deriving DecidableEq, Repr

namespace Half

def limitMs : Half → UInt64
  | storageCapacity => kStorageCapacityStaleMs
  | storageIo => kStorageIoStaleMs
  | batteryCharge => kBatteryChargeStaleMs
  | batteryCondition => kBatteryConditionStaleMs
  | agents => kAgentsStaleMs
  | networkTraffic => kNetworkTrafficStaleMs
  | networkContext => kNetworkContextStaleMs

/-- The age a snapshot reports, if it carries the half's group. -/
def ageMs (groups : Cpp.SnapshotGroups) : Half → Option UInt32
  | storageCapacity => groups.storage.map (·.capacityAgeMs)
  | storageIo => groups.storage.map (·.ioAgeMs)
  | batteryCharge => groups.battery.map (·.chargeAgeMs)
  | batteryCondition => groups.battery.map (·.conditionAgeMs)
  | agents => groups.agents.map (·.sourceAgeMs)
  | networkTraffic => groups.network.map (·.trafficAgeMs)
  | networkContext => groups.network.map (·.contextAgeMs)

def received (s : HostState) : Half → Bool
  | storageCapacity | storageIo => s.storage.hasData
  | batteryCharge | batteryCondition => s.battery.hasData
  | agents => s.agents.hasData
  | networkTraffic | networkContext => s.network.hasData

def sourceTimeMs (s : HostState) : Half → Int64
  | storageCapacity => s.storage.capacitySourceTimeMs
  | storageIo => s.storage.ioReceivedAtMs
  | batteryCharge => s.battery.chargeSourceTimeMs
  | batteryCondition => s.battery.conditionSourceTimeMs
  | agents => s.agents.sourceTimeMs
  | networkTraffic => s.network.trafficSourceTimeMs
  | networkContext => s.network.contextSourceTimeMs

def freshness (s : HostState) : Half → Cpp.Freshness
  | storageCapacity => s.storage.capacityFreshness
  | storageIo => s.storage.ioFreshness
  | batteryCharge => s.battery.chargeFreshness
  | batteryCondition => s.battery.conditionFreshness
  | agents => s.agents.freshness
  | networkTraffic => s.network.trafficFreshness
  | networkContext => s.network.contextFreshness

/-- When the sample of a call was taken, in ms of the device's clock. -/
def sampled (half : Half) : HostCall → Option ℤ
  | .applySnapshot decoded nowMs _ =>
    if decoded.hasCpu then (half.ageMs decoded.groups).map fun age => nowMs.toNat - age.toNat
    else none
  | _ => none

/-- When the sample of the last snapshot that carried the half was taken. -/
def sampledAt (half : Half) (calls : List HostCall) : Option ℤ :=
  (calls.filterMap half.sampled).getLast?

theorem sampledAt_append (half : Half) (calls : List HostCall) (c : HostCall) :
    half.sampledAt (calls ++ [c]) = (half.sampled c).or (half.sampledAt calls) := by
  rw [sampledAt, List.filterMap_append]
  cases h : half.sampled c with
  | none => simp [h, sampledAt]
  | some source => simp [h]

theorem received_applySnapshot (half : Half) (decoded : Cpp.Decoded) (hcpu : decoded.hasCpu = true)
    (nowMs resolvedSourceTimeMs : UInt64) (s : HostState) :
    half.received (s.applySnapshot decoded nowMs resolvedSourceTimeMs) =
        ((half.ageMs decoded.groups).isSome || half.received s) ∧
      half.sourceTimeMs (s.applySnapshot decoded nowMs resolvedSourceTimeMs) =
        ((half.ageMs decoded.groups).map (sourceTime nowMs)).getD (half.sourceTimeMs s) := by
  rw [applySnapshot, if_neg (by simp [hcpu])]
  cases half with
  | storageCapacity | storageIo => cases h : decoded.groups.storage <;> simp [ageMs, received,
      sourceTimeMs, h, storageMetric, deriveStorageFreshness]
  | batteryCharge | batteryCondition => cases h : decoded.groups.battery <;> simp [ageMs, received,
      sourceTimeMs, h, batteryMetric, deriveBatteryFreshness]
  | agents => cases h : decoded.groups.agents <;> simp [ageMs, received, sourceTimeMs, h,
      agentsMetric, deriveAgentsFreshness]
  | networkTraffic | networkContext => cases h : decoded.groups.network <;> simp [ageMs, received,
      sourceTimeMs, h, networkMetric, deriveNetworkFreshness]

/-- What advancing does to the groups of a Host that was seen. -/
theorem advance_groups (nowMs : UInt64) {s : HostState}
    (hcompatible : s.connection ≠ .kIncompatible) (hseen : s.hasSeenHost = true) :
    (s.advance nowMs).storage =
        (if s.storage.hasData then deriveStorageFreshness nowMs s.storage else s.storage) ∧
      (s.advance nowMs).battery =
        (if s.battery.hasData then deriveBatteryFreshness nowMs s.battery else s.battery) ∧
      (s.advance nowMs).agents =
        (if s.agents.hasData then deriveAgentsFreshness nowMs s.agents else s.agents) ∧
      (s.advance nowMs).network =
        (if s.network.hasData then deriveNetworkFreshness nowMs s.network else s.network) := by
  rw [advance, if_neg (by simp [hcompatible, hseen])]
  by_cases hdisconnected : nowMs - s.hostLastSeenMs ≥ 15000
  · simp only [if_pos hdisconnected, and_self]
  · by_cases hstale : nowMs - s.hostLastSeenMs ≥ 3000
    · simp only [if_neg hdisconnected, if_pos hstale, and_self]
    · simp only [if_neg hdisconnected, if_neg hstale, and_self]

/-- Advancing keeps what was received. -/
theorem received_advance (half : Half) (nowMs : UInt64) (s : HostState) :
    half.received (s.advance nowMs) = half.received s ∧
      half.sourceTimeMs (s.advance nowMs) = half.sourceTimeMs s := by
  by_cases hages : s.connection ≠ .kIncompatible ∧ s.hasSeenHost = true
  · obtain ⟨hstorage, hbattery, hagents, hnetwork⟩ := advance_groups nowMs hages.1 hages.2
    cases half <;> simp only [received, sourceTimeMs, hstorage, hbattery, hagents, hnetwork] <;>
      split <;> exact ⟨rfl, rfl⟩
  · rw [advance, if_pos]
    · exact ⟨rfl, rfl⟩
    · by_contra h
      exact hages (by simpa using h)

/-- What advancing derives for a received half. -/
theorem freshness_advance (half : Half) (nowMs : UInt64) {s : HostState}
    (hcompatible : s.connection ≠ .kIncompatible) (hseen : s.hasSeenHost = true)
    (hreceived : half.received s = true) :
    half.freshness (s.advance nowMs) = freshnessAt nowMs (half.sourceTimeMs s) half.limitMs := by
  obtain ⟨hstorage, hbattery, hagents, hnetwork⟩ := advance_groups nowMs hcompatible hseen
  cases half <;> rw [received] at hreceived <;>
    simp only [freshness, hstorage, hbattery, hagents, hnetwork, if_pos hreceived] <;> rfl

end Half

theorem toInt_toInt64 {nowMs : UInt64} (h : nowMs.toNat < 2 ^ 63) :
    nowMs.toInt64.toInt = nowMs.toNat := by
  have hsmall : 2 * nowMs.toBitVec.toNat < 2 ^ 64 := by
    rw [UInt64.toNat_toBitVec]
    omega
  exact BitVec.toInt_eq_toNat_of_lt hsmall

theorem sourceTime_toInt {nowMs : UInt64} (h : nowMs.toNat < 2 ^ 63) (ageMs : UInt32) :
    (sourceTime nowMs ageMs).toInt = nowMs.toNat - ageMs.toNat := by
  have hage : ageMs.toUInt64.toNat < 2 ^ 63 := by
    have := ageMs.toNat_lt
    simp only [UInt32.toNat_toUInt64]
    omega
  rw [sourceTime, Int64.toInt_sub, toInt_toInt64 h, toInt_toInt64 hage, UInt32.toNat_toUInt64]
  have := ageMs.toNat_lt
  exact Int.bmod_eq_of_le (by omega) (by omega)

/-- Exact as long as the subtraction does not overflow. -/
theorem freshnessAt_iff {nowMs staleAfterMs : UInt64} {sourceTimeMs : Int64}
    (hnow : nowMs.toNat < 2 ^ 63) (hlimit : staleAfterMs.toNat < 2 ^ 63)
    (hfits : nowMs.toNat - sourceTimeMs.toInt < 2 ^ 63) :
    freshnessAt nowMs sourceTimeMs staleAfterMs = .kStale ↔
      (staleAfterMs.toNat : ℤ) ≤ nowMs.toNat - sourceTimeMs.toInt := by
  have hdiff : (nowMs.toInt64 - sourceTimeMs).toInt = nowMs.toNat - sourceTimeMs.toInt := by
    rw [Int64.toInt_sub, toInt_toInt64 hnow]
    have := sourceTimeMs.toInt_lt
    exact Int.bmod_eq_of_le (by omega) (by omega)
  rw [freshnessAt]
  by_cases h : nowMs.toInt64 - sourceTimeMs ≥ staleAfterMs.toInt64
  · rw [if_pos h]
    have hle := Int64.le_iff_toInt_le.mp h
    rw [hdiff, toInt_toInt64 hlimit] at hle
    exact iff_of_true rfl hle
  · rw [if_neg h]
    refine iff_of_false (by decide) fun hle => h (Int64.le_iff_toInt_le.mpr ?_)
    rwa [hdiff, toInt_toInt64 hlimit]

theorem Half.limitMs_lt (half : Half) : half.limitMs.toNat < 2 ^ 63 := by
  cases half <;> decide

/-- What the calls so far make of a half. -/
structure Half.Tracked (half : Half) (calls : List HostCall) (s : HostState) : Prop where
  compatible : s.connection ≠ .kIncompatible
  received : half.received s = (half.sampledAt calls).isSome
  seen : half.received s = true → s.hasSeenHost = true
  source : ∀ source, half.sampledAt calls = some source → (half.sourceTimeMs s).toInt = source

theorem compatible_advance (nowMs : UInt64) {s : HostState}
    (h : s.connection ≠ .kIncompatible) : (s.advance nowMs).connection ≠ .kIncompatible := by
  rw [advance]
  split
  · exact h
  · dsimp only
    split
    · exact nofun
    · split
      · exact nofun
      · exact h

theorem seen_advance (nowMs : UInt64) (s : HostState) :
    (s.advance nowMs).hasSeenHost = s.hasSeenHost := by
  rw [advance]
  split
  · rfl
  · dsimp only
    split
    · rfl
    · split <;> rfl

theorem Half.Tracked.run {half : Half} {calls : List HostCall} {s : HostState}
    (h : half.Tracked calls s) {c : HostCall} (hmark : c ≠ .markIncompatible)
    (hclock : ∀ nowMs, c.nowMs? = some nowMs → nowMs.toNat < 2 ^ 63) :
    half.Tracked (calls ++ [c]) (c.run s) := by
  have hsampled := half.sampledAt_append calls c
  have hquiet : ∀ s', half.sampled c = none → s'.connection ≠ .kIncompatible →
      half.received s' = half.received s → half.sourceTimeMs s' = half.sourceTimeMs s →
      s'.hasSeenHost = s.hasSeenHost → half.Tracked (calls ++ [c]) s' := by
    intro s' hnone hcompatible hreceived hsource hseen
    rw [hnone, Option.none_or] at hsampled
    refine ⟨hcompatible, ?_, ?_, ?_⟩
    · rw [hreceived, hsampled]
      exact h.received
    · rw [hreceived, hseen]
      exact h.seen
    · rw [hsource, hsampled]
      exact h.source
  cases c with
  | applySnapshot decoded nowMs resolvedSourceTimeMs =>
    by_cases hcpu : decoded.hasCpu = true
    · obtain ⟨hreceived, hsource⟩ :=
        half.received_applySnapshot decoded hcpu nowMs resolvedSourceTimeMs s
      have hage : half.sampled (.applySnapshot decoded nowMs resolvedSourceTimeMs) =
          (half.ageMs decoded.groups).map fun age => (nowMs.toNat : ℤ) - age.toNat :=
        if_pos hcpu
      have happlied : (s.applySnapshot decoded nowMs resolvedSourceTimeMs).connection = .kLive ∧
          (s.applySnapshot decoded nowMs resolvedSourceTimeMs).hasSeenHost = true := by
        rw [applySnapshot, if_neg (by simp [hcpu])]
        exact ⟨rfl, rfl⟩
      rw [hage] at hsampled
      refine ⟨?_, ?_, fun _ => happlied.2, ?_⟩
      · show (s.applySnapshot _ _ _).connection ≠ _
        rw [happlied.1]
        exact nofun
      · show half.received (s.applySnapshot _ _ _) = _
        rw [hreceived, hsampled, h.received]
        cases half.ageMs decoded.groups <;> rfl
      · show ∀ source, _ → (half.sourceTimeMs (s.applySnapshot _ _ _)).toInt = source
        rw [hsource, hsampled]
        cases half.ageMs decoded.groups with
        | none => exact h.source
        | some age =>
          rintro source hsome
          rw [← Option.some.inj hsome]
          exact sourceTime_toInt (hclock nowMs rfl) age
    · have hskip : s.applySnapshot decoded nowMs resolvedSourceTimeMs = s := by
        rw [applySnapshot, if_pos (by simpa using hcpu)]
      refine hquiet _ (if_neg hcpu) ?_ ?_ ?_ ?_ <;>
        simp only [HostCall.run, hskip, ne_eq, h.compatible, not_false_eq_true]
  | advance nowMs =>
    obtain ⟨hreceived, hsource⟩ := half.received_advance nowMs s
    exact hquiet _ rfl (compatible_advance nowMs h.compatible) hreceived hsource
      (seen_advance nowMs s)
  | markIncompatible => exact absurd rfl hmark
  | correctTime =>
    exact hquiet _ rfl h.compatible (by cases half <;> rfl) (by cases half <;> rfl) rfl
  | setUtcAnchor utcMs monotonicMs localOffsetMinutes =>
    exact hquiet _ rfl h.compatible (by cases half <;> rfl) (by cases half <;> rfl) rfl

theorem Half.tracked_after (half : Half) (bootIdentity : UInt32) {calls : List HostCall}
    (hmark : ∀ c ∈ calls, c ≠ .markIncompatible)
    (hclock : ∀ nowMs ∈ times calls, nowMs.toNat < 2 ^ 63) :
    half.Tracked calls (HostState.after bootIdentity calls) := by
  induction calls using List.reverseRecOn with
  | nil => exact ⟨nofun, by cases half <;> rfl, by cases half <;> exact nofun, nofun⟩
  | append_singleton calls c ih =>
    rw [HostState.after_append]
    refine (ih (fun c' hc' => hmark c' (by simp [hc'])) fun nowMs hnow => ?_).run
      (hmark c (by simp)) fun nowMs hnow => ?_
    · exact hclock nowMs (mem_times_append.mpr (.inl hnow))
    · exact hclock nowMs (mem_times_append.mpr (.inr (by simp [times, hnow])))

/-- After an advance a received half is stale exactly when its sample is old enough. -/
theorem Half.Tracked.stale_iff {half : Half} {calls : List HostCall} {s : HostState}
    (h : half.Tracked calls s) {nowMs : UInt64} (hnow : nowMs.toNat < 2 ^ 63) {source : ℤ}
    (hsource : half.sampledAt calls = some source) (hfits : nowMs.toNat - source < 2 ^ 63) :
    half.freshness (s.advance nowMs) = .kStale ↔
      (half.limitMs.toNat : ℤ) ≤ nowMs.toNat - source := by
  have hreceived : half.received s = true := by rw [h.received, hsource]; rfl
  rw [half.freshness_advance nowMs h.compatible (h.seen hreceived) hreceived, ← h.source source
    hsource]
  exact freshnessAt_iff hnow half.limitMs_lt (by rwa [h.source source hsource])

theorem Half.sampledAt_le {half : Half} {calls later : List HostCall} {old source : ℤ}
    (hold : half.sampledAt calls = some old)
    (hlater : ∀ c ∈ later, ∀ new, half.sampled c = some new → new ≤ old)
    (hsource : half.sampledAt (calls ++ later) = some source) : source ≤ old := by
  induction later using List.reverseRecOn generalizing source with
  | nil =>
    rw [List.append_nil, hold] at hsource
    exact (Option.some.inj hsource).ge
  | append_singleton later c ih =>
    rw [← List.append_assoc, sampledAt_append] at hsource
    cases hc : half.sampled c with
    | some new =>
      rw [hc, Option.some_or] at hsource
      exact Option.some.inj hsource ▸ hlater c (by simp) new hc
    | none =>
      rw [hc, Option.none_or] at hsource
      exact ih (fun c' hc' => hlater c' (by simp [hc'])) hsource

/-- A half is stale exactly when its last sample is old enough, whatever was re-sent: once
stale it stays so until a snapshot carries a sample taken later. -/
theorem freshness_exact (half : Half) (bootIdentity : UInt32) (calls : List HostCall)
    (nowMs : UInt64) (hmark : ∀ c ∈ calls, c ≠ .markIncompatible)
    (horder : InOrder (calls ++ [.advance nowMs]))
    (hrange : ∀ t ∈ times (calls ++ [.advance nowMs]), t.toNat < 2 ^ 63) :
    let s := HostState.after bootIdentity (calls ++ [.advance nowMs])
    half.received s = (half.sampledAt calls).isSome ∧
      ∀ source, half.sampledAt calls = some source → nowMs.toNat - source < 2 ^ 63 →
        (half.freshness s = .kStale ↔ (half.limitMs.toNat : ℤ) ≤ nowMs.toNat - source) ∧
        ∀ earlier t later old, calls = earlier ++ .advance t :: later →
          half.sampledAt earlier = some old →
          half.freshness (HostState.after bootIdentity (earlier ++ [.advance t])) = .kStale →
          (∀ c ∈ later, ∀ new, half.sampled c = some new → new ≤ old) →
          half.freshness s = .kStale := by
  have hlast : nowMs ∈ times [.advance nowMs] := List.mem_singleton_self _
  have hnow : nowMs.toNat < 2 ^ 63 := hrange nowMs (mem_times_append.mpr (.inr hlast))
  have htimes : ∀ t ∈ times calls, t.toNat < 2 ^ 63 := fun t ht =>
    hrange t (mem_times_append.mpr (.inl ht))
  have htracked := half.tracked_after bootIdentity hmark htimes
  intro s
  have hs : s = (HostState.after bootIdentity calls).advance nowMs := HostState.after_append ..
  rw [hs]
  refine ⟨(half.received_advance nowMs _).1.trans htracked.received, fun source hsource hfits => ?_⟩
  have hiff := htracked.stale_iff hnow hsource hfits
  refine ⟨hiff, fun earlier t later old hcalls hold hstale hlater => hiff.mpr ?_⟩
  subst hcalls
  have hle : source ≤ old := by
    have hold' : half.sampledAt (earlier ++ [.advance t]) = some old := by
      rw [Half.sampledAt_append]
      exact hold
    refine Half.sampledAt_le hold' hlater ?_
    rwa [List.append_assoc, List.singleton_append]
  have ht : t ≤ nowMs := by
    rw [InOrder, times, List.filterMap_append, List.pairwise_append] at horder
    exact horder.2.2 t (by simp [HostCall.nowMs?]) nowMs hlast
  have ht' := UInt64.le_iff_toNat_le.mp ht
  have hearlier : half.Tracked earlier (HostState.after bootIdentity earlier) :=
    half.tracked_after bootIdentity (fun c hc => hmark c (List.mem_append_left _ hc)) fun t' ht' =>
      htimes t' (mem_times_append.mpr (.inl ht'))
  rw [HostState.after_append] at hstale
  have hold_le := (hearlier.stale_iff (by omega) hold (by omega)).mp hstale
  omega

/-- A snapshot whose agents sample is as old as can be, then an advance. -/
def oldAgents (nowMs : UInt64) : List HostCall :=
  [.applySnapshot
    { hasCpu := true, groups := { agents := some { sourceAgeMs := 4294967295 } } } 0 0,
    .advance nowMs]

theorem freshness_exact_aged :
    Half.agents.freshness (HostState.after 0 (oldAgents 1000)) = .kStale :=
  (((freshness_exact .agents 0 (oldAgents 1000).dropLast 1000 (by simp [oldAgents])
    (by decide) (List.all_iff_forall_prop.mp (by decide))).2 (-4294967295) (by decide)
      (by decide)).1).mpr (by decide)

/-- At the end of the clock's range the subtraction overflows and an old sample looks fresh. -/
theorem freshness_exact_overflow :
    InOrder (oldAgents 9223372036854775807) ∧
      Half.agents.sampledAt (oldAgents 9223372036854775807) = some (-4294967295) ∧
      (Half.agents.limitMs.toNat : ℤ) ≤ 9223372036854775807 - (-4294967295) ∧
      Half.agents.freshness (HostState.after 0 (oldAgents 9223372036854775807)) ≠ .kStale := by
  decide +kernel

end CydMonitor.Device
