import CydMonitor.Device.Ageing

/-!
# Ageing and the timing of ticks

`Advance` may run once a second or be late by minutes. What it leaves does not depend on
which of its age bands were visited, but for the freshness of the CPU metric.
-/

namespace CydMonitor.Device

open HostState

/-- The time of a snapshot that was applied. -/
def HostCall.applied? : HostCall → Option UInt64
  | .applySnapshot decoded nowMs _ => if decoded.hasCpu then some nowMs else none
  | _ => none

def lastApplied (calls : List HostCall) : Option UInt64 :=
  (calls.filterMap HostCall.applied?).getLast?

theorem lastApplied_append (calls : List HostCall) (c : HostCall) :
    lastApplied (calls ++ [c]) = c.applied?.or (lastApplied calls) := by
  rw [lastApplied, List.filterMap_append]
  cases h : c.applied? with
  | none => simp [h, lastApplied]
  | some t => simp [h]

/-- What the calls so far say of the last snapshot and of the retained RAM metric. -/
structure Retained (calls : List HostCall) (s : HostState) : Prop where
  seen : s.hasSeenHost = (lastApplied calls).isSome
  last : ∀ t, lastApplied calls = some t → s.hostLastSeenMs = t
  ram : s.ram.hasData = true → s.hasSeenHost = true ∧ s.ram.receivedAtMs ≤ s.hostLastSeenMs

/-- The age bands, and what each does. -/
theorem advance_eq (nowMs : UInt64) {s : HostState} (hcompatible : s.connection ≠ .kIncompatible)
    (hseen : s.hasSeenHost = true) :
    s.advance nowMs = { s with
      connection := if nowMs - s.hostLastSeenMs ≥ 15000 then .kDisconnected
        else if nowMs - s.hostLastSeenMs ≥ 3000 then .kStale else s.connection
      cpu := { s.cpu with
        freshness := if nowMs - s.hostLastSeenMs ≥ 3000 ∧ ¬ nowMs - s.hostLastSeenMs ≥ 15000
          then .kStale else s.cpu.freshness }
      ram := if s.ram.hasData ∧ nowMs - s.ram.receivedAtMs ≥ 3000 then
        { s.ram with freshness := .kStale } else s.ram
      storage := if s.storage.hasData then deriveStorageFreshness nowMs s.storage else s.storage
      battery := if s.battery.hasData then deriveBatteryFreshness nowMs s.battery else s.battery
      agents := if s.agents.hasData then deriveAgentsFreshness nowMs s.agents else s.agents
      network := if s.network.hasData then deriveNetworkFreshness nowMs s.network
        else s.network } := by
  rw [advance, if_neg (by simp [hcompatible, hseen])]
  by_cases hdisconnected : nowMs - s.hostLastSeenMs ≥ 15000
  · simp [hdisconnected]
  · by_cases hstale : nowMs - s.hostLastSeenMs ≥ 3000 <;> simp [hdisconnected, hstale]

theorem advance_frozen (nowMs : UInt64) {s : HostState}
    (h : s.connection = .kIncompatible ∨ s.hasSeenHost = false) : s.advance nowMs = s := by
  rw [advance, if_pos (by simpa using h)]

theorem Retained.run {calls : List HostCall} {s : HostState} (h : Retained calls s) {c : HostCall}
    (horder : ∀ t, c.nowMs? = some t → ∀ t', lastApplied calls = some t' → t' ≤ t) :
    Retained (calls ++ [c]) (c.run s) := by
  have hlast := lastApplied_append calls c
  have hquiet : ∀ s', c.applied? = none → s'.hasSeenHost = s.hasSeenHost →
      s'.hostLastSeenMs = s.hostLastSeenMs → s'.ram.hasData = s.ram.hasData →
      s'.ram.receivedAtMs = s.ram.receivedAtMs → Retained (calls ++ [c]) s' := by
    intro s' hnone hseen hseenAt hram hreceived
    rw [hnone, Option.none_or] at hlast
    refine ⟨?_, ?_, ?_⟩
    · rw [hseen, hlast]
      exact h.seen
    · rw [hlast, hseenAt]
      exact h.last
    · rw [hram, hseen, hreceived, hseenAt]
      exact h.ram
  cases c with
  | applySnapshot decoded nowMs resolvedSourceTimeMs =>
    by_cases hcpu : decoded.hasCpu = true
    · have happlied : HostCall.applied? (.applySnapshot decoded nowMs resolvedSourceTimeMs) =
          some nowMs := if_pos hcpu
      rw [happlied, Option.some_or] at hlast
      have hrun : HostCall.run s (.applySnapshot decoded nowMs resolvedSourceTimeMs) =
          s.applySnapshot decoded nowMs resolvedSourceTimeMs := rfl
      rw [hrun, applySnapshot, if_neg (by simp [hcpu])]
      refine ⟨by rw [hlast]; rfl, fun t ht => Option.some.inj (hlast.symm.trans ht), ?_⟩
      cases hram : decoded.groups.ram with
      | some g => exact fun _ => ⟨rfl, UInt64.le_refl nowMs⟩
      | none =>
        intro hdata
        obtain ⟨hseen, hreceived⟩ := h.ram hdata
        rw [h.seen, Option.isSome_iff_exists] at hseen
        obtain ⟨t, ht⟩ := hseen
        rw [h.last t ht] at hreceived
        exact ⟨rfl, UInt64.le_trans hreceived (horder nowMs rfl t ht)⟩
    · have hskip : s.applySnapshot decoded nowMs resolvedSourceTimeMs = s := by
        rw [applySnapshot, if_pos (by simpa using hcpu)]
      refine hquiet _ (if_neg hcpu) ?_ ?_ ?_ ?_ <;> simp only [HostCall.run, hskip]
  | advance nowMs =>
    have hram : (s.advance nowMs).ram.hasData = s.ram.hasData ∧
        (s.advance nowMs).ram.receivedAtMs = s.ram.receivedAtMs ∧
        (s.advance nowMs).hostLastSeenMs = s.hostLastSeenMs := by
      by_cases hfrozen : s.connection = .kIncompatible ∨ s.hasSeenHost = false
      · rw [advance_frozen nowMs hfrozen]
        exact ⟨rfl, rfl, rfl⟩
      · rw [not_or, Bool.not_eq_false] at hfrozen
        rw [advance_eq nowMs hfrozen.1 hfrozen.2]
        dsimp only
        split <;> exact ⟨rfl, rfl, rfl⟩
    exact hquiet _ rfl (seen_advance nowMs s) hram.2.2 hram.1 hram.2.1
  | markIncompatible => exact hquiet _ rfl rfl rfl rfl rfl
  | correctTime => exact hquiet _ rfl rfl rfl rfl rfl
  | setUtcAnchor utcMs monotonicMs localOffsetMinutes => exact hquiet _ rfl rfl rfl rfl rfl

theorem mem_times_of_applied {c : HostCall} {t : UInt64} (h : c.applied? = some t) :
    c.nowMs? = some t := by
  cases c with
  | applySnapshot decoded nowMs resolvedSourceTimeMs =>
    rw [HostCall.applied?] at h
    split at h
    · exact h
    · cases h
  | _ => cases h

theorem lastApplied_mem {calls : List HostCall} {t : UInt64} (h : lastApplied calls = some t) :
    t ∈ times calls := by
  have hmem := List.mem_of_getLast? h
  obtain ⟨c, hc, happlied⟩ := List.mem_filterMap.mp hmem
  exact List.mem_filterMap.mpr ⟨c, hc, mem_times_of_applied happlied⟩

theorem retained_after (bootIdentity : UInt32) {calls : List HostCall} (horder : InOrder calls) :
    Retained calls (HostState.after bootIdentity calls) := by
  induction calls using List.reverseRecOn with
  | nil => exact ⟨rfl, nofun, nofun⟩
  | append_singleton calls c ih =>
    rw [InOrder, times, List.filterMap_append, List.pairwise_append] at horder
    rw [HostState.after_append]
    refine (ih horder.1).run fun t ht t' ht' => ?_
    exact horder.2.2 t' (lastApplied_mem ht') t (by simp [ht])

/-- The first tick falls into the band that makes the CPU metric stale, the second after it. -/
def SkipsStale (lastMs t₁ t₂ : UInt64) : Prop :=
  t₁ - lastMs ≥ 3000 ∧ ¬ t₁ - lastMs ≥ 15000 ∧ t₂ - lastMs ≥ 15000

instance (lastMs t₁ t₂ : UInt64) : Decidable (SkipsStale lastMs t₁ t₂) :=
  inferInstanceAs (Decidable (_ ∧ _ ∧ _))

theorem sub_le_sub_of_le {lastMs t₁ t₂ : UInt64} (h₁ : lastMs ≤ t₁) (h₁₂ : t₁ ≤ t₂) :
    t₁ - lastMs ≤ t₂ - lastMs := by
  have h₂ := UInt64.le_trans h₁ h₁₂
  rw [UInt64.le_iff_toNat_le, UInt64.toNat_sub_of_le _ _ h₁, UInt64.toNat_sub_of_le _ _ h₂]
  have := UInt64.le_iff_toNat_le.mp h₁₂
  omega

theorem ram_advance {x : RamMetricState} {lastMs t₁ t₂ : UInt64}
    (hreceived : x.hasData = true → x.receivedAtMs ≤ lastMs) (h₁ : lastMs ≤ t₁) (h₁₂ : t₁ ≤ t₂) :
    (let y := if x.hasData ∧ t₁ - x.receivedAtMs ≥ 3000 then { x with freshness := .kStale } else x
     if y.hasData ∧ t₂ - y.receivedAtMs ≥ 3000 then { y with freshness := .kStale } else y) =
      if x.hasData ∧ t₂ - x.receivedAtMs ≥ 3000 then { x with freshness := .kStale } else x := by
  by_cases hfirst : x.hasData ∧ t₁ - x.receivedAtMs ≥ 3000
  · have hsecond : x.hasData ∧ t₂ - x.receivedAtMs ≥ 3000 :=
      ⟨hfirst.1, UInt64.le_trans hfirst.2
        (sub_le_sub_of_le (UInt64.le_trans (hreceived hfirst.1) h₁) h₁₂)⟩
    simp only [if_pos hfirst, if_pos hsecond]
  · simp only [if_neg hfirst]

/-- Two ticks leave what the second alone leaves, and a CPU metric that the first made stale. -/
theorem advance_advance {s : HostState} (hcompatible : s.connection ≠ .kIncompatible)
    (hseen : s.hasSeenHost = true)
    (hram : s.ram.hasData = true → s.ram.receivedAtMs ≤ s.hostLastSeenMs) {t₁ t₂ : UInt64}
    (h₁ : s.hostLastSeenMs ≤ t₁) (h₁₂ : t₁ ≤ t₂) :
    (s.advance t₁).advance t₂ = { s.advance t₂ with
      cpu := { s.cpu with
        freshness := if SkipsStale s.hostLastSeenMs t₁ t₂ then .kStale
          else (s.advance t₂).cpu.freshness } } := by
  have hram' := ram_advance hram h₁ h₁₂
  have hages := sub_le_sub_of_le h₁ h₁₂
  have hstale : t₁ - s.hostLastSeenMs ≥ 3000 → t₂ - s.hostLastSeenMs ≥ 3000 :=
    fun h => UInt64.le_trans h hages
  have hgone : t₁ - s.hostLastSeenMs ≥ 15000 → t₂ - s.hostLastSeenMs ≥ 15000 :=
    fun h => UInt64.le_trans h hages
  have hlate : t₂ - s.hostLastSeenMs ≥ 15000 → t₂ - s.hostLastSeenMs ≥ 3000 :=
    fun h => UInt64.le_trans (by decide) h
  have hlate₁ : t₁ - s.hostLastSeenMs ≥ 15000 → t₁ - s.hostLastSeenMs ≥ 3000 :=
    fun h => UInt64.le_trans (by decide) h
  rw [advance_eq t₂ (compatible_advance t₁ hcompatible) ((seen_advance t₁ s).trans hseen),
    advance_eq t₁ hcompatible hseen, advance_eq t₂ hcompatible hseen]
  simp only [HostState.mk.injEq, HostMetricState.mk.injEq, true_and, and_true]
  refine ⟨?_, ?_, hram', ?_, ?_, ?_, ?_⟩
  · grind
  · simp only [SkipsStale]
    grind
  · cases h : s.storage.hasData <;> simp [h, deriveStorageFreshness]
  · cases h : s.battery.hasData <;> simp [h, deriveBatteryFreshness]
  · cases h : s.agents.hasData <;> simp [h, deriveAgentsFreshness]
  · cases h : s.network.hasData <;> simp [h, deriveNetworkFreshness]

theorem advance_advance_eq_iff {s : HostState} (hcompatible : s.connection ≠ .kIncompatible)
    (hseen : s.hasSeenHost = true)
    (hram : s.ram.hasData = true → s.ram.receivedAtMs ≤ s.hostLastSeenMs) {t₁ t₂ : UInt64}
    (h₁ : s.hostLastSeenMs ≤ t₁) (h₁₂ : t₁ ≤ t₂) :
    (s.advance t₁).advance t₂ = s.advance t₂ ↔
      ¬ (s.cpu.freshness ≠ .kStale ∧ SkipsStale s.hostLastSeenMs t₁ t₂) := by
  rw [advance_advance hcompatible hseen hram h₁ h₁₂]
  by_cases hskips : SkipsStale s.hostLastSeenMs t₁ t₂
  · have hcpu : (s.advance t₂).cpu.freshness = s.cpu.freshness := by
      rw [advance_eq t₂ hcompatible hseen]
      exact if_neg fun h => h.2 hskips.2.2
    rw [if_pos hskips]
    constructor
    · intro heq hfresh
      have hstale := congrArg (fun s => s.cpu.freshness) heq
      exact hfresh.1 (hcpu.symm.trans hstale.symm)
    · intro hstale
      have hstale : s.cpu.freshness = .kStale := by
        by_contra hfresh
        exact hstale ⟨hfresh, hskips⟩
      rw [advance_eq t₂ hcompatible hseen] at hcpu ⊢
      rw [HostState.mk.injEq]
      refine ⟨rfl, ?_, rfl, rfl, rfl, rfl, rfl, rfl, rfl, rfl, rfl, rfl, rfl, rfl, rfl, rfl⟩
      rw [HostMetricState.mk.injEq]
      exact ⟨rfl, hstale.symm.trans hcpu.symm, rfl, rfl, rfl, rfl⟩
  · rw [if_neg hskips]
    refine iff_of_true ?_ fun h => hskips h.2
    rw [advance_eq t₂ hcompatible hseen]

/-- Two ticks leave what the second alone leaves, unless the first alone made the CPU metric
stale; and a tick 3 s after the last snapshot makes it stale, unless it comes after 15 s or
finds the Host incompatible. -/
theorem tick_timing_iff (bootIdentity : UInt32) (calls : List HostCall) (horder : InOrder calls) :
    let s := HostState.after bootIdentity calls
    (∀ t₁ t₂, (∀ lastMs, lastApplied calls = some lastMs → lastMs ≤ t₁) → t₁ ≤ t₂ →
      ((s.advance t₁).advance t₂ = s.advance t₂ ↔
        ¬ (s.connection ≠ .kIncompatible ∧ s.cpu.freshness ≠ .kStale ∧
          ∃ lastMs, lastApplied calls = some lastMs ∧ SkipsStale lastMs t₁ t₂))) ∧
    ∀ lastMs t, lastApplied calls = some lastMs → lastMs ≤ t → t - lastMs ≥ 3000 →
      ((s.advance t).cpu.freshness = .kStale ↔ s.cpu.freshness = .kStale ∨
        s.connection ≠ .kIncompatible ∧ ¬ t - lastMs ≥ 15000) := by
  intro s
  have hretained : Retained calls s := retained_after bootIdentity horder
  refine ⟨fun t₁ t₂ h₁ h₁₂ => ?_, fun lastMs t hlast hle hage => ?_⟩
  · by_cases hfrozen : s.connection = .kIncompatible ∨ s.hasSeenHost = false
    · rw [advance_frozen t₁ hfrozen]
      refine iff_of_true rfl ?_
      rintro ⟨hcompatible, -, lastMs, hlast, -⟩
      have hseen := hretained.seen
      rw [hfrozen.resolve_left hcompatible, hlast] at hseen
      cases hseen
    · rw [not_or, Bool.not_eq_false] at hfrozen
      obtain ⟨hcompatible, hseen⟩ := hfrozen
      obtain ⟨lastMs, hlast⟩ := Option.isSome_iff_exists.mp (hretained.seen.symm.trans hseen)
      have hseenAt := hretained.last lastMs hlast
      rw [advance_advance_eq_iff hcompatible hseen (fun h => (hretained.ram h).2)
        (hseenAt ▸ h₁ lastMs hlast) h₁₂, hseenAt]
      refine not_congr ⟨fun h => ⟨hcompatible, h.1, lastMs, hlast, h.2⟩, ?_⟩
      rintro ⟨-, hfresh, lastMs', hlast', hskips⟩
      obtain rfl := Option.some.inj (hlast.symm.trans hlast')
      exact ⟨hfresh, hskips⟩
  · have hseen : s.hasSeenHost = true := hretained.seen.trans (by rw [hlast]; rfl)
    by_cases hincompatible : s.connection = .kIncompatible
    · rw [advance_frozen t (.inl hincompatible)]
      exact ⟨.inl, fun h => h.resolve_right fun h => h.1 hincompatible⟩
    · rw [advance_eq t hincompatible hseen, hretained.last lastMs hlast]
      by_cases hgone : t - lastMs ≥ 15000
      · simp [hgone]
      · simp [hgone, hage, hincompatible]

/-- A CPU reading of time 0. -/
def cpuReading : List HostCall :=
  [.applySnapshot { hasCpu := true } 0 0]

theorem tick_timing_iff_prompt :
    ((HostState.after 0 cpuReading).advance 1000).advance 4000 =
        (HostState.after 0 cpuReading).advance 4000 ∧
      ((HostState.after 0 cpuReading).advance 4000).cpu.freshness = .kStale :=
  ⟨((tick_timing_iff 0 cpuReading (by decide)).1 1000 4000
      (fun lastMs hlast => Option.some.inj (show some 0 = some lastMs from hlast) ▸ by decide)
      (by decide)).mpr fun ⟨_, _, lastMs, hlast, hskips⟩ => by
        obtain rfl := Option.some.inj (show some 0 = some lastMs from hlast)
        exact absurd hskips (by decide),
    ((tick_timing_iff 0 cpuReading (by decide)).2 0 4000 rfl (by decide) (by decide)).mpr
      (.inr (by decide))⟩

/-- Without a tick between 3 s and 15 s the CPU metric of a lost Host stays fresh. -/
theorem tick_timing_iff_late :
    ((HostState.after 0 cpuReading).advance 5000).advance 20000 ≠
        (HostState.after 0 cpuReading).advance 20000 ∧
      ((HostState.after 0 cpuReading).advance 20000).cpu.freshness = .kFresh := by
  decide +kernel

end CydMonitor.Device
