import Mathlib.Data.Bool.AllAny
import Mathlib.Data.List.Nodup
import Mathlib.Data.List.Perm.Subperm

/-!
# Observation windows (`firmware/domain/src/coverage.cpp`)

The configuration in force and the scheduler that hands out the windows. A scheduler
carries the proof that its place lies in the channel plan.
-/

namespace CydMonitor.Observation

inductive Radio where
  | kWifi | kBle
  deriving DecidableEq, Repr

def kDefaultWifiDwellMs : UInt32 := 205
def kDefaultBleWindowMs : UInt32 := 205
def kDefaultWifiChannelFirst : ℕ := 1
def kDefaultWifiChannelLast : ℕ := 11
def kMaxWifiChannel : UInt8 := 14
def kMaxWindowMs : UInt32 := 60000

structure ObservationConfig where
  wifiEnabled : Bool := true
  bleEnabled : Bool := true
  wifiChannels : List UInt8 := []
  wifiDwellMs : UInt32 := kDefaultWifiDwellMs
  bleWindowMs : UInt32 := kDefaultBleWindowMs
  deriving DecidableEq, Repr

def defaultChannels : List UInt8 :=
  (List.range' kDefaultWifiChannelFirst
    (kDefaultWifiChannelLast - kDefaultWifiChannelFirst + 1)).map UInt8.ofNat

def normalizeWindowMs (windowMs fallback : UInt32) : UInt32 :=
  if windowMs == 0 then fallback else min windowMs kMaxWindowMs

/-- The channels of a plan within 1-14, each where it first stands. -/
def planned (channels : List UInt8) : List UInt8 :=
  channels.foldl (fun kept channel =>
    if channel < 1 || channel > kMaxWifiChannel || kept.contains channel then kept
    else kept ++ [channel]) []

def normalizeConfig (config : ObservationConfig) : ObservationConfig :=
  { config with
    wifiChannels :=
      if (planned config.wifiChannels).isEmpty then defaultChannels
      else planned config.wifiChannels
    wifiDwellMs := normalizeWindowMs config.wifiDwellMs kDefaultWifiDwellMs
    bleWindowMs := normalizeWindowMs config.bleWindowMs kDefaultBleWindowMs }

theorem normalizeConfig_channels_pos (config : ObservationConfig) :
    0 < (normalizeConfig config).wifiChannels.length := by
  rw [List.length_pos_iff]
  by_cases h : (planned config.wifiChannels).isEmpty = true
  · simp [normalizeConfig, h, defaultChannels, kDefaultWifiChannelFirst, kDefaultWifiChannelLast]
  · simp only [normalizeConfig, h]
    simpa using h

/-- Every channel is within 1-14 and stands in the plan once. -/
def InRange (channels : List UInt8) : Prop :=
  channels.Nodup ∧ ∀ channel ∈ channels, 1 ≤ channel ∧ channel ≤ kMaxWifiChannel

theorem inRange_planned (channels : List UInt8) : InRange (planned channels) := by
  refine List.foldlRecOn channels _ ⟨List.nodup_nil, fun _ h => absurd h List.not_mem_nil⟩ ?_
  intro kept hkept channel _
  split
  · exact hkept
  · rename_i hnew
    simp only [Bool.or_eq_true, decide_eq_true_eq, not_or, List.contains_iff_mem] at hnew
    obtain ⟨⟨hlow, hhigh⟩, hmem⟩ := hnew
    refine ⟨List.nodup_append.mpr ⟨hkept.1, List.nodup_singleton _, ?_⟩, fun c hc => ?_⟩
    · rintro a ha b hb rfl
      exact hmem (List.mem_singleton.mp hb ▸ ha)
    · rcases List.mem_append.mp hc with hc | hc
      · exact hkept.2 c hc
      · obtain rfl := List.mem_singleton.mp hc
        exact ⟨UInt8.not_lt.mp hlow, UInt8.not_lt.mp hhigh⟩

theorem foldl_planned {rest kept : List UInt8} (h : InRange (kept ++ rest)) :
    rest.foldl (fun kept channel =>
      if channel < 1 || channel > kMaxWifiChannel || kept.contains channel then kept
      else kept ++ [channel]) kept = kept ++ rest := by
  induction rest generalizing kept with
  | nil => simp
  | cons channel rest ih =>
    have hbounds := h.2 channel (by simp)
    have hmem : channel ∉ kept := fun hkept => by
      exact (List.nodup_append.mp h.1).2.2 _ hkept _ List.mem_cons_self rfl
    rw [List.foldl_cons, if_neg, ih (by simpa using h), List.append_assoc, List.singleton_append]
    simp only [Bool.or_eq_true, decide_eq_true_eq, List.contains_iff_mem, not_or]
    exact ⟨⟨UInt8.not_lt.mpr hbounds.1, UInt8.not_lt.mpr hbounds.2⟩, hmem⟩

/-- A plan without repetitions or foreign channels is planned as it stands. -/
theorem planned_of_inRange {channels : List UInt8} (h : InRange channels) :
    planned channels = channels :=
  @foldl_planned channels [] h

/-- A plan names each channel at most once, so it is no longer than the band. -/
theorem InRange.length_le {channels : List UInt8} (h : InRange channels) :
    channels.length ≤ kMaxWifiChannel.toNat := by
  have hsub : channels.map UInt8.toNat ⊆ List.range' 1 kMaxWifiChannel.toNat := by
    intro n hn
    obtain ⟨channel, hchannel, rfl⟩ := List.mem_map.mp hn
    have hbounds := h.2 channel hchannel
    have hlow := UInt8.le_iff_toNat_le.mp hbounds.1
    have hhigh := UInt8.le_iff_toNat_le.mp hbounds.2
    rw [List.mem_range'_1]
    exact ⟨hlow, by omega⟩
  have hnodup : (channels.map UInt8.toNat).Nodup :=
    List.Nodup.map (fun _ _ hab => UInt8.toNat_inj.mp hab) h.1
  simpa using (List.subperm_of_subset hnodup hsub).length_le

theorem normalizeWindowMs_idem (windowMs : UInt32) {fallback : UInt32} (hpos : fallback ≠ 0)
    (hmax : fallback ≤ kMaxWindowMs) :
    normalizeWindowMs (normalizeWindowMs windowMs fallback) fallback =
      normalizeWindowMs windowMs fallback := by
  have hmin : ∀ ms : UInt32, min ms kMaxWindowMs = if ms ≤ kMaxWindowMs then ms else kMaxWindowMs :=
    fun _ => rfl
  by_cases hzero : windowMs = 0
  · simp [normalizeWindowMs, hmin, hzero, hpos, hmax]
  · by_cases hle : windowMs ≤ kMaxWindowMs
    · simp [normalizeWindowMs, hmin, hzero, hle]
    · simp [normalizeWindowMs, hmin, hzero, hle, show kMaxWindowMs ≠ 0 by decide]

theorem inRange_normalize (config : ObservationConfig) :
    InRange (normalizeConfig config).wifiChannels := by
  by_cases h : (planned config.wifiChannels).isEmpty = true
  · rw [normalizeConfig, if_pos h]
    show InRange defaultChannels
    exact ⟨by decide, List.all_iff_forall_prop.mp (by decide)⟩
  · rw [normalizeConfig, if_neg h]
    exact inRange_planned _

theorem normalizeConfig_idem (config : ObservationConfig) :
    normalizeConfig (normalizeConfig config) = normalizeConfig config := by
  have hplan := planned_of_inRange (inRange_normalize config)
  have hpos := normalizeConfig_channels_pos config
  have hdwell := normalizeWindowMs_idem config.wifiDwellMs
    (show kDefaultWifiDwellMs ≠ 0 by decide) (by decide)
  have hble := normalizeWindowMs_idem config.bleWindowMs
    (show kDefaultBleWindowMs ≠ 0 by decide) (by decide)
  have hne : ¬ (planned (normalizeConfig config).wifiChannels).isEmpty = true := by
    rw [hplan, List.isEmpty_iff_length_eq_zero]
    omega
  conv_lhs => rw [normalizeConfig, if_neg hne, hplan]
  simp only [normalizeConfig, hdwell, hble]

structure Window where
  radio : Radio := .kWifi
  channel : UInt8 := 0
  startMs : UInt64 := 0
  plannedMs : UInt32 := 0
  deriving DecidableEq, Repr

structure ObservationScheduler where
  config : ObservationConfig
  nextChannel : ℕ
  nextRadio : Radio
  inPlan : nextChannel < config.wifiChannels.length

namespace ObservationScheduler

/-- The place of the walk under a new configuration: kept while WiFi stays on with the
same plan, the first channel otherwise. -/
def keepPlace (before : ObservationConfig) (place : ℕ) (next : ObservationConfig) : ℕ :=
  if before.wifiEnabled && next.wifiEnabled && before.wifiChannels == next.wifiChannels then place
  else 0

theorem keepPlace_lt {before next : ObservationConfig} {place : ℕ}
    (h : place < before.wifiChannels.length) (hpos : 0 < next.wifiChannels.length) :
    keepPlace before place next < next.wifiChannels.length := by
  rw [keepPlace]
  split
  · rename_i hkeep
    simp only [Bool.and_eq_true, beq_iff_eq] at hkeep
    rwa [← hkeep.2]
  · exact hpos

def firstRadio (config : ObservationConfig) : Radio :=
  if config.wifiEnabled then .kWifi else .kBle

/-- The constructor: the configuration it replaces has an empty plan, so the walk starts at
the first channel. -/
def make (config : ObservationConfig) : ObservationScheduler where
  config := normalizeConfig config
  nextChannel := 0
  nextRadio := firstRadio (normalizeConfig config)
  inPlan := normalizeConfig_channels_pos config

def configure (s : ObservationScheduler) (config : ObservationConfig) : ObservationScheduler where
  config := normalizeConfig config
  nextChannel := keepPlace s.config s.nextChannel (normalizeConfig config)
  nextRadio := firstRadio (normalizeConfig config)
  inPlan := keepPlace_lt s.inPlan (normalizeConfig_channels_pos config)

def channels (s : ObservationScheduler) : List UInt8 := s.config.wifiChannels

/-- The window that starts at `startMs`, if a radio is enabled, and the walk moved on. -/
def nextWindow (s : ObservationScheduler) (startMs : UInt64) :
    Option Window × ObservationScheduler :=
  if !s.config.wifiEnabled && !s.config.bleEnabled then (none, s)
  else match s.nextRadio with
  | .kWifi =>
    (some
      { radio := .kWifi, channel := s.config.wifiChannels.get ⟨s.nextChannel, s.inPlan⟩,
        startMs, plannedMs := s.config.wifiDwellMs },
      { s with
        nextChannel := (s.nextChannel + 1) % s.config.wifiChannels.length
        nextRadio := if s.config.bleEnabled then .kBle else .kWifi
        inPlan := Nat.mod_lt _ (Nat.zero_lt_of_lt s.inPlan) })
  | .kBle =>
    (some { radio := .kBle, channel := 0, startMs, plannedMs := s.config.bleWindowMs },
      { s with nextRadio := if s.config.wifiEnabled then .kWifi else .kBle })

theorem nextWindow_config (s : ObservationScheduler) (startMs : UInt64) :
    (s.nextWindow startMs).2.config = s.config := by
  rw [nextWindow]
  split
  · rfl
  · split <;> rfl

end ObservationScheduler

inductive WindowEnd where
  | kCompleted | kConfigurationChanged | kDriverFault
  deriving DecidableEq, Repr

structure WindowReport where
  window : Window := {}
  observedMs : UInt32 := 0
  droppedEvents : UInt32 := 0
  windowId : UInt32 := 0
  configGeneration : UInt32 := 0
  completedMs : UInt64 := 0
  ended : WindowEnd := .kCompleted
  deriving DecidableEq, Repr

end CydMonitor.Observation
