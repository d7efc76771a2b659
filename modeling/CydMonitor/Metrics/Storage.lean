import CydMonitor.Metrics.Cache
import CydMonitor.Metrics.Rates

/-!
# Storage (`platform-macos/src/storage.rs`)

Capacity from a cache, and the rates of every listed disk. The map of samplers is a function from
identities, where one that was never used is the same as none.
-/

namespace CydMonitor.Storage

open Metrics (MetricSample MetricAvailability CounterRateSampler InterfaceCounters SampleCache perS
  saturated saturatingAdd addOption)

structure StorageCapacityReading where
  totalBytes : UInt64
  availableBytes : UInt64
  deriving DecidableEq

structure DiskCounters where
  readBytes : UInt64
  writeBytes : UInt64
  deriving DecidableEq

structure DiskRate where
  readBytesPerS : UInt64
  writeBytesPerS : UInt64
  deriving DecidableEq

/-- The shared sampler; a disk has no other key than its own. -/
structure DiskIoSampler where
  inner : CounterRateSampler Unit

def DiskCounters.pair (counters : DiskCounters) : InterfaceCounters :=
  { rxBytes := counters.readBytes, txBytes := counters.writeBytes }

def DiskIoSampler.default : DiskIoSampler := { inner := { baseline := none } }

def DiskIoSampler.sample (sampler : DiskIoSampler) (counters : DiskCounters) (nowMs : ℕ) :
    MetricSample DiskRate × DiskIoSampler :=
  let (sample, inner) := sampler.inner.sample () counters.pair nowMs
  (sample.map fun rate =>
    { readBytesPerS := rate.rxBytesPerS, writeBytesPerS := rate.txBytesPerS }, { inner })

def DiskRate.add (a b : DiskRate) : DiskRate :=
  { readBytesPerS := saturatingAdd a.readBytesPerS b.readBytesPerS
    writeBytesPerS := saturatingAdd a.writeBytesPerS b.writeBytesPerS }

abbrev DiskSamplers := String → DiskIoSampler

def DiskSamplers.clear : DiskSamplers := fun _ => .default

def DiskSamplers.set (samplers : DiskSamplers) (device : String) (sampler : DiskIoSampler) :
    DiskSamplers :=
  fun d => if d = device then sampler else samplers d

def DiskSamplers.retain (samplers : DiskSamplers) (keep : String → Bool) : DiskSamplers :=
  fun d => if keep d then samplers d else .default

abbrev DiskList := List (String × DiskCounters)

structure StorageCollector where
  capacity : SampleCache StorageCapacityReading
  samplers : DiskSamplers

structure StorageReading where
  capacity : MetricSample StorageCapacityReading
  capacityAgeMs : UInt32
  io : MetricSample DiskRate

def capacityRefreshMs : ℕ := 30000

/-- What the loop over the disks carries. -/
structure IoTotals where
  samplers : DiskSamplers
  total : Option DiskRate
  availability : MetricAvailability

def IoTotals.disk (nowMs : ℕ) (t : IoTotals) (disk : String × DiskCounters) : IoTotals :=
  let (sample, sampler) := (t.samplers disk.1).sample disk.2 nowMs
  let samplers := t.samplers.set disk.1 sampler
  match sample.value, t.total with
  | some rate, some sum => { t with samplers, total := some (sum.add rate) }
  | none, _ => { samplers, total := none, availability := sample.availability }
  | some _, none => { t with samplers }

def IoTotals.start (samplers : DiskSamplers) : IoTotals :=
  { samplers
    total := some { readBytesPerS := 0, writeBytesPerS := 0 }
    availability := .available }

namespace StorageCollector

def init : StorageCollector :=
  { capacity := .init { refreshMs := capacityRefreshMs, retryUntilSampled := true }
    samplers := .clear }

/-- The totals and the samplers for the next ones; `none`: the devices cannot be listed. -/
def io (samplers : DiskSamplers) (disks : Option DiskList) (nowMs : ℕ) :
    MetricSample DiskRate × DiskSamplers :=
  match disks with
  | none | some [] => (.unavailable .error, .clear)
  | some (first :: rest) =>
    let disks := first :: rest
    let t := disks.foldl (IoTotals.disk nowMs) (.start samplers)
    (match t.total with
      | some rate => .ofValue rate
      | none => .unavailable t.availability,
      t.samplers.retain fun device => disks.any fun d => d.1 == device)

/-- One collect; `source` is what `/` answers if it is asked. -/
def collect (c : StorageCollector) (source : Option StorageCapacityReading)
    (disks : Option DiskList) (nowMs : ℕ) : StorageReading × StorageCollector :=
  let capacity := c.capacity.refreshWith nowMs source
  let (io, samplers) := io c.samplers disks nowMs
  let (sample, age) : MetricSample StorageCapacityReading × UInt32 :=
    match capacity.get nowMs with
    | some cached => (.ofValue cached.value, cached.wireAgeMs)
    | none => (.unavailable .error, 0)
  ({ capacity := sample, capacityAgeMs := age, io }, { capacity, samplers })

def onWake (c : StorageCollector) : StorageCollector :=
  { capacity := c.capacity.expire, samplers := .clear }

end StorageCollector

inductive StorageEvent where
  | collect (source : Option StorageCapacityReading) (disks : Option DiskList) (nowMs : ℕ)
  | wake

namespace StorageEvent

def apply (c : StorageCollector) : StorageEvent → StorageCollector
  | .collect source disks nowMs => (c.collect source disks nowMs).2
  | .wake => c.onWake

/-- The collector after a history. -/
def replay (events : List StorageEvent) : StorageCollector := events.foldl apply .init

theorem replay_concat (events : List StorageEvent) (e : StorageEvent) :
    replay (events ++ [e]) = e.apply (replay events) :=
  List.foldl_concat ..

/-- The identities in a list are distinct. -/
def Distinct : StorageEvent → Prop
  | .collect _ (some disks) _ => (disks.map Prod.fst).Nodup
  | .collect _ none _ | .wake => True

end StorageEvent

open StorageEvent

/-- The disks that the event right before listed, and when. -/
def listedBefore (events : List StorageEvent) : Option (DiskList × ℕ) :=
  match events.getLast? with
  | some (.collect _ (some disks) atMs) => some (disks, atMs)
  | _ => none

section Loop

variable {nowMs : ℕ} {t : IoTotals} {disk : String × DiskCounters}

def baselineOf (counters : DiskCounters) (nowMs : ℕ) : DiskIoSampler :=
  { inner := { baseline := some ((), counters.pair, nowMs) } }

def diskRate (samplers : DiskSamplers) (nowMs : ℕ) (disk : String × DiskCounters) :
    Option DiskRate :=
  ((samplers disk.1).sample disk.2 nowMs).1.value

theorem disk_spec :
    (t.disk nowMs disk).samplers = t.samplers.set disk.1 (baselineOf disk.2 nowMs) ∧
      (t.disk nowMs disk).total =
        addOption DiskRate.add t.total (diskRate t.samplers nowMs disk) := by
  have hsampler : ((t.samplers disk.1).sample disk.2 nowMs).2 = baselineOf disk.2 nowMs := rfl
  cases hvalue : ((t.samplers disk.1).sample disk.2 nowMs).1.value with
  | none => simp [IoTotals.disk, hvalue, hsampler, addOption, diskRate]
  | some rate =>
    cases htotal : t.total with
    | none => simp [IoTotals.disk, hvalue, hsampler, htotal, addOption, diskRate]
    | some sum => simp [IoTotals.disk, hvalue, hsampler, htotal, addOption, diskRate]

/-- The loop over disks of distinct identities. -/
theorem foldl_disk {disks : DiskList} (hnodup : (disks.map Prod.fst).Nodup) (t : IoTotals) :
    (∀ device, (disks.foldl (IoTotals.disk nowMs) t).samplers device =
      match disks.lookup device with
      | some counters => baselineOf counters nowMs
      | none => t.samplers device) ∧
    (disks.foldl (IoTotals.disk nowMs) t).total =
      (disks.map (diskRate t.samplers nowMs)).foldl (addOption DiskRate.add) t.total := by
  induction disks generalizing t with
  | nil => simp
  | cons disk disks ih =>
    obtain ⟨hnew, hrest⟩ := List.nodup_cons.mp hnodup
    obtain ⟨hsamplers, htotal⟩ := @disk_spec nowMs t disk
    obtain ⟨ihsamplers, ihtotal⟩ := ih hrest (t.disk nowMs disk)
    have hother {other : String × DiskCounters} (h : other ∈ disks) : other.1 ≠ disk.1 :=
      fun heq => hnew (List.mem_map.mpr ⟨other, h, heq⟩)
    rw [List.foldl_cons]
    constructor
    · intro device
      rw [ihsamplers, hsamplers, List.lookup_cons]
      by_cases hdevice : device = disk.1
      · have hnone : disks.lookup device = none := by
          refine List.lookup_eq_none_iff.mpr fun other h => ?_
          rw [hdevice]
          exact bne_iff_ne.mpr (hother h).symm
        simp [hdevice, DiskSamplers.set, hdevice ▸ hnone]
      · rw [beq_false_of_ne hdevice]
        simp only [DiskSamplers.set, if_neg hdevice]
    · rw [ihtotal, htotal, hsamplers, List.map_cons, List.foldl_cons]
      congr 1
      refine List.map_congr_left fun other h => ?_
      rw [diskRate, diskRate, DiskSamplers.set, if_neg (hother h)]

/-- A missing total is temporarily unavailable. -/
def IoTotals.Excused (t : IoTotals) : Prop :=
  t.total = none → t.availability = .temporarilyUnavailable

theorem IoTotals.Excused.step (h : t.Excused) : (t.disk nowMs disk).Excused := by
  intro hnone
  cases hvalue : ((t.samplers disk.1).sample disk.2 nowMs).1.value with
  | none =>
    have hsample : ((t.samplers disk.1).sample disk.2 nowMs).1.availability =
        .temporarilyUnavailable := by
      simp only [DiskIoSampler.sample, CounterRateSampler.sample] at hvalue ⊢
      cases hbaseline : (t.samplers disk.1).inner.baseline with
      | none => rfl
      | some baseline =>
        rw [hbaseline] at hvalue
        simp only [Metrics.rateSince] at hvalue ⊢
        split_ifs at hvalue ⊢
        · rfl
        · cases hvalue
    simpa [IoTotals.disk, hvalue] using hsample
  | some rate =>
    cases htotal : t.total with
    | none => simpa [IoTotals.disk, hvalue, htotal] using h htotal
    | some sum => simp [IoTotals.disk, hvalue, htotal] at hnone

theorem IoTotals.Excused.foldl (disks : DiskList) (h : t.Excused) :
    (disks.foldl (IoTotals.disk nowMs) t).Excused := by
  induction disks generalizing t with
  | nil => exact h
  | cons disk disks ih => exact ih h.step

end Loop

section Baselines

/-- The sampler of a device after a history: the disk as the event right before listed it. -/
def samplerAfter (events : List StorageEvent) : DiskSamplers := fun device =>
  match listedBefore events with
  | some (disks, atMs) => (disks.lookup device).elim .default fun c => baselineOf c atMs
  | none => .default

theorem listedBefore_concat (events : List StorageEvent) (e : StorageEvent) :
    listedBefore (events ++ [e]) =
      match e with
      | .collect _ (some disks) atMs => some (disks, atMs)
      | .collect _ none _ | .wake => none := by
  rw [listedBefore, List.getLast?_concat]
  cases e with
  | wake => rfl
  | collect source disks nowMs => cases disks <;> rfl

theorem io_samplers (samplers : DiskSamplers) {disks : DiskList}
    (hnodup : (disks.map Prod.fst).Nodup) (nowMs : ℕ) (device : String) :
    (StorageCollector.io samplers (some disks) nowMs).2 device =
      (disks.lookup device).elim .default fun c => baselineOf c nowMs := by
  cases disks with
  | nil => rfl
  | cons first rest =>
    have hfold := (@foldl_disk nowMs _ hnodup (.start samplers)).1 device
    simp only [StorageCollector.io, DiskSamplers.retain, hfold]
    cases hlookup : (first :: rest).lookup device with
    | none =>
      rw [if_neg]
      · rfl
      · intro hany
        obtain ⟨d, hd, heq⟩ := List.any_eq_true.mp hany
        refine bne_iff_ne.mp (List.lookup_eq_none_iff.mp hlookup d hd) ?_
        exact (beq_iff_eq.mp heq).symm
    | some counters =>
      rw [if_pos]
      · rfl
      · obtain ⟨d, hd, heq⟩ := List.lookup_isSome_iff.mp (Option.isSome_of_eq_some hlookup)
        exact List.any_eq_true.mpr ⟨d, hd, beq_iff_eq.mpr (beq_iff_eq.mp heq).symm⟩

/-- Only the event right before matters to the samplers. -/
theorem samplers_replay {events : List StorageEvent} (hdistinct : ∀ e ∈ events, e.Distinct) :
    (replay events).samplers = samplerAfter events := by
  funext device
  cases events using List.reverseRecOn with
  | nil => rfl
  | append_singleton events e =>
    rw [replay_concat, samplerAfter, listedBefore_concat]
    cases e with
    | wake => rfl
    | collect source disks nowMs =>
      cases disks with
      | none => rfl
      | some disks =>
        exact io_samplers _ (hdistinct (.collect source (some disks) nowMs) (by simp)) nowMs device

end Baselines

/-- Two samples of a disk can be compared. -/
structure Comparable (old new : DiskCounters) (atMs nowMs : ℕ) : Prop where
  elapsed : 1 ≤ nowMs - atMs ∧ nowMs - atMs ≤ 5000
  read : old.readBytes ≤ new.readBytes
  write : old.writeBytes ≤ new.writeBytes

/-- The floor of a disk's bytes per second in one direction. -/
def share (direction : DiskCounters → UInt64) (before : DiskList) (atMs nowMs : ℕ)
    (disk : String × DiskCounters) : ℕ :=
  ((direction disk.2).toNat - (before.lookup disk.1).elim 0 fun c => (direction c).toNat) * 1000 /
    (nowMs - atMs)

section Rates

variable {events : List StorageEvent} {nowMs : ℕ} {disk : String × DiskCounters}

/-- A disk's rate is what the event right before and this moment yield. -/
theorem diskRate_eq_some {rate : DiskRate} :
    diskRate (samplerAfter events) nowMs disk = some rate ↔
      ∃ before atMs old, listedBefore events = some (before, atMs) ∧
        before.lookup disk.1 = some old ∧ Comparable old disk.2 atMs nowMs ∧
        rate =
          { readBytesPerS := perS (disk.2.readBytes - old.readBytes) (nowMs - atMs)
            writeBytesPerS := perS (disk.2.writeBytes - old.writeBytes) (nowMs - atMs) } := by
  simp only [diskRate, samplerAfter]
  cases hlisted : listedBefore events with
  | none => exact iff_of_false nofun (by simp)
  | some listed =>
    obtain ⟨before, atMs⟩ := listed
    cases hlookup : before.lookup disk.1 with
    | none =>
      refine iff_of_false (fun h => ?_) ?_
      · simp only [hlookup, Option.elim_none] at h
        cases h
      · rintro ⟨_, _, _, heq, hold, -⟩
        obtain ⟨rfl, rfl⟩ := Prod.mk.inj (Option.some.inj heq)
        rw [hlookup] at hold
        cases hold
    | some old =>
      have hvalue (r : Metrics.NetworkRate) := @Metrics.rateSince_eq_some Unit _ () () old.pair
        disk.2.pair atMs nowMs r
      have hsample : (((baselineOf old atMs).sample disk.2 nowMs).1).value =
          (Metrics.rateSince ((), old.pair, atMs) () disk.2.pair nowMs).value.map fun r =>
            { readBytesPerS := r.rxBytesPerS, writeBytesPerS := r.txBytesPerS } := rfl
      simp only [hlookup, Option.elim_some, hsample, Option.map_eq_some_iff]
      constructor
      · rintro ⟨r, hr, rfl⟩
        obtain ⟨-, helapsed, ⟨hread, hwrite⟩, rfl⟩ := (hvalue r).mp hr
        rw [Metrics.maxRateSampleGapMs] at helapsed
        exact ⟨before, atMs, old, rfl, hlookup, ⟨by omega, hread, hwrite⟩, rfl⟩
      · rintro ⟨_, _, old', heq, hold, ⟨helapsed, hread, hwrite⟩, rfl⟩
        obtain ⟨rfl, rfl⟩ := Prod.mk.inj (Option.some.inj heq)
        obtain rfl := Option.some.inj (hlookup.symm.trans hold)
        refine ⟨_, (hvalue _).mpr ⟨rfl, ?_, ⟨hread, hwrite⟩, rfl⟩, rfl⟩
        rw [Metrics.maxRateSampleGapMs]
        omega

variable {listed before : DiskList} {atMs : ℕ}

/-- The saturating total of a list whose every disk has a rate. -/
theorem total_eq (hbefore : listedBefore events = some (before, atMs)) {rates : List DiskRate}
    (hrates : listed.map (diskRate (samplerAfter events) nowMs) = rates.map some) :
    (rates.map (·.readBytesPerS.toNat)).sum = ((listed.map fun d =>
        saturated (share (·.readBytes) before atMs nowMs d)).sum) ∧
      (rates.map (·.writeBytesPerS.toNat)).sum = ((listed.map fun d =>
        saturated (share (·.writeBytes) before atMs nowMs d)).sum) := by
  induction listed generalizing rates with
  | nil =>
    rw [List.map_eq_nil_iff.mp hrates.symm]
    exact ⟨rfl, rfl⟩
  | cons disk listed ih =>
    cases rates with
    | nil => cases hrates
    | cons rate rates =>
      obtain ⟨hdisk, hrest⟩ := List.cons.inj hrates
      obtain ⟨hread, hwrite⟩ := ih hrest
      obtain ⟨before', atMs', old, heq, hold, ⟨-, holdRead, holdWrite⟩, rfl⟩ :=
        diskRate_eq_some.mp hdisk
      obtain ⟨rfl, rfl⟩ := Prod.mk.inj (Option.some.inj (hbefore.symm.trans heq))
      simp only [List.map_cons, List.sum_cons, hread, hwrite, Metrics.toNat_perS, share, hold,
        Option.elim_some, UInt64.toNat_sub_of_le _ _ holdRead,
        UInt64.toNat_sub_of_le _ _ holdWrite, and_self]

theorem saturated_shares (shares : List ℕ) (a : ℕ) :
    saturated (a + (shares.map saturated).sum) = saturated (a + shares.sum) := by
  induction shares generalizing a with
  | nil => rfl
  | cons n shares ih =>
    rw [List.map_cons, List.sum_cons, List.sum_cons, Nat.add_left_comm, Nat.add_comm (saturated n),
      Metrics.saturated_add_right, Nat.add_right_comm, ih, Nat.add_assoc]

end Rates

/-- The rate of a collect after a history. -/
def ioAfter (events : List StorageEvent) (source : Option StorageCapacityReading)
    (disks : Option DiskList) (nowMs : ℕ) : MetricSample DiskRate :=
  ((replay events).collect source disks nowMs).1.io

theorem ioAfter_value {events : List StorageEvent} (hdistinct : ∀ e ∈ events, e.Distinct)
    {source : Option StorageCapacityReading} {disks : Option DiskList} {nowMs : ℕ}
    (hdisks : (StorageEvent.collect source disks nowMs).Distinct) {rate : DiskRate} :
    (ioAfter events source disks nowMs).value = some rate ↔
      ∃ (listed : DiskList) (rates : List DiskRate), disks = some listed ∧ listed ≠ [] ∧
        listed.map (diskRate (samplerAfter events) nowMs) = rates.map some ∧
        rate = rates.foldl DiskRate.add { readBytesPerS := 0, writeBytesPerS := 0 } := by
  cases disks with
  | none => exact iff_of_false nofun (by simp)
  | some listed =>
    cases listed with
    | nil => exact iff_of_false nofun (by simp)
    | cons first rest =>
      have htotal := (@foldl_disk nowMs _ hdisks (.start (replay events).samplers)).2
      rw [samplers_replay hdistinct] at htotal
      have hio : (ioAfter events source (some (first :: rest)) nowMs).value =
          (((first :: rest).map (diskRate (samplerAfter events) nowMs)).foldl
            (addOption DiskRate.add) (some { readBytesPerS := 0, writeBytesPerS := 0 })) := by
        refine Eq.trans ?_ htotal
        simp only [ioAfter, StorageCollector.collect, StorageCollector.io,
          samplers_replay hdistinct]
        cases ((first :: rest).foldl (IoTotals.disk nowMs)
            (.start (samplerAfter events))).total with
        | none => rfl
        | some total => rfl
      rw [hio, Metrics.foldl_addOption_eq_some]
      simp

theorem ioAfter_available (events : List StorageEvent) (source : Option StorageCapacityReading)
    (disks : Option DiskList) (nowMs : ℕ) :
    (ioAfter events source disks nowMs).availability = .available ↔
      (ioAfter events source disks nowMs).value.isSome := by
  simp only [ioAfter, StorageCollector.collect]
  cases disks with
  | none => exact iff_of_false nofun nofun
  | some listed =>
    cases listed with
    | nil => exact iff_of_false nofun nofun
    | cons first rest =>
      have hexcused : IoTotals.Excused ((first :: rest).foldl (IoTotals.disk nowMs)
          (.start (replay events).samplers)) := IoTotals.Excused.foldl _ nofun
      simp only [StorageCollector.io]
      cases htotal : ((first :: rest).foldl (IoTotals.disk nowMs)
          (.start (replay events).samplers)).total with
      | none =>
        rw [hexcused htotal]
        exact iff_of_false nofun nofun
      | some total => exact iff_of_true rfl rfl

/-- The I/O rate, characterised by the history of lists. -/
theorem io_exact (events : List StorageEvent) (hdistinct : ∀ e ∈ events, e.Distinct)
    (source : Option StorageCapacityReading) (disks : Option DiskList) (nowMs : ℕ)
    (hdisks : (StorageEvent.collect source disks nowMs).Distinct) :
    ((ioAfter events source disks nowMs).availability = .available ↔
      ∃ listed before atMs, disks = some listed ∧ listed ≠ [] ∧
        listedBefore events = some (before, atMs) ∧
        ∀ d ∈ listed, ∃ old, before.lookup d.1 = some old ∧ Comparable old d.2 atMs nowMs) ∧
    ((ioAfter events source disks nowMs).availability = .available ↔
      (ioAfter events source disks nowMs).value.isSome) ∧
    (∀ rate, (ioAfter events source disks nowMs).value = some rate →
      ∃ listed before atMs, disks = some listed ∧ listedBefore events = some (before, atMs) ∧
        rate.readBytesPerS.toNat =
          min (listed.map (share (·.readBytes) before atMs nowMs)).sum (2 ^ 64 - 1) ∧
        rate.writeBytesPerS.toNat =
          min (listed.map (share (·.writeBytes) before atMs nowMs)).sum (2 ^ 64 - 1)) ∧
    (disks = none ∨ disks = some [] →
      ioAfter events source disks nowMs = .unavailable .error ∧
        ((replay events).collect source disks nowMs).2.samplers = .clear) := by
  have hvalue {rate : DiskRate} := @ioAfter_value events hdistinct source disks nowMs hdisks rate
  have hrates {listed : DiskList} {rates : List DiskRate} (hne : listed ≠ [])
      (h : listed.map (diskRate (samplerAfter events) nowMs) = rates.map some) :
      ∃ before atMs, listedBefore events = some (before, atMs) ∧
        ∀ d ∈ listed, ∃ old, before.lookup d.1 = some old ∧ Comparable old d.2 atMs nowMs := by
    have hall (d) (hd : d ∈ listed) :
        ∃ rate, diskRate (samplerAfter events) nowMs d = some rate := by
      obtain ⟨rate, -, hrate⟩ := List.mem_map.mp (h ▸ List.mem_map_of_mem hd)
      exact ⟨rate, hrate.symm⟩
    obtain ⟨first, hfirst⟩ := List.exists_mem_of_ne_nil listed hne
    obtain ⟨_, hrate⟩ := hall first hfirst
    obtain ⟨before, atMs, -, hbefore, -⟩ := diskRate_eq_some.mp hrate
    refine ⟨before, atMs, hbefore, fun d hd => ?_⟩
    obtain ⟨_, hd⟩ := hall d hd
    obtain ⟨_, _, old, heq, hold, hcomparable, -⟩ := diskRate_eq_some.mp hd
    obtain ⟨rfl, rfl⟩ := Prod.mk.inj (Option.some.inj (hbefore.symm.trans heq))
    exact ⟨old, hold, hcomparable⟩
  refine ⟨?_, ioAfter_available events source disks nowMs, fun rate hrate => ?_, ?_⟩
  · rw [ioAfter_available, Option.isSome_iff_exists]
    constructor
    · rintro ⟨rate, hrate⟩
      obtain ⟨listed, rates, rfl, hne, hmap, -⟩ := hvalue.mp hrate
      obtain ⟨before, atMs, hbefore, hall⟩ := hrates hne hmap
      exact ⟨listed, before, atMs, rfl, hne, hbefore, hall⟩
    · rintro ⟨listed, before, atMs, rfl, hne, hbefore, hall⟩
      have hsome : ∀ d ∈ listed, ∃ rate, diskRate (samplerAfter events) nowMs d = some rate := by
        intro d hd
        obtain ⟨old, hold, hcomparable⟩ := hall d hd
        exact ⟨_, diskRate_eq_some.mpr ⟨before, atMs, old, hbefore, hold, hcomparable, rfl⟩⟩
      obtain ⟨rates, hmap⟩ := Metrics.exists_map_some hsome
      exact ⟨_, hvalue.mpr ⟨listed, rates, rfl, hne, hmap, rfl⟩⟩
  · obtain ⟨listed, rates, rfl, hne, hmap, rfl⟩ := hvalue.mp hrate
    obtain ⟨before, atMs, hbefore, -⟩ := hrates hne hmap
    obtain ⟨hread, hwrite⟩ := total_eq hbefore hmap
    refine ⟨listed, before, atMs, rfl, hbefore, ?_, ?_⟩
    · rw [Metrics.foldl_saturated (fun rate : DiskRate => rate.readBytesPerS.toNat)
        (fun _ _ => Metrics.toNat_saturatingAdd _ _) rates (Metrics.toNat_eq_saturated _), hread]
      have hshares := saturated_shares (listed.map (share (·.readBytes) before atMs nowMs)) 0
      rw [List.map_map, Nat.zero_add, Nat.zero_add] at hshares
      exact (congrArg saturated (Nat.zero_add _)).trans (hshares.trans (by rw [saturated]))
    · rw [Metrics.foldl_saturated (fun rate : DiskRate => rate.writeBytesPerS.toNat)
        (fun _ _ => Metrics.toNat_saturatingAdd _ _) rates (Metrics.toNat_eq_saturated _), hwrite]
      have hshares := saturated_shares (listed.map (share (·.writeBytes) before atMs nowMs)) 0
      rw [List.map_map, Nat.zero_add, Nat.zero_add] at hshares
      exact (congrArg saturated (Nat.zero_add _)).trans (hshares.trans (by rw [saturated]))
  · rintro (rfl | rfl)
    · exact ⟨rfl, rfl⟩
    · exact ⟨rfl, rfl⟩

/-- Two disks, one of them back after an absence. -/
theorem io_exact_returned :
    (ioAfter [.collect none (some [("a", ⟨0, 0⟩), ("b", ⟨5, 5⟩)]) 0,
        .collect none (some [("a", ⟨1000, 0⟩)]) 1000,
        .collect none (some [("a", ⟨3000, 10⟩), ("b", ⟨5, 5⟩)]) 2000] none
        (some [("a", ⟨7000, 10⟩), ("b", ⟨505, 5⟩)]) 4000).availability = .available ∧
      (ioAfter [.collect none (some [("a", ⟨0, 0⟩), ("b", ⟨5, 5⟩)]) 0,
        .collect none (some [("a", ⟨1000, 0⟩)]) 1000] none
        (some [("a", ⟨3000, 10⟩), ("b", ⟨5, 5⟩)]) 2000).availability ≠ .available := by
  have hboth (x y : DiskCounters) : ([("a", x), ("b", y)].map Prod.fst).Nodup := by
    simp
  constructor
  · refine (io_exact _ ?_ none (some [("a", ⟨7000, 10⟩), ("b", ⟨505, 5⟩)]) 4000 (hboth _ _)).1.mpr
      ⟨_, [("a", ⟨3000, 10⟩), ("b", ⟨5, 5⟩)], 2000, rfl, by simp, rfl, ?_⟩
    · exact List.forall_mem_cons.mpr ⟨hboth _ _, List.forall_mem_cons.mpr
        ⟨List.nodup_singleton _, List.forall_mem_singleton.mpr (hboth _ _)⟩⟩
    · exact List.forall_mem_cons.mpr ⟨⟨_, rfl, ⟨by decide, by decide, by decide⟩⟩,
        List.forall_mem_singleton.mpr ⟨_, rfl, ⟨by decide, by decide, by decide⟩⟩⟩
  · decide +kernel

end CydMonitor.Storage
