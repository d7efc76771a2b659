import CydMonitor.Codec.NetworkGroup

/-!
# The snapshot body agrees

The Host cuts the body out with `skip_body` and decodes it later; the device
decodes it in place. The typed decoder reads a prefix that the skipper covers,
so both read the same bytes.
-/

namespace CydMonitor.Codec

open Cbor Scan

/-- A map value that the typed decoders read: local, and skipped as a map. -/
structure MapLike {α : Type} (p : Scan UInt8 Rust.Error α) : Prop where
  isLocal : Local p
  covered : Covers p flatMap

theorem MapLike.lift_bind {α β : Type} {p : Scan UInt8 Rust.Error α} (h : MapLike p)
    {f : α → Scan UInt8 Rust.Error β} (hl : ∀ a, Local (f a)) (hs : ∀ a, Silent (f a)) :
    MapLike (p >>= f) :=
  ⟨h.isLocal.bind hl, h.covered.bind_silent hs⟩

theorem local_fieldEntry (n : ℕ) (value : ℕ → Option ℕ) : Local (Rust.fieldEntry n value) :=
  (local_expectUint _).bind fun _ => Local.ite
    ((local_skipValue 4).bind fun _ => Local.pure _)
    ((Local.ensure _ _).bind fun _ => (local_expectUint _).bind fun _ => Local.pure _)

theorem covers_fieldEntry (n : ℕ) (value : ℕ → Option ℕ) :
    Covers (Rust.fieldEntry n value) (do Rust.skipValue 4; Rust.skipValue 4) := by
  refine Sim.bind (R := fun _ _ => True) covers_uint fun key _ _ => ?_
  split_ifs
  · exact Sim.bind_silent (Sim.refl (fun _ => trivial) _) fun _ => Silent.pure _
  · exact Sim.ensure_bind fun _ => Sim.bind_silent covers_uint fun _ => Silent.pure _

theorem mapLike_groupFields (n : ℕ) : MapLike (Rust.groupFields n) :=
  ⟨(local_expectUint _).bind fun _ => (Local.ensure _ _).bind fun _ =>
      Local.loop (fun s => local_fieldEntry n s) _ _,
    covers_flatMap fun s => covers_fieldEntry n s⟩

theorem mapLike_ramGroup : MapLike Rust.decodeRamGroup :=
  (mapLike_groupFields 5).lift_bind (fun _ => Local.lift _) fun _ => Silent.lift _

theorem mapLike_storageGroup : MapLike Rust.decodeStorageGroup :=
  (mapLike_groupFields 8).lift_bind (fun _ => (Local.lift _).bind fun _ => Local.lift _)
    fun _ => (Silent.lift _).bind fun _ => Silent.lift _

theorem mapLike_batteryGroup : MapLike Rust.decodeBatteryGroup :=
  (mapLike_groupFields 10).lift_bind (fun _ => (Local.lift _).bind fun _ => Local.lift _)
    fun _ => (Silent.lift _).bind fun _ => Silent.lift _

theorem mapLike_agentsGroup : MapLike Rust.decodeAgentsGroup :=
  (mapLike_groupFields 7).lift_bind (fun _ => (Local.lift _).bind fun _ => Local.lift _)
    fun _ => (Silent.lift _).bind fun _ => Silent.lift _

theorem local_byteString : Local Rust.readByteString :=
  (local_expectUint _).bind fun _ => (Local.ensure _ _).bind fun _ => Local.take _ _

theorem covers_byteString : Covers Rust.readByteString (Rust.skipValue 4) := by
  refine Covers.value (fun _ => (Local.ensure _ _).bind fun _ => Local.take _ _) ?_ (by omega)
  refine (Sim.refl (fun _ => rfl) _).bind fun len _ hlen => ?_
  subst hlen
  refine Sim.ensure_bind fun _ => ?_
  intro l a r h
  exact ⟨(), by rw [bind_ok h]; rfl, trivial⟩

theorem local_networkEntry (s : Rust.NetworkFields) : Local (Rust.networkEntry s) :=
  (local_expectUint _).bind fun _ => Local.ite
    ((local_skipValue 4).bind fun _ => Local.pure _)
    (Local.ite ((Local.ensure _ _).bind fun _ => local_byteString.bind fun _ => Local.pure _)
      (Local.ite ((Local.ensure _ _).bind fun _ => local_byteString.bind fun _ => Local.pure _)
        ((Local.ensure _ _).bind fun _ => (local_expectUint _).bind fun _ => Local.pure _)))

theorem covers_networkEntry (s : Rust.NetworkFields) :
    Covers (Rust.networkEntry s) (do Rust.skipValue 4; Rust.skipValue 4) := by
  refine Sim.bind (R := fun _ _ => True) covers_uint fun key _ _ => ?_
  split_ifs
  · exact Sim.bind_silent (Sim.refl (fun _ => trivial) _) fun _ => Silent.pure _
  · exact Sim.ensure_bind fun _ => Sim.bind_silent covers_byteString fun _ => Silent.pure _
  · exact Sim.ensure_bind fun _ => Sim.bind_silent covers_byteString fun _ => Silent.pure _
  · exact Sim.ensure_bind fun _ => Sim.bind_silent covers_uint fun _ => Silent.pure _

theorem mapLike_networkGroup : MapLike Rust.decodeNetworkGroup := by
  refine MapLike.lift_bind (p := Rust.networkFields) ⟨?_, ?_⟩ (fun s => ?_) fun s => ?_
  · exact (local_expectUint _).bind fun _ => (Local.ensure _ _).bind fun _ =>
      Local.loop local_networkEntry _ _
  · exact covers_flatMap covers_networkEntry
  · exact (Local.lift _).bind fun _ => (Local.lift _).bind fun _ => (Local.lift _).bind fun _ =>
      (Local.lift _).bind fun _ => Local.lift _
  · exact (Silent.lift _).bind fun _ => (Silent.lift _).bind fun _ => (Silent.lift _).bind fun _ =>
      (Silent.lift _).bind fun _ => Silent.lift _

private theorem local_group {α σ : Type} {p : Scan UInt8 Rust.Error α} (hp : MapLike p)
    (slot : Option α) (store : α → σ) :
    Local (Rust.groupOnce slot p >>= fun a => pure (store a) : Scan UInt8 Rust.Error σ) :=
  ((Local.ensure _ _).bind fun _ => hp.isLocal).bind fun _ => Local.pure _

private theorem covers_group {α σ : Type} {p : Scan UInt8 Rust.Error α} (hp : MapLike p)
    (slot : Option α) (store : α → σ) :
    Covers (Rust.groupOnce slot p >>= fun a => pure (store a) : Scan UInt8 Rust.Error σ)
      flatBody :=
  Sim.bind_silent (Sim.ensure_bind fun _ => hp.covered.trans flatMap_covers) fun _ => Silent.pure _

theorem local_cpuEntry (s : Rust.CpuBody) : Local (Rust.cpuEntry s) :=
  (local_expectUint _).bind fun _ =>
    Local.ite (local_group mapLike_ramGroup _ _) <|
    Local.ite (local_group mapLike_storageGroup _ _) <|
    Local.ite (local_group mapLike_batteryGroup _ _) <|
    Local.ite (local_group mapLike_agentsGroup _ _) <|
    Local.ite (local_group mapLike_networkGroup _ _) <|
    Local.ite ((local_skipValue 4).bind fun _ => Local.pure _) <|
    (Local.ensure _ _).bind fun _ => (local_expectUint _).bind fun _ =>
      (Local.ensure _ _).bind fun _ => Local.pure _

theorem covers_cpuEntry (s : Rust.CpuBody) : Covers (Rust.cpuEntry s) Rust.skipBodyEntry := by
  refine Sim.bind (R := fun _ _ => True) covers_uint fun key _ _ => ?_
  change Covers _ flatBody
  split_ifs
  · exact covers_group mapLike_ramGroup _ _
  · exact covers_group mapLike_storageGroup _ _
  · exact covers_group mapLike_batteryGroup _ _
  · exact covers_group mapLike_agentsGroup _ _
  · exact covers_group mapLike_networkGroup _ _
  · exact Sim.bind_silent value_covers fun _ => Silent.pure _
  · exact Sim.ensure_bind fun _ => Sim.bind_silent (covers_uint.trans value_covers) fun _ =>
      (Silent.ensure _ _).bind fun _ => Silent.pure _

/-- `decode_cpu_body` before it checks that it is at the end. -/
def cpuBody : Scan UInt8 Rust.Error Rust.Snapshot := do
  let s ← Rust.cpuFields
  lift (Rust.snapshotFrom s)

theorem local_cpuBody : Local cpuBody :=
  ((local_expectUint _).bind fun _ => (Local.ensure _ _).bind fun _ =>
    Local.loop local_cpuEntry _ _).bind fun _ => Local.lift _

theorem covers_cpuBody : Covers cpuBody Rust.skipBody := by
  refine Sim.bind_silent ?_ fun _ => Silent.lift _
  refine Sim.peek_right (fun b l a r hok => ?_) ((consumes_expectUint _).bind fun _ =>
    (Local.ensure _ _).bind fun _ => Local.loop local_cpuEntry _ _)
  rw [if_pos (by simp [Rust.majorOf, head_major_of_ok hok])]
  refine (Sim.refl (fun _ => rfl) _).bind fun count _ hcount => ?_
  subst hcount
  refine Sim.ensure_bind fun h => ?_
  rw [ensure_true (by omega)]
  exact Sim.loop (R := fun _ _ => True) (fun _ _ _ => covers_cpuEntry _) _ trivial

/-- The device's CPU fields for the Host's. -/
def cpuOf (value : ℕ → Option ℕ) : Cpp.CpuSnapshot :=
  { availability := (value 0).elim .kTemporarilyUnavailable UInt8.ofNat,
    utilizationPerMille := (value 1).elim 0 UInt16.ofNat,
    sourceAgeMs := (value 2).elim 0 UInt32.ofNat,
    freshness := (value 3).elim .kFresh UInt8.ofNat,
    configurationRevision := (value 4).elim 0 UInt32.ofNat }

/-- The device's locals for the Host's. -/
def cpuView (s : Rust.CpuBody) : Cpp.CpuState :=
  { fields := fun k => (s.cpu k).isSome, cpu := cpuOf s.cpu,
    groups := { ram := s.ram.map ofRam, storage := s.storage.map ofStorage,
                battery := s.battery.map ofBattery, agents := s.agents.map ofAgents,
                network := s.network.map ofNetwork } }

/-- The bounds both loops check while they read. -/
def CpuInRange (value : ℕ → Option ℕ) : Prop :=
  (∀ v ∈ value 0, v ≤ 255) ∧ (∀ v ∈ value 1, v ≤ 1000) ∧ ∀ v ∈ value 3, v ≤ 255

theorem cpuOf_update (value : ℕ → Option ℕ) {q : ℕ} (hq : q ≤ 4) (w : ℕ) :
    cpuOf (Function.update value q (some w)) = Cpp.cpuField (cpuOf value) q w := by
  interval_cases q <;> simp [cpuOf, Cpp.cpuField]

theorem cpuView_update (s : Rust.CpuBody) {q : ℕ} (hq : q ≤ 4) (w : ℕ) :
    cpuView { s with cpu := Function.update s.cpu q (some w) } =
      { cpuView s with
        fields := Function.update (cpuView s).fields q true,
        cpu := Cpp.cpuField (cpuView s).cpu q w } := by
  simp only [cpuView, cpuOf_update _ hq, Cpp.CpuState.mk.injEq, and_true]
  funext j
  by_cases h : j = q
  · subst h; simp
  · simp [Function.update_of_ne h]

theorem CpuInRange.update {value : ℕ → Option ℕ} (h : CpuInRange value) {q w : ℕ}
    (hw : ¬(((q = 0 ∨ q = 3) ∧ w > 255) ∨ (q = 1 ∧ w > 1000) ∨
      ((q = 2 ∨ q = 4) ∧ w > 2 ^ 32 - 1))) : CpuInRange (Function.update value q (some w)) := by
  obtain ⟨h0, h1, h3⟩ := h
  have key (j bound : ℕ) (hj : ∀ v ∈ value j, v ≤ bound) (hb : j = q → w ≤ bound) :
      ∀ v ∈ Function.update value q (some w) j, v ≤ bound := by
    by_cases h : j = q
    · subst h
      simpa using hb rfl
    · rwa [Function.update_of_ne h]
  exact ⟨key 0 255 h0 (by omega), key 1 1000 h1 (by omega), key 3 255 h3 (by omega)⟩

theorem alike_group {α β : Type} {p : Scan UInt8 Rust.Error α} {q : Scan UInt8 Unit β}
    {f : α → β} (h : Alike Cpp.kMaxFrameBytes Malformed (fun a b => b = f a) p q)
    (slot : Option α) :
    Alike Cpp.kMaxFrameBytes Malformed (fun a b => b = f a) (Rust.groupOnce slot p)
      (Cpp.readGroup (slot.map f) q) :=
  Alike.ensure_bind (by cases slot <;> simp) rfl fun _ => h

theorem alike_cpuEntry {s : Rust.CpuBody} (hs : CpuInRange s.cpu) :
    Alike Cpp.kMaxFrameBytes Malformed (fun s t => t = cpuView s ∧ CpuInRange s.cpu)
      (Rust.cpuEntry s) (Cpp.cpuEntry (cpuView s)) := by
  refine (alike_uint 0).bind fun q _ hq => ?_
  subst hq
  refine Alike.ite Iff.rfl (fun _ => ?_) fun h5 => ?_
  · exact (alike_group alike_ramGroup s.ram).bind fun a b h => Alike.pure ⟨by subst h; rfl, hs⟩
  refine Alike.ite Iff.rfl (fun _ => ?_) fun h6 => ?_
  · exact (alike_group alike_storageGroup s.storage).bind fun a b h =>
      Alike.pure ⟨by subst h; rfl, hs⟩
  refine Alike.ite Iff.rfl (fun _ => ?_) fun h7 => ?_
  · exact (alike_group alike_batteryGroup s.battery).bind fun a b h =>
      Alike.pure ⟨by subst h; rfl, hs⟩
  refine Alike.ite Iff.rfl (fun _ => ?_) fun h8 => ?_
  · exact (alike_group alike_agentsGroup s.agents).bind fun a b h =>
      Alike.pure ⟨by subst h; rfl, hs⟩
  refine Alike.ite Iff.rfl (fun _ => ?_) fun h9 => ?_
  · exact (alike_group alike_networkGroup s.network).bind fun a b h =>
      Alike.pure ⟨by subst h; rfl, hs⟩
  refine Alike.ite Iff.rfl (fun _ => ?_) fun h4 => ?_
  · exact (alike_skip 4).bind fun _ _ _ => Alike.pure ⟨rfl, hs⟩
  refine Alike.ensure_bind (by simp [cpuView]) rfl fun _ => ?_
  refine (alike_uint 0).bind fun w _ hw => ?_
  subst hw
  rw [ensure_ensure]
  refine Alike.ensure_bind (by omega) rfl fun h => Alike.pure ⟨?_, hs.update h⟩
  exact (cpuView_update s (by omega) w).symm

private theorem lt_ofNat {v : ℕ} (hv : v ≤ 255) {b : UInt8} : b < UInt8.ofNat v ↔ b.toNat < v := by
  rw [UInt8.lt_iff_toNat_lt, UInt8.toNat_ofNat', Nat.mod_eq_of_lt (by omega)]

/-- The checks and the snapshot that follow the loop. -/
private theorem alike_snapshotEnd (d : Cpp.Decoded) {s : Rust.CpuBody} (hs : CpuInRange s.cpu) :
    Alike Cpp.kMaxFrameBytes Malformed
      (fun snap d' => d' = { d with
        hasCpu := true, cpu := ofCpu snap.cpu, groups := ofGroups snap })
      (lift (Rust.snapshotFrom s) : Scan UInt8 Rust.Error _)
      (do
        ensure (∀ k : ℕ, k < 5 → (cpuView s).fields k) ()
        ensure (¬((cpuView s).cpu.availability > .kError ∨
          (cpuView s).cpu.utilizationPerMille > 1000 ∨ (cpuView s).cpu.freshness > .kStale)) ()
        pure { d with hasCpu := true, cpu := (cpuView s).cpu, groups := (cpuView s).groups }) := by
  have hall : (∀ k : ℕ, k < 5 → (cpuView s).fields k) ↔ (s.cpu 0).isSome ∧ (s.cpu 1).isSome ∧
      (s.cpu 2).isSome ∧ (s.cpu 3).isSome ∧ (s.cpu 4).isSome :=
    ⟨fun h => ⟨h 0 (by omega), h 1 (by omega), h 2 (by omega), h 3 (by omega), h 4 (by omega)⟩,
      by rintro ⟨h0, h1, h2, h3, h4⟩ k hk; interval_cases k <;> assumption⟩
  refine Alike.lift_ensure (fun h => ?_) fun h => ⟨.malformed, ?_, rfl⟩
  swap
  · rw [hall] at h
    revert h
    simp only [Rust.snapshotFrom]
    cases s.cpu 0 <;> cases s.cpu 1 <;> cases s.cpu 2 <;> cases s.cpu 3 <;> cases s.cpu 4 <;>
      simp [Rust.required, availabilityFrom_eq, freshnessFrom_eq] <;> split_ifs <;> simp
  obtain ⟨h0, h1, h2, h3, h4⟩ := hall.mp h
  obtain ⟨v0, h0⟩ := Option.isSome_iff_exists.mp h0
  obtain ⟨v1, h1⟩ := Option.isSome_iff_exists.mp h1
  obtain ⟨v2, h2⟩ := Option.isSome_iff_exists.mp h2
  obtain ⟨v3, h3⟩ := Option.isSome_iff_exists.mp h3
  obtain ⟨v4, h4⟩ := Option.isSome_iff_exists.mp h4
  obtain ⟨hr0, hr1, hr3⟩ := hs
  have hview : (cpuView s).cpu = ⟨UInt8.ofNat v0, UInt16.ofNat v1, UInt32.ofNat v2, UInt8.ofNat v3,
      UInt32.ofNat v4⟩ := by
    simp [cpuView, cpuOf, h0, h1, h2, h3, h4]
  have hcheck : ¬((cpuView s).cpu.availability > .kError ∨
      (cpuView s).cpu.utilizationPerMille > 1000 ∨ (cpuView s).cpu.freshness > .kStale) ↔
      v0 ≤ 4 ∧ v3 ≤ 1 := by
    have hkError : Cpp.Availability.kError.toNat = 4 := rfl
    have hkStale : Cpp.Freshness.kStale.toNat = 1 := rfl
    rw [hview, gt_iff_lt, lt_ofNat (hr0 v0 h0), gt_iff_lt, not_or, not_or, gt_iff_lt,
      lt_ofNat (hr3 v3 h3), hkError, hkStale]
    have hutilization : ¬(1000 < UInt16.ofNat v1) := by
      have := hr1 v1 h1
      rw [UInt16.lt_iff_toNat_lt, UInt16.toNat_ofNat', Nat.mod_eq_of_lt (by omega)]
      exact Nat.not_lt.mpr this
    simp [hutilization]
  have hfrom : Rust.snapshotFrom s = (do
      let availability ← Rust.availabilityFrom v0
      let freshness ← Rust.freshnessFrom v3
      pure { cpu := ⟨availability, UInt16.ofNat v1, UInt32.ofNat v2, freshness, UInt32.ofNat v4⟩,
             ram := s.ram, storage := s.storage, battery := s.battery, agents := s.agents,
             network := s.network }) := by
    simp only [Rust.snapshotFrom, h0, h1, h2, h3, h4, Rust.required, except_ok_bind]
  rw [hfrom, availabilityFrom_eq, freshnessFrom_eq]
  refine Alike.lift_ensure (fun h => ?_) fun h => ⟨.malformed, ?_, rfl⟩
  · obtain ⟨h₀, h₃⟩ := hcheck.mp h
    rw [if_pos h₀, if_pos h₃]
    refine Alike.pure ?_
    simp only [hview, ofCpu, availabilityOf_code h₀, freshnessOf_code h₃]
    rfl
  · rw [hcheck] at h
    split_ifs <;> first | rfl | omega

theorem cpuInRange_init : CpuInRange fun _ => none := by
  simp [CpuInRange]

/-- In place, the two body decoders agree. -/
theorem alike_snapshotBody {d : Cpp.Decoded} (hcpu : d.cpu = {}) (hgroups : d.groups = {}) :
    Alike Cpp.kMaxFrameBytes Malformed
      (fun s d' => d' = { d with hasCpu := true, cpu := ofCpu s.cpu, groups := ofGroups s })
      cpuBody (Cpp.snapshotBody d) := by
  unfold cpuBody Rust.cpuFields Cpp.snapshotBody
  rw [bind_assoc]
  refine (alike_uint 5).bind fun m _ hm => ?_
  subst hm
  rw [bind_assoc]
  refine Alike.ensure_bind Iff.rfl rfl fun _ => ?_
  rw [hcpu, hgroups]
  refine (Alike.loop (R := fun s t => t = cpuView s ∧ CpuInRange s.cpu) (fun s t h => ?_) m
    ⟨rfl, cpuInRange_init⟩).bind fun s t h => ?_
  · obtain ⟨rfl, hs⟩ := h
    exact alike_cpuEntry hs
  · obtain ⟨rfl, hs⟩ := h
    exact alike_snapshotEnd d hs

theorem decodeCpuBody_eq_ok {u : List UInt8} {s : Rust.Snapshot} :
    Rust.decodeCpuBody u = .ok s ↔ cpuBody u = .ok (s, []) := by
  unfold Rust.decodeCpuBody cpuBody
  rw [run_eq_ok]
  constructor
  · rintro ⟨r, h⟩
    obtain ⟨t, m, ht, h₁⟩ := bind_eq_ok.mp h
    obtain ⟨_, m', hend, h₂⟩ := bind_eq_ok.mp h₁
    obtain ⟨rfl, rfl⟩ := atEnd_eq_ok.mp hend
    obtain ⟨hs, rfl⟩ := lift_eq_ok.mp h₂
    exact bind_eq_ok.mpr ⟨t, [], ht, lift_eq_ok.mpr ⟨hs, rfl⟩⟩
  · intro h
    obtain ⟨t, m, ht, h₁⟩ := bind_eq_ok.mp h
    obtain ⟨hs, rfl⟩ := lift_eq_ok.mp h₁
    exact ⟨[], bind_eq_ok.mpr ⟨t, [], ht, bind_eq_ok.mpr ⟨(), [], rfl, lift_eq_ok.mpr ⟨hs, rfl⟩⟩⟩⟩

private theorem cpuBody_error {u : List UInt8} (hu : u.length ≤ Cpp.kMaxFrameBytes)
    {e : Rust.Error} (h : cpuBody u = .error e) : e = .malformed :=
  ((alike_snapshotBody (d := {}) rfl rfl).error_left hu h).choose_spec.2

theorem onlyError_decodeCpuBody {u : List UInt8} (hu : u.length ≤ Cpp.kMaxFrameBytes) :
    OnlyError .malformed (Rust.decodeCpuBody u) := by
  intro e h
  rcases bind_eq_error.mp (run_eq_error.mp h) with h | ⟨s, m, hs, h₁⟩
  · exact cpuBody_error hu (bind_error h)
  · rcases bind_eq_error.mp h₁ with h | ⟨_, m', hend, h₂⟩
    · exact FailsOnly.atEnd _ _ _ h
    · obtain ⟨rfl, rfl⟩ := atEnd_eq_ok.mp hend
      exact cpuBody_error hu (bind_eq_error.mpr (Or.inr ⟨s, [], hs, h₂⟩))

end CydMonitor.Codec
