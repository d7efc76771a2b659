import CydMonitor.Codec.ControlRoundTrip
import CydMonitor.Codec.SnapshotItems

/-!
# Snapshots come back

`encode_groups` accepts exactly the snapshots that `decode` may return, and its frames
are decoded to what they were built from.
-/

namespace CydMonitor.Codec

open Cbor Scan

def cpuValues (cpu : Rust.CpuSnapshot) : List ℕ :=
  [cpu.availability.code, cpu.utilizationPerMille.toNat, cpu.sourceAgeMs.toNat,
    cpu.freshness.code, cpu.configurationRevision.toNat]

/-- The groups that are there, in key order. -/
def groupItems (s : Rust.Snapshot) : List BodyItem :=
  s.ram.toList.map .ram ++ s.storage.toList.map .storage ++ s.battery.toList.map .battery ++
    s.agents.toList.map .agents ++ s.network.toList.map .network

/-- The items of a snapshot's body. -/
def snapshotItems (s : Rust.Snapshot) : List BodyItem :=
  (numbered 0 (cpuValues s.cpu)).map (fun f => .number f.1 f.2) ++ groupItems s

/-- The rules that both codecs check. -/
structure SnapshotValid (s : Rust.Snapshot) : Prop where
  ram : ∀ r ∈ s.ram, r.usedBytes ≤ r.totalBytes
  storage : ∀ g ∈ s.storage, g.availableBytes ≤ g.totalBytes
  battery : ∀ b ∈ s.battery, b.chargePerMille ≤ 1000 ∧ b.maxCapacityPerMille ≤ 1000 ∧
    b.state ≤ 4 ∧ b.condition ≤ 3
  agents : ∀ a ∈ s.agents, ∀ state ∈ a.state.val, state ≤ 3
  network : ∀ n ∈ s.network, n.isValid = true

theorem refusesGroups_eq_false {s : Rust.Snapshot} :
    Rust.refusesGroups s = false ↔ SnapshotValid s := by
  obtain ⟨cpu, ram, storage, battery, agents, network⟩ := s
  have hsplit : SnapshotValid ⟨cpu, ram, storage, battery, agents, network⟩ ↔
      (∀ r ∈ ram, r.usedBytes ≤ r.totalBytes) ∧ (∀ g ∈ storage, g.availableBytes ≤ g.totalBytes) ∧
      (∀ b ∈ battery, b.chargePerMille ≤ 1000 ∧ b.maxCapacityPerMille ≤ 1000 ∧ b.state ≤ 4 ∧
        b.condition ≤ 3) ∧
      (∀ a ∈ agents, ∀ state ∈ a.state.val, state ≤ 3) ∧ ∀ n ∈ network, n.isValid = true :=
    ⟨fun h => ⟨h.ram, h.storage, h.battery, h.agents, h.network⟩,
      fun h => ⟨h.1, h.2.1, h.2.2.1, h.2.2.2.1, h.2.2.2.2⟩⟩
  rw [hsplit, Rust.refusesGroups]
  cases ram <;> cases storage <;> cases battery <;> cases agents <;> cases network <;>
    simp [and_assoc]

theorem length_snapshotItems (s : Rust.Snapshot) :
    (snapshotItems s).length = 5 + s.ram.isSome.toNat + s.storage.isSome.toNat +
      s.battery.isSome.toNat + s.agents.isSome.toNat + s.network.isSome.toNat := by
  have hone {α : Type} (o : Option α) (f : α → BodyItem) :
      (o.toList.map f).length = o.isSome.toNat := by cases o <;> rfl
  simp only [snapshotItems, groupItems, List.length_append, hone, List.length_map,
    length_numbered, cpuValues, List.length_cons, List.length_nil]
  omega

theorem snapshotBody_eq (s : Rust.Snapshot) :
    Rust.snapshotBody s =
      Rust.uint 5 (snapshotItems s).length ++ (snapshotItems s).flatMap BodyItem.bytes := by
  have hnumbers : ((numbered 0 (cpuValues s.cpu)).map fun f => BodyItem.number f.1 f.2).flatMap
      BodyItem.bytes = Rust.cpuEntries s.cpu := by
    rw [List.flatMap_map]
    exact flatMap_numbered _
  have hgroup {α : Type} (o : Option α) (f : α → BodyItem) (g : α → List UInt8)
      (hg : ∀ a, (f a).bytes = g a) : (o.toList.map f).flatMap BodyItem.bytes = o.elim [] g := by
    cases o with
    | none => rfl
    | some a => simp [hg]
  have hhead : ∀ a b c d e : Bool,
      [UInt8.ofNat (0xa5 + a.toNat + b.toNat + c.toNat + d.toNat + e.toNat)] =
        Rust.uint 5 (5 + a.toNat + b.toNat + c.toNat + d.toNat + e.toNat) := by decide
  rw [Rust.snapshotBody, length_snapshotItems, snapshotItems, groupItems, hhead]
  simp only [List.flatMap_append, hnumbers, hgroup s.ram .ram Rust.ramGroup fun _ => rfl,
    hgroup s.storage .storage Rust.storageGroup fun _ => rfl,
    hgroup s.battery .battery Rust.batteryGroup fun _ => rfl,
    hgroup s.agents .agents Rust.agentsGroup fun _ => rfl,
    hgroup s.network .network Rust.networkGroup fun _ => rfl, List.append_assoc]

/-- The Host's locals after the CPU numbers. -/
def cpuState (cpu : Rust.CpuSnapshot) : Rust.CpuBody :=
  ⟨fun j => (cpuValues cpu)[j]?, none, none, none, none, none⟩

theorem admits_cpuNumbers {cpu : Rust.CpuSnapshot} (h : cpu.utilizationPerMille ≤ 1000) :
    Admits BodyItem.Fits BodyItem.store ⟨fun _ => none, none, none, none, none, none⟩
        ((numbered 0 (cpuValues cpu)).map fun f => .number f.1 f.2) ∧
      ((numbered 0 (cpuValues cpu)).map fun f => BodyItem.number f.1 f.2).foldl BodyItem.store
        ⟨fun _ => none, none, none, none, none, none⟩ = cpuState cpu := by
  have h0 : cpu.availability.code ≤ 4 := by cases cpu.availability <;> decide
  have h1 : cpu.utilizationPerMille.toNat ≤ 1000 := UInt16.le_iff_toNat_le.mp h
  have h2 := cpu.sourceAgeMs.toNat_lt
  have h3 : cpu.freshness.code ≤ 1 := by cases cpu.freshness <;> decide
  have h4 := cpu.configurationRevision.toNat_lt
  refine ⟨⟨⟨⟨by omega, by omega, by omega⟩, rfl⟩, ⟨⟨by omega, by omega, by omega⟩, rfl⟩,
    ⟨⟨by omega, by omega, by omega⟩, rfl⟩, ⟨⟨by omega, by omega, by omega⟩, rfl⟩,
    ⟨⟨by omega, by omega, by omega⟩, rfl⟩, trivial⟩, ?_⟩
  rw [cpuState, cpuValues]
  simp only [numbered, List.map_cons, List.map_nil, List.foldl_cons, List.foldl_nil,
    BodyItem.store, Rust.CpuBody.mk.injEq, and_true]
  funext j
  rcases j with _ | _ | _ | _ | _ | j <;> rfl

/-- An optional item that fits is admitted, and leads from `s` to `t`. -/
theorem admits_optional {α : Type} {o : Option α} {f : α → BodyItem} {s t : Rust.CpuBody}
    (h : ∀ a ∈ o, (f a).Fits s) (hnone : o = none → s = t)
    (hsome : ∀ a, o = some a → (f a).store s = t) :
    Admits BodyItem.Fits BodyItem.store s (o.toList.map f) ∧
      (o.toList.map f).foldl BodyItem.store s = t := by
  cases o with
  | none => exact ⟨trivial, hnone rfl⟩
  | some a => exact ⟨⟨h a rfl, trivial⟩, hsome a rfl⟩

/-- A valid snapshot's items are admitted, and lead to its fields. -/
theorem admits_snapshotItems {s : Rust.Snapshot} (h : SnapshotValid s)
    (hcpu : s.cpu.utilizationPerMille ≤ 1000) :
    Admits BodyItem.Fits BodyItem.store ⟨fun _ => none, none, none, none, none, none⟩
        (snapshotItems s) ∧
      (snapshotItems s).foldl BodyItem.store ⟨fun _ => none, none, none, none, none, none⟩ =
        ⟨(cpuState s.cpu).cpu, s.ram, s.storage, s.battery, s.agents, s.network⟩ := by
  obtain ⟨cpu, ram, storage, battery, agents, network⟩ := s
  obtain ⟨hnumbers, hstate⟩ := admits_cpuNumbers hcpu
  obtain ⟨hram, eram⟩ := admits_optional (o := ram) (f := .ram)
    (s := cpuState cpu)
    (t := ⟨(cpuState cpu).cpu, ram, none, none, none, none⟩)
    (fun a ha => ⟨h.ram a ha, rfl⟩) (fun hn => by subst hn; rfl) fun a hs => by subst hs; rfl
  obtain ⟨hstorage, estorage⟩ := admits_optional (o := storage) (f := .storage)
    (s := ⟨(cpuState cpu).cpu, ram, none, none, none, none⟩)
    (t := ⟨(cpuState cpu).cpu, ram, storage, none, none, none⟩)
    (fun a ha => ⟨h.storage a ha, rfl⟩) (fun hn => by subst hn; rfl) fun a hs => by subst hs; rfl
  obtain ⟨hbattery, ebattery⟩ := admits_optional (o := battery) (f := .battery)
    (s := ⟨(cpuState cpu).cpu, ram, storage, none, none, none⟩)
    (t := ⟨(cpuState cpu).cpu, ram, storage, battery, none, none⟩)
    (fun a ha => ⟨h.battery a ha, rfl⟩) (fun hn => by subst hn; rfl) fun a hs => by subst hs; rfl
  obtain ⟨hagents, eagents⟩ := admits_optional (o := agents) (f := .agents)
    (s := ⟨(cpuState cpu).cpu, ram, storage, battery, none, none⟩)
    (t := ⟨(cpuState cpu).cpu, ram, storage, battery, agents, none⟩)
    (fun a ha => ⟨h.agents a ha, rfl⟩) (fun hn => by subst hn; rfl) fun a hs => by subst hs; rfl
  obtain ⟨hnetwork, enetwork⟩ := admits_optional (o := network) (f := .network)
    (s := ⟨(cpuState cpu).cpu, ram, storage, battery, agents, none⟩)
    (t := ⟨(cpuState cpu).cpu, ram, storage, battery, agents, network⟩)
    (fun a ha => ⟨h.network a ha, rfl⟩) (fun hn => by subst hn; rfl) fun a hs => by subst hs; rfl
  simp only [snapshotItems, groupItems, admits_append, List.foldl_append, hstate, eram, estorage,
    ebattery, eagents, enetwork, and_true]
  exact ⟨hnumbers, ⟨⟨⟨hram, hstorage⟩, hbattery⟩, hagents⟩, hnetwork⟩

theorem snapshotFrom_eq (s : Rust.Snapshot) :
    Rust.snapshotFrom ⟨(cpuState s.cpu).cpu, s.ram, s.storage, s.battery, s.agents, s.network⟩ =
      .ok s := by
  simp [Rust.snapshotFrom, cpuState, cpuValues, Rust.required]

/-- The body decoder reads what the encoder writes. -/
theorem reads_snapshotBody {s : Rust.Snapshot} (h : SnapshotValid s)
    (hcpu : s.cpu.utilizationPerMille ≤ 1000) : Reads cpuBody (Rust.snapshotBody s) s := by
  obtain ⟨hadmits, hfinal⟩ := admits_snapshotItems h hcpu
  have hloop := Reads.items (fun _ _ h => reads_bodyEntry h) hadmits
  rw [hfinal] at hloop
  have hlen : (snapshotItems s).length ≤ 10 := by
    have hram := s.ram.isSome.toNat_le
    have hstorage := s.storage.isSome.toNat_le
    have hbattery := s.battery.isSome.toNat_le
    have hagents := s.agents.isSome.toNat_le
    have hnetwork := s.network.isSome.toNat_le
    rw [length_snapshotItems]
    omega
  rw [snapshotBody_eq, uint_eq_head]
  have hfields : Reads Rust.cpuFields _ _ :=
    (reads_expectUint (by omega) (by omega)).bind (Reads.ensure_bind hlen hloop)
  exact hfields.bind_nil (Reads.lift (snapshotFrom_eq s))

theorem length_uint_le (m v : ℕ) : (Rust.uint m v).length ≤ 9 := by
  rw [uint_eq_head]
  exact length_head_le m v

theorem length_uints_le (fs : List (ℕ × ℕ)) :
    (Rust.uintEntries fs).length ≤ 18 * fs.length := by
  induction fs with
  | nil => exact Nat.zero_le _
  | cons f fs ih =>
    have hkey := length_uint_le 0 f.1
    have hvalue := length_uint_le 0 f.2
    rw [Rust.uintEntries] at ih ⊢
    rw [List.flatMap_cons, List.length_append, List.length_append, List.length_cons]
    omega

theorem length_bytesEntry_le (key : ℕ) (value : List UInt8) :
    (Rust.bytesEntry key value).length ≤ 18 + value.length := by
  have hkey := length_uint_le 0 key
  have hvalue := length_uint_le 2 value.length
  rw [Rust.bytesEntry, List.length_append, List.length_append]
  omega

theorem length_metric_le {α : Type} (G : NumberedGroup α) (a : α) :
    (G.metric.bytes a).length ≤ 9 + 18 * G.n := by
  have hhead := length_uint_le 5 G.n
  have hfields := length_uints_le (numbered 0 (G.values a))
  rw [length_numbered, G.length_values] at hfields
  simp only [NumberedGroup.metric, NumberedGroup.bytes, List.length_append]
  omega

theorem length_networkGroup_le {n : Rust.NetworkSnapshot} (h : n.isValid = true) :
    (Rust.networkGroup n).length ≤ 320 := by
  obtain ⟨hssid, hlinks⟩ := isValid_bounds h
  have hmac (m : Option (Octets 6)) : (m.elim [] (·.val)).length ≤ 6 := by
    cases m with
    | none => exact Nat.zero_le _
    | some m => exact m.property.le
  have hkinds : (n.links.elim [] fun links =>
      Rust.bytesEntry 13 (links.map fun k => UInt8.ofNat k.code)).length ≤ 26 := by
    cases hkinds : n.links with
    | none => exact Nat.zero_le _
    | some links =>
      have hle := length_bytesEntry_le 13 (links.map fun k => UInt8.ofNat k.code)
      have height := (hlinks links hkinds).1
      rw [List.length_map] at hle
      exact hle.trans (by omega)
  have hkey := length_uint_le 0 9
  have hvalues := length_uints_le (numbered 0 (networkValues n))
  have hstation := length_bytesEntry_le 10 (n.station.elim [] (·.val))
  have hssid' := length_bytesEntry_le 11 n.ssid
  have hbssid := length_bytesEntry_le 12 (n.bssid.elim [] (·.val))
  have hmac₁ := hmac n.station
  have hmac₂ := hmac n.bssid
  rw [length_numbered] at hvalues
  simp only [networkValues, numbered, List.length_cons, List.length_nil, Nat.reduceAdd] at hvalues
  rw [Rust.networkGroup]
  simp only [List.length_append, List.length_cons, List.length_nil]
  omega

theorem length_snapshotBody_le {s : Rust.Snapshot} (h : SnapshotValid s) :
    (Rust.snapshotBody s).length ≤ 1100 := by
  have hoption {α : Type} (o : Option α) (g : α → List UInt8) (n : ℕ)
      (hg : ∀ a ∈ o, (g a).length ≤ n) : (o.elim [] g).length ≤ n := by
    cases o with
    | none => exact Nat.zero_le _
    | some a => exact hg a rfl
  have hgroup {α : Type} (G : NumberedGroup α) (key : ℕ) (a : α) :
      (Rust.uint 0 key ++ G.metric.bytes a).length ≤ 18 + 18 * G.n := by
    have hkey := length_uint_le 0 key
    have hbytes := length_metric_le G a
    rw [List.length_append]
    omega
  have hcpu := length_uints_le [(0, s.cpu.availability.code),
    (1, s.cpu.utilizationPerMille.toNat), (2, s.cpu.sourceAgeMs.toNat), (3, s.cpu.freshness.code),
    (4, s.cpu.configurationRevision.toNat)]
  have hram := hoption s.ram Rust.ramGroup (18 + 18 * 5) fun a _ =>
    ramGroup_eq a ▸ hgroup ramNumbered 5 a
  have hstorage := hoption s.storage Rust.storageGroup (18 + 18 * 8) fun a _ =>
    storageGroup_eq a ▸ hgroup storageNumbered 6 a
  have hbattery := hoption s.battery Rust.batteryGroup (18 + 18 * 10) fun a _ =>
    batteryGroup_eq a ▸ hgroup batteryNumbered 7 a
  have hagents := hoption s.agents Rust.agentsGroup (18 + 18 * 7) fun a _ =>
    agentsGroup_eq a ▸ hgroup agentsNumbered 8 a
  have hnetwork := hoption s.network Rust.networkGroup 320 fun n hn =>
    length_networkGroup_le (h.network n hn)
  rw [Rust.snapshotBody, Rust.cpuEntries]
  simp only [List.length_append, List.length_cons, List.length_nil] at hcpu ⊢
  omega

/-- The envelope around a body is short. -/
theorem length_envelope_le {e : Rust.Envelope} {tail : List UInt8}
    (h : Rust.envelopeEnd e = .ok tail) :
    (Rust.envelopeStart e).length + tail.length ≤ 200 := by
  have hnumbers := length_uints_le [(0, e.major.toNat), (1, e.minor.toNat), (2, e.kind.code)]
  have hsession := length_bytesEntry_le 3 e.session.val
  have hsixteen := e.session.property
  have hsequence := length_uints_le [(4, e.sequence.toNat)]
  have hbody := length_uint_le 0 5
  have hutc : (e.utcMs.elim [] fun v => Rust.uintEntries [(6, v.toNat)]).length ≤ 18 := by
    cases e.utcMs with
    | none => exact Nat.zero_le _
    | some v => exact length_uints_le _
  have huncertainty : (e.utcUncertaintyMs.elim [] fun v =>
      Rust.uintEntries [(7, v.toNat)]).length ≤ 18 := by
    cases e.utcUncertaintyMs with
    | none => exact Nat.zero_le _
    | some v => exact length_uints_le _
  have htail : tail.length ≤ 54 := by
    rw [Rust.envelopeEnd] at h
    cases hoffset : e.localOffsetMinutes with
    | none =>
      rw [hoffset] at h
      cases h
      rw [List.length_append]
      omega
    | some z =>
      rw [hoffset] at h
      dsimp only at h
      split_ifs at h
      cases h
      have hz := length_uints_le [(8, (z + 1440).toNat)]
      simp only [List.length_append, List.length_cons, List.length_nil] at hz ⊢
      omega
  rw [Rust.envelopeStart]
  simp only [List.length_append, List.length_cons, List.length_nil] at hnumbers hsequence ⊢
  omega

private theorem encodeGroups_bind {e : Rust.Envelope} {s : Rust.Snapshot}
    (h : Rust.refusesGroups s = false) :
    Rust.encodeGroups e s = Rust.envelopeEnd e >>= fun tail =>
      Rust.finishFrame (Rust.envelopeStart e ++ Rust.snapshotBody s ++ tail) := by
  rw [Rust.encodeGroups, h]
  rfl

private theorem encodeGroups_refused {e : Rust.Envelope} {s : Rust.Snapshot}
    (h : Rust.refusesGroups s = true) : Rust.encodeGroups e s = .error .malformed := by
  rw [Rust.encodeGroups, h]
  rfl

theorem encodeGroups_eq_ok {e : Rust.Envelope} {s : Rust.Snapshot} {f : List UInt8} :
    Rust.encodeGroups e s = .ok f ↔ SnapshotValid s ∧ ∃ tail, Rust.envelopeEnd e = .ok tail ∧
      Rust.finishFrame (Rust.envelopeStart e ++ Rust.snapshotBody s ++ tail) = .ok f := by
  rw [← refusesGroups_eq_false]
  cases hrefused : Rust.refusesGroups s with
  | true => simp [encodeGroups_refused hrefused]
  | false => simp [encodeGroups_bind hrefused, except_bind_eq_ok]

private theorem onlyError_envelopeEnd {e : Rust.Envelope} :
    OnlyError .malformed (Rust.envelopeEnd e) := by
  intro err h
  rw [Rust.envelopeEnd] at h
  cases hoffset : e.localOffsetMinutes with
  | none => simp [hoffset] at h
  | some z =>
    rw [hoffset] at h
    dsimp only at h
    split_ifs at h
    cases h
    rfl

/-- A valid snapshot never fills a frame. -/
theorem encodeGroups_fits {e : Rust.Envelope} {s : Rust.Snapshot} (h : SnapshotValid s)
    {tail : List UInt8} (htail : Rust.envelopeEnd e = .ok tail) :
    Rust.finishFrame (Rust.envelopeStart e ++ Rust.snapshotBody s ++ tail) =
      .ok (Rust.sealFrame (Rust.envelopeStart e ++ Rust.snapshotBody s ++ tail)) := by
  have hbody := length_snapshotBody_le h
  have henvelope := length_envelope_le htail
  refine finishFrame_eq_ok.mpr ⟨?_, rfl⟩
  rw [List.length_append, List.length_append, Rust.maxFrameBytes]
  omega

theorem decode_of_encodeGroups {e : Rust.Envelope} {s : Rust.Snapshot} (hmajor : e.major = 1)
    (hkind : e.kind = .snapshot) (hcpu : s.cpu.utilizationPerMille ≤ 1000) {f : List UInt8}
    (h : Rust.encodeGroups e s = .ok f) : Rust.decode f = .ok (.snapshot e s) := by
  obtain ⟨hvalid, tail, htail, hf⟩ := encodeGroups_eq_ok.mp h
  have hread := reads_snapshotBody hvalid hcpu
  obtain ⟨_, hskip, -⟩ := covers_cpuBody _ _ _ hread.whole
  have hbody : Rust.decodeCpuBody (Rust.snapshotBody s) = .ok s :=
    decodeCpuBody_eq_ok.mpr hread.whole
  refine decode_finished hmajor htail hf (local_skipBody.reads_of_whole hskip)
    (fun hne => absurd hkind hne) ?_
  rw [finish, if_pos hkind, hbody]
  rfl

/-- **Snapshots come back.** `encode_groups` succeeds exactly on valid snapshots, never
for their size, and its frames decode to the envelope and the snapshot. -/
theorem snapshot_round_trip (e : Rust.Envelope) (s : Rust.Snapshot) (hmajor : e.major = 1)
    (hkind : e.kind = .snapshot) (hcpu : s.cpu.utilizationPerMille ≤ 1000) :
    ((∃ f, Rust.encodeGroups e s = .ok f) ↔
        SnapshotValid s ∧ ∀ z ∈ e.localOffsetMinutes, -1440 ≤ z ∧ z ≤ 1440) ∧
      Rust.encodeGroups e s ≠ .error .tooLarge ∧
      ∀ f, Rust.encodeGroups e s = .ok f → Rust.decode f = .ok (.snapshot e s) := by
  refine ⟨⟨?_, ?_⟩, ?_, fun f hf => decode_of_encodeGroups hmajor hkind hcpu hf⟩
  · rintro ⟨f, hf⟩
    obtain ⟨hvalid, tail, htail, -⟩ := encodeGroups_eq_ok.mp hf
    exact ⟨hvalid, (envelopeEnd_eq_ok.mp htail).1⟩
  · rintro ⟨hvalid, hoffset⟩
    have htail := envelopeEnd_eq_ok.mpr ⟨hoffset, rfl⟩
    exact ⟨_, encodeGroups_eq_ok.mpr ⟨hvalid, _, htail, encodeGroups_fits hvalid htail⟩⟩
  · intro hlarge
    cases hrefused : Rust.refusesGroups s with
    | true =>
      rw [encodeGroups_refused hrefused] at hlarge
      cases hlarge
    | false =>
      rw [encodeGroups_bind hrefused] at hlarge
      rcases except_bind_eq_error.mp hlarge with htail | ⟨tail, htail, hfinish⟩
      · exact absurd (onlyError_envelopeEnd _ htail) (by decide)
      · rw [encodeGroups_fits (refusesGroups_eq_false.mp hrefused) htail] at hfinish
        cases hfinish

/-- A snapshot with RAM and Network goes through. -/
theorem snapshot_round_trip_network :
    let e : Rust.Envelope := ⟨1, 0, .snapshot, Octets.zero 16, 7, some 5, none, some (-90)⟩
    let s : Rust.Snapshot := ⟨⟨.available, 1000, 20, .fresh, 1⟩,
      some ⟨.available, 1, 2, 3, .stale⟩, none, none, none,
      some ⟨.available, 10, .wifi, false, 1, 2,
        .available, 5, .observable, 6, some (Octets.zero 6), [72, 105], none, some [.wifi]⟩⟩
    ∃ f, Rust.encodeGroups e s = .ok f ∧ Rust.decode f = .ok (.snapshot e s) := by
  intro e s
  obtain ⟨haccepts, -, hback⟩ := snapshot_round_trip e s rfl rfl (by decide)
  have hvalid : SnapshotValid s := refusesGroups_eq_false.mp (by decide)
  obtain ⟨f, hf⟩ := haccepts.mpr ⟨hvalid, by simp [e]⟩
  exact ⟨f, hf, hback f hf⟩

end CydMonitor.Codec
