import CydMonitor.Cpp.Encoder
import CydMonitor.Codec.ControlRoundTrip

/-!
# The two encoders

The encoders write the same frame for the same message, or refuse it alike.
-/

namespace CydMonitor.Codec

open Cbor Scan

/-- A Host result with the device's name for its error. -/
def ofResult {α : Type} (x : Except Rust.Error α) : Except Cpp.Error α := x.mapError ofError

@[simp] theorem ofResult_ok {α : Type} (a : α) : ofResult (.ok a) = .ok a := rfl

@[simp] theorem ofResult_error {α : Type} (e : Rust.Error) :
    ofResult (.error e : Except Rust.Error α) = .error (ofError e) := rfl

theorem ofResult_eq_ok {α : Type} {x : Except Rust.Error α} {a : α} :
    ofResult x = .ok a ↔ x = .ok a := by
  cases x <;> simp

private theorem code_toNat (kind : Rust.MessageType) :
    (UInt8.ofNat kind.code).toNat = kind.code := by
  cases kind <;> rfl

theorem envelopeStart_eq (e : Rust.Envelope) :
    Cpp.envelopeStart (ofEnvelope e) = Rust.envelopeStart e := by
  have hhead : UInt8.ofNat (0xa0 ||| (6 + e.utcMs.isSome.toNat + e.utcUncertaintyMs.isSome.toNat +
      e.localOffsetMinutes.isSome.toNat)) =
      UInt8.ofNat (0xa6 + e.utcMs.isSome.toNat + e.utcUncertaintyMs.isSome.toNat +
        e.localOffsetMinutes.isSome.toNat) := by
    cases e.utcMs.isSome <;> cases e.utcUncertaintyMs.isSome <;>
      cases e.localOffsetMinutes.isSome <;> rfl
  unfold Cpp.envelopeStart Rust.envelopeStart ofEnvelope Cpp.byteString Rust.bytesEntry
  simp only [hhead, code_toNat, List.append_assoc]
  rfl

theorem envelopeEnd_eq (e : Rust.Envelope) :
    Cpp.envelopeEnd (ofEnvelope e) = ofResult (Rust.envelopeEnd e) := by
  unfold Cpp.envelopeEnd Rust.envelopeEnd
  cases h : e.localOffsetMinutes with
  | none =>
    simp only [ofEnvelope, h]
    rfl
  | some offset =>
    simp only [ofEnvelope, h]
    by_cases hrange : offset < -1440 ∨ 1440 < offset
    · rw [if_pos hrange, if_pos hrange]
      rfl
    · rw [if_neg hrange, if_neg hrange]
      rfl

/-- A group of the snapshot is written alike when its check and its bytes agree. -/
private theorem group_eq {α β : Type} {f : α → β} {bad : α → Bool} {malformed : β → Bool}
    {hostBytes : α → List UInt8} {deviceBytes : β → List UInt8}
    (hbad : ∀ a, malformed (f a) = bad a) (hbytes : ∀ a, deviceBytes (f a) = hostBytes a)
    (o : Option α) :
    Cpp.group malformed deviceBytes (o.map f) =
      if o.any bad then .error .kMalformed else .ok (o.elim [] hostBytes) := by
  cases o with
  | none => rfl
  | some a =>
    simp only [Option.map_some, Cpp.group, hbad, hbytes, Option.any_some, Option.elim_some]

private theorem availability_toNat (a : Rust.Availability) :
    (UInt8.ofNat a.code).toNat = a.code := by
  cases a <;> rfl

private theorem freshness_toNat (f : Rust.Freshness) : (UInt8.ofNat f.code).toNat = f.code := by
  cases f <;> rfl

private theorem ramBytes_eq (r : Rust.RamSnapshot) :
    Cpp.ramBytes (ofRam r) = Rust.ramGroup r := by
  unfold Cpp.ramBytes Rust.ramGroup ofRam
  simp only [availability_toNat, freshness_toNat]
  rfl

private theorem storageBytes_eq (s : Rust.StorageSnapshot) :
    Cpp.storageBytes (ofStorage s) = Rust.storageGroup s := by
  unfold Cpp.storageBytes Rust.storageGroup ofStorage
  simp only [availability_toNat]
  rfl

private theorem batteryBytes_eq (b : Rust.BatterySnapshot) :
    Cpp.batteryBytes (ofBattery b) = Rust.batteryGroup b := by
  unfold Cpp.batteryBytes Rust.batteryGroup ofBattery
  simp only [availability_toNat]
  rfl

private theorem agentsBytes_eq (a : Rust.AgentsSnapshot) :
    Cpp.agentsBytes (ofAgents a) = Rust.agentsGroup a := by
  unfold Cpp.agentsBytes Rust.agentsGroup ofAgents
  simp only [availability_toNat]
  rfl

private theorem networkBytes_eq (n : Rust.NetworkSnapshot) :
    Cpp.networkBytes (ofNetwork n) = Rust.networkGroup n := by
  have hroute : (UInt8.ofNat n.routeKind.code).toNat = n.routeKind.code := by
    cases n.routeKind <;> rfl
  have hcontext : (UInt8.ofNat n.contextAvailability.code).toNat = n.contextAvailability.code := by
    cases n.contextAvailability <;> rfl
  have hcoverage : (UInt8.ofNat n.coverage.code).toNat = n.coverage.code := by
    cases n.coverage <;> rfl
  have htunnel : (if n.viaTunnel then 1 else 0) = n.viaTunnel.toNat := by
    cases n.viaTunnel <;> rfl
  have hentry (key : ℕ) (v : List UInt8) :
      Rust.bytesEntry key v = Cpp.uInt 0 key ++ Cpp.byteString v := by
    rw [Rust.bytesEntry, List.append_assoc]
    rfl
  have hhead : Cpp.map (if (n.links.map ofLinks).isSome then 14 else 13) =
      [if n.links.isSome then 0xae else 0xad] := by
    rw [Option.isSome_map]
    cases n.links.isSome <;> rfl
  have hlinks : ((n.links.map ofLinks).elim [] fun links =>
      Cpp.uInt 0 13 ++ Cpp.byteString links) =
      n.links.elim [] fun links => Rust.bytesEntry 13 (links.map fun k => UInt8.ofNat k.code) := by
    cases n.links with
    | none => rfl
    | some links => exact (hentry 13 _).symm
  unfold Cpp.networkBytes Rust.networkGroup ofNetwork
  simp only [availability_toNat, hroute, hcontext, hcoverage, htunnel, hhead, hlinks, hentry,
    List.append_assoc]
  rfl

/-- Both encoders write the same snapshot body, or find it malformed. -/
theorem encodeGroups_eq (s : Rust.Snapshot) :
    Cpp.encodeGroups (ofCpu s.cpu) (ofGroups s) =
      if Rust.refusesGroups s then .error .kMalformed else .ok (Rust.snapshotBody s) := by
  have hram : Cpp.group (fun r => r.usedBytes > r.totalBytes) Cpp.ramBytes (s.ram.map ofRam) =
      if s.ram.any (fun r => r.usedBytes > r.totalBytes) then .error .kMalformed
      else .ok (s.ram.elim [] Rust.ramGroup) := group_eq (fun _ => rfl) ramBytes_eq s.ram
  have hstorage : Cpp.group (fun s => s.availableBytes > s.totalBytes) Cpp.storageBytes
      (s.storage.map ofStorage) =
      if s.storage.any (fun s => s.availableBytes > s.totalBytes) then .error .kMalformed
      else .ok (s.storage.elim [] Rust.storageGroup) :=
    group_eq (fun _ => rfl) storageBytes_eq s.storage
  have hbattery : Cpp.group (fun b => b.chargePerMille > 1000 || b.maxCapacityPerMille > 1000 ||
      b.state > .kAcIdle || b.condition > .kPoor) Cpp.batteryBytes (s.battery.map ofBattery) =
      if s.battery.any (fun b => b.chargePerMille > 1000 || b.maxCapacityPerMille > 1000 ||
        b.state > 4 || b.condition > 3) then .error .kMalformed
      else .ok (s.battery.elim [] Rust.batteryGroup) :=
    group_eq (fun _ => rfl) batteryBytes_eq s.battery
  have hagents : Cpp.group (fun a => a.state.val.any fun s => s > Cpp.AgentState.kIdle)
      Cpp.agentsBytes (s.agents.map ofAgents) =
      if s.agents.any (fun a => a.state.val.any fun s => s > 3) then .error .kMalformed
      else .ok (s.agents.elim [] Rust.agentsGroup) :=
    group_eq (fun _ => rfl) agentsBytes_eq s.agents
  have hnetwork : Cpp.group (fun n => !Cpp.validNetwork n) Cpp.networkBytes
      (s.network.map ofNetwork) =
      if s.network.any (fun n => !n.isValid) then .error .kMalformed
      else .ok (s.network.elim [] Rust.networkGroup) :=
    group_eq (fun n => by rw [validNetwork_ofNetwork]) networkBytes_eq s.network
  have hhead : Cpp.map (5 + s.ram.isSome.toNat + s.storage.isSome.toNat + s.battery.isSome.toNat +
      s.agents.isSome.toNat + s.network.isSome.toNat) =
      [UInt8.ofNat (0xa5 + s.ram.isSome.toNat + s.storage.isSome.toNat + s.battery.isSome.toNat +
        s.agents.isSome.toNat + s.network.isSome.toNat)] := by
    cases s.ram.isSome <;> cases s.storage.isSome <;> cases s.battery.isSome <;>
      cases s.agents.isSome <;> cases s.network.isSome <;> rfl
  have hcpu : Cpp.cpuBytes (ofCpu s.cpu) = Rust.cpuEntries s.cpu := by
    unfold Cpp.cpuBytes Rust.cpuEntries ofCpu
    simp only [availability_toNat, freshness_toNat]
    rfl
  unfold Cpp.encodeGroups Rust.refusesGroups Rust.snapshotBody
  simp only [ofGroups, Option.isSome_map, hram, hstorage, hbattery, hagents, hnetwork, hhead, hcpu]
  -- the device stops at the first malformed group, the Host looks at all of them first
  cases s.ram.any _
  case true => rfl
  cases s.storage.any _
  case true => rfl
  cases s.battery.any _
  case true => rfl
  cases s.agents.any _
  case true => rfl
  cases s.network.any _ <;> rfl

/-- Both encoders finish a message body alike. -/
theorem sealed_eq {d : Cpp.Envelope} {e : Rust.Envelope}
    (hstart : Cpp.envelopeStart d = Rust.envelopeStart e)
    (hend : Cpp.envelopeEnd d = ofResult (Rust.envelopeEnd e))
    {snapshot : Option (Cpp.CpuSnapshot × Cpp.SnapshotGroups)} {u : List UInt8}
    (h : Cpp.messageBody d snapshot = .ok u) :
    Cpp.sealFrame <$> Cpp.encodeBody d snapshot =
      ofResult (Rust.envelopeEnd e >>= fun tail =>
        Rust.finishFrame (Rust.envelopeStart e ++ u ++ tail)) := by
  have hmax : Cpp.kMaxFrameBytes = Rust.maxFrameBytes := rfl
  unfold Cpp.encodeBody
  rw [h, except_ok_bind, hend, hstart]
  cases Rust.envelopeEnd e with
  | error err => rfl
  | ok tail =>
    simp only [ofResult_ok, except_ok_bind, Rust.finishFrame, hmax]
    split_ifs with hsmall hlarge hlarge
    · omega
    · rfl
    · rfl
    · omega

/-- Both encoders write the same frame for a snapshot, or refuse it alike. -/
theorem encodeSnapshot_eq (e : Rust.Envelope) (s : Rust.Snapshot) :
    Cpp.encodeSnapshot (ofEnvelope e) (ofCpu s.cpu) (ofGroups s) =
      ofResult (Rust.encodeGroups e s) := by
  have hbody : Cpp.messageBody (ofEnvelope e) (some (ofCpu s.cpu, ofGroups s)) =
      if Rust.refusesGroups s then .error .kMalformed else .ok (Rust.snapshotBody s) :=
    encodeGroups_eq s
  unfold Cpp.encodeSnapshot Rust.encodeGroups
  cases hrefuses : Rust.refusesGroups s with
  | true =>
    rw [hrefuses, if_pos rfl] at hbody
    unfold Cpp.encodeBody
    rw [hbody]
    rfl
  | false =>
    rw [hrefuses, if_neg Bool.false_ne_true] at hbody
    rw [sealed_eq (envelopeStart_eq e) (envelopeEnd_eq e) hbody]
    rfl

/-- For every snapshot both encoders refuse it or both write the same bytes. -/
theorem snapshot_encoders_agree (e : Rust.Envelope) (s : Rust.Snapshot) :
    (∃ err err', Rust.encodeGroups e s = .error err ∧
      Cpp.encodeSnapshot (ofEnvelope e) (ofCpu s.cpu) (ofGroups s) = .error err') ∨
    ∃ f, Rust.encodeGroups e s = .ok f ∧
      Cpp.encodeSnapshot (ofEnvelope e) (ofCpu s.cpu) (ofGroups s) = .ok f := by
  rw [encodeSnapshot_eq]
  cases Rust.encodeGroups e s with
  | error err => exact Or.inl ⟨err, ofError err, rfl, rfl⟩
  | ok f => exact Or.inr ⟨f, rfl, rfl⟩

end CydMonitor.Codec
