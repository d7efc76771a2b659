import CydMonitor.Codec.DeviceRoundTrip
import CydMonitor.Codec.SnapshotRoundTrip

/-!
# The order of the keys of a snapshot

The body's map and the groups' maps are read in any order of their keys, where an
envelope and a control body are not. In order, a snapshot frame has one form only.
-/

namespace CydMonitor.Codec

open Cbor Scan

/-- The check that `parse_envelope` and `decode_control_body` make on their keys: each
key is above the one before it. -/
def inOrder : Option ℕ → List ℕ → Bool
  | _, [] => true
  | prior, key :: keys => prior.all (· < key) && inOrder (some key) keys

/-- The keys of a frame's snapshot body and of its groups. -/
def frameNotes (frame : List UInt8) : Except Rust.Error (List Note) := do
  let (_, body) ← Rust.parseEnvelope frame
  run snapshotNotes body

/-- The check of the order, on the body's map and on each group's map. -/
def keysInOrder (frame : List UInt8) : Bool :=
  match frameNotes frame with
  | .ok notes => inOrder none (notes.map Prod.fst) && notes.all fun n => inOrder none n.2
  | .error _ => false

/-- A frame whose envelope, body and groups contain no unknown keys. -/
def knownSnapshotKeys (frame : List UInt8) : Bool :=
  match Rust.framePayload frame, frameNotes frame with
  | .ok c, .ok notes => within 8 (run envelopeKeys c) &&
      notes.all fun n => n.1 ≤ 9 && n.2.all (· < groupKnown n.1)
  | _, _ => false

/-- Accepted as a snapshot, by the Host or by the device. -/
def AcceptedSnapshot (frame : List UInt8) : Prop :=
  (∃ e s, Rust.decode frame = .ok (.snapshot e s)) ∨
    ∃ d, Cpp.decode frame = .ok d ∧ d.envelope.type = Cpp.MessageType.kSnapshot

/-- Strictly increasing keys in the body's map and in each group's map, and, without
unknown keys, the bytes that both encoders write for what was decoded. -/
structure CanonicalSnapshot (frame : List UInt8) : Prop where
  increasing : ∃ notes, frameNotes frame = .ok notes ∧ (notes.map Prod.fst).Pairwise (· < ·) ∧
    ∀ n ∈ notes, n.2.Pairwise (· < ·)
  host : knownSnapshotKeys frame = true → ∀ e s, Rust.decode frame = .ok (.snapshot e s) →
    Rust.encodeGroups e s = .ok frame
  device : knownSnapshotKeys frame = true → ∀ d, Cpp.decode frame = .ok d →
    Cpp.encodeSnapshot d.envelope d.cpu d.groups = .ok frame

theorem inOrder_iff {prior : Option ℕ} {keys : List ℕ} :
    inOrder prior keys = true ↔
      (∀ old ∈ prior, ∀ k ∈ keys, old < k) ∧ keys.Pairwise (· < ·) := by
  induction keys generalizing prior with
  | nil => simp [inOrder]
  | cons key keys ih =>
    have hall : prior.all (· < key) = true ↔ ∀ old ∈ prior, old < key := by
      cases prior <;> simp
    rw [inOrder, Bool.and_eq_true, hall, ih, List.pairwise_cons]
    constructor
    · rintro ⟨hkey, hrest, hsorted⟩
      refine ⟨fun old hold => List.forall_mem_cons.mpr ⟨hkey old hold, fun k hk => ?_⟩,
        hrest key rfl, hsorted⟩
      exact (hkey old hold).trans (hrest key rfl k hk)
    · rintro ⟨hprior, hfirst, hsorted⟩
      refine ⟨fun old hold => hprior old hold key List.mem_cons_self, fun old hold => ?_, hsorted⟩
      obtain rfl : key = old := Option.some.inj hold
      exact hfirst

/-- The items that the final state of the Host's loop holds. -/
private theorem held_snapshotItems {st : Rust.CpuBody} {s : Rust.Snapshot}
    (hcpu : ∀ v ∈ st.cpu 1, v ≤ 1000) (hword : ∀ j, j = 2 ∨ j = 4 → ∀ v ∈ st.cpu j, v ≤ 2 ^ 32 - 1)
    (h : Rust.snapshotFrom st = .ok s) :
    (List.range 10).filterMap (BodyItem.held st) = snapshotItems s := by
  obtain ⟨v0, h0, h⟩ := required_bind_eq_ok.mp h
  obtain ⟨availability, hv0, h⟩ := except_bind_eq_ok.mp h
  obtain ⟨v1, h1, h⟩ := required_bind_eq_ok.mp h
  obtain ⟨v2, h2, h⟩ := required_bind_eq_ok.mp h
  obtain ⟨v3, h3, h⟩ := required_bind_eq_ok.mp h
  obtain ⟨freshness, hv3, h⟩ := except_bind_eq_ok.mp h
  obtain ⟨v4, h4, h⟩ := required_bind_eq_ok.mp h
  cases h
  rw [availabilityFrom_eq_ok] at hv0
  rw [freshnessFrom_eq_ok] at hv3
  have hutilization := toNat_half (v := v1) (by have hle := hcpu v1 h1; omega)
  have hage := toNat_word_of_le (hword 2 (by omega) v2 h2)
  have hrevision := toNat_word_of_le (hword 4 (by omega) v4 h4)
  have hrange : List.range 10 = [0, 1, 2, 3, 4] ++ [5] ++ [6] ++ [7] ++ [8] ++ [9] := rfl
  have hone {α : Type} (o : Option α) (f : α → BodyItem) (g : ℕ → Option BodyItem) (j : ℕ)
      (hg : g j = o.map f) : [j].filterMap g = o.toList.map f := by
    cases o <;> simp [hg]
  rw [hrange]
  simp only [List.filterMap_append, hone st.ram .ram (BodyItem.held st) 5 rfl,
    hone st.storage .storage (BodyItem.held st) 6 rfl,
    hone st.battery .battery (BodyItem.held st) 7 rfl,
    hone st.agents .agents (BodyItem.held st) 8 rfl,
    hone st.network .network (BodyItem.held st) 9 rfl]
  simp [snapshotItems, groupItems, cpuValues, numbered, BodyItem.held, h0, h1, h2, h3, h4, hv0, hv3,
    hutilization, hage, hrevision]

/-- A body whose keys are known and in order is the one that the encoder writes. -/
theorem snapshotBody_canonical {u r' : List UInt8} {s : Rust.Snapshot} {notes : List Note}
    (h : Rust.decodeCpuBody u = .ok s) (hnotes : snapshotNotes u = .ok (notes, r'))
    (hsorted : (notes.map Prod.fst).Pairwise (· < ·)) (hcanonical : ∀ n ∈ notes, CanonicalNote n) :
    SnapshotValid s ∧ u = Rust.snapshotBody s := by
  obtain ⟨st, m, hfields, hlift⟩ := bind_eq_ok.mp (decodeCpuBody_eq_ok.mp h)
  obtain ⟨hfrom, rfl⟩ := lift_eq_ok.mp hlift
  obtain ⟨count, l, hcount, h₁⟩ := bind_eq_ok.mp hfields
  obtain ⟨-, hloop⟩ := ensure_bind_eq_ok.mp h₁
  obtain ⟨count', l', hcount', hprobe⟩ := bind_eq_ok.mp hnotes
  rw [hcount] at hcount'
  cases hcount'
  obtain ⟨-, js, items, hjs, hmap, hlen, hadmits, hl, hst⟩ :=
    items_of_loop (R := fun n i => BodyItem.key i = n.1)
      (fun _ _ _ _ notes h => body_round notes h) hloop hprobe hcanonical
  obtain rfl : notes = js := hjs
  have hkeys : items.map BodyItem.key = notes.map Prod.fst :=
    (List.forall₂_eq_eq_eq ▸ List.forall₂_map_left_iff.mpr
      (List.forall₂_map_right_iff.mpr (hmap.flip.imp fun _ _ h => h)))
  have hlt : ∀ i ∈ items, BodyItem.key i < 10 := fun i hi => by
    obtain ⟨n, hn, hkey⟩ := List.mem_map.mp (hkeys ▸ List.mem_map_of_mem hi)
    have hle := (hcanonical n hn).1
    omega
  have hitems := items_sorted (fun _ _ h => BodyItem.held_store h) hadmits
    (hkeys.symm ▸ hsorted) hlt fun j => by simp [BodyItem.held]
  rw [← hst] at hitems
  have hnumber (j v : ℕ) (hj : j < 5) (hv : v ∈ st.cpu j) : (BodyItem.number j v).Typed := by
    have hmem : .number j v ∈ items := by
      rw [← hitems]
      apply List.mem_filterMap.mpr
      refine ⟨j, List.mem_range.mpr (by omega), ?_⟩
      rw [BodyItem.held, if_pos hj, Option.mem_def.mp hv]
      rfl
    obtain ⟨_, hfits⟩ := hadmits.exists_fits hmem
    exact hfits.typed
  have hfinal : items = snapshotItems s := by
    rw [← hitems]
    refine held_snapshotItems (fun v hv => ?_) (fun j hj v hv => ?_) hfrom
    · have htyped := (hnumber 1 v (by omega) hv).2.2
      omega
    · have htyped := (hnumber j v (by omega) hv).2.2
      omega
  have hgroup (i : BodyItem) (hi : i ∈ groupItems s) : i.Typed := by
    have hmem : i ∈ items := hfinal ▸ List.mem_append_right _ hi
    obtain ⟨_, hfits⟩ := hadmits.exists_fits hmem
    exact hfits.typed
  refine ⟨⟨fun a ha => hgroup (.ram a) ?_, fun a ha => hgroup (.storage a) ?_,
    fun a ha => hgroup (.battery a) ?_, fun a ha => hgroup (.agents a) ?_,
    fun a ha => hgroup (.network a) ?_⟩, ?_⟩
  · simp [groupItems, Option.mem_def.mp ha]
  · simp [groupItems, Option.mem_def.mp ha]
  · simp [groupItems, Option.mem_def.mp ha]
  · simp [groupItems, Option.mem_def.mp ha]
  · simp [groupItems, Option.mem_def.mp ha]
  · rw [snapshotBody_eq, (expectUint_eq_ok hcount).1, hl, ← hlen, hfinal, uint_eq_head,
      List.append_nil]

private theorem snapshot_of_decode {f : List UInt8} {e : Rust.Envelope} {s : Rust.Snapshot}
    (h : Rust.decode f = .ok (.snapshot e s)) :
    ∃ c u, Rust.framePayload f = .ok c ∧ Rust.parsePayload c = .ok (e, u) ∧
      Rust.decodeCpuBody u = .ok s := by
  obtain ⟨⟨e', u⟩, hparse, h₁⟩ := except_bind_eq_ok.mp h
  obtain ⟨c, hc, hpayload⟩ := except_bind_eq_ok.mp hparse
  dsimp only at h₁
  split_ifs at h₁ with hkind
  · obtain ⟨s', hs, h₂⟩ := except_bind_eq_ok.mp h₁
    cases h₂
    exact ⟨c, u, hc, hpayload, hs⟩
  · obtain ⟨b, -, h₂⟩ := except_bind_eq_ok.mp h₁
    cases h₂

/-- The notes of an accepted frame. -/
private theorem exists_notes {f c u : List UInt8} {e : Rust.Envelope} {s : Rust.Snapshot}
    (hc : Rust.framePayload f = .ok c) (hparse : Rust.parsePayload c = .ok (e, u))
    (hs : Rust.decodeCpuBody u = .ok s) :
    ∃ notes r, snapshotNotes u = .ok (notes, r) ∧ frameNotes f = .ok notes := by
  obtain ⟨st, m, hfields, -⟩ := bind_eq_ok.mp (decodeCpuBody_eq_ok.mp hs)
  obtain ⟨count, l, hcount, h₁⟩ := bind_eq_ok.mp hfields
  obtain ⟨-, hloop⟩ := ensure_bind_eq_ok.mp h₁
  obtain ⟨notes, hprobe⟩ := loop_noted
    (fun _ _ _ _ notes h => (body_round notes h).imp fun _ h => h.1) [] hloop
  have hnotes : snapshotNotes u = .ok (notes, m) := bind_eq_ok.mpr ⟨count, l, hcount, hprobe⟩
  refine ⟨notes, m, hnotes, ?_⟩
  rw [frameNotes, Rust.parseEnvelope, hc, except_ok_bind, hparse, except_ok_bind]
  exact run_eq_ok.mpr ⟨m, hnotes⟩

/-- What the Host accepts as a snapshot without unknown keys and in order is what both
encoders write. -/
private theorem encodeGroups_of_decode {f : List UInt8} {e : Rust.Envelope} {s : Rust.Snapshot}
    (h : Rust.decode f = .ok (.snapshot e s)) (horder : keysInOrder f = true)
    (hknown : knownSnapshotKeys f = true) : Rust.encodeGroups e s = .ok f := by
  obtain ⟨c, u, hc, hparse, hs⟩ := snapshot_of_decode h
  obtain ⟨notes, r, hnotes, hframe⟩ := exists_notes hc hparse hs
  rw [keysInOrder, hframe] at horder
  obtain ⟨hbody, hgroups⟩ := Bool.and_eq_true_iff.mp horder
  rw [knownSnapshotKeys, hc, hframe] at hknown
  obtain ⟨henvelope, hkeys⟩ := Bool.and_eq_true_iff.mp hknown
  have hcanonical : ∀ n ∈ notes, CanonicalNote n := by
    intro n hn
    have hn9 := List.all_eq_true.mp hkeys n hn
    have hsorted := List.all_eq_true.mp hgroups n hn
    rw [Bool.and_eq_true, decide_eq_true_eq, List.all_eq_true] at hn9
    exact ⟨hn9.1, (inOrder_iff.mp hsorted).2, fun k hk => of_decide_eq_true (hn9.2 k hk)⟩
  obtain ⟨hvalid, rfl⟩ := snapshotBody_canonical hs hnotes (inOrder_iff.mp hbody).2 hcanonical
  obtain ⟨-, tail, htail, rfl⟩ := payload_canonical hparse henvelope
  obtain ⟨rfl, -, -⟩ := framePayload_eq_ok.mp hc
  exact encodeGroups_eq_ok.mpr ⟨hvalid, tail, htail, encodeGroups_fits hvalid htail⟩

/-- An accepted snapshot frame is the Host's and the device's. -/
private theorem accepted_both {f : List UInt8} (h : AcceptedSnapshot f) :
    ∃ e s, Rust.decode f = .ok (.snapshot e s) ∧ Cpp.decode f = .ok (image (.snapshot e s)) := by
  rcases h with ⟨e, s, h⟩ | ⟨d, hd, htype⟩
  · exact ⟨e, s, h, decode_image h⟩
  · obtain ⟨m, hm, rfl⟩ := exists_image hd
    cases m with
    | snapshot e s => exact ⟨e, s, hm, hd⟩
    | control e b =>
      have hsnapshot : typeOf e.kind = typeOf .snapshot := by cases b <;> exact htype
      have hkind := (control_kind hm).symm.trans (typeOf_injective hsnapshot)
      cases b <;> cases hkind

/-- **The order of the keys.** The frame of an accepted snapshot is canonical exactly when
the order check of the envelope and the control bodies would pass on its body and groups. -/
theorem snapshot_canonical_iff (f : List UInt8) (h : AcceptedSnapshot f) :
    CanonicalSnapshot f ↔ keysInOrder f = true := by
  obtain ⟨e, s, hhost, hdevice⟩ := accepted_both h
  obtain ⟨c, u, hc, hparse, hs⟩ := snapshot_of_decode hhost
  obtain ⟨notes, r, hnotes, hframe⟩ := exists_notes hc hparse hs
  constructor
  · intro hcanonical
    obtain ⟨notes', hframe', hbody, hgroups⟩ := hcanonical.increasing
    rw [hframe'] at hframe
    cases hframe
    rw [keysInOrder, hframe', Bool.and_eq_true, List.all_eq_true]
    exact ⟨inOrder_iff.mpr ⟨by simp, hbody⟩, fun n hn => inOrder_iff.mpr ⟨by simp, hgroups n hn⟩⟩
  · intro horder
    have hsplit := horder
    rw [keysInOrder, hframe, Bool.and_eq_true, List.all_eq_true] at hsplit
    refine ⟨⟨notes, hframe, (inOrder_iff.mp hsplit.1).2, fun n hn =>
      (inOrder_iff.mp (hsplit.2 n hn)).2⟩, fun hknown e' s' h' => ?_, fun hknown d hd => ?_⟩
    · exact encodeGroups_of_decode h' horder hknown
    · rw [hdevice] at hd
      cases hd
      change Cpp.encodeSnapshot (ofEnvelope e) (ofCpu s.cpu) (ofGroups s) = _
      rw [encodeSnapshot_eq, encodeGroups_of_decode hhost horder hknown]
      rfl

/-- A snapshot whose utilization comes before its availability is accepted, and encoded
again it has other bytes. -/
theorem snapshot_canonical_fails :
    let e : Rust.Envelope := ⟨1, 0, .snapshot, Octets.zero 16, 7, none, none, none⟩
    let body := [0xa5] ++ Rust.uintEntries [(1, 500), (0, 0), (2, 20), (3, 0), (4, 1)]
    let f := Rust.sealFrame (Rust.envelopeStart e ++ body)
    AcceptedSnapshot f ∧ knownSnapshotKeys f = true ∧ ¬CanonicalSnapshot f := by
  intro e body f
  have hdecode : Rust.decode f = .ok (.snapshot e
      ⟨⟨.available, 500, 20, .fresh, 1⟩, none, none, none, none, none⟩) := by decide +kernel
  have hnotes : frameNotes f = .ok [(1, []), (0, []), (2, []), (3, []), (4, [])] := by
    decide +kernel
  refine ⟨Or.inl ⟨_, _, hdecode⟩, by decide +kernel, fun hcanonical => ?_⟩
  obtain ⟨notes, hframe, hsorted, -⟩ := hcanonical.increasing
  rw [hnotes] at hframe
  cases hframe
  exact absurd hsorted (by decide)

/-- In order, a frame is canonical. -/
theorem snapshot_canonical_iff_cpu :
    let e : Rust.Envelope := ⟨1, 0, .snapshot, Octets.zero 16, 7, none, none, none⟩
    let body := [0xa5] ++ Rust.uintEntries [(0, 0), (1, 500), (2, 20), (3, 0), (4, 1)]
    CanonicalSnapshot (Rust.sealFrame (Rust.envelopeStart e ++ body)) := by
  intro e body
  have hdecode : Rust.decode (Rust.sealFrame (Rust.envelopeStart e ++ body)) = .ok (.snapshot e
      ⟨⟨.available, 500, 20, .fresh, 1⟩, none, none, none, none, none⟩) := by decide +kernel
  exact (snapshot_canonical_iff _ (Or.inl ⟨_, _, hdecode⟩)).mpr (by decide +kernel)

end CydMonitor.Codec
