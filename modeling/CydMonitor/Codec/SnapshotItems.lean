import CydMonitor.Codec.MetricGroups

/-!
# The items of the snapshot body

The CPU numbers and the metric groups of a snapshot, as the Host's loop reads them.
-/

namespace CydMonitor.Codec

open Cbor Scan

/-- An item of the body's map. -/
inductive BodyItem where
  | number (key value : ℕ)
  | ram (group : Rust.RamSnapshot)
  | storage (group : Rust.StorageSnapshot)
  | battery (group : Rust.BatterySnapshot)
  | agents (group : Rust.AgentsSnapshot)
  | network (group : Rust.NetworkSnapshot)

namespace BodyItem

def key : BodyItem → ℕ
  | number key _ => key
  | ram _ => 5
  | storage _ => 6
  | battery _ => 7
  | agents _ => 8
  | network _ => 9

def bytes : BodyItem → List UInt8
  | number key value => Rust.uintEntries [(key, value)]
  | ram group => Rust.ramGroup group
  | storage group => Rust.storageGroup group
  | battery group => Rust.batteryGroup group
  | agents group => Rust.agentsGroup group
  | network group => Rust.networkGroup group

def store (s : Rust.CpuBody) : BodyItem → Rust.CpuBody
  | number key value => { s with cpu := Function.update s.cpu key (some value) }
  | ram group => { s with ram := some group }
  | storage group => { s with storage := some group }
  | battery group => { s with battery := some group }
  | agents group => { s with agents := some group }
  | network group => { s with network := some group }

/-- The item that the Host's locals hold for a key. -/
def held (s : Rust.CpuBody) (j : ℕ) : Option BodyItem :=
  if j < 5 then (s.cpu j).map (number j)
  else if j = 5 then s.ram.map ram
  else if j = 6 then s.storage.map storage
  else if j = 7 then s.battery.map battery
  else if j = 8 then s.agents.map agents
  else if j = 9 then s.network.map network
  else none

/-- A number within its bound, a group that its decoder accepts. -/
def Typed : BodyItem → Prop
  | number q value => q < 5 ∧ value < 2 ^ 64 ∧ ¬(((q = 0 ∨ q = 3) ∧ value > 255) ∨
      (q = 1 ∧ value > 1000) ∨ ((q = 2 ∨ q = 4) ∧ value > 2 ^ 32 - 1))
  | ram group => ramNumbered.metric.Valid group
  | storage group => storageNumbered.metric.Valid group
  | battery group => batteryNumbered.metric.Valid group
  | agents group => agentsNumbered.metric.Valid group
  | network group => networkMetric.Valid group

structure Fits (s : Rust.CpuBody) (i : BodyItem) : Prop where
  typed : i.Typed
  fresh : held s i.key = none

theorem held_store {s : Rust.CpuBody} {i : BodyItem} (h : i.Fits s) :
    held (i.store s) = Function.update (held s) i.key (some i) := by
  funext j
  have hother (hj : j ≠ i.key) : held (i.store s) j = held s j := by
    cases i <;> simp only [held, store, key] at hj ⊢ <;> simp [hj]
  by_cases hj : j = i.key
  · subst hj
    rw [Function.update_self]
    cases i with
    | number q w => simp [held, store, key, h.typed.1]
    | _ => rfl
  · rw [Function.update_of_ne hj, hother hj]

end BodyItem

private theorem reads_group {α σ : Type} {p : Scan UInt8 Rust.Error α} {u : List UInt8} {a : α}
    (h : Reads p u a) (store : α → σ) :
    Reads (Rust.groupOnce none p >>= fun a => pure (store a) : Scan UInt8 Rust.Error σ) u
      (store a) :=
  Reads.bind_nil (Reads.ensure_bind rfl h) (Reads.pure _)

theorem reads_bodyEntry {s : Rust.CpuBody} {i : BodyItem} (h : i.Fits s) :
    Reads (Rust.cpuEntry s) i.bytes (i.store s) := by
  obtain ⟨htyped, hfresh⟩ := h
  cases i with
  | number q w =>
    obtain ⟨hq, hw, hrange⟩ := htyped
    have hnone : s.cpu q = none := by simpa [BodyItem.held, BodyItem.key, hq] using hfresh
    rw [BodyItem.bytes, uintEntries_single, uint_eq_head]
    refine (reads_expectUint (by omega) (by omega)).bind ?_
    rw [if_neg (by omega), if_neg (by omega), if_neg (by omega), if_neg (by omega),
      if_neg (by omega), if_neg (by omega)]
    exact Reads.ensure_bind hnone (reads_number hw (Reads.ensure_bind hrange (Reads.pure _)))
  | ram group =>
    have hnone : s.ram = none := by simpa [BodyItem.held, BodyItem.key] using hfresh
    rw [BodyItem.bytes, ramGroup_eq, uint_eq_head 0]
    refine (reads_expectUint (by omega) (by omega)).bind ?_
    rw [if_pos rfl, hnone]
    exact reads_group (ramNumbered.metric.reads _ htyped) _
  | storage group =>
    have hnone : s.storage = none := by simpa [BodyItem.held, BodyItem.key] using hfresh
    rw [BodyItem.bytes, storageGroup_eq, uint_eq_head 0]
    refine (reads_expectUint (by omega) (by omega)).bind ?_
    rw [if_neg (by omega), if_pos rfl, hnone, decodeStorageGroup_eq]
    exact reads_group (storageNumbered.metric.reads _ htyped) _
  | battery group =>
    have hnone : s.battery = none := by simpa [BodyItem.held, BodyItem.key] using hfresh
    rw [BodyItem.bytes, batteryGroup_eq, uint_eq_head 0]
    refine (reads_expectUint (by omega) (by omega)).bind ?_
    rw [if_neg (by omega), if_neg (by omega), if_pos rfl, hnone, decodeBatteryGroup_eq]
    exact reads_group (batteryNumbered.metric.reads _ htyped) _
  | agents group =>
    have hnone : s.agents = none := by simpa [BodyItem.held, BodyItem.key] using hfresh
    rw [BodyItem.bytes, agentsGroup_eq, uint_eq_head 0]
    refine (reads_expectUint (by omega) (by omega)).bind ?_
    rw [if_neg (by omega), if_neg (by omega), if_neg (by omega), if_pos rfl, hnone,
      decodeAgentsGroup_eq]
    exact reads_group (agentsNumbered.metric.reads _ htyped) _
  | network group =>
    have hnone : s.network = none := by simpa [BodyItem.held, BodyItem.key] using hfresh
    rw [BodyItem.bytes, networkGroup_eq, uint_eq_head 0]
    refine (reads_expectUint (by omega) (by omega)).bind ?_
    rw [if_neg (by omega), if_neg (by omega), if_neg (by omega), if_neg (by omega), if_pos rfl,
      hnone]
    exact reads_group (networkMetric.reads _ htyped) _

/-- The number of known keys of the group under a body key. -/
def groupKnown : ℕ → ℕ
  | 5 => 5
  | 6 => 8
  | 7 => 10
  | 8 => 7
  | 9 => 14
  | _ => 0

/-- A body key with the keys of its group's map. -/
abbrev Note := ℕ × List ℕ

def groupNote (q : ℕ) : Scan UInt8 Rust.Error (List ℕ) :=
  if 5 ≤ q ∧ q ≤ 9 then groupKeys else do
    Rust.skipValue 4
    pure []

def noteEntry (notes : List Note) : Scan UInt8 Rust.Error (List Note) := do
  let q ← Rust.expectUint 0
  let keys ← groupNote q
  pure (notes ++ [(q, keys)])

/-- The keys of a snapshot body, with those of every group. -/
def snapshotNotes : Scan UInt8 Rust.Error (List Note) := do
  let count ← Rust.expectUint 5
  loop noteEntry count []

/-- A known key, over a group of known and strictly increasing keys. -/
def CanonicalNote (n : Note) : Prop :=
  n.1 ≤ 9 ∧ n.2.Pairwise (· < ·) ∧ ∀ k ∈ n.2, k < groupKnown n.1

private theorem group_round {α σ : Type} (G : MetricGroup α) {slot : Option α} {store : α → σ}
    {s' : σ} {l r : List UInt8} (h : (Rust.groupOnce slot G.decode >>= fun a => pure (store a) :
      Scan UInt8 Rust.Error σ) l = .ok (s', r)) :
    ∃ a keys, slot = none ∧ s' = store a ∧ groupKeys l = .ok (keys, r) ∧
      (keys.Pairwise (· < ·) → (∀ k ∈ keys, k < G.known) → G.Valid a ∧ l = G.bytes a ++ r) := by
  obtain ⟨a, m, hgroup, h₁⟩ := bind_eq_ok.mp h
  cases h₁
  obtain ⟨hslot, hdecode⟩ := ensure_bind_eq_ok.mp hgroup
  obtain ⟨keys, hkeys⟩ := G.keyed _ _ _ hdecode
  exact ⟨a, keys, Option.isNone_iff_eq_none.mp hslot, rfl, hkeys,
    G.canonical _ _ _ _ _ hdecode hkeys⟩

/-- A round of the loop and what it notes. -/
theorem body_round {s s' : Rust.CpuBody} {l r : List UInt8} (notes : List Note)
    (h : Rust.cpuEntry s l = .ok (s', r)) :
    ∃ n, noteEntry notes l = .ok (notes ++ [n], r) ∧
      (CanonicalNote n →
        ∃ i : BodyItem, i.key = n.1 ∧ i.Fits s ∧ l = i.bytes ++ r ∧ s' = i.store s) := by
  obtain ⟨q, m, hq, h₁⟩ := bind_eq_ok.mp h
  obtain ⟨rfl, -⟩ := expectUint_eq_ok hq
  have hgroup {keys : List ℕ} (hq9 : 5 ≤ q ∧ q ≤ 9) (hkeys : groupKeys m = .ok (keys, r)) :
      noteEntry notes (head 0 q ++ m) = .ok (notes ++ [(q, keys)], r) := by
    rw [noteEntry, bind_ok hq, groupNote, if_pos hq9, bind_ok hkeys]
    rfl
  have hplain (hq9 : ¬(5 ≤ q ∧ q ≤ 9)) (hskip : ∃ a, Rust.skipValue 4 m = .ok (a, r)) :
      noteEntry notes (head 0 q ++ m) = .ok (notes ++ [(q, [])], r) := by
    obtain ⟨a, ha⟩ := hskip
    rw [noteEntry, bind_ok hq, groupNote, if_neg hq9, bind_assoc, bind_ok ha]
    rfl
  split_ifs at h₁ with h5 h6 h7 h8 h9 h4
  · subst h5
    obtain ⟨a, keys, hslot, rfl, hkeys, hcanonical⟩ := group_round ramNumbered.metric h₁
    refine ⟨_, hgroup (by omega) hkeys, fun hnote => ⟨.ram a, rfl, ?_⟩⟩
    obtain ⟨hvalid, hm⟩ := hcanonical hnote.2.1 hnote.2.2
    refine ⟨⟨hvalid, by simp [BodyItem.held, BodyItem.key, hslot]⟩, ?_, rfl⟩
    rw [hm, BodyItem.bytes, ramGroup_eq, uint_eq_head 0, List.append_assoc]
  · subst h6
    obtain ⟨a, keys, hslot, rfl, hkeys, hcanonical⟩ :=
      group_round storageNumbered.metric (decodeStorageGroup_eq ▸ h₁)
    refine ⟨_, hgroup (by omega) hkeys, fun hnote => ⟨.storage a, rfl, ?_⟩⟩
    obtain ⟨hvalid, hm⟩ := hcanonical hnote.2.1 hnote.2.2
    refine ⟨⟨hvalid, by simp [BodyItem.held, BodyItem.key, hslot]⟩, ?_, rfl⟩
    rw [hm, BodyItem.bytes, storageGroup_eq, uint_eq_head 0, List.append_assoc]
  · subst h7
    obtain ⟨a, keys, hslot, rfl, hkeys, hcanonical⟩ :=
      group_round batteryNumbered.metric (decodeBatteryGroup_eq ▸ h₁)
    refine ⟨_, hgroup (by omega) hkeys, fun hnote => ⟨.battery a, rfl, ?_⟩⟩
    obtain ⟨hvalid, hm⟩ := hcanonical hnote.2.1 hnote.2.2
    refine ⟨⟨hvalid, by simp [BodyItem.held, BodyItem.key, hslot]⟩, ?_, rfl⟩
    rw [hm, BodyItem.bytes, batteryGroup_eq, uint_eq_head 0, List.append_assoc]
  · subst h8
    obtain ⟨a, keys, hslot, rfl, hkeys, hcanonical⟩ :=
      group_round agentsNumbered.metric (decodeAgentsGroup_eq ▸ h₁)
    refine ⟨_, hgroup (by omega) hkeys, fun hnote => ⟨.agents a, rfl, ?_⟩⟩
    obtain ⟨hvalid, hm⟩ := hcanonical hnote.2.1 hnote.2.2
    refine ⟨⟨hvalid, by simp [BodyItem.held, BodyItem.key, hslot]⟩, ?_, rfl⟩
    rw [hm, BodyItem.bytes, agentsGroup_eq, uint_eq_head 0, List.append_assoc]
  · subst h9
    obtain ⟨a, keys, hslot, rfl, hkeys, hcanonical⟩ := group_round networkMetric h₁
    refine ⟨_, hgroup (by omega) hkeys, fun hnote => ⟨.network a, rfl, ?_⟩⟩
    obtain ⟨hvalid, hm⟩ := hcanonical hnote.2.1 hnote.2.2
    refine ⟨⟨hvalid, by simp [BodyItem.held, BodyItem.key, hslot]⟩, ?_, rfl⟩
    rw [hm, BodyItem.bytes, networkGroup_eq, uint_eq_head 0, List.append_assoc]
  · obtain ⟨a, m', ha, h₂⟩ := bind_eq_ok.mp h₁
    cases h₂
    refine ⟨_, hplain (by omega) ⟨a, ha⟩, fun hnote => ?_⟩
    have hle : q ≤ 9 := hnote.1
    omega
  · obtain ⟨hfresh, h₂⟩ := ensure_bind_eq_ok.mp h₁
    obtain ⟨w, m', hw, h₃⟩ := bind_eq_ok.mp h₂
    obtain ⟨hrange, h₄⟩ := ensure_bind_eq_ok.mp h₃
    cases h₄
    obtain ⟨a, ha, -⟩ := covers_uint _ _ _ hw
    refine ⟨_, hplain (by omega) ⟨a, ha⟩, fun _ => ⟨.number q w, rfl, ?_⟩⟩
    obtain ⟨rfl, hsmall⟩ := expectUint_eq_ok hw
    refine ⟨⟨⟨by omega, hsmall, hrange⟩, ?_⟩, ?_, rfl⟩
    · simp [BodyItem.held, BodyItem.key, show q < 5 by omega, hfresh]
    · rw [BodyItem.bytes, uintEntries_single, uint_eq_head, uint_eq_head, List.append_assoc]

end CydMonitor.Codec
