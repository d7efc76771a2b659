import CydMonitor.Codec.GroupItems

/-!
# Groups of numbered fields

RAM, Storage, Battery and Agents are maps of numbers under consecutive keys. Such a
group is read back from its bytes, and a group whose keys are known and strictly
increasing has no other bytes.
-/

namespace CydMonitor.Codec

open Cbor Scan

/-- A group with `n` numbered fields: how a value is built from the fields, and which
fields a value has. -/
structure NumberedGroup (α : Type) where
  n : ℕ
  build : (ℕ → Option ℕ) → Except Rust.Error α
  values : α → List ℕ
  Valid : α → Prop
  small : n ≤ 16
  length_values : ∀ a, (values a).length = n
  values_lt : ∀ a, ∀ v ∈ values a, v < 2 ^ 64
  build_values : ∀ a, Valid a → build (fun j => (values a)[j]?) = .ok a
  values_build : ∀ value a, (∀ j < n, ∀ v ∈ value j, v < 2 ^ 64) → build value = .ok a →
    Valid a ∧ ∀ j < n, value j = (values a)[j]?

namespace NumberedGroup

variable {α : Type} (G : NumberedGroup α)

def decode : Scan UInt8 Rust.Error α := Rust.groupFields G.n >>= fun value => lift (G.build value)

def bytes (a : α) : List UInt8 := Rust.uint 5 G.n ++ Rust.uintEntries (numbered 0 (G.values a))

theorem reads_decode {a : α} (h : G.Valid a) : Reads G.decode (G.bytes a) a :=
  (reads_groupFields (G.length_values a) G.small (G.values_lt a)).bind_nil
    (Reads.lift (G.build_values a h))

end NumberedGroup

/-- The field that the Host's locals hold for a key. -/
def heldField (value : ℕ → Option ℕ) (j : ℕ) : Option (ℕ × ℕ) := (value j).map fun v => (j, v)

/-- The keys of a group's map. -/
def groupKeys : Scan UInt8 Rust.Error (List ℕ) := mapKeys fun _ => Rust.skipValue 4

theorem numbered_eq (i : ℕ) (vs : List ℕ) :
    (List.range vs.length).filterMap (fun j => vs[j]?.map fun v => (i + j, v)) = numbered i vs := by
  induction vs generalizing i with
  | nil => rfl
  | cons v vs ih =>
    rw [List.length_cons, List.range_succ_eq_map, List.filterMap_cons, List.filterMap_map]
    simp only [List.getElem?_cons_zero, Option.map_some, Nat.add_zero, numbered]
    congr 1
    rw [← ih (i + 1)]
    apply List.filterMap_congr
    intro j _
    simp [Nat.add_comm, Nat.add_left_comm]

theorem map_fst_numbered (i : ℕ) (vs : List ℕ) :
    (numbered i vs).map Prod.fst = List.range' i vs.length := by
  induction vs generalizing i with
  | nil => rfl
  | cons v vs ih => simp [numbered, ih, List.range'_succ]

/-- A group whose keys are known and strictly increasing is the one the encoder writes. -/
theorem NumberedGroup.canonical {α : Type} (G : NumberedGroup α) {l r r' : List UInt8} {a : α}
    {keys : List ℕ} (h : G.decode l = .ok (a, r)) (hkeys : groupKeys l = .ok (keys, r'))
    (hsorted : keys.Pairwise (· < ·)) (hknown : ∀ k ∈ keys, k < G.n) :
    G.Valid a ∧ l = G.bytes a ++ r ∧ keys = List.range G.n := by
  obtain ⟨value, m, hfields, hlift⟩ := bind_eq_ok.mp h
  obtain ⟨hbuild, rfl⟩ := lift_eq_ok.mp hlift
  obtain ⟨count, l₁, hcount, h₁⟩ := bind_eq_ok.mp hfields
  obtain ⟨-, hloop⟩ := ensure_bind_eq_ok.mp h₁
  obtain ⟨count', l₁', hcount', hprobe⟩ := bind_eq_ok.mp hkeys
  rw [hcount] at hcount'
  cases hcount'
  obtain ⟨rfl, js, fs, hjs, hmap, hlen, hadmits, hl, hvalue⟩ :=
    items_of_loop (R := fun j f => Prod.fst f = j) (fun _ _ _ _ keys h => field_round keys h) hloop
      hprobe hknown
  obtain rfl : keys = js := hjs
  replace hmap : fs.map Prod.fst = keys :=
    List.forall₂_eq_eq_eq ▸ List.forall₂_map_left_iff.mpr hmap.flip
  -- the fields, in key order, are what the loop holds
  have hheld (s : ℕ → Option ℕ) (f : ℕ × ℕ) (_ : FieldFits G.n s f) :
      heldField (storeField s f) = Function.update (heldField s) f.1 (some f) := by
    funext j
    by_cases hj : j = f.1
    · subst hj
      simp [heldField, storeField]
    · simp [heldField, storeField, hj]
  have hlt : ∀ f ∈ fs, f.1 < G.n := fun f hf =>
    hknown _ (hmap ▸ List.mem_map_of_mem hf)
  have hitems := items_sorted hheld hadmits (hmap.symm ▸ hsorted) hlt fun _ => rfl
  rw [← hvalue] at hitems
  have hbound : ∀ j < G.n, ∀ v ∈ value j, v < 2 ^ 64 := by
    intro j hj v hv
    have hmem : (j, v) ∈ fs := by
      rw [← hitems]
      exact List.mem_filterMap.mpr ⟨j, List.mem_range.mpr hj, by
        rw [heldField, Option.mem_def.mp hv]
        rfl⟩
    obtain ⟨_, hfits⟩ := hadmits.exists_fits hmem
    exact hfits.value
  obtain ⟨hvalid, hvalues⟩ := G.values_build value a hbound hbuild
  have hfs : fs = numbered 0 (G.values a) := by
    rw [← hitems, ← numbered_eq, G.length_values]
    apply List.filterMap_congr
    intro j hj
    rw [heldField, hvalues j (List.mem_range.mp hj), Nat.zero_add]
  refine ⟨hvalid, ?_, ?_⟩
  · rw [NumberedGroup.bytes, (expectUint_eq_ok hcount).1, hl, ← hlen, hfs, flatMap_numbered,
      length_numbered, G.length_values, uint_eq_head, List.append_assoc]
  · rw [← hmap, hfs, map_fst_numbered, G.length_values, List.range_eq_range']

theorem availabilityFrom_eq_ok {v : ℕ} {a : Rust.Availability} :
    Rust.availabilityFrom v = .ok a ↔ v = a.code := by
  constructor
  · intro h
    unfold Rust.availabilityFrom at h
    split at h <;> cases h <;> rfl
  · rintro rfl
    cases a <;> rfl

theorem freshnessFrom_eq_ok {v : ℕ} {f : Rust.Freshness} :
    Rust.freshnessFrom v = .ok f ↔ v = f.code := by
  constructor
  · intro h
    unfold Rust.freshnessFrom at h
    split at h <;> cases h <;> rfl
  · rintro rfl
    cases f <;> rfl

@[simp] theorem availabilityFrom_code (a : Rust.Availability) :
    Rust.availabilityFrom a.code = .ok a := availabilityFrom_eq_ok.mpr rfl

@[simp] theorem freshnessFrom_code (f : Rust.Freshness) : Rust.freshnessFrom f.code = .ok f :=
  freshnessFrom_eq_ok.mpr rfl

theorem availability_code_lt (a : Rust.Availability) : a.code < 2 ^ 64 := by
  cases a <;> decide

theorem freshness_code_lt (f : Rust.Freshness) : f.code < 2 ^ 64 := by
  cases f <;> decide

theorem toNat_long {v : ℕ} (h : v < 2 ^ 64) : (UInt64.ofNat v).toNat = v := by
  rw [UInt64.toNat_ofNat', Nat.mod_eq_of_lt h]

theorem toNat_word_of_le {v : ℕ} (h : v ≤ 2 ^ 32 - 1) : (UInt32.ofNat v).toNat = v := by
  rw [UInt32.toNat_ofNat', Nat.mod_eq_of_lt (by omega)]

theorem toNat_half {v : ℕ} (h : v ≤ 2 ^ 16 - 1) : (UInt16.ofNat v).toNat = v := by
  rw [UInt16.toNat_ofNat', Nat.mod_eq_of_lt (by omega)]

theorem toNat_byte_of_le {v : ℕ} (h : v ≤ 255) : (UInt8.ofNat v).toNat = v := by
  rw [UInt8.toNat_ofNat', Nat.mod_eq_of_lt (by omega)]

def ramValues (r : Rust.RamSnapshot) : List ℕ :=
  [r.availability.code, r.usedBytes.toNat, r.totalBytes.toNat, r.sourceAgeMs.toNat,
    r.freshness.code]

def ramNumbered : NumberedGroup Rust.RamSnapshot where
  n := 5
  build := Rust.ramFrom
  values := ramValues
  Valid r := r.usedBytes ≤ r.totalBytes
  small := by omega
  length_values _ := rfl
  values_lt r := by
    have h1 := r.usedBytes.toNat_lt
    have h2 := r.totalBytes.toNat_lt
    have h3 := r.sourceAgeMs.toNat_lt
    simp only [ramValues, List.mem_cons, List.not_mem_nil, or_false, forall_eq_or_imp, forall_eq]
    exact ⟨availability_code_lt _, h1, h2, by omega, freshness_code_lt _⟩
  build_values r h := by
    have hage := r.sourceAgeMs.toNat_lt
    have hcheck : r.usedBytes.toNat ≤ r.totalBytes.toNat ∧
        r.sourceAgeMs.toNat ≤ 4294967295 := ⟨UInt64.le_iff_toNat_le.mp h, by omega⟩
    simp [Rust.ramFrom, ramValues, Rust.required, Rust.check, hcheck]
  values_build value r hbound h := by
    obtain ⟨used, h1, h⟩ := required_bind_eq_ok.mp h
    obtain ⟨total, h2, h⟩ := required_bind_eq_ok.mp h
    obtain ⟨age, h3, h⟩ := required_bind_eq_ok.mp h
    obtain ⟨⟨hle, hage⟩, h⟩ := check_bind_eq_ok.mp h
    obtain ⟨v0, h0, h⟩ := required_bind_eq_ok.mp h
    obtain ⟨availability, hv0, h⟩ := except_bind_eq_ok.mp h
    obtain ⟨v4, h4, h⟩ := required_bind_eq_ok.mp h
    obtain ⟨freshness, hv4, h⟩ := except_bind_eq_ok.mp h
    cases h
    have hused := toNat_long (hbound 1 (by omega) used h1)
    have htotal := toNat_long (hbound 2 (by omega) total h2)
    refine ⟨?_, fun j hj => ?_⟩
    · simp only [UInt64.le_iff_toNat_le, hused, htotal]
      exact hle
    · rw [availabilityFrom_eq_ok] at hv0
      rw [freshnessFrom_eq_ok] at hv4
      rcases (by omega : j = 0 ∨ j = 1 ∨ j = 2 ∨ j = 3 ∨ j = 4) with rfl | rfl | rfl | rfl | rfl <;>
        simp [ramValues, *, toNat_word_of_le hage]

/-- A group whose fields are all collected before a value is built from them. -/
def NumberedGroup.collected {α : Type} (n : ℕ) (build : (ℕ → ℕ) → Except Rust.Error α)
    (values : α → List ℕ) (Valid : α → Prop) (small : n ≤ 16)
    (length_values : ∀ a, (values a).length = n) (values_lt : ∀ a, ∀ v ∈ values a, v < 2 ^ 64)
    (build_values : ∀ a, Valid a → build (fun j => (values a)[j]?.getD 0) = .ok a)
    (values_build : ∀ all a, (∀ j < n, all j < 2 ^ 64) → build all = .ok a →
      Valid a ∧ ∀ j < n, (values a)[j]? = some (all j)) : NumberedGroup α where
  n := n
  build value := Rust.collect n value >>= build
  values := values
  Valid := Valid
  small := small
  length_values := length_values
  values_lt := values_lt
  build_values a h := by
    have hall : ∀ k < n, ((values a)[k]?).isSome := by
      intro k hk
      rw [List.getElem?_eq_getElem (by rw [length_values]; exact hk)]
      rfl
    rw [Rust.collect, if_pos hall]
    exact build_values a h
  values_build value a hbound h := by
    obtain ⟨all, hall, hbuild⟩ := except_bind_eq_ok.mp h
    unfold Rust.collect at hall
    split_ifs at hall with hsome
    cases hall
    have hvalue : ∀ j < n, value j = some ((value j).getD 0) := by
      intro j hj
      obtain ⟨v, hv⟩ := Option.isSome_iff_exists.mp (hsome j hj)
      rw [hv]
      rfl
    obtain ⟨hvalid, hvalues⟩ := values_build _ a (fun j hj => hbound j hj _ (hvalue j hj)) hbuild
    exact ⟨hvalid, fun j hj => (hvalue j hj).trans (hvalues j hj).symm⟩

def storageValues (s : Rust.StorageSnapshot) : List ℕ :=
  [s.capacityAvailability.code, s.totalBytes.toNat, s.availableBytes.toNat, s.capacityAgeMs.toNat,
    s.ioAvailability.code, s.readBytesPerS.toNat, s.writeBytesPerS.toNat, s.ioAgeMs.toNat]

private theorem storageValues_lt (s : Rust.StorageSnapshot) :
    ∀ v ∈ storageValues s, v < 2 ^ 64 := by
  have h1 := s.totalBytes.toNat_lt
  have h2 := s.availableBytes.toNat_lt
  have h3 := s.capacityAgeMs.toNat_lt
  have h5 := s.readBytesPerS.toNat_lt
  have h6 := s.writeBytesPerS.toNat_lt
  have h7 := s.ioAgeMs.toNat_lt
  simp only [storageValues, List.mem_cons, List.not_mem_nil, or_false, forall_eq_or_imp,
    forall_eq]
  exact ⟨availability_code_lt _, h1, h2, by omega, availability_code_lt _, h5, h6, by omega⟩

private theorem storageFrom_values (s : Rust.StorageSnapshot)
    (h : s.availableBytes ≤ s.totalBytes) :
    Rust.storageFrom (fun j => (storageValues s)[j]?.getD 0) = .ok s := by
  have h3 := s.capacityAgeMs.toNat_lt
  have h7 := s.ioAgeMs.toNat_lt
  have hle : s.availableBytes.toNat ≤ s.totalBytes.toNat := UInt64.le_iff_toNat_le.mp h
  have hcheck : s.availableBytes.toNat ≤ s.totalBytes.toNat ∧
      s.capacityAgeMs.toNat ≤ 4294967295 ∧ s.ioAgeMs.toNat ≤ 4294967295 :=
    ⟨hle, by omega, by omega⟩
  simp [Rust.storageFrom, storageValues, Rust.check, hcheck]

private theorem storageValues_from (all : ℕ → ℕ) (s : Rust.StorageSnapshot)
    (hbound : ∀ j < 8, all j < 2 ^ 64) (h : Rust.storageFrom all = .ok s) :
    s.availableBytes ≤ s.totalBytes ∧ ∀ j < 8, (storageValues s)[j]? = some (all j) := by
  obtain ⟨hcheck, h⟩ := check_bind_eq_ok.mp h
  obtain ⟨capacity, h0, h⟩ := except_bind_eq_ok.mp h
  obtain ⟨io, h4, h⟩ := except_bind_eq_ok.mp h
  cases h
  rw [availabilityFrom_eq_ok] at h0 h4
  have htotal := toNat_long (hbound 1 (by omega))
  have havailable := toNat_long (hbound 2 (by omega))
  refine ⟨?_, fun j hj => ?_⟩
  · simp only [UInt64.le_iff_toNat_le, htotal, havailable]
    omega
  · have h3 := toNat_word_of_le (v := all 3) (by omega)
    have h7 := toNat_word_of_le (v := all 7) (by omega)
    have h5 := toNat_long (hbound 5 (by omega))
    have h6 := toNat_long (hbound 6 (by omega))
    rcases (by omega : j = 0 ∨ j = 1 ∨ j = 2 ∨ j = 3 ∨ j = 4 ∨ j = 5 ∨ j = 6 ∨ j = 7) with
      rfl | rfl | rfl | rfl | rfl | rfl | rfl | rfl <;> simp [storageValues, *]

def storageNumbered : NumberedGroup Rust.StorageSnapshot :=
  .collected 8 Rust.storageFrom storageValues (fun s => s.availableBytes ≤ s.totalBytes)
    (by omega) (fun _ => rfl) storageValues_lt storageFrom_values storageValues_from

def batteryValues (b : Rust.BatterySnapshot) : List ℕ :=
  [b.chargeAvailability.code, b.chargePerMille.toNat, b.state.toNat, b.timeRemainingMin.toNat,
    b.chargeAgeMs.toNat, b.conditionAvailability.code, b.maxCapacityPerMille.toNat,
    b.condition.toNat, b.cycleCount.toNat, b.conditionAgeMs.toNat]

private theorem batteryValues_lt (b : Rust.BatterySnapshot) :
    ∀ v ∈ batteryValues b, v < 2 ^ 64 := by
  have h1 := b.chargePerMille.toNat_lt
  have h2 := b.state.toNat_lt
  have h3 := b.timeRemainingMin.toNat_lt
  have h4 := b.chargeAgeMs.toNat_lt
  have h6 := b.maxCapacityPerMille.toNat_lt
  have h7 := b.condition.toNat_lt
  have h8 := b.cycleCount.toNat_lt
  have h9 := b.conditionAgeMs.toNat_lt
  simp only [batteryValues, List.mem_cons, List.not_mem_nil, or_false, forall_eq_or_imp,
    forall_eq]
  exact ⟨availability_code_lt _, by omega, by omega, by omega, by omega,
    availability_code_lt _, by omega, by omega, by omega, by omega⟩

private theorem batteryFrom_values (b : Rust.BatterySnapshot)
    (h : b.chargePerMille ≤ 1000 ∧ b.maxCapacityPerMille ≤ 1000 ∧ b.state ≤ 4 ∧
      b.condition ≤ 3) :
    Rust.batteryFrom (fun j => (batteryValues b)[j]?.getD 0) = .ok b := by
  obtain ⟨h1, h6, h2, h7⟩ := h
  have h1 : b.chargePerMille.toNat ≤ 1000 := UInt16.le_iff_toNat_le.mp h1
  have h6 : b.maxCapacityPerMille.toNat ≤ 1000 := UInt16.le_iff_toNat_le.mp h6
  have h2 : b.state.toNat ≤ 4 := UInt8.le_iff_toNat_le.mp h2
  have h7 : b.condition.toNat ≤ 3 := UInt8.le_iff_toNat_le.mp h7
  have h3 := b.timeRemainingMin.toNat_lt
  have h4 := b.chargeAgeMs.toNat_lt
  have h8 := b.cycleCount.toNat_lt
  have h9 := b.conditionAgeMs.toNat_lt
  rw [Rust.batteryFrom, Rust.check, if_pos]
  · simp [batteryValues]
  · simp only [batteryValues, List.getElem?_cons_succ, List.getElem?_cons_zero, Option.getD_some]
    omega

private theorem batteryValues_from (all : ℕ → ℕ) (b : Rust.BatterySnapshot)
    (h : Rust.batteryFrom all = .ok b) :
    (b.chargePerMille ≤ 1000 ∧ b.maxCapacityPerMille ≤ 1000 ∧ b.state ≤ 4 ∧
      b.condition ≤ 3) ∧ ∀ j < 10, (batteryValues b)[j]? = some (all j) := by
  obtain ⟨hcheck, h⟩ := check_bind_eq_ok.mp h
  obtain ⟨charge, h0, h⟩ := except_bind_eq_ok.mp h
  obtain ⟨condition, h5, h⟩ := except_bind_eq_ok.mp h
  cases h
  rw [availabilityFrom_eq_ok] at h0 h5
  have h1 := toNat_half (v := all 1) (by omega)
  have h2 := toNat_byte_of_le (v := all 2) (by omega)
  have h3 := toNat_half (v := all 3) (by omega)
  have h4 := toNat_word_of_le (v := all 4) (by omega)
  have h6 := toNat_half (v := all 6) (by omega)
  have h7 := toNat_byte_of_le (v := all 7) (by omega)
  have h8 := toNat_half (v := all 8) (by omega)
  have h9 := toNat_word_of_le (v := all 9) (by omega)
  refine ⟨?_, fun j hj => ?_⟩
  · simp only [UInt16.le_iff_toNat_le, UInt8.le_iff_toNat_le, h1, h2, h6, h7]
    have hthousand : (1000 : UInt16).toNat = 1000 := rfl
    have hfour : (4 : UInt8).toNat = 4 := rfl
    have hthree : (3 : UInt8).toNat = 3 := rfl
    omega
  · rcases (by omega : j = 0 ∨ j = 1 ∨ j = 2 ∨ j = 3 ∨ j = 4 ∨ j = 5 ∨ j = 6 ∨ j = 7 ∨ j = 8 ∨
      j = 9) with rfl | rfl | rfl | rfl | rfl | rfl | rfl | rfl | rfl | rfl <;>
      simp [batteryValues, *]

def batteryNumbered : NumberedGroup Rust.BatterySnapshot :=
  .collected 10 Rust.batteryFrom batteryValues
    (fun b => b.chargePerMille ≤ 1000 ∧ b.maxCapacityPerMille ≤ 1000 ∧ b.state ≤ 4 ∧
      b.condition ≤ 3)
    (by omega) (fun _ => rfl) batteryValues_lt batteryFrom_values
    fun all b _ h => batteryValues_from all b h

def agentsValues (a : Rust.AgentsSnapshot) : List ℕ :=
  a.availability.code :: a.sourceAgeMs.toNat :: a.state.val.map (·.toNat)

private theorem length_agentsValues (a : Rust.AgentsSnapshot) :
    (agentsValues a).length = 2 + Rust.agentSlots := by
  rw [agentsValues, List.length_cons, List.length_cons, List.length_map, a.state.property]
  rfl

private theorem agentsValues_lt (a : Rust.AgentsSnapshot) : ∀ v ∈ agentsValues a, v < 2 ^ 64 := by
  have hage := a.sourceAgeMs.toNat_lt
  simp only [agentsValues, List.mem_cons, List.mem_map, forall_eq_or_imp]
  refine ⟨availability_code_lt _, by omega, ?_⟩
  rintro v ⟨s, -, rfl⟩
  have hs := s.toNat_lt
  omega

private theorem agentsFrom_values (a : Rust.AgentsSnapshot) (h : ∀ s ∈ a.state.val, s ≤ 3) :
    Rust.agentsFrom (fun j => (agentsValues a)[j]?.getD 0) = .ok a := by
  have hage := a.sourceAgeMs.toNat_lt
  have hstate (slot : ℕ) : (agentsValues a)[2 + slot]?.getD 0 =
      (a.state.val[slot]?.map (·.toNat)).getD 0 := by
    rw [Nat.add_comm, agentsValues, List.getElem?_cons_succ, List.getElem?_cons_succ,
      List.getElem?_map]
  have hslots : (List.range Rust.agentSlots).map
      (fun slot => UInt8.ofNat ((agentsValues a)[2 + slot]?.getD 0)) = a.state.val := by
    apply List.ext_getElem
    · rw [List.length_map, List.length_range, a.state.property]
    · intro slot h₁ h₂
      rw [List.getElem_map, List.getElem_range, hstate, List.getElem?_eq_getElem h₂]
      simp
  rw [Rust.agentsFrom, Rust.check, if_pos]
  · simp only [hslots]
    simp [agentsValues]
  · rw [not_or, not_exists]
    refine ⟨by simp [agentsValues]; omega, fun slot hslot => ?_⟩
    have hlt : slot < a.state.val.length := by rw [a.state.property]; exact hslot.1
    have hle := UInt8.le_iff_toNat_le.mp (h _ (List.getElem_mem hlt))
    have hbig := hslot.2
    rw [hstate, List.getElem?_eq_getElem hlt] at hbig
    exact absurd hbig (Nat.not_lt.mpr hle)

private theorem agentsValues_from (all : ℕ → ℕ) (a : Rust.AgentsSnapshot)
    (h : Rust.agentsFrom all = .ok a) :
    (∀ s ∈ a.state.val, s ≤ 3) ∧
      ∀ j < 2 + Rust.agentSlots, (agentsValues a)[j]? = some (all j) := by
  obtain ⟨hcheck, h⟩ := check_bind_eq_ok.mp h
  obtain ⟨availability, h0, h⟩ := except_bind_eq_ok.mp h
  cases h
  rw [availabilityFrom_eq_ok] at h0
  rw [not_or, not_exists] at hcheck
  obtain ⟨hage, hslots⟩ := hcheck
  have hle (slot : ℕ) (hslot : slot < Rust.agentSlots) : all (2 + slot) ≤ 3 := by
    have hnot := hslots slot
    rw [not_and, Nat.not_lt] at hnot
    exact hnot hslot
  have h1 := toNat_word_of_le (v := all 1) (by omega)
  have hbyte (slot : ℕ) (hslot : slot < Rust.agentSlots) :
      (UInt8.ofNat (all (2 + slot))).toNat = all (2 + slot) :=
    toNat_byte_of_le (by have hthree := hle slot hslot; omega)
  refine ⟨fun s hs => ?_, fun j hj => ?_⟩
  · obtain ⟨slot, hslot, rfl⟩ := List.mem_map.mp hs
    rw [List.mem_range] at hslot
    rw [UInt8.le_iff_toNat_le, hbyte slot hslot]
    exact hle slot hslot
  · match j with
    | 0 => simp [agentsValues, h0]
    | 1 => simp [agentsValues, h1]
    | slot + 2 =>
      have hslot : slot < Rust.agentSlots := by omega
      rw [agentsValues, List.getElem?_cons_succ, List.getElem?_cons_succ, List.getElem?_map,
        List.getElem?_map, List.getElem?_range hslot, Nat.add_comm slot 2]
      simp [hbyte slot hslot]

def agentsNumbered : NumberedGroup Rust.AgentsSnapshot :=
  .collected (2 + Rust.agentSlots) Rust.agentsFrom agentsValues
    (fun a => ∀ s ∈ a.state.val, s ≤ 3) (by decide) length_agentsValues agentsValues_lt
    agentsFrom_values fun all a _ h => agentsValues_from all a h

end CydMonitor.Codec
