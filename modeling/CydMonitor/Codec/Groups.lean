import CydMonitor.Codec.Readers
import CydMonitor.Codec.Images
import Mathlib.Tactic.IntervalCases

/-!
# Metric groups agree

The Host reads each group into optional fields, the device into `seen` and
`value`; the second pair is a function of the first.
-/

namespace CydMonitor.Codec

open Cbor Scan

/-- The availability with a given wire value, when there is one. -/
def availabilityOf : ℕ → Rust.Availability
  | 0 => .available
  | 1 => .unsupported
  | 2 => .absent
  | 3 => .temporarilyUnavailable
  | _ => .error

theorem availabilityFrom_eq (v : ℕ) :
    Rust.availabilityFrom v = if v ≤ 4 then .ok (availabilityOf v) else .error .malformed := by
  split_ifs with h
  · interval_cases v <;> rfl
  · obtain ⟨k, rfl⟩ : ∃ k, v = k + 5 := ⟨v - 5, by omega⟩
    rfl

theorem availabilityOf_code {v : ℕ} (h : v ≤ 4) : (availabilityOf v).code = v := by
  interval_cases v <;> rfl

def freshnessOf : ℕ → Rust.Freshness
  | 0 => .fresh
  | _ => .stale

theorem freshnessFrom_eq (v : ℕ) :
    Rust.freshnessFrom v = if v ≤ 1 then .ok (freshnessOf v) else .error .malformed := by
  split_ifs with h
  · interval_cases v <;> rfl
  · obtain ⟨k, rfl⟩ : ∃ k, v = k + 2 := ⟨v - 2, by omega⟩
    rfl

theorem freshnessOf_code {v : ℕ} (h : v ≤ 1) : (freshnessOf v).code = v := by
  interval_cases v <;> rfl

theorem routeKindFrom_code {v : ℕ} (h : v ≤ 4) : (Rust.routeKindFrom v).code = v := by
  interval_cases v <;> rfl

theorem associationContextFrom_code {v : ℕ} (h : v ≤ 6) :
    (Rust.associationContextFrom v).code = v := by
  interval_cases v <;> rfl

theorem coverageFrom_code {v : ℕ} (h : v ≤ 2) : (Rust.coverageFrom v).code = v := by
  interval_cases v <;> rfl

/-- The device's arrays for the Host's fields. -/
def fieldsView (value : ℕ → Option ℕ) : Cpp.Fields :=
  { seen := fun k => (value k).isSome, value := fun k => (value k).getD 0 }

theorem fieldsView_update (value : ℕ → Option ℕ) (k v : ℕ) :
    fieldsView (Function.update value k (some v)) =
      { seen := Function.update (fieldsView value).seen k true,
        value := Function.update (fieldsView value).value k v } := by
  unfold fieldsView
  congr 1 <;>
    · funext j
      by_cases h : j = k
      · subst h; simp
      · simp [Function.update_of_ne h]

theorem alike_fieldEntry (n : ℕ) (s : ℕ → Option ℕ) :
    Alike Cpp.kMaxFrameBytes Malformed (fun s t => t = fieldsView s) (Rust.fieldEntry n s)
      (Cpp.fieldEntry n (fieldsView s)) := by
  refine (alike_uint 0).bind fun key _ hkey => ?_
  subst hkey
  refine Alike.ite Iff.rfl (fun _ => ?_) fun _ => ?_
  · exact (alike_skip 4).bind fun _ _ _ => Alike.pure rfl
  · refine Alike.ensure_bind (by simp [fieldsView]) rfl fun _ => ?_
    refine (alike_uint 0).bind fun v _ hv => Alike.pure ?_
    subst hv
    exact (fieldsView_update s key v).symm

/-- The fields of a group, once all of them are required. -/
theorem alike_groupFields (n : ℕ) :
    Alike Cpp.kMaxFrameBytes Malformed Eq
      (Rust.groupFields n >>= fun value => lift (Rust.collect n value)) (Cpp.groupFields n) := by
  unfold Rust.groupFields Cpp.groupFields
  rw [bind_assoc]
  refine (alike_uint 5).bind fun count _ hcount => ?_
  subst hcount
  rw [bind_assoc]
  refine Alike.ensure_bind Iff.rfl rfl fun _ => ?_
  refine (Alike.loop (R := fun s t => t = fieldsView s) (fun s t h => ?_) count rfl).bind
    fun s t h => ?_
  · subst h
    exact alike_fieldEntry n s
  · subst h
    unfold Rust.collect
    by_cases hall : ∀ k < n, (s k).isSome
    · rw [if_pos hall, ensure_true (c := ∀ k < n, (fieldsView s).seen k) hall]
      exact Alike.pure rfl
    · rw [if_neg hall, ensure_false (c := ∀ k < n, (fieldsView s).seen k) hall]
      exact Alike.fail rfl

/-- What the Host checks of RAM fields that are all there. -/
private def ramOf (all : ℕ → ℕ) : Except Rust.Error Rust.RamSnapshot := do
  Rust.check (all 1 ≤ all 2 ∧ all 3 ≤ 2 ^ 32 - 1)
  let availability ← Rust.availabilityFrom (all 0)
  let freshness ← Rust.freshnessFrom (all 4)
  pure { availability, usedBytes := UInt64.ofNat (all 1), totalBytes := UInt64.ofNat (all 2),
         sourceAgeMs := UInt32.ofNat (all 3), freshness }

private theorem ramFrom_eq (value : ℕ → Option ℕ) :
    Rust.ramFrom value = Rust.collect 5 value >>= ramOf := by
  have hall : (∀ k < 5, (value k).isSome) ↔ (value 0).isSome ∧ (value 1).isSome ∧
      (value 2).isSome ∧ (value 3).isSome ∧ (value 4).isSome :=
    ⟨fun h => ⟨h 0 (by omega), h 1 (by omega), h 2 (by omega), h 3 (by omega), h 4 (by omega)⟩,
      by rintro ⟨h0, h1, h2, h3, h4⟩ k hk; interval_cases k <;> assumption⟩
  simp only [Rust.ramFrom, Rust.collect, hall]
  cases h0 : value 0 <;> cases h1 : value 1 <;> cases h2 : value 2 <;> cases h3 : value 3 <;>
    cases h4 : value 4 <;>
    simp [ramOf, Rust.required, Rust.check, availabilityFrom_eq, h0, h1, h2, h3, h4] <;>
    split_ifs <;> rfl

theorem alike_storageGroup :
    Alike Cpp.kMaxFrameBytes Malformed (fun r c => c = ofStorage r) Rust.decodeStorageGroup
      Cpp.readStorageGroup := by
  unfold Rust.decodeStorageGroup Cpp.readStorageGroup
  rw [← bind_assoc]
  refine (alike_groupFields 8).bind fun all _ h => ?_
  subst h
  have hkError : Cpp.Availability.kError.toNat = 4 := rfl
  refine Alike.lift_ensure (fun h => ?_) fun h => ⟨.malformed, ?_, rfl⟩
  · simp only [Rust.storageFrom, Rust.check, availabilityFrom_eq]
    rw [if_pos (by omega), if_pos (by omega), if_pos (by omega)]
    refine Alike.pure ?_
    simp only [ofStorage, availabilityOf_code (show all 0 ≤ 4 by omega),
      availabilityOf_code (show all 4 ≤ 4 by omega)]
  · simp only [Rust.storageFrom, Rust.check, availabilityFrom_eq]
    split_ifs <;> first | rfl | omega

theorem alike_ramGroup :
    Alike Cpp.kMaxFrameBytes Malformed (fun r c => c = ofRam r) Rust.decodeRamGroup
      Cpp.readRamGroup := by
  unfold Rust.decodeRamGroup Cpp.readRamGroup
  simp only [ramFrom_eq, lift_bind]
  rw [← bind_assoc]
  refine (alike_groupFields 5).bind fun all _ h => ?_
  subst h
  have hkError : Cpp.Availability.kError.toNat = 4 := rfl
  have hkStale : Cpp.Freshness.kStale.toNat = 1 := rfl
  refine Alike.lift_ensure (fun h => ?_) fun h => ⟨.malformed, ?_, rfl⟩
  · simp only [ramOf, Rust.check, availabilityFrom_eq, freshnessFrom_eq]
    rw [if_pos (by omega), if_pos (by omega), if_pos (by omega)]
    refine Alike.pure ?_
    simp only [ofRam, availabilityOf_code (show all 0 ≤ 4 by omega),
      freshnessOf_code (show all 4 ≤ 1 by omega)]
  · simp only [ramOf, Rust.check, availabilityFrom_eq, freshnessFrom_eq]
    split_ifs <;> first | rfl | omega

theorem alike_batteryGroup :
    Alike Cpp.kMaxFrameBytes Malformed (fun r c => c = ofBattery r) Rust.decodeBatteryGroup
      Cpp.readBatteryGroup := by
  unfold Rust.decodeBatteryGroup Cpp.readBatteryGroup
  rw [← bind_assoc]
  refine (alike_groupFields 10).bind fun all _ h => ?_
  subst h
  have hkError : Cpp.Availability.kError.toNat = 4 := rfl
  have hkAcIdle : Cpp.BatteryState.kAcIdle.toNat = 4 := rfl
  have hkPoor : Cpp.BatteryCondition.kPoor.toNat = 3 := rfl
  refine Alike.lift_ensure (fun h => ?_) fun h => ⟨.malformed, ?_, rfl⟩
  · simp only [Rust.batteryFrom, Rust.check, availabilityFrom_eq]
    rw [if_pos (by omega), if_pos (by omega), if_pos (by omega)]
    refine Alike.pure ?_
    simp only [ofBattery, availabilityOf_code (show all 0 ≤ 4 by omega),
      availabilityOf_code (show all 5 ≤ 4 by omega)]
  · simp only [Rust.batteryFrom, Rust.check, availabilityFrom_eq]
    split_ifs <;> first | rfl | omega

theorem alike_agentsGroup :
    Alike Cpp.kMaxFrameBytes Malformed (fun r c => c = ofAgents r) Rust.decodeAgentsGroup
      Cpp.readAgentsGroup := by
  unfold Rust.decodeAgentsGroup Cpp.readAgentsGroup
  rw [← bind_assoc]
  refine (alike_groupFields 7).bind fun all _ h => ?_
  subst h
  have hkError : Cpp.Availability.kError.toNat = 4 := rfl
  have hkIdle : Cpp.AgentState.kIdle.toNat = 3 := rfl
  have hslots : (∀ i < Cpp.kAgentSlots, all (2 + i) ≤ Cpp.AgentState.kIdle.toNat) ↔
      ¬∃ slot < Rust.agentSlots, all (2 + slot) > 3 := by
    simp [hkIdle, Rust.agentSlots, Cpp.kAgentSlots]
  refine Alike.lift_ensure (fun h => ?_) fun h => ⟨.malformed, ?_, rfl⟩
  · refine Alike.lift_ensure (fun hs => ?_) fun hs => ⟨.malformed, ?_, rfl⟩
    · simp only [Rust.agentsFrom, Rust.check, availabilityFrom_eq]
      rw [if_pos (not_or.mpr ⟨by omega, hslots.mp hs⟩), if_pos (by omega)]
      refine Alike.pure ?_
      simp only [ofAgents, availabilityOf_code (show all 0 ≤ 4 by omega)]
      rfl
    · simp only [Rust.agentsFrom, Rust.check]
      rw [if_neg (fun hc => hs (hslots.mpr (not_or.mp hc).2))]
      rfl
  · simp only [Rust.agentsFrom, Rust.check, availabilityFrom_eq]
    split_ifs with hc <;> first | rfl | (have hle := (not_or.mp hc).1; omega)

end CydMonitor.Codec
