import CydMonitor.Metrics.Network

/-!
# Rates of counters
-/

namespace CydMonitor.Metrics

/-- The same sample with its value converted. -/
def MetricSample.map {α β : Type} (f : α → β) (s : MetricSample α) : MetricSample β :=
  { availability := s.availability, value := s.value.map f }

@[simp] theorem MetricSample.map_ofValue {α β : Type} (f : α → β) (value : α) :
    (MetricSample.ofValue value).map f = .ofValue (f value) := rfl

@[simp] theorem MetricSample.map_unavailable {α β : Type} (f : α → β)
    (availability : MetricAvailability) :
    (MetricSample.unavailable availability).map f = .unavailable availability := rfl

@[irreducible]
def saturated (n : ℕ) : ℕ := min n (2 ^ 64 - 1)

theorem toNat_perS (delta : UInt64) (elapsed : ℕ) :
    (perS delta elapsed).toNat = saturated (delta.toNat * 1000 / elapsed) := by
  rw [saturated]
  exact UInt64.toNat_ofNat_of_lt' (Nat.lt_of_le_of_lt (Nat.min_le_right _ _) (by decide))

theorem toNat_saturatingAdd (a b : UInt64) :
    (saturatingAdd a b).toNat = saturated (a.toNat + b.toNat) := by
  rw [saturated]
  exact UInt64.toNat_ofNat_of_lt' (Nat.lt_of_le_of_lt (Nat.min_le_right _ _) (by decide))

theorem toNat_eq_saturated (a : UInt64) : saturated a.toNat = a.toNat := by
  rw [saturated]
  exact Nat.min_eq_left (Nat.le_sub_one_of_lt a.toNat_lt)

theorem saturated_add (a b : ℕ) : saturated (saturated a + b) = saturated (a + b) := by
  simp only [saturated]
  omega

theorem saturated_add_right (a b : ℕ) : saturated (a + saturated b) = saturated (a + b) := by
  simp only [saturated]
  omega

section Sums

variable {ρ : Type} (add : ρ → ρ → ρ)

def addOption (total rate : Option ρ) : Option ρ := total.bind fun sum => rate.map (add sum)

theorem foldl_addOption_none (rates : List (Option ρ)) :
    rates.foldl (addOption add) none = none := by
  induction rates with
  | nil => rfl
  | cons rate rates ih => exact ih

/-- The sum is there when every rate is. -/
theorem foldl_addOption_eq_some {rates : List (Option ρ)} {sum total : ρ} :
    rates.foldl (addOption add) (some sum) = some total ↔
      ∃ values : List ρ, rates = values.map some ∧ total = values.foldl add sum := by
  induction rates generalizing sum with
  | nil =>
    constructor
    · rintro ⟨rfl⟩
      exact ⟨[], rfl, rfl⟩
    · rintro ⟨values, hvalues, rfl⟩
      rw [List.map_eq_nil_iff.mp hvalues.symm]
      rfl
  | cons rate rates ih =>
    cases rate with
    | none =>
      refine iff_of_false (fun h => ?_) ?_
      · have hnone : rates.foldl (addOption add) none = some total := h
        rw [foldl_addOption_none] at hnone
        cases hnone
      · rintro ⟨_ | ⟨value, values⟩, hvalues, -⟩
        · cases hvalues
        · cases hvalues
    | some value =>
      rw [List.foldl_cons]
      refine ih.trans ⟨?_, ?_⟩
      · rintro ⟨values, rfl, rfl⟩
        exact ⟨value :: values, rfl, rfl⟩
      · rintro ⟨_ | ⟨first, values⟩, hvalues, rfl⟩
        · cases hvalues
        · obtain ⟨hfirst, hrest⟩ := List.cons.inj hvalues
          obtain rfl := Option.some.inj hfirst
          exact ⟨values, hrest, rfl⟩

theorem exists_map_some {α : Type} {l : List α} {f : α → Option ρ}
    (h : ∀ a ∈ l, ∃ r, f a = some r) : ∃ values : List ρ, l.map f = values.map some := by
  induction l with
  | nil => exact ⟨[], rfl⟩
  | cons a l ih =>
    obtain ⟨⟨r, hr⟩, hrest⟩ := List.forall_mem_cons.mp h
    obtain ⟨values, hvalues⟩ := ih hrest
    exact ⟨r :: values, by rw [List.map_cons, hr, hvalues, List.map_cons]⟩

variable {add} (part : ρ → ℕ)

/-- A sum that saturates at every addition saturates once. -/
theorem foldl_saturated (hadd : ∀ a b, part (add a b) = saturated (part a + part b))
    (values : List ρ) {sum : ρ} (hsum : saturated (part sum) = part sum) :
    part (values.foldl add sum) = saturated (part sum + (values.map part).sum) := by
  induction values generalizing sum with
  | nil => exact hsum.symm
  | cons value values ih =>
    have hhead : saturated (part (add sum value)) = part (add sum value) := by
      rw [hadd]
      exact saturated_add (part sum + part value) 0
    rw [List.foldl_cons, ih hhead, hadd, saturated_add, List.map_cons, List.sum_cons, Nat.add_assoc]

end Sums

theorem rateSince_eq_some {κ : Type} [DecidableEq κ] {beforeKey key : κ}
    {old new : InterfaceCounters} {atMs nowMs : ℕ} {rate : NetworkRate} :
    (rateSince (beforeKey, old, atMs) key new nowMs).value = some rate ↔
      key = beforeKey ∧ (atMs < nowMs ∧ nowMs - atMs ≤ maxRateSampleGapMs) ∧
        (old.rxBytes ≤ new.rxBytes ∧ old.txBytes ≤ new.txBytes) ∧
        rate =
          { rxBytesPerS := perS (new.rxBytes - old.rxBytes) (nowMs - atMs)
            txBytesPerS := perS (new.txBytes - old.txBytes) (nowMs - atMs) } := by
  by_cases hcomparable : key = beforeKey ∧ (atMs < nowMs ∧ nowMs - atMs ≤ maxRateSampleGapMs) ∧
      (old.rxBytes ≤ new.rxBytes ∧ old.txBytes ≤ new.txBytes)
  · obtain ⟨hkey, helapsed, hcounters⟩ := hcomparable
    rw [rateSince, if_neg (by simp [hkey, helapsed, hcounters])]
    simp [MetricSample.ofValue, hkey, helapsed, hcounters, eq_comm]
  · rw [rateSince, if_pos (by tauto)]
    exact iff_of_false nofun fun h => hcomparable ⟨h.1, h.2.1, h.2.2.1⟩

end CydMonitor.Metrics
