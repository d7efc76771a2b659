import Mathlib.Order.Interval.Finset.Nat

/-!
# Walks round a list

A walk visits the places of a list in order and starts again after the last. Its trail is
what it saw in the last visits, and a trail as long as the list has been everywhere.
-/

namespace CyclicWalk

variable {α : Type}

/-- The last `count` visits before place `place` saw only members of `seen`. -/
def Trail (plan seen : List α) (place count : ℕ) : Prop :=
  ∃ n, n % plan.length = place ∧ count ≤ n ∧
    ∀ i < n, n ≤ i + count → ∀ a, plan[i % plan.length]? = some a → a ∈ seen

variable {plan seen : List α} {place count : ℕ}

theorem Trail.zero (h : place < plan.length) : Trail plan seen place 0 :=
  ⟨place, Nat.mod_eq_of_lt h, Nat.zero_le _, fun i hi hle => by omega⟩

theorem Trail.next (h : Trail plan seen place count) {a : α} (ha : plan[place]? = some a) :
    Trail plan (a :: seen) ((place + 1) % plan.length) (count + 1) := by
  obtain ⟨n, rfl, hcount, hseen⟩ := h
  refine ⟨n + 1, (Nat.mod_add_mod ..).symm, Nat.succ_le_succ hcount, fun i hi hle b hb => ?_⟩
  rcases Nat.lt_succ_iff_lt_or_eq.mp hi with hlt | rfl
  · exact List.mem_cons_of_mem _ (hseen i hlt (by omega) b hb)
  · obtain rfl := Option.some.inj (hb.symm.trans ha)
    exact List.mem_cons_self

/-- A trail of a whole round has seen every member of the list. -/
theorem Trail.full (h : Trail plan seen place plan.length) {a : α} (ha : a ∈ plan) : a ∈ seen := by
  obtain ⟨n, -, hlength, hseen⟩ := h
  obtain ⟨j, hj, rfl⟩ := List.getElem_of_mem ha
  have himage := Nat.image_Ico_mod (n - plan.length) plan.length
  rw [Nat.sub_add_cancel hlength] at himage
  have hmem : j ∈ (Finset.Ico (n - plan.length) n).image (· % plan.length) := by
    rw [himage]
    exact Finset.mem_range.mpr hj
  obtain ⟨i, hi, rfl⟩ := Finset.mem_image.mp hmem
  have hbounds := Finset.mem_Ico.mp hi
  exact hseen i hbounds.2 (by omega) _ (List.getElem?_eq_getElem hj)

/-- What a walk from a place on sees, in order. -/
def Walk (plan : List α) (place : ℕ) (visits : List α) : Prop :=
  ∀ i < visits.length, visits[i]? = plan[(place + i) % plan.length]?

theorem Walk.nil : Walk plan place [] := fun _ hi => absurd hi (Nat.not_lt_zero _)

theorem Walk.cons (hplace : place < plan.length) {visits : List α}
    (h : Walk plan ((place + 1) % plan.length) visits) :
    Walk plan place (plan.get ⟨place, hplace⟩ :: visits) := by
  rintro (_ | i) hi
  · rw [Nat.add_zero, Nat.mod_eq_of_lt hplace]
    exact (List.getElem?_eq_getElem hplace).symm
  · rw [List.getElem?_cons_succ, h i (Nat.lt_of_succ_lt_succ hi), Nat.mod_add_mod,
      Nat.add_assoc, Nat.add_comm 1]

end CyclicWalk
