import CydMonitor.Observation.DropOldest

/-!
# The tally of drops

What the four slots of an event ring hold: one slot a window, every drop once as long as no count
is saturated, and a window's drops in full as long as four slots are enough.
-/

namespace CydMonitor.Observation

open EventRing

theorem EventRing.saturatingAdd_toNat (a b : UInt32) :
    (saturatingAdd a b).toNat = min (a.toNat + b.toNat) kMaxTally.toNat := by
  have ha := a.toNat_lt
  have hmax : kMaxTally.toNat = 4294967295 := rfl
  have hle : a ≤ kMaxTally := UInt32.le_iff_toNat_le.mpr (by omega)
  have hsub : (kMaxTally - a).toNat = kMaxTally.toNat - a.toNat := UInt32.toNat_sub_of_le _ _ hle
  rw [saturatingAdd]
  by_cases h : b > kMaxTally - a
  · have hlt := UInt32.lt_iff_toNat_lt.mp h
    rw [if_pos h, Nat.min_eq_right (by omega)]
  · have hle : b.toNat ≤ (kMaxTally - a).toNat :=
      UInt32.le_iff_toNat_le.mp (UInt32.not_lt.mp h)
    rw [if_neg h, UInt32.toNat_add, Nat.min_eq_left (by omega), Nat.mod_eq_of_lt (by omega)]

namespace Tally

variable (tally : Tally)

theorem slotOf_some {windowId : UInt32} {i : Fin kTallySlots}
    (h : tally.slotOf windowId = some i) :
    0 < (tally i).count ∧ (tally i).windowId = windowId := by
  simpa using List.find?_some h

theorem slotOf_none {windowId : UInt32} (h : tally.slotOf windowId = none) (i : Fin kTallySlots)
    (hused : 0 < (tally i).count) : (tally i).windowId ≠ windowId := by
  simpa [hused] using List.find?_eq_none.mp h i (List.mem_finRange i)

private theorem freeSlot_look (slots : List (Fin kTallySlots)) (s : Search) :
    (slots.foldl (Search.look tally) s).freeSlot =
      (s.freeSlot <|> slots.find? fun i => (tally i).count = 0) := by
  induction slots generalizing s with
  | nil => simp
  | cons i slots ih =>
    rw [List.foldl_cons, ih, Search.look]
    by_cases hfree : (tally i).count = 0
    · simp [hfree]
    · rw [if_neg hfree, List.find?_cons_of_neg (by simpa using hfree)]
      split <;> rfl

theorem freeSlot_search :
    tally.search.freeSlot = (List.finRange kTallySlots).find? fun i => (tally i).count = 0 := by
  rw [search, freeSlot_look]
  rfl

theorem free_of_search {i : Fin kTallySlots} (h : tally.search.freeSlot = some i) :
    (tally i).count = 0 := by
  rw [freeSlot_search] at h
  simpa using List.find?_some h

theorem used_of_search (h : tally.search.freeSlot = none) (i : Fin kTallySlots) :
    0 < (tally i).count := by
  rw [freeSlot_search] at h
  have hne : (tally i).count ≠ 0 := by
    simpa using List.find?_eq_none.mp h i (List.mem_finRange i)
  exact UInt32.pos_iff_ne_zero.mpr hne

/-- Everything tallied to a window. -/
def total : ℕ := ∑ i, (tally i).count.toNat

theorem total_update (i : Fin kTallySlots) (slot : Slot) :
    total (Function.update tally i slot) + (tally i).count.toNat =
      tally.total + slot.count.toNat := by
  have hcounts : (fun j => (Function.update tally i slot j).count.toNat) =
      Function.update (fun j => (tally j).count.toNat) i slot.count.toNat := by
    funext j
    by_cases hj : j = i
    · simp [hj]
    · simp [hj]
  have hrest := Finset.add_sum_erase Finset.univ (fun j => (tally j).count.toNat)
    (Finset.mem_univ i)
  rw [total, hcounts, Finset.sum_update_of_mem (Finset.mem_univ i),
    Finset.sdiff_singleton_eq_erase, total]
  omega

/-- What the next taking of a window's drops answers. -/
def tallied (windowId : UInt32) : ℕ :=
  match tally.slotOf windowId with
  | some i => (tally i).count.toNat
  | none => 0

/-- No two slots in use are of one window. -/
def Distinct : Prop :=
  ∀ i j, 0 < (tally i).count → 0 < (tally j).count → (tally i).windowId = (tally j).windowId → i = j

theorem Distinct.slotOf_eq {tally : Tally} (h : tally.Distinct) {windowId : UInt32}
    {i : Fin kTallySlots} (hused : 0 < (tally i).count) (hwindow : (tally i).windowId = windowId) :
    tally.slotOf windowId = some i := by
  cases hslot : tally.slotOf windowId with
  | none => exact absurd hwindow (slotOf_none tally hslot i hused)
  | some j =>
    obtain ⟨hj, hwindowj⟩ := slotOf_some tally hslot
    rw [h j i hj hused (hwindowj.trans hwindow.symm)]

theorem slotOf_eq_none {windowId : UInt32}
    (h : ∀ i, 0 < (tally i).count → (tally i).windowId ≠ windowId) :
    tally.slotOf windowId = none := by
  cases hslot : tally.slotOf windowId with
  | none => rfl
  | some i =>
    obtain ⟨hused, hwindow⟩ := slotOf_some tally hslot
    exact absurd hwindow (h i hused)

end Tally

/-- A slot with one more drop. -/
def Slot.again (slot : Slot) : Slot := { slot with count := saturatingAdd slot.count 1 }

@[simp] theorem Slot.again_windowId (slot : Slot) : slot.again.windowId = slot.windowId := by
  rw [again]

@[simp] theorem Slot.again_count (slot : Slot) :
    slot.again.count = saturatingAdd slot.count 1 := by
  rw [again]

/-- The three ways to tally a drop. -/
inductive Tallied (tally : Tally) (unattributed : UInt32) (windowId : UInt32) :
    Tally → UInt32 → Prop where
  | again (i : Fin kTallySlots) (h : tally.slotOf windowId = some i) :
      Tallied tally unattributed windowId
        (Function.update tally i (tally i).again) unattributed
  | fresh (i : Fin kTallySlots) (age : ℕ) (h : tally.slotOf windowId = none)
      (hfree : (tally i).count = 0) :
      Tallied tally unattributed windowId (Function.update tally i { windowId, count := 1, age })
        unattributed
  | folded (i : Fin kTallySlots) (age : ℕ) (h : tally.slotOf windowId = none)
      (hused : ∀ j, 0 < (tally j).count) :
      Tallied tally unattributed windowId (Function.update tally i { windowId, count := 1, age })
        (saturatingAdd unattributed (tally i).count)

variable {α : Type} {N : ℕ} [NeZero N] (key : α → UInt32)

theorem EventRing.tallied_tallyDrop (r : EventRing α N) (windowId : UInt32) :
    Tallied r.tally r.unattributed windowId (r.tallyDrop windowId).tally
      (r.tallyDrop windowId).unattributed := by
  rw [tallyDrop]
  cases hslot : r.tally.slotOf windowId with
  | some i => exact .again i hslot
  | none =>
    cases hfree : r.tally.search.freeSlot with
    | some i => exact .fresh i _ hslot (Tally.free_of_search _ hfree)
    | none => exact .folded _ _ hslot (Tally.used_of_search _ hfree)

/-- A push tallies its own window, if it evicts anything. -/
theorem EventRing.tallied_push (r : EventRing α N) (event : α) (h : r.size = N) :
    Tallied r.tally r.unattributed (key event) (r.push key event).tally
      (r.push key event).unattributed := by
  rw [push, dif_pos h]
  exact tallied_tallyDrop r (key event)

end CydMonitor.Observation
