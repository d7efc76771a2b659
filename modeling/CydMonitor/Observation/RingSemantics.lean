import CydMonitor.Observation.DropBooks

/-!
# The drops of a window

While no more windows have drops to take than there are slots, nothing is folded, and a window is
answered all of its drops.
-/

namespace CydMonitor.Observation

open EventRing

/-- No more windows than slots have drops to take. -/
def AtMostFour (untaken : UInt32 → ℕ) : Prop :=
  ∃ windows : Finset UInt32, windows.card ≤ kTallySlots ∧ ∀ v, untaken v ≠ 0 → v ∈ windows

theorem Accounts.tallied_eq_zero {tally : Tally} {untaken : UInt32 → ℕ}
    (h : Accounts tally untaken) {windowId : UInt32} (hzero : untaken windowId = 0) :
    tally.tallied windowId = 0 := by
  have hnone : tally.slotOf windowId = none :=
    tally.slotOf_eq_none fun i hused hwindow => h.untaken i hused (hwindow ▸ hzero)
  rw [Tally.tallied, hnone]

theorem Tally.Distinct.tallied_self {tally : Tally} (h : tally.Distinct) {i : Fin kTallySlots}
    (hused : 0 < (tally i).count) : tally.tallied (tally i).windowId = (tally i).count.toNat := by
  rw [tallied, h.slotOf_eq hused rfl]

/-- A slot that neither was nor becomes a window's own. -/
theorem Tally.tallied_other {tally : Tally} {i : Fin kTallySlots} {slot : Slot}
    (h : Tally.Distinct (Function.update tally i slot)) {windowId : UInt32}
    (hold : 0 < (tally i).count → (tally i).windowId ≠ windowId)
    (hnew : slot.windowId ≠ windowId ∨ slot.count = 0) :
    tallied (Function.update tally i slot) windowId = tally.tallied windowId := by
  cases hslot : tally.slotOf windowId with
  | some j =>
    obtain ⟨hused, hwindow⟩ := slotOf_some tally hslot
    have hji : j ≠ i := fun heq => hold (heq ▸ hused) (heq ▸ hwindow)
    have hself := h.tallied_self (i := j)
    rw [Function.update_of_ne hji, hwindow] at hself
    rw [hself hused, tallied, hslot]
  | none =>
    have hnone : Tally.slotOf (Function.update tally i slot) windowId = none := by
      refine slotOf_eq_none _ fun j hused => ?_
      by_cases hji : j = i
      · rw [hji, Function.update_self] at hused ⊢
        exact hnew.resolve_right (UInt32.pos_iff_ne_zero.mp hused)
      · rw [Function.update_of_ne hji] at hused ⊢
        exact slotOf_none tally hslot j hused
    rw [tallied, hnone, tallied, hslot]

/-- A drop that finds every slot in use is a fifth window's. -/
theorem Accounts.not_atMostFour {tally : Tally} {untaken : UInt32 → ℕ}
    (h : Accounts tally untaken) {windowId : UInt32} (hslot : tally.slotOf windowId = none)
    (hused : ∀ j, 0 < (tally j).count) (n : ℕ) :
    ¬AtMostFour (Function.update untaken windowId (n + 1)) := by
  intro ⟨windows, hcard, hmem⟩
  have hne := fun j => Tally.slotOf_none tally hslot j (hused j)
  let used := Finset.univ.image fun j => (tally j).windowId
  have hsize : used.card = kTallySlots := by
    have hinj : Function.Injective fun j => (tally j).windowId :=
      fun i j heq => h.distinct i j (hused i) (hused j) heq
    rw [Finset.card_image_of_injective _ hinj, Finset.card_univ, Fintype.card_fin]
  have hnew : windowId ∉ used := by
    intro hin
    obtain ⟨j, -, heq⟩ := Finset.mem_image.mp hin
    exact hne j heq
  have hsub : insert windowId used ⊆ windows := by
    intro v hv
    apply hmem v
    cases Finset.mem_insert.mp hv with
    | inl heq => simp [heq]
    | inr hin =>
      obtain ⟨j, -, rfl⟩ := Finset.mem_image.mp hin
      rw [Function.update_of_ne (hne j)]
      exact h.untaken j (hused j)
  have hle := Finset.card_le_card hsub
  rw [Finset.card_insert_of_notMem hnew, hsize] at hle
  omega

/-- The tally of a window holds what nobody has taken, up to the largest count. -/
def Books.Keeps (b : Books) (windowId : UInt32) : Prop :=
  b.tally.tallied windowId = min (b.untaken windowId) kMaxTally.toNat

theorem keeps_evicts {b : Books} {windowId v : UInt32} (h : Accounts b.tally b.untaken)
    (hkeeps : b.Keeps windowId) {tally' : Tally} {unattributed' : UInt32}
    (ht : Tallied b.tally b.unattributed v tally' unattributed')
    (hfour : AtMostFour (Function.update b.untaken v (b.untaken v + 1))) :
    tally'.tallied windowId =
      min (Function.update b.untaken v (b.untaken v + 1) windowId) kMaxTally.toNat := by
  have haccounts := accounts_evicts h ht (b.untaken v)
  have hmax : kMaxTally.toNat = 4294967295 := rfl
  rw [Books.Keeps] at hkeeps
  cases ht with
  | again i hslot =>
    obtain ⟨hused, hwindow⟩ := Tally.slotOf_some _ hslot
    by_cases hv : v = windowId
    · have hself := haccounts.distinct.tallied_self (i := i)
      have hadd := saturatingAdd_toNat (b.tally i).count 1
      have hone : (1 : UInt32).toNat = 1 := rfl
      rw [Function.update_self, Slot.again_count, Slot.again_windowId, hwindow] at hself
      rw [Tally.tallied, ← hv, hslot] at hkeeps
      rw [← hv, hself (UInt32.lt_iff_toNat_lt.mpr (by simp only [UInt32.toNat_zero]; omega)),
        Function.update_self]
      dsimp only at hkeeps
      omega
    · rw [Tally.tallied_other haccounts.distinct (fun _ => by rwa [hwindow])
        (.inl (by rwa [Slot.again_windowId, hwindow])), hkeeps,
        Function.update_of_ne (Ne.symm hv)]
  | fresh i age hslot hfree =>
    by_cases hv : v = windowId
    · have hself := haccounts.distinct.tallied_self (i := i)
      have hone : (1 : UInt32).toNat = 1 := rfl
      rw [Function.update_self] at hself
      rw [Tally.tallied, ← hv, hslot] at hkeeps
      rw [← hv, hself (show (0 : UInt32) < 1 by decide), Function.update_self]
      dsimp only at hkeeps ⊢
      omega
    · rw [Tally.tallied_other haccounts.distinct
        (fun hused => absurd hfree (UInt32.pos_iff_ne_zero.mp hused)) (.inl hv), hkeeps,
        Function.update_of_ne (Ne.symm hv)]
  | folded i age hslot hused => exact absurd hfour (h.not_atMostFour hslot hused _)

theorem keeps_step {b b' : Books} {windowId : UInt32} (h : Accounts b.tally b.untaken)
    (hkeeps : b.Keeps windowId) (hstep : Booked b b') (hfour : AtMostFour b'.untaken) :
    b'.Keeps windowId := by
  have haccounts := accounts_step h hstep
  by_cases hzero : b'.untaken windowId = 0
  · rw [Books.Keeps, haccounts.tallied_eq_zero hzero, hzero, Nat.zero_min]
  cases hstep with
  | rests => exact hkeeps
  | evicts v tally' unattributed' ht => exact keeps_evicts h hkeeps ht hfour
  | takes v i hslot =>
    obtain ⟨hused, hwindow⟩ := Tally.slotOf_some _ hslot
    have hv : windowId ≠ v := fun heq => hzero (by simp [heq])
    show Tally.tallied (Function.update b.tally i {}) windowId =
      min (Function.update b.untaken v 0 windowId) kMaxTally.toNat
    rw [Tally.tallied_other haccounts.distinct (fun _ => by rw [hwindow]; exact hv.symm)
      (.inr rfl), Function.update_of_ne hv]
    exact hkeeps
  | misses v hslot =>
    have hv : windowId ≠ v := fun heq => hzero (by simp [heq])
    show b.tally.tallied windowId = min (Function.update b.untaken v 0 windowId) kMaxTally.toNat
    rw [Function.update_of_ne hv]
    exact hkeeps
  | settles => exact hkeeps

variable {α : Type} {N : ℕ} [NeZero N] (key : α → UInt32)

theorem keeps_run [Inhabited α] (before after : List (RingCall α)) (windowId : UInt32)
    (hzero : (booksOf key N before).untaken windowId = 0)
    (hfour : ∀ part, part <+: after → AtMostFour (booksOf key N (before ++ part)).untaken) :
    (booksOf key N (before ++ after)).Keeps windowId := by
  induction after using List.reverseRecOn with
  | nil =>
    rw [List.append_nil, Books.Keeps, (accounts_run key before).tallied_eq_zero hzero, hzero,
      Nat.zero_min]
  | append_singleton after call ih =>
    have hkeeps := ih fun part h => hfour part (h.trans (List.prefix_append _ _))
    rw [← List.append_assoc]
    refine keeps_step (accounts_run key _) hkeeps (booked_run key _ call) ?_
    rw [List.append_assoc]
    exact hfour _ (List.prefix_refl _)

theorem EventRing.takeDrops_fst (r : EventRing α N) (windowId : UInt32) :
    (r.takeDrops windowId).1.toNat = r.tally.tallied windowId := by
  rw [takeDrops, Tally.tallied]
  cases r.tally.slotOf windowId with
  | some i => rfl
  | none => rfl

theorem length_removed (removed : List (α × Fate)) :
    removed.length =
      ((removed.filter (·.2 = .popped)).map (·.1)).length +
        (removed.filter (·.2 = .evicted)).length := by
  induction removed with
  | nil => rfl
  | cons event removed ih =>
    cases hfate : event.2 with
    | popped => simp [hfate] at ih ⊢; omega
    | evicted => simp [hfate] at ih ⊢; omega

/-- Every run of the ring is one of the queue, no drop is lost while the counts have room, and a
window is answered all of its drops while four slots are enough. -/
theorem ring_semantics [Inhabited α] (calls : List (RingCall α)) :
    let s := Answered.run key N calls
    let q := DropOldest.run key N calls
    (s.ring.contents = q.held ∧
      pushes calls = q.removed.map (·.1) ++ q.held ∧
      s.popped = (q.removed.filter (·.2 = .popped)).map (·.1) ∧
      s.ring.dropped = (q.removed.filter (·.2 = .evicted)).length) ∧
    (s.ring.size ≤ N ∧
      (pushes calls).length = s.popped.length + s.ring.dropped + s.ring.size) ∧
    ((∀ before, before <+: calls → (booksOf key N before).Below) →
      s.taken + s.ring.unattributed.toNat + s.ring.tally.total = s.ring.dropped) ∧
    ∀ before after windowId, calls = before ++ after →
      (DropOldest.run key N before).untaken windowId = 0 →
      (∀ part, part <+: after → AtMostFour (DropOldest.run key N (before ++ part)).untaken) →
      (s.ring.takeDrops windowId).1.toNat = min (q.untaken windowId) kMaxTally.toNat := by
  intro s q
  have hrep : Represents s q := represents_run key calls
  have hpushes : pushes calls = q.removed.map (·.1) ++ q.held := pushes_eq key calls
  refine ⟨⟨hrep.held, hpushes, hrep.popped, hrep.dropped⟩, ⟨s.ring.fits, ?_⟩,
    balances_run key calls, ?_⟩
  · rw [hpushes, List.length_append, List.length_map, length_removed, ← hrep.popped, ← hrep.dropped,
      ← hrep.held, length_contents]
  · intro before after windowId hcalls hzero hfour
    rw [takeDrops_fst]
    have hkeeps := keeps_run key before after windowId hzero hfour
    rw [← hcalls] at hkeeps
    exact hkeeps

private theorem prefix_pair (before : List (RingCall UInt32))
    (h : before <+: [.push 1, .push 2, .push 2]) :
    before = [] ∨ before = [.push 1] ∨ before = [.push 1, .push 2] ∨
      before = [.push 1, .push 2, .push 2] := by
  have hmem := (List.mem_inits _ _).mpr h
  simpa [List.inits] using hmem

/-- Two events of window 2 evict one each, and both drops are answered. -/
theorem ring_semantics_twice :
    ((Answered.run id 1 [.push 1, .push 2, .push 2]).ring.takeDrops 2).1.toNat = 2 ∧
      (Answered.run id 1 [.push (1 : UInt32), .push 2, .push 2]).ring.tally.total = 2 := by
  obtain ⟨-, -, hbalanced, hkeeps⟩ :=
    ring_semantics (N := 1) id [.push (1 : UInt32), .push 2, .push 2]
  refine ⟨?_, ?_⟩
  · refine (hkeeps [] _ 2 rfl rfl fun part hpart => ⟨{2}, by decide, fun v hv => ?_⟩).trans rfl
    obtain rfl | rfl | rfl | rfl := prefix_pair part hpart
    all_goals by_contra hne
    all_goals simp_all [DropOldest.run, DropOldest.step]
  · have hsum := hbalanced fun before hbefore => by
      obtain rfl | rfl | rfl | rfl := prefix_pair before hbefore
      all_goals exact ⟨by decide, by decide⟩
    exact hsum

/-- A drop folded while five windows had some: with the second window's taken, four still have
some, and the first is answered none. -/
theorem folded_answered_none :
    ¬∀ (calls : List (RingCall UInt32)) (windowId : UInt32),
      AtMostFour (DropOldest.run id 1 calls).untaken →
        ((Answered.run id 1 calls).ring.takeDrops windowId).1.toNat =
          (DropOldest.run id 1 calls).untaken windowId := by
  intro h
  have hfour := h [.push 0, .push 1, .push 2, .push 3, .push 4, .push 5, .takeDrops 2] 1
    ⟨{1, 3, 4, 5}, by decide, fun v hv => by
      by_contra hne
      simp_all [DropOldest.run, DropOldest.step, Function.update_apply]⟩
  exact absurd hfour (by decide)

end CydMonitor.Observation
