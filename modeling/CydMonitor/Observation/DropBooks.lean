import CydMonitor.Observation.DropTally

/-!
# The books of an event ring

The tally, what was taken from it and what a queue would still owe, and what each call does to
them.
-/

namespace CydMonitor.Observation

open EventRing

structure Books where
  tally : Tally := fun _ => {}
  unattributed : UInt32 := 0
  taken : ℕ := 0
  dropped : ℕ := 0
  untaken : UInt32 → ℕ := fun _ => 0

inductive Booked (b : Books) : Books → Prop where
  | rests : Booked b b
  | evicts (windowId : UInt32) (tally' : Tally) (unattributed' : UInt32)
      (h : Tallied b.tally b.unattributed windowId tally' unattributed') :
      Booked b
        { b with
          tally := tally'
          unattributed := unattributed'
          dropped := b.dropped + 1
          untaken := Function.update b.untaken windowId (b.untaken windowId + 1) }
  | takes (windowId : UInt32) (i : Fin kTallySlots) (h : b.tally.slotOf windowId = some i) :
      Booked b
        { b with
          tally := Function.update b.tally i {}
          taken := b.taken + (b.tally i).count.toNat
          untaken := Function.update b.untaken windowId 0 }
  | misses (windowId : UInt32) (h : b.tally.slotOf windowId = none) :
      Booked b { b with untaken := Function.update b.untaken windowId 0 }
  | settles : Booked b { b with unattributed := 0, taken := b.taken + b.unattributed.toNat }

variable {α : Type} {N : ℕ} [NeZero N] (key : α → UInt32)

def Answered.books (s : Answered α N) (q : DropOldest α) : Books where
  tally := s.ring.tally
  unattributed := s.ring.unattributed
  taken := s.taken
  dropped := s.ring.dropped
  untaken := q.untaken

/-- Every call books one entry. -/
theorem booked_step (s : Answered α N) (q : DropOldest α) (h : Represents s q)
    (call : RingCall α) :
    Booked (s.books q) ((s.step key call).books (q.step key N call)) := by
  cases call with
  | push event =>
    have hlength : q.held.length = s.ring.size := by rw [← h.held, length_contents]
    by_cases hfull : s.ring.size = N
    · have hbooks : (s.step key (.push event)).books (q.step key N (.push event)) =
          { s.books q with
            tally := (s.ring.push key event).tally
            unattributed := (s.ring.push key event).unattributed
            dropped := s.ring.dropped + 1
            untaken := Function.update q.untaken (key event) (q.untaken (key event) + 1) } := by
        rw [Answered.books, Answered.step, DropOldest.step, if_neg (by omega), push, dif_pos hfull]
        show _ = _
        refine congrArg (fun n => Books.mk _ _ _ n _) ?_
        exact congrArg (· + 1) (tallyDrop_spec s.ring (key event)).2.1
      rw [hbooks]
      exact .evicts (key event) _ _ (tallied_push key s.ring event hfull)
    · have hbooks : (s.step key (.push event)).books (q.step key N (.push event)) =
          s.books q := by
        have hroom := Nat.lt_of_le_of_ne s.ring.fits hfull
        rw [Answered.books, Answered.step, DropOldest.step, if_pos (by omega), push,
          dif_neg hfull]
        rfl
      rw [hbooks]
      exact .rests
  | popBatch max =>
    obtain ⟨-, -, hdropped, htally, hunattributed⟩ := popBatch_spec max s.ring
    have hbooks : (s.step key (.popBatch max)).books (q.step key N (.popBatch max)) =
        s.books q := by
      rw [Answered.books, Answered.step, hdropped, htally, hunattributed]
      rfl
    rw [hbooks]
    exact .rests
  | takeDrops windowId =>
    rw [Answered.step, takeDrops]
    cases hslot : s.ring.tally.slotOf windowId with
    | some i => exact .takes windowId i hslot
    | none => exact .misses windowId hslot
  | takeUnattributed => exact .settles

/-- The books of a new ring after some calls. -/
def booksOf [Inhabited α] (N : ℕ) [NeZero N] (calls : List (RingCall α)) : Books :=
  (Answered.run key N calls).books (DropOldest.run key N calls)

theorem booked_run [Inhabited α] (calls : List (RingCall α)) (call : RingCall α) :
    Booked (booksOf key N calls) (booksOf key N (calls ++ [call])) := by
  rw [booksOf, booksOf, Answered.run, Answered.run, DropOldest.run, DropOldest.run,
    List.foldl_concat, List.foldl_concat]
  exact booked_step key _ _ (represents_run key calls) call

/-- No count of the books is at its maximum. -/
def Books.Below (b : Books) : Prop :=
  b.unattributed < kMaxTally ∧ ∀ i, (b.tally i).count < kMaxTally

def Books.Balanced (b : Books) : Prop :=
  b.taken + b.unattributed.toNat + b.tally.total = b.dropped

theorem saturatingAdd_below {a b : UInt32} (h : saturatingAdd a b < kMaxTally) :
    (saturatingAdd a b).toNat = a.toNat + b.toNat := by
  have hadd := saturatingAdd_toNat a b
  have hlt := UInt32.lt_iff_toNat_lt.mp h
  omega

theorem balances_evicts {b : Books} (h : b.Balanced) {windowId : UInt32} {tally' : Tally}
    {unattributed' : UInt32} (ht : Tallied b.tally b.unattributed windowId tally' unattributed')
    (hbelow : unattributed' < kMaxTally ∧ ∀ i, (tally' i).count < kMaxTally) :
    b.taken + unattributed'.toNat + tally'.total = b.dropped + 1 := by
  have hone : (1 : UInt32).toNat = 1 := rfl
  rw [Books.Balanced] at h
  cases ht with
  | again i hslot =>
    have hupdate := b.tally.total_update i (b.tally i).again
    have hcount := hbelow.2 i
    rw [Function.update_self, Slot.again_count] at hcount
    have hadd := saturatingAdd_below hcount
    rw [Slot.again_count] at hupdate
    omega
  | fresh i age hslot hfree =>
    have hupdate := b.tally.total_update i { windowId, count := 1, age }
    rw [hfree] at hupdate
    dsimp only at hupdate
    have hzero : (0 : UInt32).toNat = 0 := rfl
    omega
  | folded i age hslot hused =>
    have hupdate := b.tally.total_update i { windowId, count := 1, age }
    dsimp only at hupdate
    have hadd := saturatingAdd_below hbelow.1
    omega

theorem balances_step {b b' : Books} (h : b.Balanced) (hstep : Booked b b') (hbelow : b'.Below) :
    b'.Balanced := by
  cases hstep with
  | rests => exact h
  | evicts windowId tally' unattributed' ht => exact balances_evicts h ht hbelow
  | takes windowId i hslot =>
    have hupdate := b.tally.total_update i {}
    have hzero : (0 : UInt32).toNat = 0 := rfl
    simp only [Books.Balanced] at h hupdate ⊢
    omega
  | misses windowId hslot => exact h
  | settles =>
    have hzero : (0 : UInt32).toNat = 0 := rfl
    simp only [Books.Balanced] at h ⊢
    omega

theorem balances_run [Inhabited α] (calls : List (RingCall α))
    (hbelow : ∀ before, before <+: calls → (booksOf key N before).Below) :
    (booksOf key N calls).Balanced := by
  induction calls using List.reverseRecOn with
  | nil => rfl
  | append_singleton calls call ih =>
    have hbefore := ih fun before h => hbelow before (h.trans (List.prefix_append _ _))
    exact balances_step hbefore (booked_run key calls call) (hbelow _ (List.prefix_refl _))

/-- What the tally has to do with the drops that nobody has taken. -/
structure Accounts (tally : Tally) (untaken : UInt32 → ℕ) : Prop where
  distinct : tally.Distinct
  untaken : ∀ i, 0 < (tally i).count → untaken (tally i).windowId ≠ 0

/-- A slot is given to a window that no other one is of. -/
theorem Accounts.write {tally : Tally} {untaken : UInt32 → ℕ} (h : Accounts tally untaken)
    (i : Fin kTallySlots) (slot : Slot)
    (hothers : ∀ j, j ≠ i → 0 < (tally j).count → (tally j).windowId ≠ slot.windowId) (n : ℕ) :
    Accounts (Function.update tally i slot)
      (Function.update untaken slot.windowId (n + 1)) where
  distinct := by
    intro j k hj hk hwindow
    by_cases hji : j = i
    · by_cases hki : k = i
      · rw [hji, hki]
      · rw [Function.update_of_ne hki] at hk hwindow
        rw [hji, Function.update_self] at hwindow
        exact absurd hwindow.symm (hothers k hki hk)
    · rw [Function.update_of_ne hji] at hj hwindow
      by_cases hki : k = i
      · rw [hki, Function.update_self] at hwindow
        exact absurd hwindow (hothers j hji hj)
      · rw [Function.update_of_ne hki] at hk hwindow
        exact h.distinct j k hj hk hwindow
  untaken := by
    intro j hj
    by_cases hji : j = i
    · simp [hji]
    · rw [Function.update_of_ne hji] at hj ⊢
      rw [Function.update_of_ne (hothers j hji hj)]
      exact h.untaken j hj

theorem Accounts.clear {tally : Tally} {untaken : UInt32 → ℕ} (h : Accounts tally untaken)
    {windowId : UInt32} {i : Fin kTallySlots} (hslot : tally.slotOf windowId = some i) :
    Accounts (Function.update tally i {}) (Function.update untaken windowId 0) := by
  obtain ⟨hused, hwindow⟩ := Tally.slotOf_some tally hslot
  have hfree : ∀ j, 0 < (Function.update tally i {} j).count → j ≠ i := by
    intro j hj hji
    rw [hji, Function.update_self] at hj
    exact absurd hj (by decide)
  refine ⟨fun j k hj hk hjk => ?_, fun j hj => ?_⟩
  · have hji := hfree j hj
    have hki := hfree k hk
    rw [Function.update_of_ne hji] at hj hjk
    rw [Function.update_of_ne hki] at hk hjk
    exact h.distinct j k hj hk hjk
  · have hji := hfree j hj
    rw [Function.update_of_ne hji] at hj ⊢
    have hne : (tally j).windowId ≠ windowId :=
      fun heq => hji (h.distinct j i hj hused (heq.trans hwindow.symm))
    rw [Function.update_of_ne hne]
    exact h.untaken j hj

theorem Accounts.miss {tally : Tally} {untaken : UInt32 → ℕ} (h : Accounts tally untaken)
    {windowId : UInt32} (hslot : tally.slotOf windowId = none) :
    Accounts tally (Function.update untaken windowId 0) := by
  refine ⟨h.distinct, fun j hj => ?_⟩
  rw [Function.update_of_ne (Tally.slotOf_none tally hslot j hj)]
  exact h.untaken j hj

/-- No other slot is of a window that is given one. -/
theorem Accounts.others {tally : Tally} {untaken : UInt32 → ℕ} (h : Accounts tally untaken)
    {windowId : UInt32} {i : Fin kTallySlots} (hslot : tally.slotOf windowId = some i)
    (j : Fin kTallySlots) (hj : j ≠ i) (hused : 0 < (tally j).count) :
    (tally j).windowId ≠ windowId := by
  obtain ⟨husedi, hwindow⟩ := Tally.slotOf_some tally hslot
  exact fun heq => hj (h.distinct j i hused husedi (heq.trans hwindow.symm))

theorem accounts_evicts {b : Books} (h : Accounts b.tally b.untaken) {windowId : UInt32}
    {tally' : Tally} {unattributed' : UInt32}
    (ht : Tallied b.tally b.unattributed windowId tally' unattributed') (n : ℕ) :
    Accounts tally' (Function.update b.untaken windowId (n + 1)) := by
  cases ht with
  | again i hslot =>
    obtain ⟨-, hwindow⟩ := Tally.slotOf_some _ hslot
    have hwrite := h.write i (b.tally i).again
    rw [Slot.again_windowId, hwindow] at hwrite
    exact hwrite (h.others hslot) n
  | fresh i age hslot hfree =>
    exact h.write i { windowId, count := 1, age }
      (fun j _ hused => Tally.slotOf_none _ hslot j hused) n
  | folded i age hslot hused =>
    exact h.write i { windowId, count := 1, age }
      (fun j _ hused => Tally.slotOf_none _ hslot j hused) n

theorem accounts_step {b b' : Books} (h : Accounts b.tally b.untaken) (hstep : Booked b b') :
    Accounts b'.tally b'.untaken := by
  cases hstep with
  | rests => exact h
  | evicts windowId tally' unattributed' ht => exact accounts_evicts h ht _
  | takes windowId i hslot => exact h.clear hslot
  | misses windowId hslot => exact h.miss hslot
  | settles => exact h

theorem accounts_run [Inhabited α] (calls : List (RingCall α)) :
    Accounts (booksOf key N calls).tally (booksOf key N calls).untaken := by
  induction calls using List.reverseRecOn with
  | nil =>
    have hfree : ¬(0 : UInt32) < 0 := by decide
    exact ⟨fun _ _ hused => absurd hused hfree, fun _ hused => absurd hused hfree⟩
  | append_singleton calls call ih => exact accounts_step ih (booked_run key calls call)

end CydMonitor.Observation
