import CydMonitor.Observation.EventRing

/-!
# What an event ring is for

A bounded queue that drops its oldest event, and the drops of each window since they were last
taken. Every run of the ring is a run of it.
-/

namespace CydMonitor.Observation

open EventRing

inductive RingCall (α : Type) where
  | push (event : α)
  | popBatch (max : ℕ)
  | takeDrops (windowId : UInt32)
  | takeUnattributed

inductive Fate where
  | popped | evicted
  deriving DecidableEq

/-- The events held, what became of the others in order, and the drops not taken. -/
structure DropOldest (α : Type) where
  held : List α := []
  removed : List (α × Fate) := []
  untaken : UInt32 → ℕ := fun _ => 0

variable {α : Type} (key : α → UInt32) {N : ℕ}

/-- One call, on a queue of capacity `N`. -/
def DropOldest.step (N : ℕ) (q : DropOldest α) : RingCall α → DropOldest α
  | .push event =>
    if q.held.length < N then { q with held := q.held ++ [event] }
    else
      { held := q.held.tail ++ [event]
        removed := q.removed ++ q.held.head?.toList.map (·, .evicted)
        untaken := Function.update q.untaken (key event) (q.untaken (key event) + 1) }
  | .popBatch max =>
    { q with
      held := q.held.drop max
      removed := q.removed ++ (q.held.take max).map (·, .popped) }
  | .takeDrops windowId => { q with untaken := Function.update q.untaken windowId 0 }
  | .takeUnattributed => q

def DropOldest.run (N : ℕ) (calls : List (RingCall α)) : DropOldest α :=
  calls.foldl (DropOldest.step key N) {}

/-- A ring and what it has answered. -/
structure Answered (α : Type) (N : ℕ) [NeZero N] where
  ring : EventRing α N
  popped : List α := []
  taken : ℕ := 0

variable [NeZero N]

def Answered.step (s : Answered α N) : RingCall α → Answered α N
  | .push event => { s with ring := s.ring.push key event }
  | .popBatch max =>
    { s with ring := (s.ring.popBatch max).2, popped := s.popped ++ (s.ring.popBatch max).1 }
  | .takeDrops windowId =>
    { s with
      ring := (s.ring.takeDrops windowId).2
      taken := s.taken + (s.ring.takeDrops windowId).1.toNat }
  | .takeUnattributed =>
    { s with
      ring := s.ring.takeUnattributed.2
      taken := s.taken + s.ring.takeUnattributed.1.toNat }

/-- A new ring after some calls. -/
def Answered.run [Inhabited α] (N : ℕ) [NeZero N] (calls : List (RingCall α)) : Answered α N :=
  calls.foldl (Answered.step key) { ring := .empty }

def pushes (calls : List (RingCall α)) : List α :=
  calls.filterMap fun
    | .push event => some event
    | _ => none

namespace EventRing

def contents (r : EventRing α N) : List α := Ring.contents r.items r.head r.size

variable (r : EventRing α N)

@[simp] theorem length_contents : r.contents.length = r.size := Ring.length_contents

/-- The tally does not touch the events. -/
theorem tallyDrop_spec (windowId : UInt32) :
    (r.tallyDrop windowId).contents = r.contents ∧
      (r.tallyDrop windowId).dropped = r.dropped ∧ (r.tallyDrop windowId).head = r.head := by
  have hitems : (r.tallyDrop windowId).items = r.items ∧
      (r.tallyDrop windowId).head = r.head ∧ (r.tallyDrop windowId).dropped = r.dropped := by
    rw [tallyDrop]
    cases r.tally.slotOf windowId with
    | some i => exact ⟨rfl, rfl, rfl⟩
    | none => cases r.tally.search.freeSlot <;> exact ⟨rfl, rfl, rfl⟩
  rw [contents, contents, size_tallyDrop, hitems.1, hitems.2.1]
  exact ⟨rfl, hitems.2.2, rfl⟩

theorem contents_append (event : α) (h : r.size < N) :
    (r.append event h).contents = r.contents ++ [event] :=
  Ring.contents_write h event

theorem contents_eq_cons (h : r.size ≠ 0) :
    r.contents =
      r.items (Fin.ofNat N r.head) :: Ring.contents r.items ((r.head + 1) % N) (r.size - 1) := by
  obtain ⟨n, hn⟩ := Nat.exists_eq_succ_of_ne_zero h
  rw [contents, hn, Ring.contents_mod]
  exact Ring.contents_succ

theorem contents_evict : r.evict.contents = r.contents.tail := by
  by_cases h : r.size = 0
  · have hnil : ∀ l : List α, l.length = 0 → l = [] := fun _ => List.length_eq_zero_iff.mp
    rw [hnil r.contents (by simp [h]), hnil r.evict.contents (by simp [evict, h])]
    rfl
  · rw [contents_eq_cons r h]
    rfl

theorem popBatch_spec (max : ℕ) (r : EventRing α N) :
    (r.popBatch max).1 = r.contents.take max ∧ (r.popBatch max).2.contents = r.contents.drop max ∧
      (r.popBatch max).2.dropped = r.dropped ∧ (r.popBatch max).2.tally = r.tally ∧
        (r.popBatch max).2.unattributed = r.unattributed := by
  induction max generalizing r with
  | zero => exact ⟨rfl, rfl, rfl, rfl, rfl⟩
  | succ max ih =>
    rw [popBatch]
    by_cases h : r.size = 0
    · have hnil : r.contents = [] := List.length_eq_zero_iff.mp (by simp [h])
      simp [h, hnil]
    · rw [if_neg h, contents_eq_cons r h]
      obtain ⟨hpopped, hheld, hdropped, htally, hunattributed⟩ := ih
        { r with
          head := (r.head + 1) % N
          size := r.size - 1
          fits := Nat.sub_le_of_le_add (Nat.le_succ_of_le r.fits) }
      exact ⟨congrArg _ hpopped, hheld, hdropped, htally, hunattributed⟩

end EventRing

/-- What relates a ring to the queue it stands for. -/
structure Represents (s : Answered α N) (q : DropOldest α) : Prop where
  held : s.ring.contents = q.held
  popped : s.popped = (q.removed.filter (·.2 = .popped)).map (·.1)
  dropped : s.ring.dropped = (q.removed.filter (·.2 = .evicted)).length

private theorem filter_fate (events : List α) (made sought : Fate) :
    (events.map (·, made)).filter (·.2 = sought) =
      if made = sought then events.map (·, made) else [] := by
  by_cases h : made = sought
  · simp [h]
  · simp [h]

private theorem represents_push (s : Answered α N) (q : DropOldest α) (h : Represents s q)
    (event : α) :
    Represents (s.step key (.push event)) (q.step key N (.push event)) := by
  have hlength : q.held.length = s.ring.size := by rw [← h.held, length_contents]
  rw [Answered.step, EventRing.push, DropOldest.step, hlength]
  by_cases hfull : s.ring.size = N
  · obtain ⟨hcontents, hdropped, -⟩ := tallyDrop_spec s.ring (key event)
    rw [dif_pos hfull, if_neg (by omega)]
    refine ⟨?_, ?_, ?_⟩
    · show ((s.ring.tallyDrop (key event)).evict.append event _).contents = _
      rw [contents_append, contents_evict, hcontents, h.held]
    · show s.popped = _
      rw [h.popped, List.filter_append, List.map_append]
      cases q.held.head? <;> simp
    · show (s.ring.tallyDrop (key event)).dropped + 1 = _
      obtain ⟨oldest, rest, hheld⟩ := List.exists_cons_of_length_pos
        (l := q.held) (by rw [hlength, hfull]; exact Nat.pos_of_neZero N)
      rw [hdropped, h.dropped, hheld]
      simp
  · rw [dif_neg hfull, if_pos (Nat.lt_of_le_of_ne s.ring.fits hfull)]
    refine ⟨?_, h.popped, h.dropped⟩
    show (s.ring.append event _).contents = _
    rw [contents_append, h.held]

/-- Every call keeps the ring in line with the queue. -/
theorem represents_step (s : Answered α N) (q : DropOldest α) (h : Represents s q)
    (call : RingCall α) : Represents (s.step key call) (q.step key N call) := by
  cases call with
  | push event => exact represents_push key s q h event
  | popBatch max =>
    obtain ⟨hpopped, hheld, hdropped, -⟩ := popBatch_spec max s.ring
    refine ⟨?_, ?_, ?_⟩
    · exact hheld.trans (congrArg (List.drop max) h.held)
    · show s.popped ++ (s.ring.popBatch max).1 = _
      rw [hpopped, h.popped, h.held, DropOldest.step, List.filter_append, filter_fate,
        if_pos rfl, List.map_append, List.map_map]
      simp [Function.comp_def]
    · show (s.ring.popBatch max).2.dropped = _
      rw [hdropped, h.dropped, DropOldest.step, List.filter_append, filter_fate,
        if_neg (by decide), List.append_nil]
  | takeDrops windowId =>
    have hsame : (s.ring.takeDrops windowId).2.contents = s.ring.contents ∧
        (s.ring.takeDrops windowId).2.dropped = s.ring.dropped := by
      rw [takeDrops]
      cases s.ring.tally.slotOf windowId <;> exact ⟨rfl, rfl⟩
    exact ⟨hsame.1.trans h.held, h.popped, hsame.2.trans h.dropped⟩
  | takeUnattributed => exact ⟨h.held, h.popped, h.dropped⟩

theorem represents_run [Inhabited α] (calls : List (RingCall α)) :
    Represents (Answered.run key N calls) (DropOldest.run key N calls) := by
  induction calls using List.reverseRecOn with
  | nil => exact ⟨rfl, rfl, rfl⟩
  | append_singleton calls call ih =>
    rw [Answered.run, DropOldest.run, List.foldl_concat, List.foldl_concat]
    exact represents_step key _ _ ih call

/-- The events pushed, in order, are those removed and those still held. -/
theorem pushes_eq (calls : List (RingCall α)) :
    pushes calls =
      (DropOldest.run key N calls).removed.map (·.1) ++ (DropOldest.run key N calls).held := by
  induction calls using List.reverseRecOn with
  | nil => rfl
  | append_singleton calls call ih =>
    rw [pushes, List.filterMap_append, ← pushes, ih, DropOldest.run, DropOldest.run,
      List.foldl_concat, ← DropOldest.run]
    generalize DropOldest.run key N calls = q
    cases call with
    | push event =>
      rw [DropOldest.step]
      by_cases hroom : q.held.length < N
      · simp [hroom]
      · obtain ⟨oldest, rest, hheld⟩ := List.exists_cons_of_length_pos
          (l := q.held) (by have := Nat.pos_of_neZero N; omega)
        rw [if_neg hroom, hheld]
        simp
    | popBatch max =>
      simp [DropOldest.step, Function.comp_def, List.append_assoc]
    | takeDrops windowId => simp [DropOldest.step]
    | takeUnattributed => simp [DropOldest.step]

end CydMonitor.Observation
