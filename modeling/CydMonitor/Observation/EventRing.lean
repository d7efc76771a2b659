import CydMonitor.Lib.Ring
import Mathlib.Algebra.BigOperators.Fin
import Mathlib.Data.Finset.Card

/-!
# The event ring (`firmware/domain/include/firmware/domain/event_ring.hpp`)

A ring of fixed storage that evicts its oldest event when it is full, and tallies the eviction
to the window of the event pushed.
-/

namespace CydMonitor.Observation

def kTallySlots : ℕ := 4
def kMaxTally : UInt32 := 0xffffffff

def EventRing.saturatingAdd (a b : UInt32) : UInt32 :=
  if b > kMaxTally - a then kMaxTally else a + b

/-- The drops of one window; none: the slot is free. -/
structure Slot where
  windowId : UInt32 := 0
  count : UInt32 := 0
  age : ℕ := 0
  deriving DecidableEq

abbrev Tally := Fin kTallySlots → Slot

/-- What the loop over the slots finds besides the window's own: the first free slot and the
oldest one in use. -/
structure Search where
  freeSlot : Option (Fin kTallySlots) := none
  oldest : Fin kTallySlots := ⟨0, by decide⟩

def Search.look (tally : Tally) (s : Search) (i : Fin kTallySlots) : Search :=
  if (tally i).count = 0 then { s with freeSlot := s.freeSlot <|> some i }
  else if (tally i).age < (tally s.oldest).age ∨ (tally s.oldest).count = 0 then
    { s with oldest := i }
  else s

def Tally.slotOf (tally : Tally) (windowId : UInt32) : Option (Fin kTallySlots) :=
  (List.finRange kTallySlots).find? fun i => 0 < (tally i).count ∧ (tally i).windowId = windowId

def Tally.search (tally : Tally) : Search :=
  (List.finRange kTallySlots).foldl (Search.look tally) {}

structure EventRing (α : Type) (N : ℕ) [NeZero N] where
  items : Fin N → α
  head : ℕ
  size : ℕ
  dropped : ℕ
  tally : Tally
  unattributed : UInt32
  nextAge : ℕ
  fits : size ≤ N

namespace EventRing

variable {α : Type} {N : ℕ} [NeZero N]

def empty [Inhabited α] : EventRing α N where
  items := fun _ => default
  head := 0
  size := 0
  dropped := 0
  tally := fun _ => {}
  unattributed := 0
  nextAge := 0
  fits := Nat.zero_le _

/-- One more drop of a window: in its slot, a free one or the oldest one, which is folded. -/
def tallyDrop (r : EventRing α N) (windowId : UInt32) : EventRing α N :=
  match r.tally.slotOf windowId with
  | some i =>
    let slot : Slot := { r.tally i with count := saturatingAdd (r.tally i).count 1 }
    { r with tally := Function.update r.tally i slot }
  | none =>
    let slot : Slot := { windowId, count := 1, age := r.nextAge + 1 }
    match r.tally.search.freeSlot with
    | some i => { r with tally := Function.update r.tally i slot, nextAge := r.nextAge + 1 }
    | none =>
      { r with
        unattributed := saturatingAdd r.unattributed (r.tally r.tally.search.oldest).count
        tally := Function.update r.tally r.tally.search.oldest slot
        nextAge := r.nextAge + 1 }

def evict (r : EventRing α N) : EventRing α N :=
  { r with
    head := (r.head + 1) % N
    size := r.size - 1
    dropped := r.dropped + 1
    fits := Nat.sub_le_of_le_add (Nat.le_succ_of_le r.fits) }

def append (r : EventRing α N) (event : α) (h : r.size < N) : EventRing α N :=
  { r with
    items := Function.update r.items (Fin.ofNat N (r.head + r.size)) event
    size := r.size + 1
    fits := h }

@[simp] theorem size_tallyDrop (r : EventRing α N) (windowId : UInt32) :
    (r.tallyDrop windowId).size = r.size := by
  rw [tallyDrop]
  cases r.tally.slotOf windowId with
  | some i => rfl
  | none =>
    cases r.tally.search.freeSlot with
    | some i => simp
    | none => simp

theorem evict_lt (r : EventRing α N) (windowId : UInt32) (h : r.size = N) :
    (r.tallyDrop windowId).evict.size < N := by
  show (r.tallyDrop windowId).size - 1 < N
  have hpos := Nat.pos_of_neZero N
  rw [size_tallyDrop]
  omega

/-- Producer side; `key`: the window of an event. -/
def push (key : α → UInt32) (r : EventRing α N) (event : α) : EventRing α N :=
  if h : r.size = N then (r.tallyDrop (key event)).evict.append event (r.evict_lt _ h)
  else r.append event (Nat.lt_of_le_of_ne r.fits h)

/-- The oldest events, up to so many. -/
def popBatch : ℕ → EventRing α N → List α × EventRing α N
  | 0, r => ([], r)
  | max + 1, r =>
    if r.size = 0 then ([], r)
    else
      let (rest, r') := popBatch max
        { r with
          head := (r.head + 1) % N
          size := r.size - 1
          fits := Nat.sub_le_of_le_add (Nat.le_succ_of_le r.fits) }
      (r.items (Fin.ofNat N r.head) :: rest, r')

def takeDrops (r : EventRing α N) (windowId : UInt32) : UInt32 × EventRing α N :=
  match r.tally.slotOf windowId with
  | some i => ((r.tally i).count, { r with tally := Function.update r.tally i {} })
  | none => (0, r)

def takeUnattributed (r : EventRing α N) : UInt32 × EventRing α N :=
  (r.unattributed, { r with unattributed := 0 })

end EventRing

end CydMonitor.Observation
