import Mathlib.Data.List.Basic

/-!
# A bounded queue between two tasks

The writer never blocks; the reader takes messages between any two sends. What was sent is what
the reader has, followed by what waits.
-/

namespace CydMonitor

structure Mailbox (α : Type) where
  queue : List α := []
  /-- What the reader took, oldest first. -/
  received : List α := []
  /-- How many messages the reader takes before each coming send. -/
  takes : List ℕ := []

namespace Mailbox

variable {α : Type}

def sent (b : Mailbox α) : List α := b.received ++ b.queue

def receive (n : ℕ) (b : Mailbox α) : Mailbox α :=
  { b with queue := b.queue.drop n, received := b.received ++ b.queue.take n }

/-- The reader's turn before a send. -/
def settle (b : Mailbox α) : Mailbox α :=
  { b.receive (b.takes.headD 0) with takes := b.takes.tail }

def send (depth : ℕ) (a : α) (b : Mailbox α) : Bool × Mailbox α :=
  if b.settle.queue.length < depth then
    (true, { b.settle with queue := b.settle.queue ++ [a] })
  else (false, b.settle)

@[simp] theorem sent_receive (n : ℕ) (b : Mailbox α) : (b.receive n).sent = b.sent := by
  simp [receive, sent]

@[simp] theorem sent_settle (b : Mailbox α) : b.settle.sent = b.sent :=
  sent_receive (b.takes.headD 0) b

/-- A send appends its message or leaves the queue as it was. -/
theorem send_cases {depth : ℕ} {a : α} {b b' : Mailbox α} {went : Bool}
    (h : b.send depth a = (went, b')) :
    went = true ∧ b'.sent = b.sent ++ [a] ∨ went = false ∧ b'.sent = b.sent := by
  rw [send] at h
  split_ifs at h
  · obtain ⟨rfl, rfl⟩ := Prod.mk.inj h
    refine Or.inl ⟨rfl, ?_⟩
    rw [← sent_settle b]
    exact (List.append_assoc ..).symm
  · obtain ⟨rfl, rfl⟩ := Prod.mk.inj h
    exact Or.inr ⟨rfl, sent_settle b⟩

/-- A reader that takes nothing before a send. -/
theorem send_of_no_takes {depth : ℕ} {a : α} {b : Mailbox α} (h : b.takes = []) :
    b.send depth a =
      if b.queue.length < depth then (true, { b with queue := b.queue ++ [a] })
      else (false, b) := by
  have hsettle : b.settle = b := by
    cases b with
    | mk queue received takes =>
      cases h
      simp [settle, receive]
  rw [send, hsettle]

end Mailbox

end CydMonitor
