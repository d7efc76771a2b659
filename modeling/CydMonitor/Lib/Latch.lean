import Mathlib.Data.List.Induction

/-!
# Latches

What some entries of a log set and others clear, read forward as a bit and as the
existence of an entry that sets it and that none clears afterwards.
-/

namespace Latch

variable {α : Type} (sets clears : α → Bool)

/-- Some entry sets the latch and none after it clears it. -/
def Pending (log : List α) : Prop :=
  ∃ before e rest, log = before ++ e :: rest ∧ sets e = true ∧ ∀ e' ∈ rest, clears e' = false

/-- The latch after the log. -/
def held (log : List α) : Bool :=
  log.foldl (fun on e => on && !clears e || sets e) false

variable {sets clears}

@[simp] theorem held_nil : held sets clears [] = false :=
  rfl

@[simp] theorem held_concat (log : List α) (e : α) :
    held sets clears (log ++ [e]) = (held sets clears log && !clears e || sets e) := by
  simp [held]

@[simp] theorem pending_concat (log : List α) (e : α) :
    Pending sets clears (log ++ [e]) ↔
      Pending sets clears log ∧ clears e = false ∨ sets e = true := by
  constructor
  · rintro ⟨before, on, rest, hlog, hon, hrest⟩
    rcases List.eq_nil_or_concat rest with rfl | ⟨rest, last, rfl⟩
    · obtain ⟨-, hlast⟩ := List.append_inj' hlog rfl
      obtain rfl : e = on := by simpa using hlast
      exact .inr hon
    · have hsplit : log ++ [e] = (before ++ on :: rest) ++ [last] := by simpa using hlog
      obtain ⟨rfl, rfl⟩ := List.append_singleton_inj.mp hsplit
      refine .inl ⟨⟨before, on, rest, rfl, hon, fun e' he' => hrest e' ?_⟩, hrest e ?_⟩
      · simp [he']
      · simp
  · rintro (⟨⟨before, on, rest, rfl, hon, hrest⟩, he⟩ | he)
    · refine ⟨before, on, rest ++ [e], by simp, hon, fun e' he' => ?_⟩
      rcases List.mem_append.mp he' with he' | he'
      · exact hrest e' he'
      · obtain rfl := List.mem_singleton.mp he'
        exact he
    · exact ⟨log, e, [], rfl, he, fun _ h => absurd h List.not_mem_nil⟩

theorem held_iff (log : List α) : held sets clears log = true ↔ Pending sets clears log := by
  induction log using List.reverseRecOn with
  | nil => simp [Pending]
  | append_singleton log e ih => simp [← ih]

/-- Entries that neither set nor clear the latch leave it. -/
theorem held_concat_of_neutral {log : List α} {e : α} (hs : sets e = false)
    (hc : clears e = false) : held sets clears (log ++ [e]) = held sets clears log := by
  simp [hs, hc]

end Latch
