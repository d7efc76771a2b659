import CydMonitor.Lib.Loop

/-!
# How a program that may fail ends

A postcondition for what it answers and one for what it fails with.
-/

namespace Outcome

variable {ε α β σ : Type}

def Ends (x : Except ε α) (P : α → Prop) (E : ε → Prop) : Prop :=
  match x with
  | .ok a => P a
  | .error e => E e

variable {x : Except ε α} {P Q : α → Prop} {E : ε → Prop}

theorem Ends.bind {f : α → Except ε β} {R : β → Prop} (hx : Ends x P E)
    (hf : ∀ a, P a → Ends (f a) R E) : Ends (x >>= f) R E := by
  cases x with
  | ok a => exact hf a hx
  | error e => exact hx

theorem Ends.mono (hx : Ends x P E) (h : ∀ a, P a → Q a) : Ends x Q E := by
  cases x with
  | ok a => exact h a hx
  | error e => exact hx

theorem Ends.ite {p : Prop} [Decidable p] {y : Except ε α} (hx : p → Ends x P E)
    (hy : ¬p → Ends y P E) :
    Ends (if p then x else y) P E := by
  by_cases h : p
  · rw [if_pos h]
    exact hx h
  · rw [if_neg h]
    exact hy h

/-- A loop ends as its rounds do, where each that goes on lowers the measure. -/
theorem ends_loop [Inhabited ε] {body : σ → Except ε (σ ⊕ α)} {μ : σ → ℕ} {I : σ → Prop}
    (hround : ∀ s, I s → Ends (body s) (Sum.elim (fun s' => I s' ∧ μ s' < μ s) P) E)
    {s : σ} (hs : I s) : Ends (Loop.loop body μ s) P E := by
  have hrounds (n : ℕ) : ∀ s, I s → μ s < n → Ends (Loop.rounds body n s) P E := by
    induction n with
    | zero => exact fun s _ h => absurd h (Nat.not_lt_zero _)
    | succ n ih =>
      intro s hs hlt
      have hbody := hround s hs
      rw [Loop.rounds]
      cases h : body s with
      | error e =>
        rw [h] at hbody
        exact hbody
      | ok r =>
        rw [h] at hbody
        cases r with
        | inl s' => exact ih s' hbody.1 (Nat.lt_of_lt_of_le hbody.2 (Nat.le_of_lt_succ hlt))
        | inr a => exact hbody
  exact hrounds _ s hs (Nat.lt_succ_self _)

end Outcome
