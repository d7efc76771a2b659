import Mathlib.Data.List.Basic
import Mathlib.Order.Basic

/-!
# Loops that a measure bounds

A loop runs its body until the body answers or fails. Where every round lowers the measure, the
loop is the recursion that it stands for.
-/

namespace Loop

variable {σ ε α : Type} [Inhabited ε] {body : σ → Except ε (σ ⊕ α)} {μ : σ → ℕ}

/-- At most so many rounds of the body. -/
def rounds (body : σ → Except ε (σ ⊕ α)) : ℕ → σ → Except ε α
  | 0, _ => .error default
  | n + 1, s =>
    match body s with
    | .error e => .error e
    | .ok (.inl s') => rounds body n s'
    | .ok (.inr a) => .ok a

def loop (body : σ → Except ε (σ ⊕ α)) (μ : σ → ℕ) (s : σ) : Except ε α := rounds body (μ s + 1) s

/-- Every round that goes on lowers the measure. -/
def Lowers (body : σ → Except ε (σ ⊕ α)) (μ : σ → ℕ) : Prop :=
  ∀ s s', body s = .ok (.inl s') → μ s' < μ s

theorem rounds_of_lt (h : Lowers body μ) {m n : ℕ} {s : σ} (hm : μ s < m) (hn : μ s < n) :
    rounds body m s = rounds body n s := by
  induction m generalizing n s with
  | zero => exact absurd hm (Nat.not_lt_zero _)
  | succ m ih =>
    cases n with
    | zero => exact absurd hn (Nat.not_lt_zero _)
    | succ n =>
      rw [rounds, rounds]
      cases hbody : body s with
      | error e => rfl
      | ok r =>
        cases r with
        | inl s' =>
          have hlower := h s s' hbody
          exact ih (Nat.lt_of_lt_of_le hlower (Nat.le_of_lt_succ hm))
            (Nat.lt_of_lt_of_le hlower (Nat.le_of_lt_succ hn))
        | inr a => rfl

/-- A round that goes on. -/
theorem loop_next (h : Lowers body μ) {s s' : σ} (hbody : body s = .ok (.inl s')) :
    loop body μ s = loop body μ s' := by
  rw [loop, rounds, hbody]
  exact rounds_of_lt h (h s s' hbody) (Nat.lt_succ_self _)

theorem loop_stop {s : σ} {a : α} (hbody : body s = .ok (.inr a)) : loop body μ s = .ok a := by
  rw [loop, rounds, hbody]

theorem loop_fail {s : σ} {e : ε} (hbody : body s = .error e) : loop body μ s = .error e := by
  rw [loop, rounds, hbody]

/-- What the rounds keep, and an answer owes to it. -/
theorem loop_keeps {I : σ → Prop} {Q : α → Prop} {s : σ} {a : α}
    (hnext : ∀ s s', I s → body s = .ok (.inl s') → I s')
    (hstop : ∀ s a, I s → body s = .ok (.inr a) → Q a) (hs : I s)
    (h : loop body μ s = .ok a) : Q a := by
  rw [loop] at h
  generalize μ s + 1 = n at h
  induction n generalizing s with
  | zero => cases h
  | succ n ih =>
    rw [rounds] at h
    cases hbody : body s with
    | error e =>
      rw [hbody] at h
      cases h
    | ok r =>
      rw [hbody] at h
      cases r with
      | inl s' => exact ih (hnext s s' hs hbody) h
      | inr b =>
        cases h
        exact hstop s a hs hbody

end Loop
