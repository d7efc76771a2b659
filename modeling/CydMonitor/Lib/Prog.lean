import Mathlib.Data.List.Basic
import Mathlib.Order.Defs.Unbundled

/-!
# Programs over a state

Total state programs are those of `StateM`. Two kinds of statement about them: a triple
`{P} c {Q}`, and that a program moves the state only along a relation.
-/

namespace Prog

variable {σ α β : Type}

/-- From a state with `P` the program ends with a result and a state in `Q`. -/
def Triple (P : σ → Prop) (c : StateM σ α) (Q : α → σ → Prop) : Prop :=
  ∀ s, P s → Q (c s).1 (c s).2

theorem Triple.pure {P : σ → Prop} {Q : α → σ → Prop} {a : α} (h : ∀ s, P s → Q a s) :
    Triple P (pure a) Q :=
  h

theorem Triple.bind {P : σ → Prop} {c : StateM σ α} {M : α → σ → Prop} {f : α → StateM σ β}
    {Q : β → σ → Prop} (hc : Triple P c M) (hf : ∀ a, Triple (M a) (f a) Q) :
    Triple P (c >>= f) Q :=
  fun s hs => hf (c s).1 (c s).2 (hc s hs)

theorem Triple.conseq {P P' : σ → Prop} {c : StateM σ α} {Q Q' : α → σ → Prop}
    (h : Triple P c Q) (hP : ∀ s, P' s → P s) (hQ : ∀ a s, Q a s → Q' a s) : Triple P' c Q' :=
  fun s hs => hQ _ _ (h s (hP s hs))

theorem Triple.pre {P P' : σ → Prop} {c : StateM σ α} {Q : α → σ → Prop} (h : Triple P c Q)
    (hP : ∀ s, P' s → P s) : Triple P' c Q :=
  h.conseq hP fun _ _ hq => hq

theorem Triple.and {P P' : σ → Prop} {c : StateM σ α} {Q Q' : α → σ → Prop}
    (h : Triple P c Q) (h' : Triple P' c Q') :
    Triple (fun s => P s ∧ P' s) c fun a s => Q a s ∧ Q' a s :=
  fun s hs => ⟨h s hs.1, h' s hs.2⟩

theorem Triple.ite {P : σ → Prop} {p : Prop} [Decidable p] {c d : StateM σ α}
    {Q : α → σ → Prop} (hc : p → Triple P c Q) (hd : ¬ p → Triple P d Q) :
    Triple P (if p then c else d) Q := by
  by_cases h : p
  · rw [if_pos h]
    exact hc h
  · rw [if_neg h]
    exact hd h

/-- The program moves the state only along `R`. -/
def Within (R : σ → σ → Prop) (c : StateM σ α) : Prop :=
  ∀ s, R s (c s).2

theorem Within.pure {R : σ → σ → Prop} [Std.Refl R] (a : α) :
    Within R (Pure.pure a : StateM σ α) :=
  fun s => Std.Refl.refl s

theorem Within.bind {R : σ → σ → Prop} [IsTrans σ R] {c : StateM σ α} {f : α → StateM σ β}
    (hc : Within R c) (hf : ∀ a, Within R (f a)) : Within R (c >>= f) :=
  fun s => IsTrans.trans _ _ _ (hc s) (hf _ _)

theorem Within.ite {R : σ → σ → Prop} {p : Prop} [Decidable p] {c d : StateM σ α}
    (hc : Within R c) (hd : Within R d) : Within R (if p then c else d) := by
  by_cases h : p
  · rwa [if_pos h]
  · rwa [if_neg h]

/-- What the relation preserves, the program preserves. -/
theorem Within.triple {R : σ → σ → Prop} {P : σ → Prop} {c : StateM σ α} (h : Within R c)
    (hP : ∀ s s', R s s' → P s → P s') : Triple P c fun _ => P :=
  fun s hs => hP _ _ (h s) hs

/-- The state after `n` runs of a program. -/
def repeated (c : StateM σ Unit) : ℕ → σ → σ
  | 0, s => s
  | n + 1, s => (c (repeated c n s)).2

/-- What one run preserves holds after any number of runs. -/
theorem repeated_invariant {c : StateM σ Unit} {I : σ → Prop} (h : Triple I c fun _ => I) {s : σ}
    (hs : I s) (n : ℕ) : I (repeated c n s) := by
  induction n with
  | zero => exact hs
  | succ n ih => exact h _ ih

end Prog
