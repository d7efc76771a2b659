import Mathlib.Tactic.Common
import Mathlib.Logic.Function.Basic
import Mathlib.Data.List.Basic

/-!
# Prefix scanners

A scanner reads a value off the front of a list and leaves the rest, or fails.
The relations below say what a scanner reads (`Reads`), that it looks no further
than what it consumes (`Local`), that every success of one scanner is a success
of another over the same prefix (`Sim`), and that two scanners succeed together
(`Alike`). Each relation has one rule per way of building a scanner, so a proof
about a decoder follows the decoder's own text.
-/

/-- Reads a value off the front of a list of tokens, or fails with an error. -/
def Scan (τ ε α : Type) : Type := List τ → Except ε (α × List τ)

namespace Scan

variable {τ ε δ α β γ κ σ ς : Type}

instance : Monad (Scan τ ε) where
  pure a := fun l => .ok (a, l)
  bind p f := fun l => match p l with
    | .ok (a, r) => f a r
    | .error e => .error e

/-- The scanner that always fails. -/
def fail (e : ε) : Scan τ ε α := fun _ => .error e

/-- Goes on only when the condition holds. -/
def ensure (c : Prop) [Decidable c] (e : ε) : Scan τ ε Unit :=
  if c then pure () else fail e

/-- Replaces whatever error a scanner fails with. -/
def orFail (p : Scan τ δ α) (e : ε) : Scan τ ε α := fun l => match p l with
  | .ok (a, r) => .ok (a, r)
  | .error _ => .error e

/-- A pure computation that may fail, run without reading anything. -/
def lift (x : Except ε α) : Scan τ ε α := fun l => match x with
  | .ok a => .ok (a, l)
  | .error e => .error e

/-- Takes exactly `n` tokens. -/
def take (n : ℕ) (e : ε) : Scan τ ε (List τ) := fun l =>
  if l.length < n then .error e else .ok (l.take n, l.drop n)

/-- The tokens a scanner consumes, in place of its value. -/
def slice (p : Scan τ ε α) : Scan τ ε (List τ) := fun l => match p l with
  | .ok (_, r) => .ok (l.take (l.length - r.length), r)
  | .error e => .error e

/-- What a scanner would consume from here, without consuming it. -/
def preview (p : Scan τ ε α) : Scan τ ε (List τ) := fun l => match p l with
  | .ok (_, r) => .ok (l.take (l.length - r.length), l)
  | .error e => .error e

/-- Lets the next token, if there is one, choose how to go on. -/
def peek (f : Option τ → Scan τ ε α) : Scan τ ε α := fun l => f l.head? l

/-- Succeeds at the end of the input only. -/
def atEnd (e : ε) : Scan τ ε Unit
  | [] => .ok ((), [])
  | _ :: _ => .error e

/-- A counted loop over a state. -/
def loop (f : σ → Scan τ ε σ) : ℕ → σ → Scan τ ε σ
  | 0, s => pure s
  | n + 1, s => f s >>= loop f n

/-- The value a scanner reads, whatever it leaves. -/
def run (p : Scan τ ε α) (l : List τ) : Except ε α := (p l).map Prod.fst

@[simp] theorem except_ok_bind (a : α) (f : α → Except ε β) : (Except.ok a >>= f) = f a := rfl

@[simp] theorem except_error_bind (e : ε) (f : α → Except ε β) :
    (Except.error e >>= f) = .error e := rfl

@[simp] theorem except_ok_map (a : α) (f : α → β) :
    (f <$> (Except.ok a : Except ε α)) = .ok (f a) := rfl

@[simp] theorem except_error_map (e : ε) (f : α → β) :
    (f <$> (Except.error e : Except ε α)) = .error e := rfl

@[simp] theorem pure_apply (a : α) (l : List τ) :
    (pure a : Scan τ ε α) l = .ok (a, l) := rfl

@[simp] theorem fail_apply (e : ε) (l : List τ) : (fail e : Scan τ ε α) l = .error e := rfl

@[simp] theorem lift_ok (a : α) : (lift (.ok a) : Scan τ ε α) = pure a := rfl

@[simp] theorem lift_error (e : ε) : (lift (.error e) : Scan τ ε α) = fail e := rfl

instance [DecidableEq ε] (x : Except ε α) (e : ε) : Decidable (x = .error e) :=
  match x with
  | .ok _ => isFalse nofun
  | .error e' => decidable_of_iff (e' = e) ⟨congrArg _, Except.error.inj⟩

theorem except_bind_eq_ok {x : Except ε α} {f : α → Except ε β} {b : β} :
    (x >>= f) = .ok b ↔ ∃ a, x = .ok a ∧ f a = .ok b := by
  cases x <;> simp

theorem except_bind_eq_error {x : Except ε α} {f : α → Except ε β} {e : ε} :
    (x >>= f) = .error e ↔ x = .error e ∨ ∃ a, x = .ok a ∧ f a = .error e := by
  cases x <;> simp

theorem except_map_eq_ok {x : Except ε α} {f : α → β} {b : β} :
    f <$> x = .ok b ↔ ∃ a, x = .ok a ∧ f a = b := by
  cases x <;> simp

theorem except_map_eq_error {x : Except ε α} {f : α → β} {e : ε} :
    f <$> x = .error e ↔ x = .error e := by
  cases x <;> simp

theorem lift_bind (x : Except ε α) (f : α → Except ε β) :
    (lift (x >>= f) : Scan τ ε β) = lift x >>= fun a => lift (f a) := by
  cases x <;> rfl

theorem bind_ok {p : Scan τ ε α} {f : α → Scan τ ε β} {l r : List τ} {a : α}
    (h : p l = .ok (a, r)) : (p >>= f) l = f a r := by
  change (match p l with | .ok (a, r) => f a r | .error e => .error e) = _
  rw [h]

theorem bind_error {p : Scan τ ε α} {f : α → Scan τ ε β} {l : List τ} {e : ε}
    (h : p l = .error e) : (p >>= f) l = .error e := by
  change (match p l with | .ok (a, r) => f a r | .error e => .error e) = _
  rw [h]

/-- The inversion of a sequence: both parts succeeded. -/
theorem bind_eq_ok {p : Scan τ ε α} {f : α → Scan τ ε β} {l r : List τ} {b : β} :
    (p >>= f) l = .ok (b, r) ↔ ∃ a m, p l = .ok (a, m) ∧ f a m = .ok (b, r) := by
  cases h : p l with
  | ok x =>
    obtain ⟨a, m⟩ := x
    rw [bind_ok h]
    exact ⟨fun hf => ⟨a, m, rfl, hf⟩, by rintro ⟨_, _, h', hf⟩; cases h'; exact hf⟩
  | error e => simp [bind_error h]

theorem bind_eq_error {p : Scan τ ε α} {f : α → Scan τ ε β} {l : List τ} {e : ε} :
    (p >>= f) l = .error e ↔
      p l = .error e ∨ ∃ a m, p l = .ok (a, m) ∧ f a m = .error e := by
  cases h : p l with
  | ok x =>
    obtain ⟨a, m⟩ := x
    simp [bind_ok h]
  | error e' => simp [bind_error h]

@[simp] theorem pure_bind (a : α) (f : α → Scan τ ε β) : (pure a >>= f) = f a := rfl

theorem bind_assoc (p : Scan τ ε α) (f : α → Scan τ ε β) (g : β → Scan τ ε γ) :
    ((p >>= f) >>= g) = (p >>= fun a => f a >>= g) := by
  funext l
  cases h : p l with
  | ok x => rw [bind_ok h]; cases hf : f x.1 x.2 with
    | ok y => rw [bind_ok (p := p >>= f) (by rw [bind_ok h, hf]), bind_ok hf]
    | error e => rw [bind_error (p := p >>= f) (by rw [bind_ok h, hf]), bind_error hf]
  | error e => rw [bind_error h, bind_error (p := p >>= f) (by rw [bind_error h])]

@[simp] theorem ensure_true {c : Prop} [Decidable c] (h : c) (e : ε) :
    (ensure c e : Scan τ ε Unit) = pure () := if_pos h

@[simp] theorem ensure_false {c : Prop} [Decidable c] (h : ¬c) (e : ε) :
    (ensure c e : Scan τ ε Unit) = fail e := if_neg h

/-- Two checks with one error are one check. -/
theorem ensure_ensure (c d : Prop) [Decidable c] [Decidable d] (e : ε) (f : Unit → Scan τ ε β) :
    (ensure c e >>= fun _ => ensure d e >>= f) = (ensure (c ∧ d) e >>= f) := by
  by_cases hc : c
  · by_cases hd : d <;> simp [hc, hd]
  · have hcd : ¬(c ∧ d) := fun h => hc h.1
    rw [ensure_false hc, ensure_false hcd]
    rfl

@[simp] theorem ensure_eq_ok {c : Prop} [Decidable c] {e : ε} {l r : List τ} :
    (ensure c e : Scan τ ε Unit) l = .ok ((), r) ↔ c ∧ r = l := by
  by_cases h : c <;> simp [h, eq_comm]

theorem ensure_bind_eq_ok {c : Prop} [Decidable c] {e : ε} {f : Unit → Scan τ ε β}
    {l : List τ} {x : β × List τ} : (ensure c e >>= f) l = .ok x ↔ c ∧ f () l = .ok x := by
  by_cases h : c
  · simp [h]
  · simp only [h, ensure_false, not_false_eq_true, false_and, iff_false]
    intro hx
    cases hx

@[simp] theorem orFail_eq_ok {p : Scan τ δ α} {e : ε} {l r : List τ} {a : α} :
    orFail p e l = .ok (a, r) ↔ p l = .ok (a, r) := by
  unfold orFail
  rcases p l with _ | ⟨_, _⟩ <;> simp

@[simp] theorem lift_eq_ok {x : Except ε α} {l r : List τ} {a : α} :
    (lift x : Scan τ ε α) l = .ok (a, r) ↔ x = .ok a ∧ r = l := by
  cases x <;> simp [eq_comm]

theorem take_eq_ok {n : ℕ} {e : ε} {l r u : List τ} :
    (take n e : Scan τ ε (List τ)) l = .ok (u, r) ↔ l = u ++ r ∧ u.length = n := by
  unfold take
  split_ifs with h
  · simp only [false_iff, not_and]
    rintro rfl hn
    simp only [List.length_append] at h
    omega
  · simp only [Except.ok.injEq, Prod.mk.injEq]
    constructor
    · rintro ⟨rfl, rfl⟩
      exact ⟨(List.take_append_drop n l).symm, by simp; omega⟩
    · rintro ⟨rfl, rfl⟩
      simp

@[simp] theorem peek_nil (f : Option τ → Scan τ ε α) : peek f [] = f none [] := rfl

@[simp] theorem peek_cons (f : Option τ → Scan τ ε α) (t : τ) (l : List τ) :
    peek f (t :: l) = f (some t) (t :: l) := rfl

@[simp] theorem atEnd_eq_ok {e : ε} {l r : List τ} :
    (atEnd e : Scan τ ε Unit) l = .ok ((), r) ↔ l = [] ∧ r = [] := by
  cases l <;> simp [atEnd, eq_comm]

@[simp] theorem run_eq_ok {p : Scan τ ε α} {l : List τ} {a : α} :
    run p l = .ok a ↔ ∃ r, p l = .ok (a, r) := by
  unfold run
  rcases p l with _ | ⟨_, r⟩
  · simp [Except.map]
  · simp only [Except.map, Except.ok.injEq, Prod.mk.injEq, exists_and_left]
    exact ⟨fun h => ⟨h, r, rfl⟩, fun h => h.1⟩

theorem run_eq_error {p : Scan τ ε α} {l : List τ} {e : ε} :
    run p l = .error e ↔ p l = .error e := by
  unfold run
  rcases p l with _ | ⟨_, _⟩ <;> simp [Except.map]

/-- A pure computation on the value that was read. -/
theorem run_bind (p : Scan τ ε α) (f : α → Except ε β) (l : List τ) :
    (run p l >>= f) = run (p >>= fun a => lift (f a)) l := by
  unfold run
  cases h : p l with
  | ok x =>
    rw [bind_ok (show p l = .ok (x.1, x.2) from h)]
    cases hf : f x.1 <;> simp [Except.map, hf]
  | error e =>
    rw [bind_error h]
    rfl

@[simp] theorem loop_zero (f : σ → Scan τ ε σ) (s : σ) : loop f 0 s = pure s := rfl

theorem loop_succ (f : σ → Scan τ ε σ) (n : ℕ) (s : σ) :
    loop f (n + 1) s = f s >>= loop f n := rfl

/-- Running a body twice per round is running it once for twice as many rounds. -/
theorem loop_mul_two (f : σ → Scan τ ε σ) (n : ℕ) (s : σ) :
    loop f (n * 2) s = loop (fun s => f s >>= f) n s := by
  induction n generalizing s with
  | zero => rfl
  | succ n ih =>
    have h : (n + 1) * 2 = n * 2 + 1 + 1 := by omega
    rw [h, loop_succ, loop_succ, bind_assoc]
    congr 1
    funext t
    change (f t >>= loop f (n * 2)) = (f t >>= loop (fun s => f s >>= f) n)
    congr 1
    funext u
    exact ih u

end Scan
