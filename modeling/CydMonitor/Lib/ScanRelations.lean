import CydMonitor.Lib.Scan

/-!
# What scanners read, and when two of them agree

`Reads` and `Local` give round trips and let a scanner run on a cut-out slice;
`Sim` compares a strict scanner with a permissive one; `Alike` compares two
scanners step by step, errors included.
-/

namespace Scan

variable {τ ε δ α β γ κ σ ς : Type}

/-- `p` reads exactly `u`, as `a`, whatever follows. -/
def Reads (p : Scan τ ε α) (u : List τ) (a : α) : Prop :=
  ∀ r, p (u ++ r) = .ok (a, r)

theorem Reads.whole {p : Scan τ ε α} {u : List τ} {a : α} (h : Reads p u a) :
    p u = .ok (a, []) := by
  simpa using h []

theorem Reads.pure (a : α) : Reads (Pure.pure a : Scan τ ε α) [] a := fun _ => rfl

theorem Reads.bind {p : Scan τ ε α} {f : α → Scan τ ε β} {u v : List τ} {a : α} {b : β}
    (hp : Reads p u a) (hf : Reads (f a) v b) : Reads (p >>= f) (u ++ v) b := by
  intro r
  rw [List.append_assoc, bind_ok (hp (v ++ r))]
  exact hf r

/-- The case of a last step that reads nothing more. -/
theorem Reads.bind_nil {p : Scan τ ε α} {f : α → Scan τ ε β} {u : List τ} {a : α} {b : β}
    (hp : Reads p u a) (hf : Reads (f a) [] b) : Reads (p >>= f) u b := by
  simpa using hp.bind hf

theorem Reads.ensure {c : Prop} [Decidable c] (h : c) (e : ε) :
    Reads (Scan.ensure c e : Scan τ ε Unit) [] () := by
  rw [ensure_true h]
  exact Reads.pure ()

theorem Reads.ensure_bind {c : Prop} [Decidable c] {e : ε} {f : Unit → Scan τ ε β}
    {u : List τ} {b : β} (h : c) (hf : Reads (f ()) u b) :
    Reads (Scan.ensure c e >>= f) u b := by
  simpa using (Reads.ensure h e).bind hf

theorem Reads.orFail {p : Scan τ δ α} {u : List τ} {a : α} (h : Reads p u a) (e : ε) :
    Reads (p.orFail e) u a := fun r => orFail_eq_ok.mpr (h r)

theorem Reads.lift {x : Except ε α} {a : α} (h : x = .ok a) :
    Reads (Scan.lift x : Scan τ ε α) [] a := by
  subst h
  exact Reads.pure a

theorem Reads.take {n : ℕ} {u : List τ} (h : u.length = n) (e : ε) :
    Reads (Scan.take n e) u u := fun _ => take_eq_ok.mpr ⟨rfl, h⟩

/-- A success depends on nothing beyond the consumed prefix. -/
def Local (p : Scan τ ε α) : Prop :=
  ∀ l a r, p l = .ok (a, r) → ∃ u, l = u ++ r ∧ Reads p u a

theorem Local.pure (a : α) : Local (Pure.pure a : Scan τ ε α) := by
  intro l b r h
  cases h
  exact ⟨[], rfl, Reads.pure _⟩

theorem Local.fail (e : ε) : Local (Scan.fail e : Scan τ ε α) := by
  intro l a r h
  cases h

theorem Local.bind {p : Scan τ ε α} {f : α → Scan τ ε β} (hp : Local p)
    (hf : ∀ a, Local (f a)) : Local (p >>= f) := by
  intro l b r h
  obtain ⟨a, m, h₁, h₂⟩ := bind_eq_ok.mp h
  obtain ⟨u, rfl, hu⟩ := hp _ _ _ h₁
  obtain ⟨v, rfl, hv⟩ := hf a _ _ _ h₂
  exact ⟨u ++ v, by simp, hu.bind hv⟩

theorem Local.ensure (c : Prop) [Decidable c] (e : ε) :
    Local (Scan.ensure c e : Scan τ ε Unit) := by
  by_cases h : c
  · rw [ensure_true h]; exact Local.pure ()
  · rw [ensure_false h]; exact Local.fail e

theorem Local.ite {c : Prop} [Decidable c] {p q : Scan τ ε α} (hp : Local p) (hq : Local q) :
    Local (if c then p else q) := by
  split_ifs
  · exact hp
  · exact hq

theorem Local.orFail {p : Scan τ δ α} (hp : Local p) (e : ε) : Local (p.orFail e) := by
  intro l a r h
  obtain ⟨u, hu, hr⟩ := hp _ _ _ (orFail_eq_ok.mp h)
  exact ⟨u, hu, hr.orFail e⟩

theorem Local.lift (x : Except ε α) : Local (Scan.lift x : Scan τ ε α) := by
  cases x
  · exact Local.fail _
  · exact Local.pure _

theorem Local.take (n : ℕ) (e : ε) : Local (Scan.take n e : Scan τ ε (List τ)) := by
  intro l u r h
  obtain ⟨hl, hn⟩ := take_eq_ok.mp h
  exact ⟨u, hl, Reads.take hn e⟩

theorem Local.loop {f : σ → Scan τ ε σ} (hf : ∀ s, Local (f s)) (n : ℕ) (s : σ) :
    Local (Scan.loop f n s) := by
  induction n generalizing s with
  | zero => exact Local.pure s
  | succ n ih => exact (hf s).bind ih

/-- Every success consumes something. -/
def Consumes (p : Scan τ ε α) : Prop := ∀ l a r, p l = .ok (a, r) → r.length < l.length

theorem Consumes.fail (e : ε) : Consumes (Scan.fail e : Scan τ ε α) := by
  intro l a r h
  cases h

theorem Consumes.orFail {p : Scan τ δ α} (h : Consumes p) (e : ε) : Consumes (p.orFail e) :=
  fun l a r hp => h l a r (orFail_eq_ok.mp hp)

theorem Consumes.bind {p : Scan τ ε α} {f : α → Scan τ ε β} (hp : Consumes p)
    (hf : ∀ a, Local (f a)) : Consumes (p >>= f) := by
  intro l b r h
  obtain ⟨a, m, h₁, h₂⟩ := bind_eq_ok.mp h
  obtain ⟨v, rfl, -⟩ := hf a _ _ _ h₂
  have hlt := hp _ _ _ h₁
  simp only [List.length_append] at hlt
  omega

theorem Consumes.ite {c : Prop} [Decidable c] {p q : Scan τ ε α} (hp : Consumes p)
    (hq : Consumes q) : Consumes (if c then p else q) := by
  split_ifs
  · exact hp
  · exact hq

theorem Consumes.peek {f : Option τ → Scan τ ε α} (hf : ∀ o, Consumes (f o)) :
    Consumes (Scan.peek f) := fun l => hf l.head? l

/-- Choosing by the next token stays local when that token is consumed. -/
theorem Local.peek {f : Option τ → Scan τ ε α} (hf : ∀ o, Local (f o))
    (hc : Consumes (Scan.peek f)) : Local (Scan.peek f) := by
  intro l a r h
  have hlt := hc _ _ _ h
  obtain ⟨u, rfl, hu⟩ := hf _ _ _ _ h
  cases u with
  | nil => simp at hlt
  | cons t u => exact ⟨t :: u, rfl, fun r' => by simpa using hu r'⟩

/-- A local scanner that succeeded up to `r` succeeds on the consumed part alone. -/
theorem Local.run_prefix {p : Scan τ ε α} (hp : Local p) {u r : List τ} {a : α}
    (h : p (u ++ r) = .ok (a, r)) : Reads p u a := by
  obtain ⟨v, hv, hr⟩ := hp _ _ _ h
  rwa [List.append_cancel_right hv]

theorem Local.reads_of_whole {p : Scan τ ε α} (hp : Local p) {u : List τ} {a : α}
    (h : p u = .ok (a, [])) : Reads p u a :=
  hp.run_prefix (by rwa [List.append_nil])

theorem Local.length_le {p : Scan τ ε α} (hp : Local p) {l r : List τ} {a : α}
    (h : p l = .ok (a, r)) : r.length ≤ l.length := by
  obtain ⟨u, rfl, -⟩ := hp _ _ _ h
  simp

theorem Local.slice_eq_ok {p : Scan τ ε α} (hp : Local p) {l u r : List τ} :
    Scan.slice p l = .ok (u, r) ↔ l = u ++ r ∧ ∃ a, p l = .ok (a, r) := by
  unfold Scan.slice
  cases h : p l with
  | error e => simp
  | ok x =>
    obtain ⟨a, m⟩ := x
    obtain ⟨v, rfl, -⟩ := hp _ _ _ h
    simp only [Except.ok.injEq, Prod.mk.injEq, List.length_append, Nat.add_sub_cancel,
      List.take_left]
    constructor
    · rintro ⟨rfl, rfl⟩
      exact ⟨rfl, a, rfl, rfl⟩
    · rintro ⟨hl, _, rfl, rfl⟩
      exact ⟨List.append_cancel_right hl, rfl⟩

theorem Reads.slice {p : Scan τ ε α} {u : List τ} {a : α} (h : Reads p u a) :
    Reads (Scan.slice p) u u := by
  intro r
  simp [Scan.slice, h r]

/-- Every failure of `p` is the error `e`. -/
def FailsOnly (e : ε) (p : Scan τ ε α) : Prop := ∀ l e', p l = .error e' → e' = e

/-- The same of a pure computation. -/
def OnlyError (e : ε) (x : Except ε α) : Prop := ∀ e', x = .error e' → e' = e

theorem OnlyError.ok (e : ε) (a : α) : OnlyError e (.ok a : Except ε α) := by
  intro e' h
  cases h

theorem OnlyError.error (e : ε) : OnlyError e (.error e : Except ε α) := by
  intro e' h
  cases h
  rfl

theorem OnlyError.bind {e : ε} {x : Except ε α} {f : α → Except ε β} (hx : OnlyError e x)
    (hf : ∀ a, OnlyError e (f a)) : OnlyError e (x >>= f) := by
  intro e' h
  rcases except_bind_eq_error.mp h with h | ⟨a, -, h⟩
  · exact hx e' h
  · exact hf a e' h

theorem OnlyError.map {e : ε} {x : Except ε α} (hx : OnlyError e x) (f : α → β) :
    OnlyError e (f <$> x) := fun e' h => hx e' (except_map_eq_error.mp h)

theorem OnlyError.ite {c : Prop} [Decidable c] {e : ε} {x y : Except ε α} (hx : OnlyError e x)
    (hy : OnlyError e y) : OnlyError e (if c then x else y) := by
  split_ifs
  · exact hx
  · exact hy

theorem FailsOnly.pure (e : ε) (a : α) : FailsOnly e (Pure.pure a : Scan τ ε α) := by
  intro l e' h
  cases h

theorem FailsOnly.fail (e : ε) : FailsOnly e (Scan.fail e : Scan τ ε α) := by
  intro l e' h
  cases h
  rfl

theorem FailsOnly.bind {e : ε} {p : Scan τ ε α} {f : α → Scan τ ε β} (hp : FailsOnly e p)
    (hf : ∀ a, FailsOnly e (f a)) : FailsOnly e (p >>= f) := by
  intro l e' h
  rcases bind_eq_error.mp h with h | ⟨a, m, -, h⟩
  · exact hp l e' h
  · exact hf a m e' h

theorem FailsOnly.ensure (c : Prop) [Decidable c] (e : ε) :
    FailsOnly e (Scan.ensure c e : Scan τ ε Unit) := by
  by_cases h : c
  · rw [ensure_true h]; exact FailsOnly.pure e ()
  · rw [ensure_false h]; exact FailsOnly.fail e

theorem FailsOnly.ensure_bind {c : Prop} [Decidable c] {e : ε} {f : Unit → Scan τ ε α}
    (hf : c → FailsOnly e (f ())) : FailsOnly e (Scan.ensure c e >>= f) := by
  by_cases h : c
  · rw [ensure_true h]; exact hf h
  · rw [ensure_false h]; exact FailsOnly.fail e

theorem FailsOnly.ite {c : Prop} [Decidable c] {e : ε} {p q : Scan τ ε α} (hp : FailsOnly e p)
    (hq : FailsOnly e q) : FailsOnly e (if c then p else q) := by
  split_ifs
  · exact hp
  · exact hq

theorem FailsOnly.orFail (p : Scan τ δ α) (e : ε) : FailsOnly e (p.orFail e) := by
  intro l e' h
  unfold Scan.orFail at h
  split at h
  · cases h
  · cases h
    rfl

theorem FailsOnly.lift {e : ε} {x : Except ε α} (h : OnlyError e x) :
    FailsOnly e (Scan.lift x : Scan τ ε α) := by
  cases x with
  | ok a => exact FailsOnly.pure e a
  | error e' => rw [h e' rfl]; exact FailsOnly.fail e

theorem FailsOnly.take (n : ℕ) (e : ε) : FailsOnly e (Scan.take n e : Scan τ ε (List τ)) := by
  intro l e' h
  unfold Scan.take at h
  split_ifs at h
  cases h
  rfl

theorem FailsOnly.peek {e : ε} {f : Option τ → Scan τ ε α} (hf : ∀ o, FailsOnly e (f o)) :
    FailsOnly e (Scan.peek f) := fun l => hf l.head? l

theorem FailsOnly.atEnd (e : ε) : FailsOnly e (Scan.atEnd e : Scan τ ε Unit) := by
  intro l e' h
  cases l <;> cases h
  rfl

theorem FailsOnly.run {e : ε} {p : Scan τ ε α} (hp : FailsOnly e p) (l : List τ) :
    OnlyError e (Scan.run p l) := fun e' h => hp l e' (run_eq_error.mp h)

/-- A loop fails only with `e` from the states its body keeps. -/
theorem FailsOnly.loop {e : ε} {f : σ → Scan τ ε σ} {I : σ → Prop}
    (hf : ∀ s, I s → FailsOnly e (f s))
    (hI : ∀ s l s' r, I s → f s l = .ok (s', r) → I s') (n : ℕ) {s : σ} (hs : I s) :
    FailsOnly e (Scan.loop f n s) := by
  induction n generalizing s with
  | zero => exact FailsOnly.pure e s
  | succ n ih =>
    intro l e' h
    rcases bind_eq_error.mp h with h | ⟨s', m, h₁, h⟩
    · exact hf s hs l e' h
    · exact ih (hI _ _ _ _ hs h₁) m e' h

/-- What a body keeps, the loop keeps. -/
theorem loop_invariant {f : σ → Scan τ ε σ} {I : σ → Prop}
    (hI : ∀ s l s' r, I s → f s l = .ok (s', r) → I s') {n : ℕ} {s s' : σ} {l r : List τ}
    (hs : I s) (h : Scan.loop f n s l = .ok (s', r)) : I s' := by
  induction n generalizing s l with
  | zero => cases h; exact hs
  | succ n ih =>
    obtain ⟨t, m, h₁, h₂⟩ := bind_eq_ok.mp h
    exact ih (hI _ _ _ _ hs h₁) h₂

/-- A check that `g` makes in every round may wait until the end, as `f` lets it,
when no later round of `f` can repair a violation. -/
theorem loop_deferred {f g : σ → Scan τ ε σ} {I C : σ → Prop}
    (hI : ∀ s l s' r, I s → f s l = .ok (s', r) → I s')
    (hC : ∀ s l s' r, I s → f s l = .ok (s', r) → C s' → C s)
    (hgf : ∀ s l s' r, I s → f s l = .ok (s', r) → C s' → g s l = .ok (s', r))
    (hfg : ∀ s l x, g s l = .ok x → f s l = .ok x) (n : ℕ) {s s' : σ} {l r : List τ}
    (hs : I s) (hs' : C s') :
    Scan.loop f n s l = .ok (s', r) ↔ Scan.loop g n s l = .ok (s', r) := by
  have back : ∀ n s l, I s → Scan.loop f n s l = .ok (s', r) → C s := by
    intro n
    induction n with
    | zero => intro s l _ h; cases h; exact hs'
    | succ n ih =>
      intro s l hs h
      obtain ⟨t, m, h₁, h₂⟩ := bind_eq_ok.mp h
      exact hC _ _ _ _ hs h₁ (ih _ _ (hI _ _ _ _ hs h₁) h₂)
  induction n generalizing s l with
  | zero => exact Iff.rfl
  | succ n ih =>
    rw [loop_succ, loop_succ, bind_eq_ok, bind_eq_ok]
    constructor
    · rintro ⟨t, m, h₁, h₂⟩
      have ht := hI _ _ _ _ hs h₁
      exact ⟨t, m, hgf _ _ _ _ hs h₁ (back n _ _ ht h₂), (ih ht).mp h₂⟩
    · rintro ⟨t, m, h₁, h₂⟩
      have h₁' := hfg _ _ _ h₁
      exact ⟨t, m, h₁', (ih (hI _ _ _ _ hs h₁')).mpr h₂⟩

/-- Every success of `p` is a success of `q` over the same prefix. -/
def Sim (R : α → β → Prop) (p : Scan τ ε α) (q : Scan τ δ β) : Prop :=
  ∀ l a r, p l = .ok (a, r) → ∃ b, q l = .ok (b, r) ∧ R a b

/-- A scanner that reads nothing. -/
def Silent (p : Scan τ ε α) : Prop := ∀ l a r, p l = .ok (a, r) → r = l

theorem Silent.pure (a : α) : Silent (Pure.pure a : Scan τ ε α) := by
  intro l b r h
  cases h
  rfl

theorem Silent.ensure (c : Prop) [Decidable c] (e : ε) :
    Silent (Scan.ensure c e : Scan τ ε Unit) := fun _ _ _ h => (ensure_eq_ok.mp h).2

theorem Silent.lift (x : Except ε α) : Silent (Scan.lift x : Scan τ ε α) :=
  fun _ _ _ h => (lift_eq_ok.mp h).2

theorem Silent.bind {p : Scan τ ε α} {f : α → Scan τ ε β} (hp : Silent p)
    (hf : ∀ a, Silent (f a)) : Silent (p >>= f) := by
  intro l b r h
  obtain ⟨a, m, h₁, h₂⟩ := bind_eq_ok.mp h
  exact (hf a _ _ _ h₂).trans (hp _ _ _ h₁)

theorem Sim.refl {R : α → α → Prop} (hR : ∀ a, R a a) (p : Scan τ ε α) : Sim R p p :=
  fun _ a _ h => ⟨a, h, hR a⟩

theorem Sim.mono {R S : α → β → Prop} {p : Scan τ ε α} {q : Scan τ δ β}
    (h : Sim R p q) (hRS : ∀ a b, R a b → S a b) : Sim S p q := by
  intro l a r hp
  obtain ⟨b, hq, hab⟩ := h l a r hp
  exact ⟨b, hq, hRS a b hab⟩

theorem Sim.trans {R : α → β → Prop} {S : β → γ → Prop} {p : Scan τ ε α} {q : Scan τ δ β}
    {q' : Scan τ κ γ} (h : Sim R p q) (h' : Sim S q q') :
    Sim (fun a c => ∃ b, R a b ∧ S b c) p q' := by
  intro l a r hp
  obtain ⟨b, hq, hab⟩ := h l a r hp
  obtain ⟨c, hq', hbc⟩ := h' l b r hq
  exact ⟨c, hq', b, hab, hbc⟩

theorem Sim.pure {R : α → β → Prop} {a : α} {b : β} (h : R a b) :
    Sim R (Pure.pure a : Scan τ ε α) (Pure.pure b : Scan τ δ β) := by
  intro l a' r h'
  cases h'
  exact ⟨b, rfl, h⟩

theorem Sim.fail {R : α → β → Prop} (e : ε) (q : Scan τ δ β) :
    Sim R (Scan.fail e : Scan τ ε α) q := by
  intro l a r h
  cases h

theorem Sim.bind {R : α → β → Prop} {S : γ → κ → Prop} {p : Scan τ ε α} {q : Scan τ δ β}
    {f : α → Scan τ ε γ} {g : β → Scan τ δ κ} (hpq : Sim R p q)
    (hfg : ∀ a b, R a b → Sim S (f a) (g b)) : Sim S (p >>= f) (q >>= g) := by
  intro l c r h
  obtain ⟨a, m, h₁, h₂⟩ := bind_eq_ok.mp h
  obtain ⟨b, hq, hab⟩ := hpq _ _ _ h₁
  obtain ⟨d, hg, hcd⟩ := hfg a b hab _ _ _ h₂
  exact ⟨d, by rw [bind_ok hq]; exact hg, hcd⟩

/-- Trailing checks of the strict scanner cost nothing. -/
theorem Sim.bind_silent {p : Scan τ ε α} {q : Scan τ δ β} {f : α → Scan τ ε γ}
    (hpq : Sim (fun _ _ => True) p q) (hf : ∀ a, Silent (f a)) :
    Sim (fun _ _ => True) (p >>= f) q := by
  intro l c r h
  obtain ⟨a, m, h₁, h₂⟩ := bind_eq_ok.mp h
  obtain rfl := hf a _ _ _ h₂
  obtain ⟨b, hq, -⟩ := hpq _ _ _ h₁
  exact ⟨b, hq, trivial⟩

/-- And so do leading ones. -/
theorem Sim.silent_bind {R : β → κ → Prop} {p : Scan τ ε α} {f : α → Scan τ ε β} {q : Scan τ δ κ}
    (hp : Silent p) (hf : ∀ a, Sim R (f a) q) : Sim R (p >>= f) q := by
  intro l c r h
  obtain ⟨a, m, h₁, h₂⟩ := bind_eq_ok.mp h
  obtain rfl := hp _ _ _ h₁
  exact hf a _ _ _ h₂

theorem Sim.slice {R : α → β → Prop} {p : Scan τ ε α} {q : Scan τ δ β} (hpq : Sim R p q) :
    Sim (fun _ _ => True) (Scan.slice p) q := by
  intro l u r h
  unfold Scan.slice at h
  split at h
  · rename_i h'
    cases h
    obtain ⟨b, hb, -⟩ := hpq _ _ _ h'
    exact ⟨b, hb, trivial⟩
  · cases h

theorem Sim.ite {R : α → β → Prop} {c : Prop} [Decidable c] {p p' : Scan τ ε α}
    {q q' : Scan τ δ β} (ht : Sim R p q) (hf : Sim R p' q') :
    Sim R (if c then p else p') (if c then q else q') := by
  split_ifs
  · exact ht
  · exact hf

/-- Leading checks of the strict scanner become facts. -/
theorem Sim.ensure_bind {R : α → β → Prop} {c : Prop} [Decidable c] {e : ε}
    {f : Unit → Scan τ ε α} {q : Scan τ δ β} (h : c → Sim R (f ()) q) :
    Sim R (Scan.ensure c e >>= f) q := by
  by_cases hc : c
  · rw [ensure_true hc]; exact h hc
  · rw [ensure_false hc]; exact Sim.fail e q

/-- The next token decides the same way on both sides. -/
theorem Sim.peek {R : α → β → Prop} {f : Option τ → Scan τ ε α} {g : Option τ → Scan τ δ β}
    (h : ∀ o, Sim R (f o) (g o)) : Sim R (Scan.peek f) (Scan.peek g) :=
  fun l => h l.head? l

/-- Only the choices that the strict scanner can face matter. -/
theorem Sim.peek_right {R : α → β → Prop} {p : Scan τ ε α} {g : Option τ → Scan τ δ β}
    (h : ∀ t l a r, p (t :: l) = .ok (a, r) → Sim R p (g (some t))) (hc : Consumes p) :
    Sim R p (Scan.peek g) := by
  intro l a r hp
  cases l with
  | nil => simpa using hc _ _ _ hp
  | cons t l => exact h t l a r hp _ a r hp

/-- A strict scanner can be run later, on what a permissive one cut out for it. -/
theorem Sim.slice_iff {p : Scan τ ε α} {q : Scan τ δ β} (hpq : Sim (fun _ _ => True) p q)
    (hp : Local p) (hq : Local q) {l r : List τ} {a : α} :
    p l = .ok (a, r) ↔ ∃ u, Scan.slice q l = .ok (u, r) ∧ p u = .ok (a, []) := by
  constructor
  · intro h
    obtain ⟨b, hb, -⟩ := hpq _ _ _ h
    obtain ⟨u, rfl, hu⟩ := hp _ _ _ h
    exact ⟨u, hq.slice_eq_ok.mpr ⟨rfl, b, hb⟩, hu.whole⟩
  · rintro ⟨u, hs, hu⟩
    obtain ⟨rfl, -⟩ := hq.slice_eq_ok.mp hs
    obtain ⟨v, hv, hr⟩ := hp _ _ _ hu
    rw [List.append_nil] at hv
    subst hv
    exact hr r

theorem Sim.loop {R : σ → ς → Prop} {f : σ → Scan τ ε σ} {g : ς → Scan τ δ ς}
    (h : ∀ s t, R s t → Sim R (f s) (g t)) (n : ℕ) {s : σ} {t : ς} (hst : R s t) :
    Sim R (Scan.loop f n s) (Scan.loop g n t) := by
  induction n generalizing s t with
  | zero => exact Sim.pure hst
  | succ n ih => exact (h s t hst).bind fun _ _ => ih

/-- Two outcomes agree: both succeeded with related values and the same rest, of
at most `N` tokens, or both failed with related errors. -/
inductive Outcome (N : ℕ) (E : ε → δ → Prop) (R : α → β → Prop) :
    Except ε (α × List τ) → Except δ (β × List τ) → Prop
  | ok {a : α} {b : β} {r : List τ} (h : R a b) (hr : r.length ≤ N) :
      Outcome N E R (.ok (a, r)) (.ok (b, r))
  | error {e : ε} {d : δ} (h : E e d) : Outcome N E R (.error e) (.error d)

/-- `p` and `q` agree on every input of at most `N` tokens. -/
def Alike (N : ℕ) (E : ε → δ → Prop) (R : α → β → Prop) (p : Scan τ ε α)
    (q : Scan τ δ β) : Prop :=
  ∀ l, l.length ≤ N → Outcome N E R (p l) (q l)

variable {N : ℕ} {E : ε → δ → Prop}

/-- A local scanner agrees with itself. -/
theorem Alike.of_local {p : Scan τ ε α} {F : ε → ε → Prop} (hp : Local p)
    (hE : ∀ e, F e e) :
    Alike N F Eq p p := by
  intro l hl
  cases h : p l with
  | ok x =>
    obtain ⟨a, r⟩ := x
    exact .ok rfl (Nat.le_trans (hp.length_le h) hl)
  | error e => exact .error (hE e)

theorem Alike.mono {E' : ε → δ → Prop} {R S : α → β → Prop} {p : Scan τ ε α} {q : Scan τ δ β}
    (h : Alike N E R p q) (hE : ∀ e d, E e d → E' e d) (hRS : ∀ a b, R a b → S a b) :
    Alike N E' S p q := by
  intro l hl
  have hpq := h l hl
  generalize p l = x at hpq ⊢
  generalize q l = y at hpq ⊢
  cases hpq with
  | ok hab hr => exact .ok (hRS _ _ hab) hr
  | error hed => exact .error (hE _ _ hed)

theorem Alike.pure {R : α → β → Prop} {a : α} {b : β} (h : R a b) :
    Alike N E R (Pure.pure a : Scan τ ε α) (Pure.pure b : Scan τ δ β) := fun _ hl => .ok h hl

theorem Alike.atEnd {e : ε} {d : δ} (hE : E e d) :
    Alike N E (fun _ _ => True) (Scan.atEnd e : Scan τ ε Unit) (Scan.atEnd d) := by
  intro l hl
  cases l with
  | nil => exact .ok trivial hl
  | cons t l => exact .error hE

theorem Alike.fail {R : α → β → Prop} {e : ε} {d : δ} (h : E e d) :
    Alike N E R (Scan.fail e : Scan τ ε α) (Scan.fail d : Scan τ δ β) := fun _ _ => .error h

theorem Alike.bind {R : α → β → Prop} {S : γ → κ → Prop} {p : Scan τ ε α} {q : Scan τ δ β}
    {f : α → Scan τ ε γ} {g : β → Scan τ δ κ} (hpq : Alike N E R p q)
    (hfg : ∀ a b, R a b → Alike N E S (f a) (g b)) : Alike N E S (p >>= f) (q >>= g) := by
  intro l hl
  have h := hpq l hl
  cases hp : p l with
  | ok x =>
    obtain ⟨a, m⟩ := x
    rw [hp] at h
    cases hq : q l with
    | ok y =>
      rw [hq] at h
      obtain ⟨b, m'⟩ := y
      cases h with
      | ok hab hm => rw [bind_ok hp, bind_ok hq]; exact hfg a b hab m hm
    | error d => rw [hq] at h; cases h
  | error e =>
    rw [hp] at h
    cases hq : q l with
    | ok y => rw [hq] at h; cases h
    | error d =>
      rw [hq] at h
      cases h with
      | error hed => rw [bind_error hp, bind_error hq]; exact .error hed

theorem Alike.map_right {R : α → β → Prop} {S : α → γ → Prop} {p : Scan τ ε α}
    {q : Scan τ δ β} {g : β → γ} (hpq : Alike N E R p q) (h : ∀ a b, R a b → S a (g b)) :
    Alike N E S p (q >>= fun b => Pure.pure (g b)) := by
  intro l hl
  have hl' := hpq l hl
  cases hp : p l with
  | ok x =>
    rw [hp] at hl'
    cases hq : q l with
    | ok y =>
      rw [hq] at hl'
      cases hl' with
      | ok hab hr => rw [bind_ok hq]; exact .ok (h _ _ hab) hr
    | error d => rw [hq] at hl'; cases hl'
  | error e =>
    rw [hp] at hl'
    cases hq : q l with
    | ok y => rw [hq] at hl'; cases hl'
    | error d =>
      rw [hq] at hl'
      cases hl' with
      | error hed => rw [bind_error hq]; exact .error hed

/-- The common shape of a check followed by the rest of the work, under the fact
the check established. -/
theorem Alike.ensure_bind {R : α → β → Prop} {c c' : Prop} [Decidable c] [Decidable c']
    {e : ε} {d : δ} {f : Unit → Scan τ ε α} {g : Unit → Scan τ δ β}
    (h : c ↔ c') (hE : E e d) (hfg : c → Alike N E R (f ()) (g ())) :
    Alike N E R (Scan.ensure c e >>= f) (Scan.ensure c' d >>= g) := by
  by_cases hc : c
  · rw [ensure_true hc, ensure_true (h.mp hc)]; exact hfg hc
  · rw [ensure_false hc, ensure_false (mt h.mpr hc)]; exact Alike.fail hE

theorem Alike.ite {R : α → β → Prop} {c c' : Prop} [Decidable c] [Decidable c']
    {p p' : Scan τ ε α} {q q' : Scan τ δ β} (h : c ↔ c') (ht : c → Alike N E R p q)
    (hf : ¬c → Alike N E R p' q') :
    Alike N E R (if c then p else p') (if c' then q else q') := by
  by_cases hc : c
  · rw [if_pos hc, if_pos (h.mp hc)]; exact ht hc
  · rw [if_neg hc, if_neg (mt h.mpr hc)]; exact hf hc

theorem Alike.peek {R : α → β → Prop} {f : Option τ → Scan τ ε α} {g : Option τ → Scan τ δ β}
    (h : ∀ o, Alike N E R (f o) (g o)) : Alike N E R (Scan.peek f) (Scan.peek g) :=
  fun l => h l.head? l

/-- One side looks at the next token before it agrees. -/
theorem Alike.peek_right {R : α → β → Prop} {p : Scan τ ε α} {g : Option τ → Scan τ δ β}
    (hnil : Outcome N E R (p []) (g none [])) (hcons : ∀ t, Alike N E R p (g (some t))) :
    Alike N E R p (Scan.peek g) := by
  intro l hl
  cases l with
  | nil => exact hnil
  | cons t l => exact hcons t (t :: l) hl

/-- Renaming the errors on both sides forgets how they were related. -/
theorem Alike.orFail {E' : γ → κ → Prop} {R : α → β → Prop} {p : Scan τ ε α} {q : Scan τ δ β}
    (h : Alike N E R p q) {e : γ} {d : κ} (hE : E' e d) :
    Alike N E' R (p.orFail e) (q.orFail d) := by
  intro l hl
  unfold Scan.orFail
  have hpq := h l hl
  generalize p l = x at hpq ⊢
  generalize q l = y at hpq ⊢
  cases hpq with
  | ok hab hr => exact .ok hab hr
  | error _ => exact .error hE

theorem Alike.orFail_left {E' : γ → δ → Prop} {R : α → β → Prop} {p : Scan τ ε α}
    {q : Scan τ δ β} (h : Alike N E R p q) {e : γ} (hE : ∀ d, E' e d) :
    Alike N E' R (p.orFail e) q := by
  intro l hl
  unfold Scan.orFail
  have hpq := h l hl
  generalize p l = x at hpq ⊢
  generalize q l = y at hpq ⊢
  cases hpq with
  | ok hab hr => exact .ok hab hr
  | error _ => exact .error (hE _)

theorem Alike.orFail_right {E' : ε → κ → Prop} {R : α → β → Prop} {p : Scan τ ε α}
    {q : Scan τ δ β} (h : Alike N E R p q) {e : ε} (hp : FailsOnly e p) {d : κ} (hE : E' e d) :
    Alike N E' R p (q.orFail d) := by
  intro l hl
  unfold Scan.orFail
  have hpq := h l hl
  have he := hp l
  generalize p l = x at hpq he ⊢
  generalize q l = y at hpq ⊢
  cases hpq with
  | ok hab hr => exact .ok hab hr
  | error _ => rw [he _ rfl]; exact .error hE

theorem Alike.take (n : ℕ) {e : ε} {d : δ} (hE : E e d) :
    Alike N E Eq (Scan.take n e : Scan τ ε (List τ)) (Scan.take n d) := by
  intro l hl
  unfold Scan.take
  split_ifs with hn
  · exact .error hE
  · exact .ok rfl (by simp; omega)

/-- Both take the same tokens; one refuses more than `N` of them beforehand. -/
theorem Alike.take_bind {R : α → β → Prop} {n : ℕ} {c : Prop} [Decidable c] {e : ε} {d d' : δ}
    {f : List τ → Scan τ ε α} {g : List τ → Scan τ δ β} (hc : ¬c → N < n) (hE : E e d)
    (hE' : E e d') (hfg : ∀ u, Alike N E R (f u) (g u)) :
    Alike N E R (Scan.take n e >>= f) (Scan.ensure c d' >>= fun _ => Scan.take n d >>= g) := by
  by_cases h : c
  · rw [ensure_true h, pure_bind]
    exact (Alike.take n hE).bind (by rintro u _ rfl; exact hfg u)
  · intro l hl
    have hn := hc h
    have ht : Scan.take n e l = .error e := if_pos (by omega)
    rw [bind_error ht, ensure_false h]
    exact .error hE'

/-- A pure computation against the checks and the result of the other side. -/
theorem Alike.lift_ensure {R : α → β → Prop} {x : Except ε α} {c : Prop} [Decidable c] {d : δ}
    {q : Unit → Scan τ δ β} (hok : c → Alike N E R (Scan.lift x) (q ()))
    (herr : ¬c → ∃ e, x = .error e ∧ E e d) :
    Alike N E R (Scan.lift x : Scan τ ε α) (Scan.ensure c d >>= q) := by
  by_cases h : c
  · rw [ensure_true h]; exact hok h
  · obtain ⟨e, rfl, he⟩ := herr h
    rw [ensure_false h]
    exact Alike.fail he

theorem Alike.loop {R : σ → ς → Prop} {f : σ → Scan τ ε σ} {g : ς → Scan τ δ ς}
    (h : ∀ s t, R s t → Alike N E R (f s) (g t)) (n : ℕ) {s : σ} {t : ς} (hst : R s t) :
    Alike N E R (Scan.loop f n s) (Scan.loop g n t) := by
  induction n generalizing s t with
  | zero => exact Alike.pure hst
  | succ n ih => exact (h s t hst).bind fun _ _ => ih

/-- Agreement passes to a scanner with the same successes and one error. -/
theorem Alike.of_successes {R : α → β → Prop} {p p' : Scan τ ε α} {q : Scan τ δ β} {e : ε}
    (h : Alike N E R p' q) (hok : ∀ l x, p l = .ok x ↔ p' l = .ok x) (hp : FailsOnly e p)
    (hE : ∀ d, E e d) : Alike N E R p q := by
  intro l hl
  have hpq := h l hl
  cases hp' : p' l with
  | ok x =>
    rw [hp'] at hpq
    rw [(hok l x).mpr hp']
    exact hpq
  | error e' =>
    rw [hp'] at hpq
    cases hx : p l with
    | ok x => rw [(hok l x).mp hx] at hp'; cases hp'
    | error d =>
      rw [hp l d hx]
      generalize q l = y at hpq ⊢
      cases hpq with
      | error _ => exact .error (hE _)

/-- What agreement says about the two runs on one input. -/
theorem Alike.ok_left {R : α → β → Prop} {p : Scan τ ε α} {q : Scan τ δ β}
    (h : Alike N E R p q) {l r : List τ} {a : α} (hl : l.length ≤ N) (hp : p l = .ok (a, r)) :
    ∃ b, q l = .ok (b, r) ∧ R a b := by
  have hpq := h l hl
  rw [hp] at hpq
  generalize q l = y at hpq
  cases hpq with
  | ok hab => exact ⟨_, rfl, hab⟩

theorem Alike.ok_right {R : α → β → Prop} {p : Scan τ ε α} {q : Scan τ δ β}
    (h : Alike N E R p q) {l r : List τ} {b : β} (hl : l.length ≤ N) (hq : q l = .ok (b, r)) :
    ∃ a, p l = .ok (a, r) ∧ R a b := by
  have hpq := h l hl
  rw [hq] at hpq
  generalize p l = x at hpq
  cases hpq with
  | ok hab => exact ⟨_, rfl, hab⟩

theorem Alike.error_left {R : α → β → Prop} {p : Scan τ ε α} {q : Scan τ δ β}
    (h : Alike N E R p q) {l : List τ} {e : ε} (hl : l.length ≤ N) (hp : p l = .error e) :
    ∃ d, q l = .error d ∧ E e d := by
  have hpq := h l hl
  rw [hp] at hpq
  generalize q l = y at hpq
  cases hpq with
  | error hed => exact ⟨_, rfl, hed⟩

theorem Alike.error_right {R : α → β → Prop} {p : Scan τ ε α} {q : Scan τ δ β}
    (h : Alike N E R p q) {l : List τ} {d : δ} (hl : l.length ≤ N) (hq : q l = .error d) :
    ∃ e, p l = .error e ∧ E e d := by
  have hpq := h l hl
  rw [hq] at hpq
  generalize p l = x at hpq
  cases hpq with
  | error hed => exact ⟨_, rfl, hed⟩

end Scan
