import CydMonitor.Lib.Framing

/-!
# Scans that do not wait

Where a stream has gone idle, the token that the rule would wait behind is skipped too. This scan
always comes to the end of the tokens, and a framer that drains after each such token makes it.
-/

namespace Framing

variable {τ : Type}

/-- The left-to-right scan that also skips a token where the rule waits: the frames it took and
how many tokens it skipped. -/
inductive IdleScan (rule : Rule τ) : List τ → List (List τ) → ℕ → Prop where
  | done : IdleScan rule [] [] 0
  | skip {t l frames n} (h : rule.look (t :: l) = .skip) (tail : IdleScan rule l frames n) :
      IdleScan rule (t :: l) frames (n + 1)
  | wait {t l frames n} (h : rule.look (t :: l) = .wait) (tail : IdleScan rule l frames n) :
      IdleScan rule (t :: l) frames (n + 1)
  | take {f l frames n} (h : rule.look (f ++ l) = .take f.length)
      (tail : IdleScan rule l frames n) : IdleScan rule (f ++ l) (f :: frames) n

variable {rule : Rule τ}

/-- The rule has nothing to do without tokens. -/
theorem Rule.look_nil (rule : Rule τ) : rule.look [] = .wait := by
  cases h : rule.look [] with
  | skip => exact absurd rfl (rule.skip_ne_nil h)
  | take n =>
    have hpos := rule.take_pos h
    have hle := rule.take_le h
    rw [List.length_nil] at hle
    omega
  | wait => rfl

/-- Steps of the scan that waits are steps of the one that does not. -/
theorem Steps.idle {l r : List τ} {fs gs : List (List τ)} {n k : ℕ} (h : Steps rule l fs n r)
    (hr : IdleScan rule r gs k) : IdleScan rule l (fs ++ gs) (n + k) := by
  induction h with
  | done l => simpa using hr
  | skip hs tail ih =>
    rw [Nat.add_right_comm]
    exact .skip hs (ih hr)
  | take ht tail ih => exact .take ht (ih hr)

/-- There is one such scan. -/
theorem IdleScan.unique {l : List τ} {fs fs' : List (List τ)} {n n' : ℕ}
    (h : IdleScan rule l fs n) (h' : IdleScan rule l fs' n') : fs = fs' ∧ n = n' := by
  induction h generalizing fs' n' with
  | done =>
    generalize hl : ([] : List τ) = whole at h'
    cases h' with
    | done => exact ⟨rfl, rfl⟩
    | skip hs tail => cases hl
    | wait hw tail => cases hl
    | take ht tail =>
      rw [← hl, rule.look_nil] at ht
      cases ht
  | @skip t l frames n hs tail ih =>
    generalize hl : t :: l = whole at h'
    cases h' with
    | done => cases hl
    | skip _ tail' =>
      cases hl
      obtain ⟨rfl, rfl⟩ := ih tail'
      exact ⟨rfl, rfl⟩
    | wait hw _ =>
      rw [← hl, hs] at hw
      cases hw
    | take ht _ =>
      rw [← hl, hs] at ht
      cases ht
  | @wait t l frames n hw tail ih =>
    generalize hl : t :: l = whole at h'
    cases h' with
    | done => cases hl
    | skip hs _ =>
      rw [← hl, hw] at hs
      cases hs
    | wait _ tail' =>
      cases hl
      obtain ⟨rfl, rfl⟩ := ih tail'
      exact ⟨rfl, rfl⟩
    | take ht _ =>
      rw [← hl, hw] at ht
      cases ht
  | @take f l frames n ht tail ih =>
    generalize hl : f ++ l = whole at h'
    cases h' with
    | done =>
      rw [hl, rule.look_nil] at ht
      cases ht
    | skip hs _ =>
      rw [← hl, ht] at hs
      cases hs
    | wait hw _ =>
      rw [← hl, ht] at hw
      cases hw
    | take ht' tail' =>
      rw [← hl, ht] at ht'
      obtain ⟨rfl, rfl⟩ := List.append_inj hl (Look.take.inj ht')
      obtain ⟨rfl, rfl⟩ := ih tail'
      exact ⟨rfl, rfl⟩

namespace Framer

variable {σ ρ : Type}

/-- Drops a token and drains, until nothing is buffered; at most so many rounds. -/
def drainIdle (F : Framer τ σ ρ) (drop : σ → σ) (buffer : σ → List τ) : ℕ → σ → List ρ × σ
  | 0, s => ([], s)
  | rounds + 1, s =>
    if (buffer s).length > 0 then
      let r := F.drain ((buffer (drop s)).length + 1) (drop s)
      let t := F.drainIdle drop buffer rounds r.2
      (r.1 ++ t.1, t.2)
    else ([], s)

variable {F : Framer τ σ ρ} {view : List τ → ρ} {buffer : σ → List τ} {skipped : σ → ℕ}
  {drop : σ → σ}

/-- From where the rule waits, dropping and draining makes the scan that does not wait, and ends
with nothing buffered. -/
theorem Follows.drainIdle_scan (h : F.Follows rule view buffer skipped)
    (hbuffer : ∀ s t l, buffer s = t :: l → buffer (drop s) = l)
    (hskipped : ∀ s, buffer s ≠ [] → skipped (drop s) = skipped s + 1) {rounds : ℕ} {s : σ}
    (hs : rule.look (buffer s) = .wait) (hrounds : (buffer s).length ≤ rounds) :
    ∃ fs n, IdleScan rule (buffer s) fs n ∧
      (F.drainIdle drop buffer rounds s).1 = fs.map view ∧
      buffer (F.drainIdle drop buffer rounds s).2 = [] ∧
      skipped (F.drainIdle drop buffer rounds s).2 = skipped s + n := by
  induction rounds generalizing s with
  | zero =>
    have hnil := List.length_eq_zero_iff.mp (Nat.le_zero.mp hrounds)
    exact ⟨[], 0, by rw [hnil]; exact .done, rfl, hnil, rfl⟩
  | succ rounds ih =>
    cases hl : buffer s with
    | nil =>
      have hstop : F.drainIdle drop buffer (rounds + 1) s = ([], s) := by
        rw [drainIdle, if_neg (by rw [hl]; exact Nat.lt_irrefl 0)]
      rw [hstop]
      exact ⟨[], 0, .done, rfl, hl, rfl⟩
    | cons t l =>
      rw [hl] at hs hrounds
      have hdrop := hbuffer s t l hl
      have hcount := hskipped s (by rw [hl]; exact List.cons_ne_nil t l)
      obtain ⟨gs, k, hout, hskip, hsteps, hwait⟩ :=
        h.drain_scan (s := drop s) (Nat.lt_succ_self _)
      rw [drainIdle, if_pos (by rw [hl]; exact Nat.succ_pos _)]
      generalize F.drain ((buffer (drop s)).length + 1) (drop s) = r at *
      dsimp only
      rw [hdrop] at hsteps
      have hshort := hsteps.length_eq
      rw [List.length_cons] at hrounds
      obtain ⟨fs, n, hscan, hrest, hempty, hlast⟩ := ih hwait (by omega)
      refine ⟨gs ++ fs, k + n + 1, .wait hs (hsteps.idle hscan), ?_, hempty, ?_⟩
      · rw [hout, hrest, List.map_append]
      · rw [hlast, hskip, hcount]
        omega

end Framer

end Framing
