import Mathlib.Tactic.Common
import Mathlib.Data.List.Basic

/-!
# Frames in a stream

A framing rule looks at the front of a stream and skips one token, takes a frame
of some length, or waits for more. A look that does not wait is not changed by
tokens that arrive later, so the scan of a stream does not depend on the pieces
in which it arrives.
-/

namespace Framing

variable {τ : Type}

/-- What a rule does with the front of a stream. -/
inductive Look where
  | skip
  | take (n : ℕ)
  | wait
  deriving DecidableEq

/-- A framing rule: only a look that waits depends on what is still missing. -/
structure Rule (τ : Type) where
  look : List τ → Look
  skip_ne_nil : ∀ {l}, look l = .skip → l ≠ []
  take_pos : ∀ {l n}, look l = .take n → 0 < n
  take_le : ∀ {l n}, look l = .take n → n ≤ l.length
  stable : ∀ {l} (m : List τ), look l ≠ .wait → look (l ++ m) = look l

variable (rule : Rule τ)

/-- The left-to-right scan of a stream so far: the frames it took, how many
tokens it skipped, and the tokens it has not passed yet. -/
inductive Steps : List τ → List (List τ) → ℕ → List τ → Prop where
  | done (l) : Steps l [] 0 l
  | skip {t l frames n r} (h : rule.look (t :: l) = .skip) (tail : Steps l frames n r) :
      Steps (t :: l) frames (n + 1) r
  | take {f l frames n r} (h : rule.look (f ++ l) = .take f.length)
      (tail : Steps l frames n r) : Steps (f ++ l) (f :: frames) n r

/-- The whole scan: it goes on until the rule waits. -/
def Greedy (l : List τ) (frames : List (List τ)) (skipped : ℕ) (rest : List τ) : Prop :=
  Steps rule l frames skipped rest ∧ rule.look rest = .wait

variable {rule}

theorem Steps.trans {l m r : List τ} {fs gs : List (List τ)} {n k : ℕ}
    (h : Steps rule l fs n m) (h' : Steps rule m gs k r) :
    Steps rule l (fs ++ gs) (n + k) r := by
  induction h with
  | done l => simpa using h'
  | skip hs tail ih =>
    rw [Nat.add_right_comm]
    exact .skip hs (ih h')
  | take ht tail ih => exact .take ht (ih h')

/-- Tokens that arrive later do not change the steps already made. -/
theorem Steps.append {l r : List τ} {fs : List (List τ)} {n : ℕ} (h : Steps rule l fs n r)
    (m : List τ) : Steps rule (l ++ m) fs n (r ++ m) := by
  induction h with
  | done l => exact .done _
  | @skip t l frames n r hs tail ih =>
    have hlook := rule.stable m (l := t :: l) (by rw [hs]; exact nofun)
    rw [List.cons_append] at hlook ⊢
    exact .skip (hlook.trans hs) ih
  | @take f l frames n r ht tail ih =>
    have hlook := rule.stable m (l := f ++ l) (by rw [ht]; exact nofun)
    rw [List.append_assoc] at hlook ⊢
    exact .take (hlook.trans ht) ih

/-- Every token is in a frame, was skipped, or is still to come. -/
theorem Steps.length_eq {l r : List τ} {fs : List (List τ)} {n : ℕ} (h : Steps rule l fs n r) :
    fs.flatten.length + n + r.length = l.length := by
  induction h with
  | done l => simp
  | skip hs tail ih =>
    simp only [List.length_cons]
    omega
  | take ht tail ih =>
    simp only [List.flatten_cons, List.length_append]
    omega

/-- A step that takes a frame leaves less. -/
theorem Steps.shorter {l r : List τ} {fs : List (List τ)} {n : ℕ} (h : Steps rule l fs n r)
    (hne : fs ≠ []) : r.length < l.length := by
  induction h with
  | done l => exact absurd rfl hne
  | skip hs tail ih =>
    have hlt := ih hne
    simp only [List.length_cons]
    omega
  | take ht tail ih =>
    have hpos := rule.take_pos ht
    have hle := tail.length_eq
    simp only [List.length_append]
    omega

/-- Where the rule waits no step is left. -/
theorem Steps.of_wait {l r : List τ} {fs : List (List τ)} {n : ℕ} (h : Steps rule l fs n r)
    (hl : rule.look l = .wait) : fs = [] ∧ n = 0 ∧ r = l := by
  cases h with
  | done => exact ⟨rfl, rfl, rfl⟩
  | skip h tail => rw [hl] at h; cases h
  | take h tail => rw [hl] at h; cases h

/-- The scan is deterministic up to where it stops. -/
theorem Greedy.unique {l r r' : List τ} {fs fs' : List (List τ)} {n n' : ℕ}
    (h : Greedy rule l fs n r) (h' : Greedy rule l fs' n' r') :
    fs = fs' ∧ n = n' ∧ r = r' := by
  obtain ⟨hs, hr⟩ := h
  obtain ⟨hs', hr'⟩ := h'
  induction hs generalizing fs' n' with
  | done l =>
    obtain ⟨rfl, rfl, rfl⟩ := hs'.of_wait hr
    exact ⟨rfl, rfl, rfl⟩
  | @skip t l frames n r hlook tail ih =>
    generalize hl : t :: l = whole at hs'
    cases hs' with
    | done => rw [← hl, hlook] at hr'; cases hr'
    | skip h tail' =>
      cases hl
      obtain ⟨rfl, rfl, rfl⟩ := ih hr tail'
      exact ⟨rfl, rfl, rfl⟩
    | take h tail' => rw [← hl, hlook] at h; cases h
  | @take f l frames n r hlook tail ih =>
    generalize hl : f ++ l = whole at hs'
    cases hs' with
    | done => rw [← hl, hlook] at hr'; cases hr'
    | skip h tail' => rw [← hl, hlook] at h; cases h
    | take h tail' =>
      rw [← hl, hlook] at h
      have hlen := Look.take.inj h
      obtain ⟨rfl, rfl⟩ := List.append_inj hl hlen
      obtain ⟨rfl, rfl, rfl⟩ := ih hr tail'
      exact ⟨rfl, rfl, rfl⟩

/-- Frames the rule takes one after another, each behind tokens it skips. -/
theorem Steps.skips {noise l : List τ}
    (h : ∀ t m, noise = t ++ m → m ≠ [] → rule.look (m ++ l) = .skip) :
    Steps rule (noise ++ l) [] noise.length l := by
  induction noise with
  | nil => exact .done l
  | cons t noise ih =>
    have hhead := h [] (t :: noise) rfl (List.cons_ne_nil t noise)
    refine .skip hhead (ih ?_)
    intro u m hm hne
    exact h (t :: u) m (by rw [hm, List.cons_append]) hne

variable {σ ρ : Type}

/-- A framer as its caller sees it. -/
structure Framer (τ σ ρ : Type) where
  push : σ → List τ → σ
  next : σ → Option ρ × σ

/-- One call of a framer. -/
inductive Use (τ : Type) where
  | push (chunk : List τ)
  | next

/-- Everything that was pushed. -/
def pushed : List (Use τ) → List τ
  | [] => []
  | .push chunk :: uses => chunk ++ pushed uses
  | .next :: uses => pushed uses

namespace Framer

/-- The frames that a sequence of calls returns, and the state it leaves. -/
def run (F : Framer τ σ ρ) : σ → List (Use τ) → List ρ × σ
  | s, [] => ([], s)
  | s, .push chunk :: uses => F.run (F.push s chunk) uses
  | s, .next :: uses =>
    let r := F.run (F.next s).2 uses
    ((F.next s).1.toList ++ r.1, r.2)

/-- Takes frames until there is none, at most as often as the fuel says. -/
def drain (F : Framer τ σ ρ) : ℕ → σ → List ρ × σ
  | 0, s => ([], s)
  | fuel + 1, s => match F.next s with
    | (none, s') => ([], s')
    | (some f, s') =>
      let r := F.drain fuel s'
      (f :: r.1, r.2)

/-- A framer follows a rule when each call makes steps of the rule's scan and a
call that returns nothing has come to where the rule waits. -/
structure Follows (F : Framer τ σ ρ) (rule : Rule τ) (view : List τ → ρ) (buffer : σ → List τ)
    (skipped : σ → ℕ) : Prop where
  push_buffer : ∀ s l, buffer (F.push s l) = buffer s ++ l
  push_skipped : ∀ s l, skipped (F.push s l) = skipped s
  next_steps : ∀ s, ∃ fs n, Steps rule (buffer s) fs n (buffer (F.next s).2) ∧
    (F.next s).1.toList = fs.map view ∧ skipped (F.next s).2 = skipped s + n
  next_none : ∀ s, (F.next s).1 = none → rule.look (buffer (F.next s).2) = .wait

variable {F : Framer τ σ ρ} {view : List τ → ρ} {buffer : σ → List τ} {skipped : σ → ℕ}

/-- A loop whose every round does what the rule says makes steps of the scan. -/
theorem loop_steps (rule : Rule τ) (view : List τ → ρ) (buffer : σ → List τ) (skipped : σ → ℕ)
    (mk : List τ → ℕ → σ) {scan : ℕ → List τ → Option ρ × σ}
    (hbuffer : ∀ l d, buffer (mk l d) = l) (hskipped : ∀ l d, skipped (mk l d) = d)
    (hround : ∀ d l, scan d l = match rule.look l with
      | .skip => scan (d + 1) l.tail
      | .take n => (some (view (l.take n)), mk (l.drop n) d)
      | .wait => (none, mk l d)) (d : ℕ) (l : List τ) :
    (∃ fs n, Steps rule l fs n (buffer (scan d l).2) ∧
        (scan d l).1.toList = fs.map view ∧ skipped (scan d l).2 = d + n) ∧
      ((scan d l).1 = none → rule.look (buffer (scan d l).2) = .wait) := by
  induction hk : l.length generalizing d l with
  | zero =>
    rw [hround]
    cases hlook : rule.look l with
    | skip => exact absurd (List.length_eq_zero_iff.mp hk) (rule.skip_ne_nil hlook)
    | take n =>
      have hpos := rule.take_pos hlook
      have hle := rule.take_le hlook
      omega
    | wait => exact ⟨⟨[], 0, by simpa [hbuffer] using .done l, rfl, hskipped l d⟩, fun _ => by
        simpa [hbuffer] using hlook⟩
  | succ k ih =>
    rw [hround]
    cases hlook : rule.look l with
    | skip =>
      cases l with
      | nil => cases hk
      | cons t l =>
        obtain ⟨⟨fs, n, hsteps, hview, hskip⟩, hnone⟩ := ih (d + 1) l (Nat.succ.inj hk)
        refine ⟨⟨fs, n + 1, .skip hlook hsteps, hview, ?_⟩, hnone⟩
        simp only [List.tail_cons, hskip]
        omega
    | take n =>
      have hlen : (l.take n).length = n := List.length_take_of_le (rule.take_le hlook)
      refine ⟨⟨[l.take n], 0, ?_, rfl, hskipped _ d⟩, nofun⟩
      have hsteps : Steps rule (l.take n ++ l.drop n) [l.take n] 0 (l.drop n) :=
        .take (by rw [List.take_append_drop, hlen]; exact hlook) (.done _)
      rw [List.take_append_drop] at hsteps
      simpa [hbuffer] using hsteps
    | wait => exact ⟨⟨[], 0, by simpa [hbuffer] using .done l, rfl, hskipped l d⟩, fun _ => by
        simpa [hbuffer] using hlook⟩

/-- Calls continue the scan of everything pushed so far. -/
theorem Follows.run_steps (h : F.Follows rule view buffer skipped) (uses : List (Use τ)) {s : σ}
    {l : List τ} {fs : List (List τ)} (hs : Steps rule l fs (skipped s) (buffer s)) :
    ∃ gs, (F.run s uses).1 = gs.map view ∧
      Steps rule (l ++ pushed uses) (fs ++ gs) (skipped (F.run s uses).2)
        (buffer (F.run s uses).2) := by
  induction uses generalizing s l fs with
  | nil => exact ⟨[], rfl, by simpa [pushed, run] using hs⟩
  | cons use uses ih =>
    cases use with
    | push chunk =>
      have hpush : Steps rule (l ++ chunk) fs (skipped (F.push s chunk))
          (buffer (F.push s chunk)) := by
        rw [h.push_buffer, h.push_skipped]
        exact hs.append chunk
      obtain ⟨gs, hout, hsteps⟩ := ih hpush
      exact ⟨gs, hout, by simpa [pushed, run] using hsteps⟩
    | next =>
      obtain ⟨more, n, hmore, hview, hskip⟩ := h.next_steps s
      have hnext := hs.trans hmore
      rw [← hskip] at hnext
      obtain ⟨gs, hout, hsteps⟩ := ih hnext
      refine ⟨more ++ gs, ?_, by simpa [pushed, run] using hsteps⟩
      simp only [run, hview, hout, List.map_append]

/-- A drain with enough fuel makes the scan of the buffer. -/
theorem Follows.drain_scan (h : F.Follows rule view buffer skipped) {fuel : ℕ} {s : σ}
    (hfuel : (buffer s).length < fuel) :
    ∃ gs n, (F.drain fuel s).1 = gs.map view ∧ skipped (F.drain fuel s).2 = skipped s + n ∧
      Greedy rule (buffer s) gs n (buffer (F.drain fuel s).2) := by
  induction fuel generalizing s with
  | zero => omega
  | succ fuel ih =>
    obtain ⟨more, n, hmore, hview, hskip⟩ := h.next_steps s
    have hnone := h.next_none s
    cases hcall : F.next s with
    | mk out s' =>
      rw [hcall] at hview hnone hmore hskip
      cases out with
      | none =>
        have hnil : more = [] := by simpa using hview.symm
        subst hnil
        refine ⟨[], n, ?_, ?_, ?_, ?_⟩
        · simp [drain, hcall]
        · simpa [drain, hcall] using hskip
        · simpa [drain, hcall] using hmore
        · simpa [drain, hcall] using hnone rfl
      | some f =>
        have hshorter := hmore.shorter (by rintro rfl; simp at hview)
        change (buffer s').length < (buffer s).length at hshorter
        obtain ⟨gs, k, hout, hskips, hsteps, hwait⟩ := ih (s := s') (by omega)
        refine ⟨more ++ gs, n + k, ?_, ?_, ?_, ?_⟩
        · simp only [drain, hcall, hout, List.map_append, ← hview]
          rfl
        · simp only [drain, hcall, hskips, hskip]
          omega
        · simpa [drain, hcall] using hmore.trans hsteps
        · simpa [drain, hcall] using hwait

/-- A drain with enough fuel ends where the rule waits. -/
theorem Follows.drain_greedy (h : F.Follows rule view buffer skipped) {fuel : ℕ} {s : σ}
    (hfuel : (buffer s).length < fuel) {l : List τ} {fs : List (List τ)}
    (hs : Steps rule l fs (skipped s) (buffer s)) :
    ∃ gs, (F.drain fuel s).1 = gs.map view ∧
      Greedy rule l (fs ++ gs) (skipped (F.drain fuel s).2) (buffer (F.drain fuel s).2) := by
  obtain ⟨gs, n, hout, hskip, hsteps, hwait⟩ := h.drain_scan hfuel
  refine ⟨gs, hout, ?_, hwait⟩
  rw [hskip]
  exact hs.trans hsteps

/-- Whatever a drain returns is the view of some frame. -/
theorem Follows.mem_drain (h : F.Follows rule view buffer skipped) {fuel : ℕ} {s : σ} {r : ρ}
    (hr : r ∈ (F.drain fuel s).1) : ∃ f, view f = r := by
  induction fuel generalizing s with
  | zero => cases hr
  | succ fuel ih =>
    obtain ⟨fs, n, -, hview, -⟩ := h.next_steps s
    rw [drain] at hr
    cases hcall : F.next s with
    | mk out s' =>
      rw [hcall] at hr hview
      cases out with
      | none => cases hr
      | some f =>
        rcases List.mem_cons.mp hr with rfl | hr
        · have hmem : r ∈ fs.map view := hview ▸ List.mem_singleton_self r
          obtain ⟨g, -, hg⟩ := List.mem_map.mp hmem
          exact ⟨g, hg⟩
        · exact ih hr

/-- Where the rule waits there is no frame to return. -/
theorem Follows.next_of_wait (h : F.Follows rule view buffer skipped) {s : σ}
    (hs : rule.look (buffer s) = .wait) : (F.next s).1 = none := by
  obtain ⟨fs, n, hsteps, hview, -⟩ := h.next_steps s
  rw [(hsteps.of_wait hs).1] at hview
  simpa using hview

end Framer

end Framing
