import CydMonitor.Lib.ScanRelations
import Mathlib.Data.List.Range

/-!
# Counted items

A counted loop reads items one after another. When the items carry strictly
increasing keys, the state they lead to determines them.
-/

namespace Scan

variable {τ ε κ σ : Type} {fits : σ → κ → Prop} {next : σ → κ → σ} {f : σ → Scan τ ε σ}
  {piece : κ → List τ}

/-- Every item fits the state that the items before it lead to. -/
def Admits (fits : σ → κ → Prop) (next : σ → κ → σ) : σ → List κ → Prop
  | _, [] => True
  | s, k :: ks => fits s k ∧ Admits fits next (next s k) ks

theorem admits_append {s : σ} {ks js : List κ} :
    Admits fits next s (ks ++ js) ↔
      Admits fits next s ks ∧ Admits fits next (ks.foldl next s) js := by
  induction ks generalizing s with
  | nil => simp [Admits]
  | cons k ks ih => simp [Admits, ih, and_assoc]

theorem Admits.exists_fits {s : σ} {ks : List κ} (h : Admits fits next s ks) {k : κ}
    (hk : k ∈ ks) : ∃ s', fits s' k := by
  induction ks generalizing s with
  | nil => cases hk
  | cons j ks ih =>
    rcases List.mem_cons.mp hk with rfl | hk
    · exact ⟨s, h.1⟩
    · exact ih h.2 hk

/-- A loop whose rounds read single items reads admitted items. -/
theorem Reads.items (h : ∀ s k, fits s k → Reads (f s) (piece k) (next s k)) {s : σ}
    {ks : List κ} (hks : Admits fits next s ks) :
    Reads (Scan.loop f ks.length s) (ks.flatMap piece) (ks.foldl next s) := by
  induction ks generalizing s with
  | nil => exact Reads.pure s
  | cons k ks ih =>
    simp only [List.length_cons, List.flatMap_cons, List.foldl_cons, loop_succ]
    exact (h s k hks.1).bind (ih hks.2)

/-- The items behind a successful loop, when a second loop notes its rounds and every
note is a good one. -/
theorem items_of_loop {δ ν : Type} {g : List ν → Scan τ δ (List ν)} {good : ν → Prop}
    {R : ν → κ → Prop}
    (h : ∀ s l s' r notes, f s l = .ok (s', r) → ∃ j, g notes l = .ok (notes ++ [j], r) ∧
      (good j → ∃ k, R j k ∧ fits s k ∧ l = piece k ++ r ∧ s' = next s k))
    {n : ℕ} {s s' : σ} {l r r' : List τ} {notes notes' : List ν}
    (hf : Scan.loop f n s l = .ok (s', r)) (hg : Scan.loop g n notes l = .ok (notes', r'))
    (hgood : ∀ j ∈ notes', good j) :
    r' = r ∧ ∃ js ks, notes' = notes ++ js ∧ List.Forall₂ R js ks ∧ ks.length = n ∧
      Admits fits next s ks ∧ l = ks.flatMap piece ++ r ∧ s' = ks.foldl next s := by
  induction n generalizing s l notes with
  | zero =>
    cases hf
    cases hg
    exact ⟨rfl, [], [], by simp, .nil, rfl, trivial, rfl, rfl⟩
  | succ n ih =>
    obtain ⟨t, m, hf₁, hf₂⟩ := bind_eq_ok.mp hf
    obtain ⟨j, hg₁, hitem⟩ := h _ _ _ _ notes hf₁
    obtain ⟨notes₁, m', hg₂, hg₃⟩ := bind_eq_ok.mp hg
    rw [hg₁] at hg₂
    cases hg₂
    obtain ⟨rfl, js, ks, rfl, hjs, hlen, hks, rfl, rfl⟩ := ih hf₂ hg₃
    obtain ⟨k, hj, hk, rfl, rfl⟩ := hitem (hgood j (by simp))
    exact ⟨rfl, j :: js, k :: ks, by simp, .cons hj hjs, by simp [hlen], ⟨hk, hks⟩, by simp, rfl⟩

/-- A second loop that notes every round of the first one reads the same input. -/
theorem loop_noted {δ ν : Type} {g : List ν → Scan τ δ (List ν)}
    (h : ∀ s l s' r notes, f s l = .ok (s', r) → ∃ j, g notes l = .ok (notes ++ [j], r)) {n : ℕ}
    {s s' : σ} {l r : List τ} (notes : List ν) (hf : Scan.loop f n s l = .ok (s', r)) :
    ∃ notes', Scan.loop g n notes l = .ok (notes', r) := by
  induction n generalizing s l notes with
  | zero =>
    cases hf
    exact ⟨notes, rfl⟩
  | succ n ih =>
    obtain ⟨t, m, hf₁, hf₂⟩ := bind_eq_ok.mp hf
    obtain ⟨j, hg₁⟩ := h _ _ _ _ notes hf₁
    obtain ⟨notes', hg₂⟩ := ih (notes ++ [j]) hf₂
    exact ⟨notes', bind_eq_ok.mpr ⟨_, _, hg₁, hg₂⟩⟩

private theorem filterMap_range_update {g : ℕ → Option κ} {m n : ℕ} (k : κ) (hm : m < n)
    (hg : ∀ j, m ≤ j → g j = none) :
    (List.range n).filterMap (Function.update g m (some k)) =
      (List.range n).filterMap g ++ [k] := by
  induction n with
  | zero => omega
  | succ n ih =>
    rw [List.range_succ, List.filterMap_append, List.filterMap_append]
    by_cases hmn : m = n
    · subst hmn
      have hbelow : (List.range m).filterMap (Function.update g m (some k)) =
          (List.range m).filterMap g := by
        refine List.filterMap_congr fun j hj => ?_
        have := List.mem_range.mp hj
        rw [Function.update_of_ne (by omega)]
      simp [hbelow, hg m le_rfl]
    · rw [ih (by omega)]
      simp [Function.update_of_ne (Ne.symm hmn), hg n (by omega)]

/-- Items of strictly increasing keys are what the final state holds, in key order. -/
theorem items_determined {key : κ → ℕ} {held : σ → ℕ → Option κ} {I : σ → Prop} {n : ℕ}
    (hkey : ∀ s k, I s → fits s k → key k < n ∧ ∀ j, key k ≤ j → held s j = none)
    (hheld : ∀ s k, fits s k → held (next s k) = Function.update (held s) (key k) (some k))
    (hI : ∀ s k, I s → fits s k → I (next s k)) {s : σ} {ks : List κ} (hs : I s)
    (hks : Admits fits next s ks) :
    (List.range n).filterMap (held (ks.foldl next s)) =
      (List.range n).filterMap (held s) ++ ks := by
  induction ks generalizing s with
  | nil => simp
  | cons k ks ih =>
    obtain ⟨hlt, hnone⟩ := hkey s k hs hks.1
    rw [List.foldl_cons, ih (hI s k hs hks.1) hks.2, hheld s k hks.1,
      filterMap_range_update k hlt hnone]
    simp

/-- Items of strictly increasing keys fill what the state holds, when it holds nothing
at first. -/
theorem items_sorted {key : κ → ℕ} {held : σ → ℕ → Option κ} {n : ℕ}
    (hheld : ∀ s k, fits s k → held (next s k) = Function.update (held s) (key k) (some k))
    {s : σ} {ks : List κ} (hks : Admits fits next s ks) (hsorted : (ks.map key).Pairwise (· < ·))
    (hlt : ∀ k ∈ ks, key k < n) (hs : ∀ j, held s j = none) :
    (List.range n).filterMap (held (ks.foldl next s)) = ks := by
  have hadmits : Admits (fun s k => fits s k ∧ key k < n ∧ ∀ j, key k ≤ j → held s j = none)
      next s ks := by
    have hfree : ∀ k ∈ ks, ∀ j, key k ≤ j → held s j = none := fun _ _ j _ => hs j
    clear hs
    induction ks generalizing s with
    | nil => trivial
    | cons k ks ih =>
      obtain ⟨hfirst, hrest⟩ := List.pairwise_cons.mp (List.map_cons ▸ hsorted)
      have hk := hfree k List.mem_cons_self
      refine ⟨⟨hks.1, hlt k List.mem_cons_self, hk⟩, ih hks.2 hrest
        (fun j hj => hlt j (List.mem_cons_of_mem k hj)) ?_⟩
      intro j hj i hi
      have hji := hfirst (key j) (List.mem_map_of_mem hj)
      rw [hheld s k hks.1, Function.update_of_ne (by omega)]
      exact hk i (by omega)
  have hdetermined := items_determined (I := fun _ => True) (fun _ _ _ h => h.2)
    (fun s k h => hheld s k h.1) (fun _ _ _ _ => trivial) trivial hadmits
  rw [hdetermined]
  simp [hs]

end Scan
