import Mathlib.Data.List.Induction

/-!
# Runs of a guarded machine

A step may be refused; a run is a list of actions none of which is. What a step keeps
from and to states with a property holds along the runs all of whose states have it.
-/

namespace GuardedRun

variable {σ α : Type}

def run (step : σ → α → Option σ) (s : σ) (as : List α) : Option σ :=
  as.foldlM step s

variable {step : σ → α → Option σ}

@[simp] theorem run_nil (s : σ) : run step s [] = some s :=
  rfl

theorem run_concat (s : σ) (as : List α) (a : α) :
    run step s (as ++ [a]) = (run step s as).bind fun v => step v a := by
  simp [run, List.foldlM_append]

theorem run_concat_eq_some {s w : σ} {as : List α} {a : α} (h : run step s (as ++ [a]) = some w) :
    ∃ v, run step s as = some v ∧ step v a = some w := by
  rw [run_concat] at h
  exact Option.bind_eq_some_iff.mp h

/-- Every state that the run goes through has the property. -/
def Throughout (step : σ → α → Option σ) (P : σ → Prop) (s : σ) (as : List α) : Prop :=
  ∀ before rest v, as = before ++ rest → run step s before = some v → P v

theorem Throughout.and {P Q : σ → Prop} {s : σ} {as : List α} (hP : Throughout step P s as)
    (hQ : Throughout step Q s as) : Throughout step (fun v => P v ∧ Q v) s as :=
  fun before rest v has hv => ⟨hP before rest v has hv, hQ before rest v has hv⟩

theorem Throughout.last {P : σ → Prop} {s w : σ} {as : List α} (h : Throughout step P s as)
    (hw : run step s as = some w) : P w :=
  h as [] w (List.append_nil as).symm hw

/-- The same read off the run, step by step. -/
def Along (step : σ → α → Option σ) (P : σ → Prop) : σ → List α → Prop
  | s, [] => P s
  | s, a :: as => P s ∧ ∀ v ∈ step s a, Along step P v as

instance decidableAlong (P : σ → Prop) [DecidablePred P] (s : σ) (as : List α) :
    Decidable (Along step P s as) :=
  match as with
  | [] => inferInstanceAs (Decidable (P s))
  | a :: as =>
    have : ∀ v, Decidable (Along step P v as) := fun v => decidableAlong P v as
    inferInstanceAs (Decidable (P s ∧ ∀ v ∈ step s a, Along step P v as))

theorem Along.throughout {P : σ → Prop} {s : σ} {as : List α} (h : Along step P s as) :
    Throughout step P s as := by
  intro before rest v has hv
  induction before generalizing s as with
  | nil =>
    obtain rfl := Option.some.inj hv
    cases as with
    | nil => exact h
    | cons a as => exact h.1
  | cons a before ih =>
    subst has
    have hrun : (step s a).bind (fun v => run step v before) = some v := hv
    obtain ⟨u, hu, hbefore⟩ := Option.bind_eq_some_iff.mp hrun
    exact ih (h.2 u hu) rfl hbefore

/-- Every action of the run has the property in the state it is taken in. -/
def Always (step : σ → α → Option σ) (Q : σ → α → Prop) (s : σ) (as : List α) : Prop :=
  ∀ before a rest v, as = before ++ a :: rest → run step s before = some v → Q v a

theorem Always.prefix {Q : σ → α → Prop} {s : σ} {as bs : List α}
    (h : Always step Q s (as ++ bs)) : Always step Q s as :=
  fun before a rest v has hv => h before a (rest ++ bs) v (by simp [has]) hv

theorem Throughout.always {P : σ → Prop} {s : σ} {as : List α} (h : Throughout step P s as) :
    Always step (fun v a => ∀ w, step v a = some w → P w) s as := by
  intro before a rest v has hv w hw
  refine h (before ++ [a]) rest w (by simp [has]) ?_
  rw [run_concat, hv]
  exact hw

/-- The same read off the run, step by step. -/
def AlongSteps (step : σ → α → Option σ) (Q : σ → α → Prop) : σ → List α → Prop
  | _, [] => True
  | s, a :: as => Q s a ∧ ∀ v ∈ step s a, AlongSteps step Q v as

instance decidableAlongSteps (Q : σ → α → Prop) [∀ s a, Decidable (Q s a)] (s : σ)
    (as : List α) : Decidable (AlongSteps step Q s as) :=
  match as with
  | [] => inferInstanceAs (Decidable True)
  | a :: as =>
    have : ∀ v, Decidable (AlongSteps step Q v as) := fun v => decidableAlongSteps Q v as
    inferInstanceAs (Decidable (Q s a ∧ ∀ v ∈ step s a, AlongSteps step Q v as))

theorem AlongSteps.always {Q : σ → α → Prop} {s : σ} {as : List α}
    (h : AlongSteps step Q s as) : Always step Q s as := by
  intro before a rest v has hv
  induction before generalizing s as with
  | nil =>
    obtain rfl := Option.some.inj hv
    subst has
    exact h.1
  | cons b before ih =>
    subst has
    have hrun : (step s b).bind (fun v => run step v before) = some v := hv
    obtain ⟨u, hu, hbefore⟩ := Option.bind_eq_some_iff.mp hrun
    exact ih (h.2 u hu) rfl hbefore

/-- What each allowed step keeps holds after every run whose steps are allowed. -/
theorem invariant_of {I : σ → Prop} {Q : σ → α → Prop}
    (hstep : ∀ v a w, step v a = some w → Q v a → I v → I w) {s w : σ} (hs : I s)
    {as : List α} (hQ : Always step Q s as) (hw : run step s as = some w) : I w := by
  induction as using List.reverseRecOn generalizing w with
  | nil =>
    obtain rfl := Option.some.inj hw
    exact hs
  | append_singleton as a ih =>
    obtain ⟨v, hv, ha⟩ := run_concat_eq_some hw
    exact hstep v a w ha (hQ as a [] v rfl hv) (ih hQ.prefix hv)

/-- What each step keeps, given the property of its end, holds after every such run. -/
theorem invariant {I P : σ → Prop} (hstep : ∀ v a w, step v a = some w → P w → I v → I w)
    {s w : σ} (hs : I s) {as : List α} (hP : Throughout step P s as)
    (hw : run step s as = some w) : I w :=
  invariant_of (fun v a w h hQ hI => hstep v a w h (hQ w h) hI) hs hP.always hw

end GuardedRun
