import Mathlib.Data.List.Induction

/-!
# Runs of a state machine

The moments of a run, and the two rules for what holds along it: of every state, and
of every state together with its past.
-/

namespace Trace

variable {σ α : Type}

/-- One step of a run: the state before it, what was done, the state after it. -/
structure Moment (σ α : Type) where
  before : σ
  action : α
  after : σ

/-- The moments of a run from a state. -/
def moments (step : σ → α → σ) : σ → List α → List (Moment σ α)
  | _, [] => []
  | s, a :: as => ⟨s, a, step s a⟩ :: moments step (step s a) as

variable {step : σ → α → σ}

theorem moments_append (s : σ) (as bs : List α) :
    moments step s (as ++ bs) = moments step s as ++ moments step (as.foldl step s) bs := by
  induction as generalizing s with
  | nil => rfl
  | cons a as ih => simp [moments, ih]

theorem length_moments (s : σ) (as : List α) : (moments step s as).length = as.length := by
  induction as generalizing s with
  | nil => rfl
  | cons a as ih => simp [moments, ih]

theorem map_action_moments (s : σ) (as : List α) :
    (moments step s as).map Moment.action = as := by
  induction as generalizing s with
  | nil => rfl
  | cons a as ih => simp [moments, ih]

/-- A list with one more element, cut at an element: the new one, or one from before. -/
theorem concat_split {l before since : List α} {a b : α} (h : l ++ [a] = before ++ b :: since) :
    (since = [] ∧ a = b ∧ l = before) ∨
      ∃ since', since = since' ++ [a] ∧ l = before ++ b :: since' := by
  rcases List.eq_nil_or_concat since with rfl | ⟨since', c, rfl⟩
  · obtain ⟨hl, ha⟩ := List.append_inj' h rfl
    exact Or.inl ⟨rfl, List.head_eq_of_cons_eq ha, hl⟩
  · rw [List.concat_eq_append, ← List.cons_append, ← List.append_assoc] at h
    obtain ⟨hl, ha⟩ := List.append_inj' h rfl
    rw [List.concat_eq_append, List.head_eq_of_cons_eq ha]
    exact Or.inr ⟨since', rfl, hl⟩

theorem exists_split_concat {P : List α → α → Prop} {l : List α} {a : α} :
    (∃ before b since, l ++ [a] = before ++ b :: since ∧ P before b) ↔
      (∃ before b since, l = before ++ b :: since ∧ P before b) ∨ P l a := by
  constructor
  · rintro ⟨before, b, since, hl, hb⟩
    rcases concat_split hl with ⟨-, rfl, rfl⟩ | ⟨since', -, hold⟩
    · exact Or.inr hb
    · exact Or.inl ⟨before, b, since', hold, hb⟩
  · rintro (⟨before, b, since, rfl, hb⟩ | hb)
    · exact ⟨before, b, since ++ [a], by simp, hb⟩
    · exact ⟨l, a, [], rfl, hb⟩

theorem forall_split_concat {P : List α → α → Prop} {l : List α} {a : α} :
    (∀ before b since, l ++ [a] = before ++ b :: since → P before b) ↔
      (∀ before b since, l = before ++ b :: since → P before b) ∧ P l a := by
  constructor
  · intro h
    refine ⟨fun before b since hl => h before b (since ++ [a]) ?_, h l a [] rfl⟩
    rw [hl, List.append_assoc]
    rfl
  · rintro ⟨hold, hnew⟩ before b since hl
    rcases concat_split hl with ⟨-, rfl, rfl⟩ | ⟨since', -, hbefore⟩
    · exact hnew
    · exact hold before b since' hbefore

/-- There was an element with `P`, and all since have `Q`. -/
def Since (P Q : α → Prop) (l : List α) : Prop :=
  ∃ before a since, l = before ++ a :: since ∧ P a ∧ ∀ b ∈ since, Q b

theorem since_concat {P Q : α → Prop} {l : List α} {a : α} :
    Since P Q (l ++ [a]) ↔ P a ∨ Since P Q l ∧ Q a := by
  constructor
  · rintro ⟨before, b, since, hl, hb, hsince⟩
    rcases concat_split hl with ⟨-, rfl, -⟩ | ⟨since', rfl, hold⟩
    · exact Or.inl hb
    · refine Or.inr ⟨⟨before, b, since', hold, hb, fun c hc => ?_⟩, ?_⟩
      · exact hsince c (List.mem_append_left _ hc)
      · exact hsince a (List.mem_append_right _ (List.mem_singleton_self a))
  · rintro (ha | ⟨⟨before, b, since, rfl, hb, hsince⟩, ha⟩)
    · exact ⟨l, a, [], rfl, ha, fun b hb => absurd hb List.not_mem_nil⟩
    · refine ⟨before, b, since ++ [a], by simp, hb, fun c hc => ?_⟩
      rcases List.mem_append.mp hc with hc | hc
      · exact hsince c hc
      · rw [List.mem_singleton.mp hc]
        exact ha

theorem since_nil {P Q : α → Prop} : ¬Since P Q [] :=
  fun ⟨_, _, _, h, _⟩ => absurd h.symm (by simp)

/-- How many elements count at the end of a list, since the last one that starts anew. -/
def runAtEnd (counts anew : α → Bool) (l : List α) : ℕ :=
  (l.reverse.takeWhile fun a => !anew a).countP counts

theorem runAtEnd_concat {counts anew : α → Bool} (l : List α) (a : α) :
    runAtEnd counts anew (l ++ [a]) =
      if anew a then 0 else runAtEnd counts anew l + if counts a then 1 else 0 := by
  rw [runAtEnd, List.reverse_append, List.reverse_singleton, List.singleton_append,
    List.takeWhile_cons]
  cases anew a with
  | true => rfl
  | false => exact List.countP_cons

/-- A run cut at a moment: the actions before it lead to the state it starts from. -/
theorem split_moments {s : σ} {as : List α} {past rest : List (Moment σ α)} {m : Moment σ α}
    (h : moments step s as = past ++ m :: rest) :
    ∃ bs cs, as = bs ++ m.action :: cs ∧ past = moments step s bs ∧ m.before = bs.foldl step s ∧
      m.after = step m.before m.action ∧ rest = moments step m.after cs := by
  induction past generalizing s as with
  | nil =>
    cases as with
    | nil => cases h
    | cons a as =>
      obtain ⟨rfl, rfl⟩ := List.cons.inj h
      exact ⟨[], as, rfl, rfl, rfl, rfl, rfl⟩
  | cons p past ih =>
    cases as with
    | nil => cases h
    | cons a as =>
      obtain ⟨rfl, hrest⟩ := List.cons.inj h
      obtain ⟨bs, cs, rfl, rfl, hbefore, hafter, rfl⟩ := ih hrest
      exact ⟨a :: bs, cs, rfl, rfl, hbefore, hafter, rfl⟩

/-- What every step keeps holds all along a run. -/
theorem invariant {I : σ → Prop} (hstep : ∀ s a, I s → I (step s a)) {s : σ} (hs : I s)
    (as : List α) : I (as.foldl step s) := by
  induction as generalizing s with
  | nil => exact hs
  | cons a as ih => exact ih (hstep s a hs)

/-- What every allowed step keeps, of the past and of the state, holds all along a run
whose steps are allowed. -/
theorem history_of {J : List (Moment σ α) → σ → Prop}
    {allowed : List (Moment σ α) → σ → α → Prop}
    (hstep : ∀ past s a, J past s → allowed past s a →
      J (past ++ [⟨s, a, step s a⟩]) (step s a)) {s : σ} (hs : J [] s) (as : List α)
    (hallowed : ∀ past m rest, moments step s as = past ++ m :: rest →
      allowed past m.before m.action) : J (moments step s as) (as.foldl step s) := by
  induction as using List.reverseRecOn with
  | nil => exact hs
  | append_singleton as a ih =>
    have hlast : moments step s (as ++ [a]) =
        moments step s as ++ [⟨as.foldl step s, a, step (as.foldl step s) a⟩] := by
      rw [moments_append]
      rfl
    rw [hlast, List.foldl_append]
    refine hstep _ _ _ (ih fun past m rest h => ?_) ?_
    · exact hallowed past m (rest ++ [⟨as.foldl step s, a, step (as.foldl step s) a⟩])
        (by rw [hlast, h, List.append_assoc]; rfl)
    · exact hallowed _ _ [] hlast

end Trace
