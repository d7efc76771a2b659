import CydMonitor.Observation.Runner

/-!
# One wait of the radio task

What crosses the seam in a wait: a first look at the clock, wakes that bring nothing, each with a
look at the clock, and an ending.
-/

namespace CydMonitor.Observation

open Prog RadioRunner

/-- The request would change the configuration. -/
def Changes (config : ObservationConfig) (request : ControlRequest) : Prop :=
  sameConfig (merged config request) config = false

/-- A wake that kept the wait going: the answer of the control source, if it was polled, and the
clock after it. -/
structure Wake where
  reason : WakeReason
  polled : Option (Option ControlRequest)
  nowUs : UInt64

def Wake.events (deadlineUs : UInt64) (k : Wake) : List Event :=
  .waitUntilUs deadlineUs k.reason ::
    (k.polled.elim [] fun request => [Event.poll request]) ++ [.nowUs k.nowUs]

/-- The control source was polled exactly after a control wake, and had nothing to say. -/
structure Wake.Quiet (config : ObservationConfig) (k : Wake) : Prop where
  polled : k.polled.isSome ↔ k.reason = .kControl
  unchanged : ∀ request, k.polled = some (some request) → ¬Changes config request

inductive WaitEnd where
  | brought (request : ControlRequest)
  | reached
  | stalled

namespace WaitEnd

def events (deadlineUs : UInt64) : WaitEnd → List Event
  | .brought request => [.waitUntilUs deadlineUs .kControl, .poll (some request)]
  | .reached => []
  | .stalled => [.yield]

def wakes : WaitEnd → ℕ
  | .brought _ => 1
  | .reached | .stalled => 0

def result : WaitEnd → Option ControlRequest
  | .brought request => some request
  | .reached | .stalled => none

end WaitEnd

/-- The clock at the end of some wakes. -/
def lastReading (firstUs : UInt64) (wakes : List Wake) : UInt64 :=
  (wakes.getLast?.map (·.nowUs)).getD firstUs

/-- What justifies an ending: a request that changes something, the deadline, or 65 wakes in a row
without progress of the clock. -/
def WaitEnd.Justified (config : ObservationConfig) (deadlineUs firstUs : UInt64)
    (wakes : List Wake) : WaitEnd → Prop
  | .brought request => Changes config request
  | .reached => deadlineUs ≤ lastReading firstUs wakes
  | .stalled => ∃ before late, wakes = before ++ late ∧ late.length = 65 ∧
      lastReading firstUs before < deadlineUs ∧ ∀ k ∈ late, k.nowUs ≤ lastReading firstUs before

section Wait

variable {δ : Type} (d : RadioDriver δ) (base : World δ) (deadlineUs firstUs : UInt64)

/-- The wait so far: `lastUs` is the clock's last progress, `held` the wakes since. -/
structure Awaiting (lastUs : UInt64) (stalledWakes : ℕ) (before held : List Wake) (w : World δ) :
    Prop where
  calls : w.calls =
    base.calls ++ .nowUs firstUs :: (before ++ held).flatMap (Wake.events deadlineUs)
  runner : w.runner = base.runner
  quiet : ∀ k ∈ before ++ held, k.Quiet base.runner.scheduler.config
  last : lastReading firstUs before = lastUs
  stalled : held.length = stalledWakes ∧ stalledWakes ≤ kMaxStalledWakes
  behind : ∀ k ∈ held, k.nowUs ≤ lastUs
  moving : stalledWakes = 0 ∨ lastUs < deadlineUs
  bound : (before ++ held).length + 65 * (deadlineUs.toNat - lastUs.toNat) ≤
    65 * (deadlineUs.toNat - firstUs.toNat) + stalledWakes

/-- The whole wait. -/
structure Waited (result : Option ControlRequest) (wakes : List Wake) (ending : WaitEnd)
    (w : World δ) : Prop where
  calls : w.calls = base.calls ++ .nowUs firstUs :: (wakes.flatMap (Wake.events deadlineUs) ++
    ending.events deadlineUs)
  runner : w.runner = base.runner
  quiet : ∀ k ∈ wakes, k.Quiet base.runner.scheduler.config
  result : result = ending.result
  justified : ending.Justified base.runner.scheduler.config deadlineUs firstUs wakes
  bound : wakes.length + ending.wakes ≤ 65 * (deadlineUs.toNat - firstUs.toNat)

variable {base deadlineUs firstUs} {lastUs : UInt64} {stalledWakes : ℕ} {before held : List Wake}

theorem filter_some_iff {config : ObservationConfig} {polled : Option ControlRequest}
    {request : ControlRequest} :
    polled.filter (fun q => !sameConfig (merged config q) config) = some request ↔
      polled = some request ∧ Changes config request := by
  rw [Option.filter_eq_some_iff, Changes, Bool.not_eq_true']

/-- A wake: either a request that changes something, or nothing of the kind. -/
theorem wake_spec (deadlineUs : UInt64) (w : World δ) :
    (wake d deadlineUs w).2.runner = w.runner ∧
      ((∃ request, (wake d deadlineUs w).1 = some request ∧
          Changes w.runner.scheduler.config request ∧
          (wake d deadlineUs w).2.calls = w.calls ++ (WaitEnd.brought request).events deadlineUs) ∨
        (wake d deadlineUs w).1 = none ∧ ∃ reason polled,
          (polled.isSome ↔ reason = WakeReason.kControl) ∧
          (∀ request, polled = some (some request) → ¬Changes w.runner.scheduler.config request) ∧
          (wake d deadlineUs w).2.calls = w.calls ++ .waitUntilUs deadlineUs reason ::
            (polled.elim [] fun request => [Event.poll request])) := by
  let woken : World δ :=
    { w with
      driver := (d.waitUntilUs deadlineUs w.driver).2
      calls := w.calls ++ [.waitUntilUs deadlineUs (d.waitUntilUs deadlineUs w.driver).1] }
  have hwake : wake d deadlineUs w =
      (if (d.waitUntilUs deadlineUs w.driver).1 = WakeReason.kControl then (do
        let request ← poll d
        let r ← read
        pure (request.filter fun q =>
          !sameConfig (merged r.scheduler.config q) r.scheduler.config))
      else pure none : RadioM δ (Option ControlRequest)) woken := rfl
  rw [hwake]
  by_cases hreason : (d.waitUntilUs deadlineUs w.driver).1 = WakeReason.kControl
  · rw [if_pos hreason]
    refine ⟨rfl, ?_⟩
    have hcalls : w.calls ++ [.waitUntilUs deadlineUs (d.waitUntilUs deadlineUs w.driver).1] ++
        [.poll (d.poll woken.driver).1] =
        w.calls ++ [.waitUntilUs deadlineUs .kControl, .poll (d.poll woken.driver).1] := by
      rw [hreason, List.append_assoc]
      rfl
    cases hrequest : (d.poll woken.driver).1.filter
        (fun q => !sameConfig (merged w.runner.scheduler.config q) w.runner.scheduler.config) with
    | some request =>
      obtain ⟨hpolled, hchanges⟩ := filter_some_iff.mp hrequest
      refine .inl ⟨request, hrequest, hchanges, ?_⟩
      rw [hpolled] at hcalls
      refine Eq.trans ?_ hcalls
      rw [← hpolled]
      rfl
    | none =>
      refine .inr ⟨hrequest, .kControl, some (d.poll woken.driver).1, by simp, ?_, hcalls⟩
      rintro request hpolled hchanges
      rw [filter_some_iff.mpr ⟨Option.some.inj hpolled, hchanges⟩] at hrequest
      cases hrequest
  · rw [if_neg hreason]
    exact ⟨rfl, .inr ⟨rfl, _, none, by simp [hreason], nofun, rfl⟩⟩

variable {w : World δ}

theorem lastReading_concat (wakes : List Wake) (k : Wake) :
    lastReading firstUs (wakes ++ [k]) = k.nowUs := by
  simp [lastReading]

/-- The clock went on: the wait starts anew. -/
theorem Awaiting.moved (h : Awaiting base deadlineUs firstUs lastUs stalledWakes before held w)
    {k : Wake} (hquiet : k.Quiet base.runner.scheduler.config) (hbefore : lastUs < deadlineUs)
    (hmoved : lastUs < k.nowUs) {after : World δ}
    (hcalls : after.calls = w.calls ++ k.events deadlineUs) (hrunner : after.runner = w.runner) :
    Awaiting base deadlineUs firstUs k.nowUs 0 (before ++ held ++ [k]) [] after where
  calls := by
    rw [hcalls, h.calls]
    simp
  runner := hrunner.trans h.runner
  quiet := by
    rw [List.append_nil]
    exact List.forall_mem_append.mpr ⟨h.quiet, List.forall_mem_singleton.mpr hquiet⟩
  last := lastReading_concat _ _
  stalled := ⟨rfl, Nat.zero_le _⟩
  behind := nofun
  moving := .inl rfl
  bound := by
    have hbound := h.bound
    have hstalled := h.stalled.2
    have h₁ := UInt64.lt_iff_toNat_lt.mp hbefore
    have h₂ := UInt64.lt_iff_toNat_lt.mp hmoved
    rw [kMaxStalledWakes] at hstalled
    simp only [List.length_append, List.length_singleton, List.length_nil] at hbound ⊢
    omega

/-- The clock stood still once more. -/
theorem Awaiting.standing (h : Awaiting base deadlineUs firstUs lastUs stalledWakes before held w)
    {k : Wake} (hquiet : k.Quiet base.runner.scheduler.config) (hbefore : lastUs < deadlineUs)
    (hheld : k.nowUs ≤ lastUs) (hfew : stalledWakes + 1 ≤ kMaxStalledWakes) {after : World δ}
    (hcalls : after.calls = w.calls ++ k.events deadlineUs) (hrunner : after.runner = w.runner) :
    Awaiting base deadlineUs firstUs lastUs (stalledWakes + 1) before (held ++ [k]) after where
  calls := by
    rw [hcalls, h.calls]
    simp
  runner := hrunner.trans h.runner
  quiet := by
    rw [← List.append_assoc]
    exact List.forall_mem_append.mpr ⟨h.quiet, List.forall_mem_singleton.mpr hquiet⟩
  last := h.last
  stalled := ⟨by rw [List.length_append, h.stalled.1]; rfl, hfew⟩
  behind := List.forall_mem_append.mpr ⟨h.behind, List.forall_mem_singleton.mpr hheld⟩
  moving := .inr hbefore
  bound := by
    have hbound := h.bound
    simp only [List.length_append, List.length_singleton] at hbound ⊢
    omega

/-- The clock stood still too often. -/
theorem Awaiting.stuck (h : Awaiting base deadlineUs firstUs lastUs stalledWakes before held w)
    {k : Wake} (hquiet : k.Quiet base.runner.scheduler.config) (hbefore : lastUs < deadlineUs)
    (hheld : k.nowUs ≤ lastUs) (hmany : stalledWakes + 1 > kMaxStalledWakes) {after : World δ}
    (hcalls : after.calls = w.calls ++ k.events deadlineUs ++ [.yield])
    (hrunner : after.runner = w.runner) :
    Waited base deadlineUs firstUs none (before ++ (held ++ [k])) .stalled after where
  calls := by
    rw [hcalls, h.calls]
    simp [WaitEnd.events]
  runner := hrunner.trans h.runner
  quiet := by
    rw [← List.append_assoc]
    exact List.forall_mem_append.mpr ⟨h.quiet, List.forall_mem_singleton.mpr hquiet⟩
  result := rfl
  justified := by
    refine ⟨before, held ++ [k], rfl, ?_, by rwa [h.last], ?_⟩
    · have hstalled := h.stalled.2
      rw [kMaxStalledWakes] at hmany hstalled
      rw [List.length_append, h.stalled.1, List.length_singleton]
      omega
    · rw [h.last]
      exact List.forall_mem_append.mpr ⟨h.behind, List.forall_mem_singleton.mpr hheld⟩
  bound := by
    have hbound := h.bound
    have hstalled := h.stalled.2
    have hlt := UInt64.lt_iff_toNat_lt.mp hbefore
    rw [kMaxStalledWakes] at hstalled
    simp only [List.length_append, List.length_singleton, WaitEnd.wakes] at hbound ⊢
    omega

private theorem bind_run {α β : Type} (c : RadioM δ α) (f : α → RadioM δ β) (w : World δ) :
    (c >>= f) w = f (c w).1 (c w).2 := rfl

theorem waitLoop_spec (h : Awaiting base deadlineUs firstUs lastUs stalledWakes before held w) :
    ∃ wakes ending, Waited base deadlineUs firstUs (waitLoop d deadlineUs lastUs stalledWakes w).1
      wakes ending (waitLoop d deadlineUs lastUs stalledWakes w).2 := by
  induction lastUs, stalledWakes using RadioRunner.waitLoop.induct deadlineUs
    generalizing before held w with
  | case1 lastUs stalledWakes hbefore hmoves hwaits =>
    rw [waitLoop, dif_pos hbefore]
    obtain ⟨hrunner, ⟨request, hresult, hchanges, hcalls⟩ |
      ⟨hresult, reason, polled, hpolled, hunchanged, hcalls⟩⟩ :=
        wake_spec d deadlineUs w
    · rw [bind_run, hresult, Option.isSome_some, if_pos rfl]
      refine ⟨before ++ held, .brought request, ?_, hrunner.trans h.runner, h.quiet, rfl, ?_, ?_⟩
      · show (wake d deadlineUs w).2.calls = _
        rw [hcalls, h.calls]
        simp
      · rw [← h.runner]
        exact hchanges
      · have hbound := h.bound
        have hstalled := h.stalled.2
        have hlt := UInt64.lt_iff_toNat_lt.mp hbefore
        rw [kMaxStalledWakes] at hstalled
        simp only [WaitEnd.wakes]
        omega
    · rw [bind_run, hresult, Option.isSome_none, if_neg Bool.false_ne_true, bind_run]
      let k : Wake :=
        { reason, polled, nowUs := (d.nowUs (wake d deadlineUs w).2.driver).1 }
      have hquiet : k.Quiet base.runner.scheduler.config := by
        rw [← h.runner]
        exact ⟨hpolled, hunchanged⟩
      have hafter : (nowUs d (wake d deadlineUs w).2).2.calls = w.calls ++ k.events deadlineUs := by
        show (wake d deadlineUs w).2.calls ++ _ = _
        rw [hcalls, List.append_assoc]
        rfl
      have hsame : (nowUs d (wake d deadlineUs w).2).2.runner = w.runner := hrunner
      by_cases hmoved : (nowUs d (wake d deadlineUs w).2).1 > lastUs
      · rw [dif_pos hmoved]
        exact hmoves _ hmoved (h.moved hquiet hbefore hmoved hafter hsame)
      rw [dif_neg hmoved]
      have hheld : k.nowUs ≤ lastUs := UInt64.not_lt.mp hmoved
      by_cases hmany : stalledWakes + 1 > kMaxStalledWakes
      · rw [dif_pos hmany]
        refine ⟨_, .stalled, h.stuck hquiet hbefore hheld hmany ?_ ?_⟩
        · exact congrArg (· ++ [Event.yield]) hafter
        · exact hsame
      · rw [dif_neg hmany]
        exact hwaits hmany (h.standing hquiet hbefore hheld (by omega) hafter hsame)
  | case2 lastUs stalledWakes hafter =>
    rw [waitLoop, dif_neg hafter]
    have hzero : stalledWakes = 0 := h.moving.resolve_right hafter
    have hheld : held = [] := List.length_eq_zero_iff.mp (h.stalled.1.trans hzero)
    subst hheld
    refine ⟨before, .reached, ?_, h.runner, ?_, rfl, ?_, ?_⟩
    · show w.calls = _
      simpa [WaitEnd.events] using h.calls
    · simpa using h.quiet
    · show deadlineUs ≤ lastReading firstUs before
      rw [h.last]
      exact UInt64.not_lt.mp hafter
    · have hbound := h.bound
      simp only [List.append_nil, WaitEnd.wakes] at hbound ⊢
      omega

end Wait

/-- Every wait ends, after so many wakes: with the first request that changes something, at the
deadline, or after 65 wakes in a row without progress of the clock and one yield. -/
theorem wait_exact {δ : Type} (d : RadioDriver δ) (deadlineUs : UInt64) (w : World δ) :
    ∃ firstUs wakes ending, Waited w deadlineUs firstUs (waitUntil d deadlineUs w).1 wakes ending
      (waitUntil d deadlineUs w).2 := by
  have hstart : Awaiting w deadlineUs (nowUs d w).1 (nowUs d w).1 0 [] [] (nowUs d w).2 :=
    { calls := rfl
      runner := rfl
      quiet := nofun
      last := rfl
      stalled := ⟨rfl, Nat.zero_le _⟩
      behind := nofun
      moving := .inl rfl
      bound := Nat.le_of_eq (Nat.zero_add _) }
  exact ⟨_, waitLoop_spec d hstart⟩

end CydMonitor.Observation
