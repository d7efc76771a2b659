import CydMonitor.Observation.Windows

/-!
# One receiver at a time

The calls of a runner keep the window contract, and no receiver is started while another,
or the same one, may still be on.
-/

namespace CydMonitor.Observation

open RadioRunner

/-- Whether the receiver has had a start, successful or failed, that no stop that worked has
followed yet. -/
def noteOn (radio : Radio) (on : Bool) : Event → Bool
  | .start radio' _ _ => if radio' = radio then true else on
  | .stop radio' result => if radio' = radio ∧ result.ok = true then false else on
  | _ => on

def maybeOn (radio : Radio) (calls : List Event) : Bool :=
  calls.foldl (noteOn radio) false

/-- No start is issued while some receiver may be on. -/
def Exclusive (calls : List Event) : Prop :=
  ∀ before radio channel result rest, calls = before ++ .start radio channel result :: rest →
    ∀ x, maybeOn x before = false

namespace Phase

/-- The phases between two steps: a failed start has had its stop, and a window that ended
has been stopped, drained and its drops taken. -/
def Resting : Phase → Prop
  | .off | .stuck _ | .receiving _ _ | .held none => True
  | _ => False

theorem after_append (calls rest : List Event) :
    after (calls ++ rest) = (after calls).bind fun p => rest.foldlM next p :=
  List.foldlM_append ..

theorem after_concat (calls : List Event) (e : Event) :
    after (calls ++ [e]) = (after calls).bind fun p => p.next e := by
  simp [after_append]

/-- Only with every receiver off does the contract allow a start. -/
theorem eq_off_of_start {p p' : Phase} {radio : Radio} {channel : UInt8} {result : DriverResult}
    (h : p.next (.start radio channel result) = some p') : p = .off := by
  cases p with
  | off => rfl
  | _ => cases h

private theorem maybeOn_start {p' : Phase} {radio : Radio} {channel : UInt8}
    {result : DriverResult} (h : Phase.off.next (.start radio channel result) = some p') :
    p'.maybeOn = [radio] := by
  obtain rfl : (if result.ok then Phase.started radio else .failed radio) = p' :=
    Option.some.inj h
  cases result.ok <;> rfl

/-- A stop is of the receiver that may be on. -/
private theorem maybeOn_stop {p p' : Phase} {radio : Radio} {result : DriverResult}
    (h : p.next (.stop radio result) = some p') :
    p.maybeOn = [radio] ∧ p'.maybeOn = (afterStop radio result).toList := by
  cases p with
  | failed radio' | ended radio' windowId =>
    simp only [next_stop_failed, next_stop_ended, Option.ite_none_right_eq_some,
      Option.some.injEq] at h
    obtain ⟨rfl, rfl⟩ := h
    exact ⟨rfl, rfl⟩
  | stuck radio' =>
    simp only [next_stop_stuck, Option.ite_none_right_eq_some, Option.some.injEq] at h
    obtain ⟨rfl, rfl⟩ := h
    refine ⟨rfl, ?_⟩
    cases hok : result.ok <;> simp [afterStop, hok, maybeOn]
  | _ => cases h

/-- A call that keeps the contract switches the receivers as the phase says. -/
theorem maybeOn_next {p p' : Phase} {e : Event} (h : p.next e = some p') (x : Radio) :
    decide (x ∈ p'.maybeOn) = noteOn x (decide (x ∈ p.maybeOn)) e := by
  cases e with
  | start radio channel result =>
    obtain rfl := eq_off_of_start h
    rw [maybeOn_start h]
    by_cases hx : radio = x
    · simp [noteOn, hx]
    · simp [noteOn, hx, Ne.symm hx, maybeOn]
  | stop radio result =>
    obtain ⟨hbefore, hafter⟩ := maybeOn_stop h
    rw [hbefore, hafter]
    by_cases hx : radio = x
    · by_cases hok : result.ok = true
      · simp [noteOn, afterStop, hx, hok]
      · simp [noteOn, afterStop, hx, hok]
    · by_cases hok : result.ok = true
      · simp [noteOn, afterStop, hx, hok, Ne.symm hx]
      · simp [noteOn, afterStop, hx, hok, Ne.symm hx]
  | beginWindow | endWindow | drainEvents | takeUnattributed =>
    cases p with
    | counted left =>
      cases left <;> cases h <;> rfl
    | _ => cases h <;> rfl
  | takeDrops windowId count =>
    cases p with
    | drained left windowId' =>
      simp only [next_takeDrops_drained, Option.ite_none_right_eq_some, Option.some.injEq] at h
      rw [← h.2]
      rfl
    | pooled left expected =>
      simp only [next_takeDrops_pooled, Option.ite_none_right_eq_some, Option.some.injEq] at h
      rw [← h.2]
      cases left <;> rfl
    | _ => cases h <;> rfl
  | nowUs | waitUntilUs | yield | poll | emit =>
    obtain rfl : p = p' := by simpa using h
    rfl

theorem maybeOn_after {calls : List Event} {p : Phase} (h : after calls = some p) (x : Radio) :
    Observation.maybeOn x calls = decide (x ∈ p.maybeOn) := by
  induction calls using List.reverseRecOn generalizing p with
  | nil =>
    obtain rfl : Phase.off = p := Option.some.inj h
    rfl
  | append_singleton calls e ih =>
    rw [after_concat] at h
    obtain ⟨q, hq, hnext⟩ := Option.bind_eq_some_iff.mp h
    rw [Observation.maybeOn, List.foldl_concat, maybeOn_next hnext, ← ih hq]
    rfl

theorem exclusive_of_after {calls : List Event} {p : Phase} (h : after calls = some p) :
    Exclusive calls := by
  rintro before radio channel result rest rfl x
  rw [after_append] at h
  obtain ⟨q, hq, hrest⟩ := Option.bind_eq_some_iff.mp h
  obtain ⟨q', hnext, -⟩ := Option.bind_eq_some_iff.mp hrest
  obtain rfl := eq_off_of_start hnext
  rw [maybeOn_after hq]
  rfl

end Phase

theorem resting_of_balanced {l : Ledger} {k : Core} (h : Balanced l k) :
    ∃ p, l.phase = some p ∧ p.Resting := by
  rw [Balanced] at h
  cases hopen : k.openWindow with
  | none =>
    rw [hopen] at h
    refine ⟨_, h.phase.phase, ?_⟩
    cases k.stuck <;> trivial
  | some o =>
    rw [hopen] at h
    obtain ⟨hstuck, hpending, -⟩ := h
    refine ⟨_, hpending.phase.phase, ?_⟩
    rw [heldPhase, hstuck]
    cases o.started <;> trivial

/-- After any number of steps over any driver, no receiver was ever started while one may
have been on, and the calls kept the window contract, which leaves the order of the two
counts open. -/
theorem run_exclusive {δ : Type} (d : RadioDriver δ) (config : ObservationConfig) (driver : δ)
    (steps : ℕ) :
    Exclusive (run d config driver steps).calls ∧
      ∃ p, Phase.after (run d config driver steps).calls = some p ∧ p.Resting := by
  obtain ⟨p, hp, hresting⟩ := resting_of_balanced (balanced_run d config driver steps)
  have hafter : Phase.after (run d config driver steps).calls = some p := by
    rw [← Ledger.of_phase]
    exact hp
  exact ⟨Phase.exclusive_of_after hafter, p, hafter, hresting⟩

/-- The contract with TakeDrops before TakeUnattributed. -/
def Phase.dropsFirst : Phase → Event → Option Phase
  | .drained _ _, .takeUnattributed _ | .held _, .takeUnattributed _ => none
  | p, e => p.next e

/-- A driver whose clock moves a second at each reading, on a compiler that takes the second of
two arguments first. -/
def hurried : RadioDriver UInt64 where
  nowUs us := (us, us + 1000000)
  beginWindow _ _ _ _ := pure ()
  endWindow := pure ()
  startWifi _ := pure {}
  stopWifi := pure {}
  startBle := pure {}
  stopBle := pure {}
  waitUntilUs _ := pure .kDeadline
  yield := pure ()
  drainEvents := pure ()
  takeDrops _ := pure 0
  takeUnattributed := pure 0
  dropsFirst _ := false
  poll := pure none

theorem run_drops_first_fails : ¬∀ (δ : Type) (d : RadioDriver δ) (config : ObservationConfig)
    (driver : δ) (steps : ℕ), Exclusive (run d config driver steps).calls ∧
      ∃ p, (run d config driver steps).calls.foldlM Phase.dropsFirst .off = some p ∧
        p.Resting := by
  intro h
  obtain ⟨-, p, hp, -⟩ := h UInt64 hurried {} 0 2
  have hnone : (run hurried {} 0 2).calls.foldlM Phase.dropsFirst .off = none := by
    decide +kernel
  rw [hnone] at hp
  cases hp

end CydMonitor.Observation
