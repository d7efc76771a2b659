import CydMonitor.Observation.Seam

/-!
# A step up to the end of its window

A step is what it does before it ends a window, and the end of that window if it comes to one.
-/

namespace CydMonitor.Observation

open RadioRunner

variable {δ : Type} (d : RadioDriver δ)

/-- The window that is over and the request that ended it early, unless its wait gave up. -/
def held (o : OpenWindow) : RadioM δ (Option (OpenWindow × Option ControlRequest)) := do
  let held ← holdWindow d o
  pure (if held.2 then none else some (o, held.1))

def openedAt (startUs : UInt64) (window : Window) :
    RadioM δ (Option (OpenWindow × Option ControlRequest)) := do
  update fun r => { r with windowId := r.windowId + 1 }
  let r ← read
  let o ← beginOpen d (opening r window startUs)
  update fun r => { r with openWindow := some o }
  held d o

def openedNext (startUs : UInt64) :
    RadioM δ (Option (OpenWindow × Option ControlRequest)) := do
  let window ← takeWindow startUs
  match window with
  | none => pure none
  | some window => openedAt d startUs window

def opened : RadioM δ (Option (OpenWindow × Option ControlRequest)) := do
  let now ← nowUs d
  let r ← read
  let request ← waitUntil d (r.nextStartUs.getD now)
  let early ← gaveUp d (r.nextStartUs.getD now) request
  if request.isSome then do
    applyPending request
    pure none
  else if early then pure none
  else openedNext d (r.nextStartUs.getD now)

def scheduled : RadioM δ (Option (OpenWindow × Option ControlRequest)) := do
  pollControls d kMaxControlsPerStep
  let r ← read
  match r.stuck with
  | some radio => do
    retryStop d radio
    pure none
  | none =>
    if !r.scheduler.config.wifiEnabled && !r.scheduler.config.bleEnabled then do
      idle d
      pure none
    else opened d

/-- What a step does before it ends a window, and the window it is about to end. -/
def reached : RadioM δ (Option (OpenWindow × Option ControlRequest)) := do
  announce
  let r ← read
  match r.openWindow with
  | some o => held d o
  | none => scheduled d

/-- The end of a window, if the step comes to one. -/
def ended : Option (OpenWindow × Option ControlRequest) → RadioM δ Unit
  | none => pure ()
  | some held => do
    finishWindow d held.1 held.2
    update fun r => { r with openWindow := none }

theorem resumeWindow_eq (o : OpenWindow) : resumeWindow d o = held d o >>= ended d := by
  rw [resumeWindow, held, bind_assoc]
  refine bind_congr fun held => ?_
  by_cases hearly : held.2 = true
  · rw [if_pos hearly, if_pos hearly]
    rfl
  · rw [if_neg hearly, if_neg hearly]
    rfl

theorem openNext_eq (startUs : UInt64) : openNext d startUs = openedNext d startUs >>= ended d := by
  rw [openNext, openedNext, bind_assoc]
  refine bind_congr fun window => ?_
  cases window with
  | none => rfl
  | some window =>
    simp only [openWindowAt, openedAt, bind_assoc, resumeWindow_eq]

theorem runWindow_eq : runWindow d = opened d >>= ended d := by
  rw [runWindow, opened]
  simp only [bind_assoc]
  refine bind_congr fun now => bind_congr fun r => bind_congr fun request =>
    bind_congr fun early => ?_
  by_cases hrequest : request.isSome = true
  · rw [if_pos hrequest, if_pos hrequest, bind_assoc]
    rfl
  rw [if_neg hrequest, if_neg hrequest]
  by_cases hearly : early = true
  · rw [if_pos hearly, if_pos hearly]
    rfl
  · rw [if_neg hearly, if_neg hearly]
    exact openNext_eq d _

theorem step_eq : step d = reached d >>= ended d := by
  have hschedule : schedule d = scheduled d >>= ended d := by
    rw [schedule, scheduled, bind_assoc]
    refine bind_congr fun _ => ?_
    rw [bind_assoc]
    refine bind_congr fun r => ?_
    cases r.stuck with
    | some radio => rfl
    | none =>
      by_cases hidle : (!r.scheduler.config.wifiEnabled && !r.scheduler.config.bleEnabled) = true
      · simp only [if_pos hidle]
        rfl
      · simp only [if_neg hidle]
        exact runWindow_eq d
  rw [step, reached, bind_assoc]
  refine bind_congr fun _ => ?_
  rw [bind_assoc]
  refine bind_congr fun r => ?_
  cases r.openWindow with
  | some o => exact resumeWindow_eq d o
  | none => exact hschedule

end CydMonitor.Observation
