import CydMonitor.Observation.Exclusive

/-!
# Fault messages mirror the runner

Folding the messages gives the runner's faults, each fault message says something new, and a
receiver that would not stop is shown faulted until it does.
-/

namespace CydMonitor.Observation

open RadioRunner Prog

/-- What a fault message makes of the fault shown for a radio. -/
def noteShown (radio : Radio) (shown : Option (FaultOp × Int32)) :
    Event → Option (FaultOp × Int32)
  | .emit (.fault fault) => if fault.radio = radio then some (fault.op, fault.code) else shown
  | .emit (.faultCleared radio') => if radio' = radio then none else shown
  | _ => shown

/-- The fault the messages show for a radio. -/
def shownFault (radio : Radio) (calls : List Event) : Option (FaultOp × Int32) :=
  calls.foldl (noteShown radio) none

@[simp] theorem shownFault_append (radio : Radio) (calls : List Event) (e : Event) :
    shownFault radio (calls ++ [e]) = noteShown radio (shownFault radio calls) e :=
  List.foldl_concat ..

/-- A fault differs from the one shown, and only a shown fault is cleared. -/
def New (calls : List Event) : Event → Prop
  | .emit (.fault fault) => shownFault fault.radio calls ≠ some (fault.op, fault.code)
  | .emit (.faultCleared radio) => shownFault radio calls ≠ none
  | _ => True

/-- Every fault message said something new. -/
def News (calls : List Event) : Prop :=
  ∀ before e rest, calls = before ++ e :: rest → New before e

theorem News.concat {calls : List Event} (h : News calls) {e : Event} (he : New calls e) :
    News (calls ++ [e]) := by
  intro before e' rest hsplit
  rcases List.eq_nil_or_concat rest with rfl | ⟨rest, last, rfl⟩
  · obtain ⟨rfl, hlast⟩ := List.append_inj' hsplit rfl
    rw [← List.singleton_inj.mp hlast]
    exact he
  · rw [List.concat_eq_append, ← List.cons_append, ← List.append_assoc] at hsplit
    exact h before e' rest (List.append_inj_left' hsplit rfl)

structure Mirrored {δ : Type} (w : World δ) : Prop where
  shown : ∀ radio, shownFault radio w.calls = w.runner.fault radio
  news : News w.calls

section Mirror

variable {δ α : Type}

def KeepsMirror (w w' : World δ) : Prop :=
  Mirrored w → Mirrored w'

instance : Std.Refl (KeepsMirror (δ := δ)) where
  refl _ h := h

instance : IsTrans (World δ) KeepsMirror where
  trans _ _ _ h h' hw := h' (h hw)

theorem mirror_update {f : RadioRunner → RadioRunner} (h : ∀ r, (f r).fault = r.fault) :
    Within KeepsMirror (update f : RadioM δ Unit) := by
  refine fun w hw => ⟨fun radio => ?_, hw.news⟩
  show shownFault radio w.calls = (f w.runner).fault radio
  rw [h]
  exact hw.shown radio

theorem mirror_call {f : StateM δ α} {note : α → Event}
    (hshown : ∀ a radio shown, noteShown radio shown (note a) = shown)
    (hnew : ∀ a calls, New calls (note a)) : Within KeepsMirror (call f note) := by
  refine fun w hw => ⟨fun radio => ?_, hw.news.concat (hnew _ _)⟩
  refine (shownFault_append ..).trans ?_
  rw [hshown]
  exact hw.shown radio

/-- A message about no fault. -/
theorem mirror_emit {message : RadioMessage}
    (hshown : ∀ radio shown, noteShown radio shown (.emit message) = shown)
    (hnew : ∀ calls, New calls (.emit message)) :
    Within KeepsMirror (emit message : RadioM δ Unit) := by
  refine fun w hw => ⟨fun radio => ?_, hw.news.concat (hnew _)⟩
  refine (shownFault_append ..).trans ?_
  rw [hshown]
  exact hw.shown radio

private theorem fault_noted (r : RadioRunner) (radio : Radio) (result : DriverResult) (x : Radio) :
    RadioRunner.fault
        { r with
          faultActive := Function.update r.faultActive radio true
          faultOp := Function.update r.faultOp radio result.op
          faultCode := Function.update r.faultCode radio result.code } x =
      if radio = x then some (result.op, result.code) else r.fault x := by
  by_cases hx : radio = x
  · subst hx
    simp [RadioRunner.fault]
  · simp [RadioRunner.fault, hx, Function.update_of_ne (Ne.symm hx)]

private theorem fault_cleared (r : RadioRunner) (radio x : Radio) :
    RadioRunner.fault { r with faultActive := Function.update r.faultActive radio false } x =
      if radio = x then none else r.fault x := by
  by_cases hx : radio = x
  · subst hx
    simp [RadioRunner.fault]
  · simp [RadioRunner.fault, hx, Function.update_of_ne (Ne.symm hx)]

/-- A fault is only told when it differs from the one the runner holds. -/
theorem mirror_noteFault (radio : Radio) (result : DriverResult) :
    Within KeepsMirror (noteFault radio result : RadioM δ Unit) := by
  rw [noteFault]
  refine Within.bind (mirror_update fun _ => rfl) fun _ w hw => ?_
  change Mirrored ((if _ then Pure.pure () else _ : RadioM δ Unit) w).2
  split
  · exact hw
  · rename_i hnew
    refine ⟨fun x => (shownFault_append ..).trans ?_, hw.news.concat ?_⟩
    · refine Eq.trans ?_ (fault_noted w.runner radio result x).symm
      rw [← hw.shown x]
      rfl
    · show shownFault radio w.calls ≠ some (result.op, result.code)
      rw [hw.shown radio]
      intro hsame
      rw [RadioRunner.fault] at hsame
      split at hsame
      · rename_i hactive
        obtain ⟨hop, hcode⟩ := Prod.mk.inj (Option.some.inj hsame)
        exact hnew (by simp [hactive, hop, hcode])
      · cases hsame

theorem mirror_clearFault (radio : Radio) :
    Within KeepsMirror (clearFault radio : RadioM δ Unit) := by
  rw [clearFault]
  refine Within.bind (mirror_update fun _ => rfl) fun _ w hw => ?_
  change Mirrored ((if _ then Pure.pure () else _ : RadioM δ Unit) w).2
  split
  · exact hw
  · rename_i hactive
    refine ⟨fun x => (shownFault_append ..).trans ?_, hw.news.concat ?_⟩
    · refine Eq.trans ?_ (fault_cleared w.runner radio x).symm
      rw [← hw.shown x]
      rfl
    · show shownFault radio w.calls ≠ none
      rw [hw.shown radio, RadioRunner.fault, if_pos (by simpa using hactive)]
      exact Option.some_ne_none _

theorem seam_mirror (d : RadioDriver δ) : Seam d KeepsMirror where
  refl := inferInstance
  trans := inferInstance
  adjust f h := mirror_update fun r => (h r).2
  change f h _ := mirror_update fun r => congrArg Settings.fault (h r)
  noteFault := mirror_noteFault
  clearDisabled := within_clearDisabled inferInstance inferInstance mirror_clearFault
  countClean := within_countClean inferInstance inferInstance
    (fun f h => mirror_update fun r => congrArg Settings.fault (h r).2) mirror_clearFault
  noteStopFailure := within_noteStopFailure
    (fun f h => mirror_update fun r => congrArg Settings.fault (h r)) inferInstance
    (mirror_call (fun _ _ _ => rfl) fun _ _ => trivial) mirror_noteFault
  recover := within_recover (fun f h => mirror_update fun r => congrArg Settings.fault (h r))
    inferInstance (mirror_call (fun _ _ _ => rfl) fun _ _ => trivial)
    (mirror_call (fun _ _ _ => rfl) fun _ _ => trivial) mirror_clearFault
  emitConfig := Within.bind (within_read inferInstance) fun _ =>
    mirror_emit (fun _ _ => rfl) fun _ => trivial
  windowStarted _ := mirror_emit (fun _ _ => rfl) fun _ => trivial
  windowReport _ := mirror_emit (fun _ _ => rfl) fun _ => trivial
  nowUs := mirror_call (fun _ _ _ => rfl) fun _ _ => trivial
  poll := mirror_call (fun _ _ _ => rfl) fun _ _ => trivial
  waitUntilUs _ := mirror_call (fun _ _ _ => rfl) fun _ _ => trivial
  yield := mirror_call (fun _ _ _ => rfl) fun _ _ => trivial
  beginWindow _ _ _ _ := mirror_call (fun _ _ _ => rfl) fun _ _ => trivial
  endWindow := mirror_call (fun _ _ _ => rfl) fun _ _ => trivial
  start window := by
    rw [startReceiver]
    cases window.radio with
    | kWifi => exact mirror_call (fun _ _ _ => rfl) fun _ _ => trivial
    | kBle => exact mirror_call (fun _ _ _ => rfl) fun _ _ => trivial
  stop radio := by
    cases radio with
    | kWifi => exact mirror_call (fun _ _ _ => rfl) fun _ _ => trivial
    | kBle => exact mirror_call (fun _ _ _ => rfl) fun _ _ => trivial
  drainEvents := mirror_call (fun _ _ _ => rfl) fun _ _ => trivial
  takeDrops _ := mirror_call (fun _ _ _ => rfl) fun _ _ => trivial
  takeUnattributed := mirror_call (fun _ _ _ => rfl) fun _ _ => trivial

end Mirror

section Stuck

variable {δ α : Type}

/-- A receiver that would not stop has a fault. -/
def Owned (w : World δ) : Prop :=
  ∀ radio, w.runner.stuck = some radio → w.runner.fault radio ≠ none

def KeepsOwned (w w' : World δ) : Prop :=
  Owned w → Owned w'

instance : Std.Refl (KeepsOwned (δ := δ)) where
  refl _ h := h

instance : IsTrans (World δ) KeepsOwned where
  trans _ _ _ h h' hw := h' (h hw)

/-- Neither the stuck receiver nor a fault changes. -/
def Firm (w w' : World δ) : Prop :=
  w'.runner.stuck = w.runner.stuck ∧ w'.runner.fault = w.runner.fault

instance : Std.Refl (Firm (δ := δ)) where
  refl _ := ⟨rfl, rfl⟩

instance : IsTrans (World δ) Firm where
  trans _ _ _ h h' := ⟨h'.1.trans h.1, h'.2.trans h.2⟩

theorem Firm.keeps {w w' : World δ} (h : Firm w w') : KeepsOwned w w' := by
  intro hw radio hstuck
  rw [h.2]
  exact hw radio (h.1 ▸ hstuck)

theorem firm_update {f : RadioRunner → RadioRunner} (hstuck : ∀ r, (f r).stuck = r.stuck)
    (hfault : ∀ r, (f r).fault = r.fault) : Within Firm (update f : RadioM δ Unit) :=
  fun w => ⟨hstuck w.runner, hfault w.runner⟩

theorem firm_call {f : StateM δ α} {note : α → Event} : Within Firm (call f note) :=
  fun _ => ⟨rfl, rfl⟩

/-- What noting a fault does to the stuck receiver and the faults. -/
theorem triple_noteFault (radio : Radio) (result : DriverResult) (stuck : Option Radio)
    (fault : Radio → Option (FaultOp × Int32)) :
    Triple (fun w : World δ => w.runner.stuck = stuck ∧ w.runner.fault = fault)
      (noteFault radio result) fun _ w => w.runner.stuck = stuck ∧
        ∀ x, w.runner.fault x = if radio = x then some (result.op, result.code) else fault x := by
  rw [noteFault]
  refine Triple.bind (fun w hw => hw) fun _ => Triple.bind
    (M := fun r w => (w.runner.stuck = stuck ∧ w.runner.fault = fault) ∧ r = w.runner)
    (fun w hw => ⟨hw, rfl⟩) fun r => Triple.ite (fun hsame => ?_) fun _ => ?_
  · rintro w ⟨⟨hstuck, rfl⟩, rfl⟩
    refine ⟨hstuck, fun x => ?_⟩
    simp only [Bool.and_eq_true, beq_iff_eq] at hsame
    by_cases hx : radio = x
    · subst hx
      rw [if_pos rfl, ← hsame.1.2, ← hsame.2]
      exact if_pos hsame.1.1
    · rw [if_neg hx]
      rfl
  · rintro w ⟨⟨hstuck, rfl⟩, rfl⟩
    exact ⟨hstuck, fault_noted w.runner radio result⟩

theorem triple_clearFault (radio : Radio) (stuck : Option Radio)
    (fault : Radio → Option (FaultOp × Int32)) :
    Triple (fun w : World δ => w.runner.stuck = stuck ∧ w.runner.fault = fault)
      (clearFault radio) fun _ w => w.runner.stuck = stuck ∧
        ∀ x, w.runner.fault x = if radio = x then none else fault x := by
  rw [clearFault]
  refine Triple.bind (fun w hw => hw) fun _ => Triple.bind
    (M := fun r w => (w.runner.stuck = stuck ∧ w.runner.fault = fault) ∧ r = w.runner)
    (fun w hw => ⟨hw, rfl⟩) fun r => Triple.ite (fun hinactive => ?_) fun _ => ?_
  · rintro w ⟨⟨hstuck, rfl⟩, rfl⟩
    refine ⟨hstuck, fun x => ?_⟩
    by_cases hx : radio = x
    · subst hx
      rw [if_pos rfl]
      exact if_neg (show ¬ w.runner.faultActive radio = true by simpa using hinactive)
    · rw [if_neg hx]
      rfl
  · rintro w ⟨⟨hstuck, rfl⟩, rfl⟩
    exact ⟨hstuck, fault_cleared w.runner radio⟩

theorem owned_noteFault (radio : Radio) (result : DriverResult) :
    Within KeepsOwned (noteFault radio result : RadioM δ Unit) := by
  intro w hw x hstuck
  obtain ⟨hsame, hfault⟩ := triple_noteFault radio result _ _ w ⟨rfl, rfl⟩
  rw [hfault]
  split
  · exact Option.some_ne_none _
  · exact hw x (hsame ▸ hstuck)

/-- Clearing the fault of a radio that is not stuck. -/
theorem owned_clearFault {radio : Radio} {w : World δ} (hw : Owned w)
    (hfree : w.runner.stuck ≠ some radio) : Owned (clearFault radio w).2 := by
  intro x hstuck
  obtain ⟨hsame, hfault⟩ := triple_clearFault radio _ _ w ⟨rfl, rfl⟩
  rw [hsame] at hstuck
  have hx : radio ≠ x := by
    rintro rfl
    exact hfree hstuck
  rw [hfault, if_neg hx]
  exact hw x hstuck

theorem owned_clearDisabled (radio : Radio) :
    Within KeepsOwned (clearDisabled radio : RadioM δ Unit) := by
  intro w hw
  change Owned ((if _ then clearFault radio else Pure.pure () : RadioM δ Unit) w).2
  split
  · rename_i hfree
    simp only [Bool.and_eq_true, bne_iff_ne] at hfree
    exact owned_clearFault hw hfree.2
  · exact hw

variable (d : RadioDriver δ)

/-- A failed stop names its receiver and notes its fault in one go. -/
theorem owned_noteStopFailure (radio : Radio) (result : DriverResult) :
    Within KeepsOwned (noteStopFailure d radio result) := by
  have hnoted : Triple (fun _ : World δ => True) (noteStopFailure d radio result)
      fun _ w => Owned w := by
    rw [noteStopFailure]
    refine Triple.bind (M := fun _ w => w.runner.stuck = some radio) (fun w _ => rfl) fun _ => ?_
    refine Triple.bind (M := fun _ w => w.runner.stuck = some radio) (fun w hw => hw) fun now => ?_
    refine Triple.bind (M := fun _ w => w.runner.stuck = some radio) (fun w hw => hw) fun _ => ?_
    intro w hstuck x hx
    obtain ⟨hsame, hfault⟩ := triple_noteFault radio result _ _ w ⟨rfl, rfl⟩
    rw [hsame, hstuck] at hx
    rw [hfault, if_pos (Option.some.inj hx)]
    exact Option.some_ne_none _
  exact fun w _ => hnoted w trivial

theorem owned_recover (radio : Radio) : Within KeepsOwned (recover d radio) := by
  have hfree : Triple (fun _ : World δ => True) (recover d radio)
      fun _ w => w.runner.stuck = none := by
    rw [recover]
    refine Triple.bind (M := fun _ w => w.runner.stuck = none) (fun w _ => rfl) fun _ => ?_
    refine Triple.bind (M := fun _ w => w.runner.stuck = none) (fun w hw => hw) fun _ => ?_
    refine Triple.bind (M := fun _ w => w.runner.stuck = none) (fun w hw => hw) fun _ => ?_
    refine Triple.bind (M := fun _ w => w.runner.stuck = none) (fun w hw => hw) fun _ => ?_
    exact fun w hw => (triple_clearFault radio _ _ w ⟨rfl, rfl⟩).1.trans hw
  intro w _ x hstuck
  rw [hfree w trivial] at hstuck
  cases hstuck

theorem steady_owned : Steady d KeepsOwned where
  refl := inferInstance
  trans := inferInstance
  adjust _ h := fun w => Firm.keeps ⟨congrArg Core.stuck (h w.runner).1, (h w.runner).2⟩
  clearDisabled := owned_clearDisabled
  emitConfig := Within.bind (within_read inferInstance) fun _ _ hw => hw
  nowUs _ hw := hw
  poll _ hw := hw
  waitUntilUs _ _ hw := hw
  yield _ hw := hw

theorem driven_owned : Driven d KeepsOwned where
  refl := inferInstance
  trans := inferInstance
  change _ h hstuck := fun w =>
    Firm.keeps ⟨hstuck w.runner, congrArg Settings.fault (h w.runner)⟩
  noteFault := owned_noteFault
  noteStopFailure := owned_noteStopFailure d
  recover := owned_recover d
  windowStarted _ _ hw := hw
  windowReport _ _ hw := hw
  nowUs _ hw := hw
  beginWindow _ _ _ _ _ hw := hw
  endWindow _ hw := hw
  start window := by
    rw [startReceiver]
    cases window.radio with
    | kWifi => exact fun _ hw => hw
    | kBle => exact fun _ hw => hw
  stop radio := by
    cases radio with
    | kWifi => exact fun _ hw => hw
    | kBle => exact fun _ hw => hw
  drainEvents _ hw := hw
  takeDrops _ _ hw := hw
  takeUnattributed _ hw := hw

/-- A window with a receiver on has nothing stuck; one without is faulted. -/
def Sane (o : OpenWindow) (w : World δ) : Prop :=
  (o.started = true → w.runner.stuck = none) ∧ (o.started = false → o.faulted = true)

/-- Between two steps. -/
def Upright (w : World δ) : Prop :=
  Owned w ∧ ∀ o, w.runner.openWindow = some o → Sane o w

theorem owned_countClean (radio : Radio) (faulted : Bool) (report : WindowReport) :
    Triple (fun w : World δ => Owned w ∧ (faulted = false → w.runner.stuck ≠ some radio))
      (countClean radio faulted report) fun _ => Owned := by
  rw [countClean]
  refine Triple.ite (fun _ w hw => hw.1) fun hsound => ?_
  have hfaulted : faulted = false := by simpa using hsound
  refine Triple.ite (fun _ => ?_) fun _ w hw => hw.1
  refine Triple.bind (M := fun _ w => Owned w ∧ w.runner.stuck ≠ some radio)
    (fun w hw => ⟨hw.1, hw.2 hfaulted⟩) fun _ => ?_
  refine Triple.bind (M := fun _ w => Owned w ∧ w.runner.stuck ≠ some radio)
    (fun w hw => hw) fun r => ?_
  exact Triple.ite (fun _ w hw => owned_clearFault hw.1 hw.2) fun _ w hw => hw.1

theorem firm_stopReceiver (radio : Radio) : Within Firm (stopReceiver d radio) := by
  rw [stopReceiver]
  refine Within.bind ?_ fun _ => Within.bind (firm_update (fun _ => rfl) fun _ => rfl) fun _ =>
    Within.pure _
  cases radio with
  | kWifi => exact firm_call
  | kBle => exact firm_call

theorem firm_chargeDrops (windowId : UInt32) : Within Firm (chargeDrops d windowId) := by
  rw [chargeDrops]
  refine Within.bind (within_takeBoth inferInstance inferInstance firm_call firm_call) fun _ => ?_
  refine Within.bind (within_read inferInstance) fun _ => ?_
  exact Within.bind (firm_update (fun _ => rfl) fun _ => rfl) fun _ => Within.pure _

theorem owned_closeReceiver (o : OpenWindow) :
    Triple (fun w : World δ => Owned w ∧ Sane o w) (closeReceiver d o)
      fun faulted w => Owned w ∧ (faulted = false → w.runner.stuck = none) := by
  rw [closeReceiver]
  refine Triple.ite (fun hstarted => ?_) fun hfailed w hw => ⟨hw.1, fun hfaulted => ?_⟩
  · refine Triple.bind (M := fun _ w => Owned w ∧ w.runner.stuck = none)
      (fun w hw => ⟨hw.1, hw.2.1 hstarted⟩) fun _ => ?_
    refine Triple.bind (M := fun _ w => Owned w ∧ w.runner.stuck = none) ?_ fun stopped => ?_
    · intro w hw
      have hfirm := firm_stopReceiver d o.window.radio w
      exact ⟨hfirm.keeps hw.1, hfirm.1.trans hw.2⟩
    refine Triple.bind (M := fun _ w => Owned w ∧ w.runner.stuck = none) (fun w hw => hw)
      fun _ => ?_
    refine Triple.ite (fun _ => ?_) fun _ w hw => ⟨hw.1, fun _ => hw.2⟩
    refine Triple.bind (M := fun _ => Owned) ?_ fun _ w hw => ⟨hw, fun hfaulted => ?_⟩
    swap
    · cases hfaulted
    exact fun w hw => owned_noteStopFailure d _ _ w hw.1
  · rw [hw.2.2 (by simpa using hfailed)] at hfaulted
    cases hfaulted

theorem owned_finishWindow (o : OpenWindow) (pending : Option ControlRequest) :
    Triple (fun w : World δ => Owned w ∧ Sane o w) (finishWindow d o pending)
      fun _ => Owned := by
  rw [finishWindow]
  refine Triple.bind (M := fun _ w => Owned w ∧ Sane o w) (fun w hw => hw) fun rxEndUs => ?_
  refine Triple.bind (owned_closeReceiver d o) fun faulted => ?_
  refine Triple.bind (M := fun _ w => Owned w ∧ (faulted = false → w.runner.stuck = none)) ?_
    fun dropped => ?_
  · intro w hw
    have hfirm := firm_chargeDrops d o.report.windowId w
    exact ⟨hfirm.keeps hw.1, fun hfaulted => hfirm.1.trans (hw.2 hfaulted)⟩
  refine Triple.bind (M := fun _ w => Owned w ∧ (faulted = false → w.runner.stuck = none))
    (fun w hw => hw) fun doneUs => ?_
  refine Triple.bind (M := fun _ => Owned) ?_ fun _ => ?_
  · refine (owned_countClean o.window.radio faulted _).pre fun w hw => ⟨hw.1, fun hfaulted => ?_⟩
    rw [hw.2 hfaulted]
    exact Option.some_ne_none _ |>.symm
  refine Triple.bind (M := fun _ => Owned) (fun w hw => hw) fun _ => ?_
  refine Triple.bind (M := fun _ => Owned) (fun w hw => hw) fun _ => ?_
  exact fun w hw => (steady_owned d).applyPending pending w hw

theorem upright_resumeWindow (o : OpenWindow) :
    Triple (fun w : World δ => Owned w ∧ Sane o w ∧ w.runner.openWindow = some o)
      (resumeWindow d o) fun _ => Upright := by
  rw [resumeWindow]
  refine Triple.bind
    (M := fun _ w => Owned w ∧ Sane o w ∧ w.runner.openWindow = some o) ?_ fun held => ?_
  · rintro w ⟨howned, hsane, hopen⟩
    have hcore := ((quiet d).holdWindow o w).1
    have hstuck : _ = w.runner.stuck := congrArg Core.stuck hcore
    exact ⟨(steady_owned d).holdWindow o w howned, ⟨fun h => hstuck.trans (hsane.1 h), hsane.2⟩,
      (congrArg Core.openWindow hcore).trans hopen⟩
  refine Triple.ite (fun _ w hw => ⟨hw.1, fun o' ho' => ?_⟩) fun _ => ?_
  · obtain rfl := Option.some.inj (hw.2.2.symm.trans ho')
    exact hw.2.1
  · refine Triple.bind (M := fun _ => Owned) ?_ fun _ w hw => ⟨hw, fun o' ho' => ?_⟩
    · exact (owned_finishWindow d o held.1).pre fun w hw => ⟨hw.1, hw.2.1⟩
    · cases ho'

theorem owned_stopOther (radio : Radio) :
    Triple (fun w : World δ => Owned w ∧ w.runner.stuck = none) (stopOther d radio)
      fun faulted w => Owned w ∧ (faulted = false → w.runner.stuck = none) := by
  rw [stopOther]
  refine Triple.bind (M := fun _ w => Owned w ∧ w.runner.stuck = none) (fun w hw => hw)
    fun r => Triple.ite (fun _ => ?_) fun _ w hw => ⟨hw.1, fun _ => hw.2⟩
  refine Triple.bind (M := fun _ w => Owned w ∧ w.runner.stuck = none) ?_ fun stopped => ?_
  · intro w hw
    have hfirm := firm_stopReceiver d (other radio) w
    exact ⟨hfirm.keeps hw.1, hfirm.1.trans hw.2⟩
  refine Triple.ite (fun _ => ?_) fun _ w hw => ⟨hw.1, fun _ => hw.2⟩
  refine Triple.bind (M := fun _ => Owned) ?_ fun _ w hw => ⟨hw, fun hfaulted => ?_⟩
  swap
  · cases hfaulted
  exact fun w hw => owned_noteStopFailure d _ _ w hw.1

theorem owned_startWindow {o : OpenWindow} (hnew : o.started = false) :
    Triple (fun w : World δ => Owned w ∧ w.runner.stuck = none) (startWindow d o)
      fun o' w => Owned w ∧ Sane o' w := by
  rw [startWindow]
  refine Triple.bind (M := fun _ w => Owned w ∧ w.runner.stuck = none) ?_ fun result => ?_
  · rw [startReceiver]
    cases o.window.radio with
    | kWifi => exact fun w hw => hw
    | kBle => exact fun w hw => hw
  refine Triple.ite (fun _ => ?_) fun _ => ?_
  · refine Triple.bind (M := fun _ w => Owned w ∧ w.runner.stuck = none) (fun w hw => hw)
      fun _ => ?_
    refine Triple.bind (M := fun _ w => Owned w ∧ w.runner.stuck = none) (fun w hw => hw)
      fun rxStartUs => ?_
    refine Triple.bind (M := fun _ w => Owned w ∧ w.runner.stuck = none) (fun w hw => hw)
      fun _ => ?_
    refine Triple.bind (M := fun _ w => Owned w ∧ w.runner.stuck = none) (fun w hw => hw)
      fun _ => ?_
    exact fun w hw => ⟨hw.1, fun _ => hw.2, fun h => absurd h.symm Bool.false_ne_true⟩
  · intro w hw
    refine ⟨(driven_owned d).abandonStart o result w hw.1, fun hstarted => ?_, fun _ => rfl⟩
    exact absurd (hnew.symm.trans hstarted) Bool.false_ne_true

/-- A window is begun with nothing stuck. -/
theorem owned_beginOpen {o : OpenWindow} (hnew : o.started = false) :
    Triple (fun w : World δ => Owned w ∧ w.runner.stuck = none) (beginOpen d o)
      fun o' w => Owned w ∧ Sane o' w := by
  rw [beginOpen]
  refine Triple.bind (owned_stopOther d o.window.radio) fun faulted => ?_
  refine Triple.ite (fun _ w hw => ⟨hw.1, fun hstarted => ?_, fun _ => rfl⟩) fun hfree => ?_
  · exact absurd (hnew.symm.trans hstarted) Bool.false_ne_true
  · exact (owned_startWindow d hnew).pre fun w hw => ⟨hw.1, hw.2 (by simpa using hfree)⟩

theorem upright_openWindowAt (startUs : UInt64) (window : Window) :
    Triple (fun w : World δ => Owned w ∧ w.runner.stuck = none) (openWindowAt d startUs window)
      fun _ => Upright := by
  rw [openWindowAt]
  refine Triple.bind (M := fun _ w => Owned w ∧ w.runner.stuck = none) (fun w hw => hw)
    fun _ => ?_
  refine Triple.bind (M := fun _ w => Owned w ∧ w.runner.stuck = none) (fun w hw => hw)
    fun r => ?_
  refine Triple.bind (owned_beginOpen d rfl) fun o => ?_
  refine Triple.bind (M := fun _ w => Owned w ∧ Sane o w ∧ w.runner.openWindow = some o)
    (fun w hw => ⟨hw.1, hw.2, rfl⟩) fun _ => ?_
  exact upright_resumeWindow d o

/-- No window is open. -/
def Idle (w : World δ) : Prop :=
  Owned w ∧ w.runner.openWindow = none

theorem Idle.upright {w : World δ} (h : Idle w) : Upright w :=
  ⟨h.1, fun _ ho => absurd (h.2.symm.trans ho) nofun⟩

/-- A function that only waits and handles controls leaves no window open. -/
theorem idle_of_quiet {c : RadioM δ α} (howned : Within KeepsOwned c)
    (hquiet : Within World.Quiet c) : Triple (Idle (δ := δ)) c fun _ => Idle :=
  fun w hw => ⟨howned w hw.1, (congrArg Core.openWindow (hquiet w).1).trans hw.2⟩

theorem upright_openNext (startUs : UInt64) :
    Triple (fun w : World δ => Idle w ∧ w.runner.stuck = none) (openNext d startUs)
      fun _ => Upright := by
  rw [openNext]
  refine Triple.bind (M := fun _ w => Idle w ∧ w.runner.stuck = none) (fun w hw => hw)
    fun window => ?_
  cases window with
  | none => exact fun w hw => hw.1.upright
  | some window =>
    exact (upright_openWindowAt d startUs window).pre fun w hw => ⟨hw.1.1, hw.2⟩

theorem upright_runWindow :
    Triple (fun w : World δ => Idle w ∧ w.runner.stuck = none) (runWindow d)
      fun _ => Upright := by
  have hwait : ∀ {α : Type} {c : RadioM δ α}, Within KeepsOwned c → Within World.Quiet c →
      Triple (fun w : World δ => Idle w ∧ w.runner.stuck = none) c
        fun _ w => Idle w ∧ w.runner.stuck = none := fun howned hquiet w hw =>
    ⟨idle_of_quiet howned hquiet w hw.1, (congrArg Core.stuck (hquiet w).1).trans hw.2⟩
  rw [runWindow]
  refine Triple.bind (hwait (steady_owned d).nowUs (quiet d).nowUs) fun now => ?_
  refine Triple.bind (hwait (steady_owned d).read (quiet d).read) fun r => ?_
  refine Triple.bind (hwait ((steady_owned d).waitUntil _) ((quiet d).waitUntil _))
    fun request => ?_
  refine Triple.bind (hwait ((steady_owned d).gaveUp _ _) ((quiet d).gaveUp _ _)) fun early => ?_
  refine Triple.ite (fun _ w hw => ?_) fun _ => Triple.ite (fun _ w hw => hw.1.upright) fun _ => ?_
  · exact (idle_of_quiet ((steady_owned d).applyPending _) ((quiet d).applyPending _) w
      hw.1).upright
  · exact upright_openNext d _

/-- Nothing is opened while a stop is retried. -/
theorem openWindow_retryStop (radio : Radio) (o : Option OpenWindow) :
    Triple (fun w : World δ => w.runner.openWindow = o) (retryStop d radio)
      fun _ w => w.runner.openWindow = o := by
  have hquiet : ∀ {α : Type} {c : RadioM δ α}, Within World.Quiet c →
      Triple (fun w : World δ => w.runner.openWindow = o) c fun _ w => w.runner.openWindow = o :=
    fun h w hw => (congrArg Core.openWindow (h w).1).trans hw
  have hstop : Triple (fun w : World δ => w.runner.openWindow = o) (stopReceiver d radio)
      fun _ w => w.runner.openWindow = o := by
    cases radio with
    | kWifi => exact fun w hw => hw
    | kBle => exact fun w hw => hw
  rw [retryStop]
  refine Triple.bind (hquiet (quiet d).read) fun r => ?_
  refine Triple.bind (hquiet ((quiet d).waitUntil _)) fun request => ?_
  refine Triple.bind (hquiet ((quiet d).gaveUp _ _)) fun early => ?_
  refine Triple.ite (fun _ => hquiet ((quiet d).applyPending _)) fun _ => ?_
  refine Triple.ite (fun _ => hquiet ((quiet d).pure _)) fun _ => ?_
  refine Triple.bind hstop fun stopped => Triple.ite (fun _ => ?_) fun _ => ?_
  · refine Triple.bind (M := fun _ w => w.runner.openWindow = o) (fun w hw => hw) fun now w hw => ?_
    exact (congrArg Core.openWindow (core_retryAt w.runner _)).trans hw
  rw [recover]
  refine Triple.bind (M := fun _ w => w.runner.openWindow = o) (fun w hw => hw) fun _ => ?_
  refine Triple.bind (M := fun _ w => w.runner.openWindow = o) (fun w hw => hw) fun _ => ?_
  refine Triple.bind (M := fun _ w => w.runner.openWindow = o) (fun w hw => hw) fun _ => ?_
  refine Triple.bind (M := fun _ w => w.runner.openWindow = o) (fun w hw => hw) fun _ => ?_
  exact hquiet (quiet_clearFault radio)

theorem upright_schedule : Triple (Idle (δ := δ)) (schedule d) fun _ => Upright := by
  rw [schedule]
  refine Triple.bind
    (idle_of_quiet ((steady_owned d).pollControls _) ((quiet d).pollControls _)) fun _ => ?_
  refine Triple.bind (M := fun r w => Idle w ∧ w.runner = r) (fun w hw => ⟨hw, rfl⟩) fun r => ?_
  cases hstuck : r.stuck with
  | some radio =>
    rintro w ⟨hw, -⟩
    have howned := (driven_owned d).retryStop (steady_owned d) radio w hw.1
    exact Idle.upright ⟨howned, openWindow_retryStop d radio none w hw.2⟩
  | none =>
    refine Triple.ite (fun _ w hw => ?_) fun _ => ?_
    · exact (idle_of_quiet (steady_owned d).idle (quiet d).idle w hw.1).upright
    · refine (upright_runWindow d).pre fun w hw => ⟨hw.1, ?_⟩
      rw [hw.2]
      exact hstuck

theorem upright_step : Triple (Upright (δ := δ)) (step d) fun _ => Upright := by
  have hannounce := (quiet d).announce
  rw [step]
  refine Triple.bind (M := fun _ => Upright) (fun w hw => ⟨?_, fun o ho => ?_⟩) fun _ => ?_
  · exact (steady_owned d).announce w hw.1
  · have hcore := (hannounce w).1
    have hsane := hw.2 o ((congrArg Core.openWindow hcore).symm.trans ho)
    exact ⟨fun h => (congrArg Core.stuck hcore).trans (hsane.1 h), hsane.2⟩
  refine Triple.bind (M := fun r w => Upright w ∧ w.runner.openWindow = r.openWindow)
    (fun w hw => ⟨hw, rfl⟩) fun r => ?_
  cases hopen : r.openWindow with
  | some o =>
    exact (upright_resumeWindow d o).pre fun w hw => ⟨hw.1.1, hw.1.2 o hw.2, hw.2⟩
  | none => exact (upright_schedule d).pre fun w hw => ⟨hw.1.1, hw.2⟩

theorem upright_run (config : ObservationConfig) (driver : δ) (steps : ℕ) :
    Upright (run d config driver steps) := by
  refine repeated_invariant (upright_step d) ⟨fun radio h => ?_, fun o ho => ?_⟩ steps
  · cases h
  · cases ho

theorem mirrored_run (config : ObservationConfig) (driver : δ) (steps : ℕ) :
    Mirrored (run d config driver steps) := by
  refine (seam_mirror d).run (fun w w' h hw => h hw) config driver ⟨fun radio => rfl, ?_⟩ steps
  intro before e rest hsplit
  exact absurd hsplit (by simp [boot])

end Stuck

/-- A fault message of the radio. -/
def FaultOf (radio : Radio) (op : FaultOp) (code : Int32) (e : Event) : Prop :=
  e = .emit (.fault ⟨radio, op, code⟩)

/-- An event that says nothing of the radio's fault. -/
def Silent (radio : Radio) (e : Event) : Prop :=
  (∀ op code, ¬ FaultOf radio op code e) ∧ e ≠ .emit (.faultCleared radio)

theorem noteShown_silent {radio : Radio} {e : Event} (h : Silent radio e)
    (shown : Option (FaultOp × Int32)) : noteShown radio shown e = shown := by
  cases e with
  | emit message =>
    cases message with
    | fault fault =>
      refine if_neg fun hradio => h.1 fault.op fault.code ?_
      rw [FaultOf, ← hradio]
    | faultCleared radio' =>
      refine if_neg fun hradio => h.2 ?_
      rw [hradio]
    | _ => rfl
  | _ => rfl

theorem shownFault_silent {radio : Radio} {calls between : List Event}
    (h : ∀ e ∈ between, Silent radio e) :
    shownFault radio (calls ++ between) = shownFault radio calls := by
  induction between using List.reverseRecOn with
  | nil => rw [List.append_nil]
  | append_singleton between e ih =>
    rw [← List.append_assoc, shownFault_append, noteShown_silent (h e (by simp))]
    exact ih fun e he => h e (by simp [he])

/-- Two fault messages of a radio, with no other in between, differ: a cleared fault is
not told again before it is raised again. -/
theorem Mirrored.differ {δ : Type} {w : World δ} (h : Mirrored w) {radio : Radio}
    {op op' : FaultOp} {code code' : Int32} {before between rest : List Event}
    (hcalls : w.calls = before ++ .emit (.fault ⟨radio, op, code⟩) ::
      (between ++ .emit (.fault ⟨radio, op', code'⟩) :: rest))
    (hbetween : ∀ e ∈ between, Silent radio e) : (op, code) ≠ (op', code') := by
  have hsplit : w.calls = (before ++ [.emit (.fault ⟨radio, op, code⟩)] ++ between) ++
      .emit (.fault ⟨radio, op', code'⟩) :: rest := by
    rw [hcalls]
    simp
  have hnew : shownFault radio _ ≠ some (op', code') := h.news _ _ _ hsplit
  rw [shownFault_silent hbetween, shownFault_append] at hnew
  intro heq
  refine hnew ?_
  rw [← heq]
  exact if_pos rfl

/-- Whether the last stop of the receiver failed. -/
def noteFailed (radio : Radio) (failed : Bool) : Event → Bool
  | .stop radio' result => if radio' = radio then !result.ok else failed
  | _ => failed

/-- A stop of the receiver failed, and none since has worked. -/
def stopFailed (radio : Radio) (calls : List Event) : Bool :=
  calls.foldl (noteFailed radio) false

namespace Phase

/-- The receiver whose stop failed. -/
def left : Phase → Option Radio
  | .stopped left _ | .drained left _ | .held left | .counted left | .pooled left _ => left
  | .stuck radio => some radio
  | .off | .started _ | .failed _ | .receiving _ _ | .ended _ _ | .recovered | .emptied => none

private theorem left_stop {p p' : Phase} {radio : Radio} {result : DriverResult}
    (h : p.next (.stop radio result) = some p') :
    (∀ x, p.left = some x → x = radio) ∧ p'.left = afterStop radio result := by
  cases p with
  | failed radio' | ended radio' windowId =>
    simp only [next_stop_failed, next_stop_ended, Option.ite_none_right_eq_some,
      Option.some.injEq] at h
    obtain ⟨rfl, rfl⟩ := h
    exact ⟨nofun, rfl⟩
  | stuck radio' =>
    simp only [next_stop_stuck, Option.ite_none_right_eq_some, Option.some.injEq] at h
    obtain ⟨rfl, rfl⟩ := h
    refine ⟨fun x hx => (Option.some.inj hx).symm, ?_⟩
    cases hok : result.ok <;> simp [afterStop, hok, left]
  | _ => cases h

theorem left_next {p p' : Phase} {e : Event} (h : p.next e = some p') (x : Radio) :
    decide (p'.left = some x) = noteFailed x (decide (p.left = some x)) e := by
  cases e with
  | stop radio result =>
    obtain ⟨hbefore, hafter⟩ := left_stop h
    rw [hafter]
    by_cases hx : radio = x
    · cases hok : result.ok <;> simp [noteFailed, afterStop, hx, hok]
    · have hother : p.left ≠ some x := fun hleft => hx (hbefore x hleft).symm
      cases hok : result.ok <;> simp [noteFailed, afterStop, hx, hok, hother]
  | start radio channel result =>
    obtain rfl := eq_off_of_start h
    obtain rfl : (if result.ok then Phase.started radio else .failed radio) = p' :=
      Option.some.inj h
    cases result.ok <;> rfl
  | beginWindow | endWindow | drainEvents | takeUnattributed =>
    cases p with
    | counted left =>
      cases left <;> cases h <;> rfl
    | _ => cases h <;> rfl
  | takeDrops windowId count =>
    cases p with
    | drained left windowId' =>
      simp only [next_takeDrops_drained, Option.ite_none_right_eq_some, Option.some.injEq] at h
      rw [← h.2]
      rfl
    | pooled left expected =>
      simp only [next_takeDrops_pooled, Option.ite_none_right_eq_some, Option.some.injEq] at h
      rw [← h.2]
      cases left <;> rfl
    | _ => cases h <;> rfl
  | nowUs | waitUntilUs | yield | poll | emit =>
    obtain rfl : p = p' := by simpa using h
    rfl

/-- The phase knows the receiver whose stop failed. -/
theorem stopFailed_after {calls : List Event} {p : Phase} (h : after calls = some p) (x : Radio) :
    stopFailed x calls = decide (p.left = some x) := by
  induction calls using List.reverseRecOn generalizing p with
  | nil =>
    obtain rfl : Phase.off = p := Option.some.inj h
    rfl
  | append_singleton calls e ih =>
    rw [after_concat] at h
    obtain ⟨q, hq, hnext⟩ := Option.bind_eq_some_iff.mp h
    rw [stopFailed, List.foldl_concat, left_next hnext, ← ih hq]
    rfl

end Phase

/-- Between two steps the stuck receiver is the one whose stop failed. -/
theorem left_of_balanced {l : Ledger} {k : Core} (h : Balanced l k) :
    ∃ p, l.phase = some p ∧ p.left = k.stuck := by
  rw [Balanced] at h
  cases hopen : k.openWindow with
  | none =>
    rw [hopen] at h
    refine ⟨_, h.phase.phase, ?_⟩
    cases k.stuck <;> rfl
  | some o =>
    rw [hopen] at h
    obtain ⟨hstuck, hpending, -⟩ := h
    refine ⟨_, hpending.phase.phase, ?_⟩
    rw [heldPhase, hstuck]
    cases o.started <;> rfl

theorem stopFailed_run {δ : Type} (d : RadioDriver δ) (config : ObservationConfig) (driver : δ)
    (steps : ℕ) (radio : Radio) : stopFailed radio (run d config driver steps).calls = true ↔
      (run d config driver steps).runner.stuck = some radio := by
  obtain ⟨p, hp, hleft⟩ := left_of_balanced (balanced_run d config driver steps)
  have hafter : Phase.after (run d config driver steps).calls = some p := by
    rw [← Ledger.of_phase]
    exact hp
  rw [Phase.stopFailed_after hafter, hleft, decide_eq_true_iff]
  exact Iff.rfl

theorem run_faults_mirrored {δ : Type} (d : RadioDriver δ) (config : ObservationConfig)
    (driver : δ) (steps : ℕ) :
    let w := run d config driver steps
    (∀ radio, shownFault radio w.calls = w.runner.fault radio) ∧
      (∀ radio, stopFailed radio w.calls = true → shownFault radio w.calls ≠ none) ∧
      (∀ radio before rest, w.calls = before ++ .emit (.faultCleared radio) :: rest →
        shownFault radio before ≠ none) ∧
      ∀ radio op op' code code' before between rest,
        w.calls = before ++ .emit (.fault ⟨radio, op, code⟩) ::
          (between ++ .emit (.fault ⟨radio, op', code'⟩) :: rest) →
        (∀ e ∈ between, Silent radio e) → (op, code) ≠ (op', code') := by
  intro w
  have hmirrored := mirrored_run d config driver steps
  refine ⟨hmirrored.shown, fun radio hstuck => ?_, fun radio before rest hcalls => ?_, ?_⟩
  · rw [hmirrored.shown]
    exact (upright_run d config driver steps).1 radio ((stopFailed_run ..).mp hstuck)
  · exact hmirrored.news _ _ _ hcalls
  · intro radio op op' code code' before between rest hcalls hbetween
    exact hmirrored.differ hcalls hbetween

end CydMonitor.Observation
