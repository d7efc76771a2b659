import CydMonitor.Observation.Runner

/-!
# What every crossing of the seam keeps

A step is made of calls, messages and changes of the runner. Three classes of relations
between worlds, by which of these they are kept: the quiet ones (readings, waits, polls and
what a control changes), those of the receivers and their windows, and all of them.
-/

namespace CydMonitor.Observation

open RadioRunner Prog

/-- The fields of the runner that decide which receiver call comes next. -/
structure Core where
  openWindow : Option OpenWindow
  stuck : Option Radio
  running : Radio → Bool
  windowId : UInt32
  carriedDrops : UInt32

def RadioRunner.core (r : RadioRunner) : Core where
  openWindow := r.openWindow
  stuck := r.stuck
  running := r.running
  windowId := r.windowId
  carriedDrops := r.carriedDrops

/-- The fault of a radio that the app loop has been told of. -/
def RadioRunner.fault (r : RadioRunner) (radio : Radio) : Option (FaultOp × Int32) :=
  if r.faultActive radio then some (r.faultOp radio, r.faultCode radio) else none

/-- What an operator's control may change, and the faults. -/
structure Settings where
  config : ObservationConfig
  configGeneration : UInt32
  announced : Bool
  fault : Radio → Option (FaultOp × Int32)

def RadioRunner.settings (r : RadioRunner) : Settings where
  config := r.scheduler.config
  configGeneration := r.configGeneration
  announced := r.announced
  fault := r.fault

@[simp] theorem settings_retryAt (r : RadioRunner) (us : UInt64) :
    ({ r with stopRetryAtUs := us } : RadioRunner).settings = r.settings :=
  rfl

@[simp] theorem core_retryAt (r : RadioRunner) (us : UInt64) :
    ({ r with stopRetryAtUs := us } : RadioRunner).core = r.core :=
  rfl

section Classes

variable {δ : Type} (d : RadioDriver δ) (R : World δ → World δ → Prop)

/-- Kept by clock readings, polls and waits. -/
structure Waiting : Prop where
  refl : Std.Refl R
  trans : IsTrans (World δ) R
  nowUs : Within R (nowUs d)
  poll : Within R (poll d)
  waitUntilUs : ∀ deadlineUs,
    Within R (call (d.waitUntilUs deadlineUs) (.waitUntilUs deadlineUs))
  yield : Within R (call d.yield fun _ => .yield)

/-- Kept by what a control changes, too. -/
structure Steady : Prop extends Waiting d R where
  adjust : ∀ f : RadioRunner → RadioRunner,
    (∀ r, (f r).core = r.core ∧ (f r).fault = r.fault) → Within R (update f)
  clearDisabled : ∀ radio, Within R (clearDisabled radio)
  emitConfig : Within R emitConfig

/-- Kept by what happens to the receivers and in a window. -/
structure Driven : Prop where
  refl : Std.Refl R
  trans : IsTrans (World δ) R
  change : ∀ f : RadioRunner → RadioRunner, (∀ r, (f r).settings = r.settings) →
    (∀ r, (f r).stuck = r.stuck) → Within R (update f)
  noteFault : ∀ radio result, Within R (noteFault radio result)
  noteStopFailure : ∀ radio result, Within R (noteStopFailure d radio result)
  recover : ∀ radio, Within R (recover d radio)
  windowStarted : ∀ started, Within R (emit (.windowStarted started))
  windowReport : ∀ report, Within R (emit (.windowReport report))
  nowUs : Within R (nowUs d)
  beginWindow : ∀ windowId configGeneration startUs deadlineUs,
    Within R (call (d.beginWindow windowId configGeneration startUs deadlineUs)
      fun _ => .beginWindow windowId configGeneration startUs deadlineUs)
  endWindow : Within R (call d.endWindow fun _ => .endWindow)
  start : ∀ window, Within R (startReceiver d window)
  stop : ∀ radio, Within R (issueStop d radio)
  drainEvents : Within R (call d.drainEvents fun _ => .drainEvents)
  takeDrops : ∀ windowId, Within R (call (d.takeDrops windowId) (.takeDrops windowId))
  takeUnattributed : Within R (call d.takeUnattributed .takeUnattributed)

/-- Kept by everything a step does. -/
structure Seam : Prop extends Steady d R, Driven d R where
  countClean : ∀ radio faulted report, Within R (countClean radio faulted report)

end Classes

variable {δ : Type} {d : RadioDriver δ} {R : World δ → World δ → Prop}

section Parts

variable (hrefl : Std.Refl R)

include hrefl

theorem within_read : Within R (read : RadioM δ RadioRunner) :=
  fun w => hrefl.refl w

theorem within_takeBoth (htrans : IsTrans (World δ) R) {windowId : UInt32}
    (hdrops : Within R (call (d.takeDrops windowId) (.takeDrops windowId)))
    (hunattributed : Within R (call d.takeUnattributed .takeUnattributed)) :
    Within R (takeBoth d windowId) := by
  rw [takeBoth]
  refine Within.bind (fun w => hrefl.refl w) fun first => Within.ite ?_ ?_
  · exact Within.bind hdrops fun _ => Within.bind hunattributed fun _ => Within.pure _
  · exact Within.bind hunattributed fun _ => Within.bind hdrops fun _ => Within.pure _

theorem within_clearDisabled (htrans : IsTrans (World δ) R)
    (hclear : ∀ radio, Within R (clearFault radio)) (radio : Radio) :
    Within R (clearDisabled radio) :=
  Within.bind (within_read hrefl) fun _ => Within.ite (hclear radio) (Within.pure _)

theorem within_countClean (htrans : IsTrans (World δ) R)
    (hclean : ∀ f : RadioRunner → RadioRunner,
      (∀ r, (f r).core = r.core ∧ (f r).settings = r.settings) → Within R (update f))
    (hclear : ∀ radio, Within R (clearFault radio)) (radio : Radio) (faulted : Bool)
    (report : WindowReport) : Within R (countClean radio faulted report) := by
  rw [countClean]
  refine Within.ite (hclean _ fun _ => ⟨rfl, rfl⟩) (Within.ite ?_ (Within.pure _))
  refine Within.bind (hclean _ fun _ => ⟨rfl, rfl⟩) fun _ => ?_
  exact Within.bind (within_read hrefl) fun r => Within.ite (hclear radio) (Within.pure _)

variable (htrans : IsTrans (World δ) R)
  (hupdate : ∀ f : RadioRunner → RadioRunner,
    (∀ r, (f r).core = r.core ∧ (f r).scheduler = r.scheduler) → Within R (update f))

include htrans hupdate

theorem within_noteFault (hfault : ∀ fault, Within R (emit (.fault fault))) (radio : Radio)
    (result : DriverResult) : Within R (noteFault radio result) := by
  rw [noteFault]
  refine Within.bind (hupdate _ fun _ => ⟨rfl, rfl⟩) fun _ => ?_
  refine Within.bind (within_read hrefl) fun r => Within.ite (Within.pure _) ?_
  exact Within.bind (hupdate _ fun _ => ⟨rfl, rfl⟩) fun _ => hfault _

theorem within_clearFault (hcleared : ∀ radio, Within R (emit (.faultCleared radio)))
    (radio : Radio) : Within R (clearFault radio) := by
  rw [clearFault]
  refine Within.bind (hupdate _ fun _ => ⟨rfl, rfl⟩) fun _ => ?_
  refine Within.bind (within_read hrefl) fun r => Within.ite (Within.pure _) ?_
  exact Within.bind (hupdate _ fun _ => ⟨rfl, rfl⟩) fun _ => hcleared _

end Parts

section Parts

variable (hrefl : Std.Refl R) (htrans : IsTrans (World δ) R)
  (hchange : ∀ f : RadioRunner → RadioRunner, (∀ r, (f r).settings = r.settings) →
    Within R (update f))

include hchange

theorem within_noteStopFailure (htrans : IsTrans (World δ) R) (hnow : Within R (nowUs d))
    (hfault : ∀ radio result, Within R (noteFault radio result)) (radio : Radio)
    (result : DriverResult) : Within R (noteStopFailure d radio result) :=
  Within.bind (hchange _ fun _ => rfl) fun _ => Within.bind hnow fun _ =>
    Within.bind (hchange _ fun _ => rfl) fun _ => hfault radio result

theorem within_recover (htrans : IsTrans (World δ) R)
    (hdrain : Within R (call d.drainEvents fun _ => .drainEvents))
    (htake : Within R (call d.takeUnattributed .takeUnattributed))
    (hclear : ∀ radio, Within R (clearFault radio)) (radio : Radio) :
    Within R (recover d radio) :=
  Within.bind (hchange _ fun _ => rfl) fun _ => Within.bind hdrain fun _ =>
    Within.bind htake fun _ => Within.bind (hchange _ fun _ => rfl) fun _ => hclear radio

end Parts

namespace Waiting

variable (h : Waiting d R)

include h

theorem pure {α : Type} (a : α) : Within R (Pure.pure a : RadioM δ α) :=
  fun w => h.refl.refl w

theorem bind {α β : Type} {c : RadioM δ α} {f : α → RadioM δ β} (hc : Within R c)
    (hf : ∀ a, Within R (f a)) : Within R (c >>= f) :=
  have := h.trans
  Within.bind hc hf

theorem read : Within R (read : RadioM δ RadioRunner) :=
  within_read h.refl

theorem wake (deadlineUs : UInt64) : Within R (wake d deadlineUs) := by
  rw [RadioRunner.wake]
  refine h.bind (h.waitUntilUs deadlineUs) fun reason => Within.ite ?_ (h.pure _)
  exact h.bind h.poll fun request => h.bind h.read fun r => h.pure _

theorem waitLoop (deadlineUs lastNowUs : UInt64) (stalledWakes : ℕ) :
    Within R (waitLoop d deadlineUs lastNowUs stalledWakes) := by
  induction lastNowUs, stalledWakes using RadioRunner.waitLoop.induct deadlineUs with
  | case1 lastNowUs stalledWakes hbefore hmoves hwaits =>
    rw [RadioRunner.waitLoop, dif_pos hbefore]
    refine h.bind (h.wake deadlineUs) fun request => Within.ite (h.pure _) ?_
    refine h.bind h.nowUs fun now => ?_
    by_cases hmoved : now > lastNowUs
    · rw [dif_pos hmoved]
      exact hmoves now hmoved
    rw [dif_neg hmoved]
    by_cases hstalled : stalledWakes + 1 > kMaxStalledWakes
    · rw [dif_pos hstalled]
      exact h.bind h.yield fun _ => h.pure _
    · rw [dif_neg hstalled]
      exact hwaits hstalled
  | case2 lastNowUs stalledWakes hafter =>
    rw [RadioRunner.waitLoop, dif_neg hafter]
    exact h.pure _

theorem waitUntil (deadlineUs : UInt64) : Within R (waitUntil d deadlineUs) :=
  h.bind h.nowUs fun _ => h.waitLoop deadlineUs _ _

theorem gaveUp (deadlineUs : UInt64) (pending : Option ControlRequest) :
    Within R (gaveUp d deadlineUs pending) := by
  rw [RadioRunner.gaveUp]
  exact Within.ite (h.pure _) (h.bind h.nowUs fun _ => h.pure _)

theorem holdWindow (o : OpenWindow) : Within R (holdWindow d o) := by
  rw [RadioRunner.holdWindow]
  refine h.bind h.read fun r => Within.ite (h.pure _) ?_
  exact h.bind (h.waitUntil _) fun pending => h.bind (h.gaveUp _ _) fun _ => h.pure _

end Waiting

namespace Steady

variable (h : Steady d R)

include h

theorem applyControl (request : ControlRequest) :
    Within R (applyControl request : RadioM δ Bool) := by
  rw [RadioRunner.applyControl]
  refine h.bind h.read fun r => Within.ite (h.pure _) ?_
  refine h.bind (h.adjust _ fun _ => ⟨rfl, rfl⟩) fun _ => h.bind h.emitConfig fun _ => ?_
  exact h.bind (h.clearDisabled _) fun _ => h.bind (h.clearDisabled _) fun _ => h.pure _

theorem applyPending (pending : Option ControlRequest) :
    Within R (applyPending pending : RadioM δ Unit) := by
  cases pending with
  | none => exact h.pure _
  | some request => exact h.bind (h.applyControl request) fun _ => h.pure _

theorem announce : Within R (announce : RadioM δ Unit) := by
  rw [RadioRunner.announce]
  refine h.bind h.read fun r => Within.ite (h.pure _) ?_
  exact h.bind (h.adjust _ fun _ => ⟨rfl, rfl⟩) fun _ => h.emitConfig

theorem pollControls (rounds : ℕ) : Within R (pollControls d rounds) := by
  induction rounds with
  | zero => exact h.pure _
  | succ rounds ih =>
    rw [RadioRunner.pollControls]
    refine h.bind h.poll fun request => Within.ite ?_ (h.pure _)
    exact h.bind (h.applyPending request) fun _ => ih

theorem idle : Within R (idle d) :=
  h.bind (h.adjust _ fun _ => ⟨rfl, rfl⟩) fun _ =>
    h.bind (h.waitUntil _) fun request => h.applyPending request

theorem takeWindow (startUs : UInt64) : Within R (takeWindow startUs : RadioM δ (Option Window)) :=
  h.bind h.read fun _ => h.bind (h.adjust _ fun _ => ⟨rfl, rfl⟩) fun _ => h.pure _

end Steady

namespace Driven

variable (h : Driven d R)

include h

theorem pure {α : Type} (a : α) : Within R (Pure.pure a : RadioM δ α) :=
  fun w => h.refl.refl w

theorem bind {α β : Type} {c : RadioM δ α} {f : α → RadioM δ β} (hc : Within R c)
    (hf : ∀ a, Within R (f a)) : Within R (c >>= f) :=
  have := h.trans
  Within.bind hc hf

theorem read : Within R (read : RadioM δ RadioRunner) :=
  within_read h.refl

theorem stopReceiver (radio : Radio) : Within R (stopReceiver d radio) :=
  h.bind (h.stop radio) fun _ =>
    h.bind (h.change _ (fun _ => rfl) fun _ => rfl) fun _ => h.pure _

theorem noteStop (radio : Radio) (result : DriverResult) : Within R (noteStop d radio result) :=
  Within.ite (h.noteStopFailure radio result) (h.pure _)

theorem closeReceiver (o : OpenWindow) : Within R (closeReceiver d o) := by
  rw [RadioRunner.closeReceiver]
  refine Within.ite ?_ (h.pure _)
  refine h.bind h.endWindow fun _ => h.bind (h.stopReceiver _) fun stopped => ?_
  refine h.bind h.drainEvents fun _ => Within.ite ?_ (h.pure _)
  exact h.bind (h.noteStopFailure _ _) fun _ => h.pure _

theorem chargeDrops (windowId : UInt32) : Within R (chargeDrops d windowId) :=
  h.bind (within_takeBoth h.refl h.trans (h.takeDrops windowId) h.takeUnattributed) fun _ =>
    h.bind h.read fun _ => h.bind (h.change _ (fun _ => rfl) fun _ => rfl) fun _ => h.pure _

theorem stopOther (radio : Radio) : Within R (stopOther d radio) := by
  rw [RadioRunner.stopOther]
  refine h.bind h.read fun r => Within.ite ?_ (h.pure _)
  refine h.bind (h.stopReceiver _) fun stopped => Within.ite ?_ (h.pure _)
  exact h.bind (h.noteStopFailure _ _) fun _ => h.pure _

theorem abandonStart (o : OpenWindow) (result : DriverResult) :
    Within R (abandonStart d o result) :=
  h.bind (h.noteFault _ _) fun _ => h.bind (h.change _ (fun _ => rfl) fun _ => rfl) fun _ =>
    h.bind (h.stopReceiver _) fun _ => h.bind (h.noteStop _ _) fun _ => h.pure _

theorem startWindow (o : OpenWindow) : Within R (startWindow d o) := by
  rw [RadioRunner.startWindow]
  refine h.bind (h.start _) fun result => Within.ite ?_ (h.abandonStart o result)
  refine h.bind (h.change _ (fun _ => rfl) fun _ => rfl) fun _ => ?_
  refine h.bind h.nowUs fun rxStartUs => h.bind (h.beginWindow _ _ _ _) fun _ => ?_
  exact h.bind (h.windowStarted _) fun _ => h.pure _

theorem beginOpen (o : OpenWindow) : Within R (beginOpen d o) :=
  h.bind (h.stopOther _) fun _ => Within.ite (h.pure _) (h.startWindow o)

theorem retryStop (hs : Steady d R) (radio : Radio) : Within R (retryStop d radio) := by
  rw [RadioRunner.retryStop]
  refine h.bind h.read fun r => h.bind (hs.waitUntil _) fun request => ?_
  refine h.bind (hs.gaveUp _ _) fun early => Within.ite (hs.applyPending _) ?_
  refine Within.ite (h.pure _) (h.bind (h.stopReceiver _) fun stopped => ?_)
  refine Within.ite (h.bind h.nowUs fun _ => ?_) (h.recover radio)
  exact h.change _ (fun r => settings_retryAt r _) fun _ => rfl

end Driven

namespace Seam

variable (h : Seam d R)

include h

theorem finishWindow (o : OpenWindow) (pending : Option ControlRequest) :
    Within R (finishWindow d o pending) := by
  rw [RadioRunner.finishWindow]
  refine h.bind h.nowUs fun _ => h.bind (h.closeReceiver o) fun faulted => ?_
  refine h.bind (h.chargeDrops _) fun dropped => h.bind h.nowUs fun doneUs => ?_
  refine h.bind (h.countClean _ _ _) fun _ => h.bind (h.windowReport _) fun _ => ?_
  exact h.bind (h.change _ (fun _ => rfl) fun _ => rfl) fun _ => h.applyPending pending

theorem resumeWindow (o : OpenWindow) : Within R (resumeWindow d o) :=
  h.bind (h.holdWindow o) fun _ => Within.ite (h.pure _)
    (h.bind (h.finishWindow o _) fun _ => h.change _ (fun _ => rfl) fun _ => rfl)

theorem openWindowAt (startUs : UInt64) (window : Window) :
    Within R (openWindowAt d startUs window) :=
  h.bind (h.change _ (fun _ => rfl) fun _ => rfl) fun _ => h.bind h.read fun _ =>
    h.bind (h.beginOpen _) fun o =>
    h.bind (h.change _ (fun _ => rfl) fun _ => rfl) fun _ => h.resumeWindow o

theorem openNext (startUs : UInt64) : Within R (openNext d startUs) := by
  rw [RadioRunner.openNext]
  refine h.bind (h.takeWindow startUs) fun window => ?_
  cases window with
  | none => exact h.pure _
  | some window => exact h.openWindowAt startUs window

theorem runWindow : Within R (runWindow d) := by
  rw [RadioRunner.runWindow]
  refine h.bind h.nowUs fun now => h.bind h.read fun r => h.bind (h.waitUntil _) fun request => ?_
  refine h.bind (h.gaveUp _ _) fun early => Within.ite (h.applyPending _) ?_
  exact Within.ite (h.pure _) (h.openNext _)

theorem schedule : Within R (schedule d) := by
  rw [RadioRunner.schedule]
  refine h.bind (h.pollControls _) fun _ => h.bind h.read fun r => ?_
  cases r.stuck with
  | some radio => exact h.toDriven.retryStop h.toSteady radio
  | none => exact Within.ite h.idle h.runWindow

theorem step : Within R (step d) := by
  rw [RadioRunner.step]
  refine h.bind h.announce fun _ => h.bind h.read fun r => ?_
  cases r.openWindow with
  | some o => exact h.resumeWindow o
  | none => exact h.schedule

/-- What the relation preserves holds after any number of steps. -/
theorem run {I : World δ → Prop} (hI : ∀ w w', R w w' → I w → I w') (config : ObservationConfig)
    (driver : δ) (hboot : I (boot config driver)) (steps : ℕ) : I (run d config driver steps) := by
  induction steps with
  | zero => exact hboot
  | succ steps ih => exact hI _ _ (h.step _) ih

end Seam

end CydMonitor.Observation
