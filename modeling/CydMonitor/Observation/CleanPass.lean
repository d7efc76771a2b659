import CydMonitor.Observation.Faults
import CydMonitor.Observation.Pass
import CydMonitor.Observation.Reached

/-!
# A WiFi fault and its clean pass

The runner counts clean windows in place of the channels they were on, which is sound in a run
that leaves no window uncounted.
-/

namespace CydMonitor.Observation

open RadioRunner Prog CyclicWalk

section Count

variable {δ α : Type} (d : RadioDriver δ)

/-- The window's place in the walk: the trail ends before its channel, and the scheduler has
moved on from it. -/
def Placed (s : ObservationScheduler) (place : ℕ) (window : Window) : Prop :=
  match window.radio with
  | .kWifi => s.config.wifiEnabled = true ∧ s.config.wifiChannels[place]? = some window.channel ∧
      s.nextChannel = (place + 1) % s.config.wifiChannels.length
  | .kBle => s.nextChannel = place

def Holding (o : OpenWindow) (w : World δ) : Prop :=
  o.report.window = o.window ∧
    ∃ s place, place < s.config.wifiChannels.length ∧ Tracked s place w ∧ Placed s place o.window

/-- Between two steps. -/
def Settled (w : World δ) : Prop :=
  (w.runner.openWindow = none → Counted w) ∧ ∀ o, w.runner.openWindow = some o → Holding o w

/-- What a step has reached before it ends a window. -/
def AtEnd : Option (OpenWindow × Option ControlRequest) → World δ → Prop
  | none, w => Settled w
  | some held, w => Holding held.1 w ∧ Owned w ∧ Sane held.1 w

theorem atEnd_held (o : OpenWindow) :
    Triple (fun w => Holding o w ∧ Owned w ∧ Sane o w ∧ w.runner.openWindow = some o) (held d o)
      AtEnd := by
  have hholds : Triple
      (fun w => Holding o w ∧ Owned w ∧ Sane o w ∧ w.runner.openWindow = some o) (holdWindow d o)
      fun _ w => Holding o w ∧ Owned w ∧ Sane o w ∧ w.runner.openWindow = some o := by
    rintro w ⟨⟨hreport, s, place, hplace, htracked, hplaced⟩, howned, hsane, hopen⟩
    have hcore := ((quiet d).holdWindow o w).1
    have hstuck : _ = w.runner.stuck := congrArg Core.stuck hcore
    exact ⟨⟨hreport, s, place, hplace, ((aside_waiting d).holdWindow o w).tracked htracked,
      hplaced⟩, (steady_owned d).holdWindow o w howned,
      ⟨fun h => hstuck.trans (hsane.1 h), hsane.2⟩,
      (congrArg Core.openWindow hcore).trans hopen⟩
  rw [held]
  refine Triple.bind hholds fun held w hw => ?_
  show AtEnd (if held.2 then none else some (o, held.1)) w
  by_cases hearly : held.2 = true
  · rw [if_pos hearly]
    refine ⟨fun hnone => absurd (hw.2.2.2.symm.trans hnone) (Option.some_ne_none _),
      fun o' ho' => ?_⟩
    obtain rfl := Option.some.inj (hw.2.2.2.symm.trans ho')
    exact hw.1
  · rw [if_neg hearly]
    exact ⟨hw.1, hw.2.1, hw.2.2.1⟩

/-- Between two windows. -/
def Between (w : World δ) : Prop :=
  Counted w ∧ Idle w

theorem Between.settled {w : World δ} (h : Between w) : Settled w :=
  ⟨fun _ => h.1, fun _ ho => absurd (h.2.2.symm.trans ho) nofun⟩

theorem between_of_quiet {c : RadioM δ α} (hcounted : Triple Counted c fun _ => Counted)
    (howned : Within KeepsOwned c) (hquiet : Within World.Quiet c) :
    Triple Between c fun _ => Between :=
  hcounted.and (idle_of_quiet howned hquiet)

theorem between_waiting {c : RadioM δ α} (haside : Within Aside c) (howned : Within KeepsOwned c)
    (hquiet : Within World.Quiet c) : Triple Between c fun _ => Between :=
  between_of_quiet (aside_counted haside) howned hquiet

include d in
theorem between_applyPending (pending : Option ControlRequest) :
    Triple (Between (δ := δ)) (applyPending pending) fun _ => Between :=
  between_of_quiet (counted_applied pending) ((steady_owned d).applyPending pending)
    ((quiet d).applyPending pending)

theorem between_pollControls (rounds : ℕ) :
    Triple Between (pollControls d rounds) fun _ => Between := by
  induction rounds with
  | zero => exact fun w hw => hw
  | succ rounds ih =>
    rw [pollControls]
    refine Triple.bind (between_waiting (aside_waiting d).poll (steady_owned d).poll
      (quiet d).poll) fun request => Triple.ite (fun _ => ?_) fun _ w hw => hw
    exact Triple.bind (between_applyPending d request) fun _ => ih

theorem between_idle : Triple Between (idle d) fun _ => Between := by
  have haside : Within Aside (update fun r => { r with nextStartUs := none } : RadioM δ Unit) :=
    aside_update (fun _ => ⟨rfl, rfl, rfl, rfl⟩) fun _ => id
  rw [idle]
  refine Triple.bind (between_waiting haside ((steady_owned d).adjust _ fun _ => ⟨rfl, rfl⟩)
    ((quiet d).adjust _ fun _ => ⟨rfl, rfl⟩)) fun _ => ?_
  refine Triple.bind (between_waiting ((aside_waiting d).waitUntil _)
    ((steady_owned d).waitUntil _) ((quiet d).waitUntil _)) fun request => ?_
  exact between_applyPending d request

theorem counted_retryStop (radio : Radio) :
    Triple (fun w => Counted w ∧ w.runner.stuck = some radio) (retryStop d radio)
      fun _ => Counted := by
  have hwait : ∀ {α : Type} {c : RadioM δ α}, Within Aside c → Within World.Quiet c →
      Triple (fun w => Counted w ∧ w.runner.stuck = some radio) c
        fun _ w => Counted w ∧ w.runner.stuck = some radio := fun haside hquiet w hw =>
    ⟨aside_counted haside w hw.1, (congrArg Core.stuck (hquiet w).1).trans hw.2⟩
  rw [retryStop]
  refine Triple.bind (hwait (aside_waiting d).read (quiet d).read) fun r => ?_
  refine Triple.bind (hwait ((aside_waiting d).waitUntil _) ((quiet d).waitUntil _))
    fun request => ?_
  refine Triple.bind (hwait ((aside_waiting d).gaveUp _ _) ((quiet d).gaveUp _ _)) fun early => ?_
  refine Triple.ite (fun _ => (counted_applied request).pre fun w hw => hw.1) fun _ => ?_
  refine Triple.ite (fun _ w hw => hw.1) fun _ => ?_
  rintro w ⟨⟨s, hs⟩, hstuck⟩
  have hrest : Triple (fun w => Tracked s s.nextChannel w ∧ w.runner.stuck = some radio)
      (do let stopped ← stopReceiver d radio
          if !stopped.ok then do
            let now ← nowUs d
            update fun r => { r with stopRetryAtUs := saturatingAdd now kStopRetryBackoffUs }
          else recover d radio) fun _ => Tracked s s.nextChannel := by
    refine Triple.bind (tracked_retry d s.inPlan radio) fun stopped => Triple.ite (fun _ => ?_)
      fun _ => tracked_recover d radio
    refine Triple.bind (aside_triple (aside_waiting d).nowUs) fun now => ?_
    exact aside_triple (aside_update (fun _ => ⟨rfl, rfl, rfl, rfl⟩) fun _ => id)
  exact ⟨s, hrest w ⟨hs, hstuck⟩⟩

/-- A WiFi window is on the channel after the trail. -/
theorem placed_nextWindow {s : ObservationScheduler} (startMs : UInt64) {window : Window}
    (hwindow : (s.nextWindow startMs).1 = some window)
    (haimed : s.nextRadio = .kWifi → s.config.wifiEnabled = true) :
    Placed (s.nextWindow startMs).2 s.nextChannel window ∧
      ((s.nextWindow startMs).2.nextRadio = .kWifi →
        (s.nextWindow startMs).2.config.wifiEnabled = true) := by
  rw [ObservationScheduler.nextWindow] at hwindow ⊢
  by_cases hoff : (!s.config.wifiEnabled && !s.config.bleEnabled) = true
  · simp [hoff] at hwindow
  · rw [if_neg hoff] at hwindow ⊢
    cases hradio : s.nextRadio with
    | kWifi =>
      rw [hradio] at hwindow
      obtain rfl := Option.some.inj hwindow
      refine ⟨⟨haimed hradio, ?_, rfl⟩, fun _ => haimed hradio⟩
      exact List.getElem?_eq_getElem s.inPlan
    | kBle =>
      rw [hradio] at hwindow
      obtain rfl := Option.some.inj hwindow
      refine ⟨rfl, fun hnext => ?_⟩
      by_contra hdisabled
      simp [hdisabled] at hnext

theorem tracked_takeWindow (startUs : UInt64) {s : ObservationScheduler} :
    Triple (Tracked (δ := δ) s s.nextChannel) (takeWindow startUs) fun window w =>
      match window with
      | none => Counted w
      | some window => ∃ s', s'.config = s.config ∧ Tracked s' s.nextChannel w ∧
          Placed s' s.nextChannel window := by
  intro w hw
  obtain rfl := hw.scheduler
  have hconfig := w.runner.scheduler.nextWindow_config (startUs / kUsPerMs)
  have hmoved : ∀ haimed, Tracked (w.runner.scheduler.nextWindow (startUs / kUsPerMs)).2
      w.runner.scheduler.nextChannel (takeWindow startUs w).2 := fun haimed =>
    { scheduler := rfl
      announced := hw.announced
      enabled := hw.enabled.trans (congrArg ObservationConfig.wifiEnabled hconfig.symm)
      plan := hw.plan.trans (congrArg ObservationConfig.wifiChannels hconfig.symm)
      normal := by rw [hconfig]; exact hw.normal
      aimed := haimed
      off := by rw [hconfig]; exact hw.off
      sound := hw.sound
      stuck := hw.stuck
      trail := by rw [OnTrail, hconfig]; exact hw.trail }
  show match (w.runner.scheduler.nextWindow (startUs / kUsPerMs)).1 with | none => _ | some _ => _
  cases hwindow : (w.runner.scheduler.nextWindow (startUs / kUsPerMs)).1 with
  | none =>
    have hstill : (w.runner.scheduler.nextWindow (startUs / kUsPerMs)).2 = w.runner.scheduler := by
      rw [ObservationScheduler.nextWindow] at hwindow ⊢
      by_cases hoff : (!w.runner.scheduler.config.wifiEnabled &&
          !w.runner.scheduler.config.bleEnabled) = true
      · rw [if_pos hoff]
      · rw [if_neg hoff] at hwindow
        cases hradio : w.runner.scheduler.nextRadio <;> rw [hradio] at hwindow <;> cases hwindow
    have htracked := hmoved (by rw [hstill]; exact hw.aimed)
    rw [hstill] at htracked
    exact ⟨_, htracked⟩
  | some window =>
    obtain ⟨hplaced, haimed⟩ := placed_nextWindow _ hwindow hw.aimed
    exact ⟨_, hconfig, hmoved haimed, hplaced⟩

theorem window_beginOpen (o : OpenWindow) :
    Triple (fun _ => True) (beginOpen d o)
      fun o' _ => o'.window = o.window ∧ o'.report = o.report := by
  have hstart : Triple (fun _ => True) (startWindow d o)
      fun o' _ => o'.window = o.window ∧ o'.report = o.report := by
    rw [startWindow]
    refine Triple.bind (M := fun _ _ => True) (fun _ _ => trivial) fun result =>
      Triple.ite (fun _ _ _ => ⟨rfl, rfl⟩) fun _ => ?_
    rw [abandonStart]
    refine Triple.bind (M := fun _ _ => True) (fun _ _ => trivial) fun _ => ?_
    refine Triple.bind (M := fun _ _ => True) (fun _ _ => trivial) fun _ => ?_
    refine Triple.bind (M := fun _ _ => True) (fun _ _ => trivial) fun stopped => ?_
    exact Triple.bind (M := fun _ _ => True) (fun _ _ => trivial) fun _ _ _ => ⟨rfl, rfl⟩
  rw [beginOpen]
  refine Triple.bind (M := fun _ _ => True) (fun _ _ => trivial) fun faulted => ?_
  exact Triple.ite (fun _ _ _ => ⟨rfl, rfl⟩) fun _ => hstart

theorem atEnd_openedAt (startUs : UInt64) (window : Window) {s : ObservationScheduler} {place : ℕ}
    (hplace : place < s.config.wifiChannels.length) (hplaced : Placed s place window) :
    Triple (fun w => Tracked s place w ∧ Owned w ∧ w.runner.stuck = none)
      (openedAt d startUs window) AtEnd := by
  have haside : Within Aside
      (update fun r => { r with windowId := r.windowId + 1 } : RadioM δ Unit) :=
    aside_update (fun _ => ⟨rfl, rfl, rfl, rfl⟩) fun _ => id
  rw [openedAt]
  refine Triple.bind (M := fun _ w => Tracked s place w ∧ Owned w ∧ w.runner.stuck = none)
    (fun w hw => ⟨(haside w).tracked hw.1, hw.2⟩) fun _ => ?_
  refine Triple.bind (M := fun _ w => Tracked s place w ∧ Owned w ∧ w.runner.stuck = none)
    (fun w hw => hw) fun r => ?_
  have hwindow := window_beginOpen d (opening r window startUs)
  refine Triple.bind
    (((tracked_beginOpen d hplace _).and ((owned_beginOpen d rfl).and hwindow)).pre
      fun w hw => ⟨hw.1, hw.2, trivial⟩) fun o => ?_
  refine Triple.bind (M := fun _ w => Holding o w ∧ Owned w ∧ Sane o w ∧
    w.runner.openWindow = some o) ?_ fun _ => atEnd_held d o
  rintro w ⟨htracked, ⟨howned, hsane⟩, hwindow, hreport⟩
  refine ⟨⟨?_, s, place, hplace, { htracked with }, ?_⟩, howned, hsane, rfl⟩
  · rw [hreport, hwindow]
    rfl
  · rw [hwindow]
    exact hplaced

theorem atEnd_openedNext (startUs : UInt64) :
    Triple (fun w => Between w ∧ w.runner.stuck = none) (openedNext d startUs) AtEnd := by
  rw [openedNext]
  refine Triple.bind (M := fun window w => (match window with
    | none => Counted w
    | some window => ∃ s place, place < s.config.wifiChannels.length ∧ Tracked s place w ∧
        Placed s place window) ∧ Idle w ∧ w.runner.stuck = none) ?_ fun window => ?_
  · rintro w ⟨⟨⟨s, hs⟩, howned, hopen⟩, hstuck⟩
    refine ⟨?_, ⟨(steady_owned d).takeWindow startUs w howned, hopen⟩, hstuck⟩
    have htaken := tracked_takeWindow startUs w hs
    cases hwindow : (takeWindow startUs w).1 with
    | none =>
      rw [hwindow] at htaken
      exact htaken
    | some window =>
      rw [hwindow] at htaken
      obtain ⟨s', hconfig, htracked, hplaced⟩ := htaken
      exact ⟨s', s.nextChannel, hconfig ▸ s.inPlan, htracked, hplaced⟩
  · cases window with
    | none => exact fun w hw => Between.settled ⟨hw.1, hw.2.1⟩
    | some window =>
      rintro w ⟨⟨s, place, hplace, htracked, hplaced⟩, hidle, hstuck⟩
      exact atEnd_openedAt d startUs window hplace hplaced w ⟨htracked, hidle.1, hstuck⟩

theorem atEnd_opened :
    Triple (fun w => Between w ∧ w.runner.stuck = none) (opened d) AtEnd := by
  have hwait : ∀ {α : Type} {c : RadioM δ α}, Within Aside c → Within KeepsOwned c →
      Within World.Quiet c → Triple (fun w => Between w ∧ w.runner.stuck = none) c
        fun _ w => Between w ∧ w.runner.stuck = none := fun haside howned hquiet w hw =>
    ⟨between_waiting haside howned hquiet w hw.1, (congrArg Core.stuck (hquiet w).1).trans hw.2⟩
  have hwaiting := aside_waiting d
  rw [opened]
  refine Triple.bind (hwait hwaiting.nowUs (steady_owned d).nowUs (quiet d).nowUs) fun now => ?_
  refine Triple.bind (hwait hwaiting.read (steady_owned d).read (quiet d).read) fun r => ?_
  refine Triple.bind (hwait (hwaiting.waitUntil _) ((steady_owned d).waitUntil _)
    ((quiet d).waitUntil _)) fun request => ?_
  refine Triple.bind (hwait (hwaiting.gaveUp _ _) ((steady_owned d).gaveUp _ _)
    ((quiet d).gaveUp _ _)) fun early => Triple.ite (fun _ => ?_) fun _ => ?_
  · refine Triple.bind (M := fun _ => Between) ?_ fun _ w hw => hw.settled
    exact (between_applyPending d request).pre fun w hw => hw.1
  · exact Triple.ite (fun _ w hw => hw.1.settled) fun _ => atEnd_openedNext d _

theorem atEnd_scheduled : Triple Between (scheduled d) AtEnd := by
  rw [scheduled]
  refine Triple.bind (between_pollControls d _) fun _ => ?_
  refine Triple.bind (M := fun r w => Between w ∧ w.runner = r) (fun w hw => ⟨hw, rfl⟩) fun r => ?_
  cases hstuck : r.stuck with
  | some radio =>
    refine Triple.bind (M := fun _ w => Counted w ∧ w.runner.openWindow = none) ?_ fun _ w hw =>
      ⟨fun _ => hw.1, fun _ ho => absurd (ho.symm.trans hw.2) (Option.some_ne_none _)⟩
    rintro w ⟨hw, rfl⟩
    exact ⟨counted_retryStop d radio w ⟨hw.1, hstuck⟩, openWindow_retryStop d radio none w hw.2.2⟩
  | none =>
    refine Triple.ite (fun _ => ?_) fun _ => ?_
    · refine Triple.bind (M := fun _ => Between) ?_ fun _ w hw => hw.settled
      exact (between_idle d).pre fun w hw => hw.1
    · refine (atEnd_opened d).pre ?_
      rintro w ⟨hw, rfl⟩
      exact ⟨hw, hstuck⟩

/-- Before its first step the runner has called nothing. -/
def Unused (config : ObservationConfig) (w : World δ) : Prop :=
  w.runner = init config ∧ w.calls = []

theorem Settled.announced {w : World δ} (hw : Settled w) : w.runner.announced = true := by
  cases hopen : w.runner.openWindow with
  | none =>
    obtain ⟨s, hs⟩ := hw.1 hopen
    exact hs.announced
  | some o =>
    obtain ⟨-, s, place, -, hs, -⟩ := hw.2 o hopen
    exact hs.announced

theorem settled_announce {config : ObservationConfig} :
    Triple (fun w : World δ => Unused config w ∨ Settled w) announce fun _ => Settled := by
  rintro w (⟨hrunner, hcalls⟩ | hw)
  · obtain ⟨runner, driver, calls⟩ := w
    obtain rfl : runner = init config := hrunner
    obtain rfl : calls = [] := hcalls
    have hnormal := normalizeConfig_idem config
    have htake : (normalizeConfig config).wifiChannels.take kMaxPlanChannels =
        (normalizeConfig config).wifiChannels :=
      List.take_of_length_le (inRange_normalize config).length_le
    have hpass : Pass.of [.emit (.configApplied (toConfigApplied 1 (normalizeConfig config)))] =
        { enabled := config.wifiEnabled, plan := (normalizeConfig config).wifiChannels } := by
      simp only [Pass.of, List.foldl_cons, List.foldl_nil, Pass.note, toConfigApplied, hnormal,
        htake]
      split
      · rename_i hsame
        have hpos := normalizeConfig_channels_pos config
        rw [hsame.2] at hpos
        exact absurd hpos (lt_irrefl 0)
      · rfl
    have hbase : Base (ObservationScheduler.make config)
        (announce (World.mk (init config) driver [])).2 :=
      { scheduler := rfl
        announced := rfl
        enabled := congrArg Pass.enabled hpass
        plan := congrArg Pass.plan hpass
        normal := hnormal
        aimed := by
          intro h
          by_contra hoff
          simp [ObservationScheduler.make, ObservationScheduler.firstRadio] at h hoff
          simp [hoff] at h
        off := fun _ => rfl
        sound := ClearsOnFullPass.nil.concat rfl }
    refine ⟨fun _ => ⟨_, hbase, fun _ => rfl, fun hactive => ?_⟩, fun o ho => ?_⟩
    · cases hactive
    · cases ho
  · show Settled ((if w.runner.announced then Pure.pure () else _ : RadioM δ Unit) w).2
    rw [if_pos hw.announced]
    exact hw

theorem atEnd_reached {config : ObservationConfig} :
    Triple (fun w => (Unused config w ∨ Settled w) ∧ Upright w) (reached d) AtEnd := by
  have hannounce : Triple (fun w : World δ => (Unused config w ∨ Settled w) ∧ Upright w) announce
      fun _ w => Settled w ∧ Upright w := by
    rintro w ⟨hw, hupright⟩
    refine ⟨settled_announce w hw, (steady_owned d).announce w hupright.1, fun o ho => ?_⟩
    have hcore := ((quiet d).announce w).1
    have hsane := hupright.2 o ((congrArg Core.openWindow hcore).symm.trans ho)
    exact ⟨fun h => (congrArg Core.stuck hcore).trans (hsane.1 h), hsane.2⟩
  rw [reached]
  refine Triple.bind hannounce fun _ => ?_
  refine Triple.bind (M := fun r w => (Settled w ∧ Upright w) ∧ w.runner.openWindow = r.openWindow)
    (fun w hw => ⟨hw, rfl⟩) fun r => ?_
  cases hopen : r.openWindow with
  | some o =>
    exact (atEnd_held d o).pre fun w hw =>
      ⟨hw.1.1.2 o hw.2, hw.1.2.1, hw.1.2.2 o hw.2, hw.2⟩
  | none =>
    exact (atEnd_scheduled d).pre fun w hw => ⟨hw.1.1.1 hw.2, hw.1.2.1, hw.2⟩

/-- The window about to be ended leaves a gap in a trail that has begun: it ran without a
fault, but a change that keeps the pass cuts it short or it was never observed. -/
def leavesGap (o : OpenWindow) (pending : Option ControlRequest) (w : World δ) : Bool :=
  let rxEnd := nowUs d w
  let closed := (closeReceiver d o rxEnd.2).2.runner
  decide (o.window.radio = .kWifi) && o.started && closed.faultActive .kWifi &&
    decide (closed.cleanWindows .kWifi ≠ 0) &&
    match pending with
    | none => decide (observedMs o rxEnd.1 = 0)
    | some request =>
      decide (keepsPass closed.scheduler.config (merged closed.scheduler.config request))

/-- The step from here ends a window that leaves a gap. -/
def gapAhead (w : World δ) : Bool :=
  match (reached d w).1 with
  | none => false
  | some held => leavesGap d held.1 held.2 (reached d w).2

/-- No FaultCleared of WiFi stands last. -/
def LastPlain (w : World δ) : Prop :=
  ∀ before, w.calls ≠ before ++ [.emit (.faultCleared .kWifi)]

theorem lastPlain_of_append {w : World δ} {calls : List Event} {e : Event}
    (h : w.calls = calls ++ [e]) (he : e ≠ .emit (.faultCleared .kWifi)) : LastPlain w := by
  intro before hbefore
  have hlast := (List.append_inj' (h.symm.trans hbefore) rfl).2
  exact he (List.singleton_inj.mp hlast)

/-- The world after a report. -/
def reported (report : WindowReport) (w : World δ) : World δ :=
  (emit (.windowReport report) w).2

variable {s : ObservationScheduler} {place : ℕ}

/-- A report that counts for nothing, told after no clearing. -/
theorem base_reported {w : World δ} (hw : Base s w) {report : WindowReport}
    (hplain : LastPlain w) (hunclean : ¬ Pass.isClean report) :
    Base s (reported report w) ∧ Pass.of (reported report w).calls = Pass.of w.calls := by
  have hpass : Pass.of (w.calls ++ [.emit (.windowReport report)]) = Pass.of w.calls := by
    rw [Pass.of_append, Pass.note, if_neg hunclean]
  refine ⟨{ hw with
    enabled := (congrArg Pass.enabled hpass).trans hw.enabled
    plan := (congrArg Pass.plan hpass).trans hw.plan
    sound := hw.sound.report fun before hbefore => absurd hbefore (hplain before) }, hpass⟩

/-- A clean window adds its channel to the pass. -/
theorem base_reported_clean {w : World δ} (hw : Base s w) {report : WindowReport}
    (hclean : Pass.isClean report)
    (hfull : (∀ before, w.calls ≠ before ++ [.emit (.faultCleared .kWifi)]) ∨
      ∀ channel ∈ s.config.wifiChannels,
        channel ∈ report.window.channel :: (Pass.of w.calls).clean) :
    Base s (reported report w) ∧ (Pass.of (reported report w).calls).clean =
      report.window.channel :: (Pass.of w.calls).clean := by
  have hpass : Pass.of (w.calls ++ [.emit (.windowReport report)]) =
      { Pass.of w.calls with clean := report.window.channel :: (Pass.of w.calls).clean } := by
    rw [Pass.of_append, Pass.note, if_pos hclean]
  refine ⟨{ hw with
    enabled := (congrArg Pass.enabled hpass).trans hw.enabled
    plan := (congrArg Pass.plan hpass).trans hw.plan
    sound := hw.sound.report fun before hbefore => ?_ }, congrArg Pass.clean hpass⟩
  rw [hpass, Pass.Full, hw.plan]
  exact hfull.resolve_left fun h => h before hbefore

def KeepsPlain (w w' : World δ) : Prop :=
  LastPlain w → LastPlain w'

instance : Std.Refl (KeepsPlain (δ := δ)) where
  refl _ h := h

instance : IsTrans (World δ) KeepsPlain where
  trans _ _ _ h h' hw := h' (h hw)

theorem plain_countClean (faulted : Bool) (report : WindowReport) :
    Within KeepsPlain (countClean .kBle faulted report : RadioM δ Unit) := by
  have hupdate : ∀ f : RadioRunner → RadioRunner, Within KeepsPlain (update f : RadioM δ Unit) :=
    fun _ _ hw => hw
  have hclear : Within KeepsPlain (clearFault .kBle : RadioM δ Unit) := by
    rw [clearFault]
    refine Within.bind (hupdate _) fun _ => Within.bind (fun _ hw => hw) fun r =>
      Within.ite (Within.pure _) (Within.bind (hupdate _) fun _ w _ => ?_)
    exact lastPlain_of_append rfl (by simp)
  rw [countClean]
  refine Within.ite (hupdate _) (Within.ite ?_ (Within.pure _))
  refine Within.bind (hupdate _) fun _ => Within.bind (fun _ hw => hw) fun r => ?_
  exact Within.ite hclear (Within.pure _)

theorem aside_countClean (faulted : Bool) (report : WindowReport) :
    Within Aside (countClean .kBle faulted report : RadioM δ Unit) := by
  have hupdate : ∀ f : RadioRunner → UInt32, Within Aside
      (update fun r => { r with cleanWindows := Function.update r.cleanWindows .kBle (f r) } :
        RadioM δ Unit) := fun f => aside_update (fun _ => ⟨rfl, rfl, rfl, rfl⟩) fun _ => id
  rw [countClean]
  refine Within.ite (hupdate fun _ => 0) (Within.ite ?_ (Within.pure _))
  refine Within.bind (hupdate fun r => r.cleanWindows .kBle + 1) fun _ => ?_
  exact Within.bind (within_read inferInstance) fun r => Within.ite aside_clearFault (Within.pure _)

/-- The end of a BLE window is no matter of the count. -/
theorem primed_countBle {report : WindowReport} (hradio : report.window.radio = .kBle)
    (hplaced : s.nextChannel = place) (faulted : Bool) (pending : Option ControlRequest) :
    Triple (fun w => Tracked s place w ∧ LastPlain w) (countClean .kBle faulted report)
      fun _ w => Primed (δ := δ) pending (reported report w) := by
  rintro w ⟨hw, hplain⟩
  have htracked := (aside_countClean faulted report w).tracked hw
  have hunclean : ¬ Pass.isClean report := fun h => absurd (hradio.symm.trans h.1) nofun
  obtain ⟨hbase, hpass⟩ :=
    base_reported htracked.toBase (plain_countClean faulted report w hplain) hunclean
  refine ⟨s, hbase, htracked.stuck, .inl ?_⟩
  rw [OnTrail, hpass, hplaced]
  exact htracked.trail

/-- An unfaulted window that counts for nothing leaves no gap behind it. -/
def NoGap (o : OpenWindow) (pending : Option ControlRequest) (rxEndUs : UInt64) (w : World δ) :
    Prop :=
  w.runner.faultActive .kWifi = true → w.runner.cleanWindows .kWifi ≠ 0 →
    match pending with
    | none => observedMs o rxEndUs ≠ 0
    | some request =>
      ¬ keepsPass w.runner.scheduler.config (merged w.runner.scheduler.config request)

theorem Aside.noGap {w w' : World δ} (h : Aside w w') {o : OpenWindow}
    {pending : Option ControlRequest} {rxEndUs : UInt64} (hw : NoGap o pending rxEndUs w) :
    NoGap o pending rxEndUs w' := by
  intro hactive hcount
  rw [h.active] at hactive
  rw [h.count] at hcount
  rw [h.scheduler]
  exact hw hactive hcount

variable {o : OpenWindow} {pending : Option ControlRequest} {rxEndUs doneUs : UInt64}
  {dropped : UInt32}

/-- A window that ended with a fault empties the count. -/
theorem primed_countFaulted :
    Triple (fun w => Tracked s place w ∧ LastPlain w) (countClean .kWifi true
      (closing o rxEndUs doneUs true pending.isSome dropped))
      fun _ w => Primed (δ := δ) pending
        (reported (closing o rxEndUs doneUs true pending.isSome dropped) w) := by
  rintro w ⟨hw, hplain⟩
  have hbase : Base s (countClean .kWifi true
      (closing o rxEndUs doneUs true pending.isSome dropped) w).2 :=
    { hw.toBase with off := fun _ => rfl }
  have hunclean : ¬ Pass.isClean (closing o rxEndUs doneUs true pending.isSome dropped) :=
    fun h => nomatch h.2.1
  have hreported : Base s (reported (closing o rxEndUs doneUs true pending.isSome dropped)
      (countClean .kWifi true (closing o rxEndUs doneUs true pending.isSome dropped) w).2) :=
    (base_reported hbase hplain hunclean).1
  exact ⟨s, hreported, fun _ => rfl, .inl (OnTrail.of_zero rfl s.inPlan)⟩

/-- While the fault is active the count is short of the plan's length, so that counting one
more window cannot wrap round. -/
theorem Tracked.count {w : World δ} (hw : Tracked s place w)
    (hactive : w.runner.faultActive .kWifi = true) {channel : UInt8}
    (hchannel : s.config.wifiChannels[place]? = some channel)
    (hnext : s.nextChannel = (place + 1) % s.config.wifiChannels.length) :
    (w.runner.cleanWindows .kWifi + 1).toNat ≤ s.config.wifiChannels.length ∧
      Trail s.config.wifiChannels (channel :: (Pass.of w.calls).clean) s.nextChannel
        (w.runner.cleanWindows .kWifi + 1).toNat := by
  obtain ⟨hshort, htrail⟩ := hw.trail hactive
  have hrange := inRange_normalize s.config
  rw [hw.normal] at hrange
  have hlength : s.config.wifiChannels.length ≤ 14 := hrange.length_le
  have hsucc : (w.runner.cleanWindows .kWifi + 1).toNat =
      (w.runner.cleanWindows .kWifi).toNat + 1 := by
    rw [UInt32.toNat_add]
    exact Nat.mod_eq_of_lt (show _ + 1 < 4294967296 by omega)
  rw [hsucc, hnext]
  exact ⟨hshort, htrail.next hchannel⟩

/-- A window that ended without a fault is counted, or leaves no gap. -/
theorem primed_countWifi (hradio : o.report.window.radio = .kWifi)
    (henabled : s.config.wifiEnabled = true)
    (hchannel : s.config.wifiChannels[place]? = some o.report.window.channel)
    (hnext : s.nextChannel = (place + 1) % s.config.wifiChannels.length) :
    Triple (fun w => Tracked s place w ∧ LastPlain w ∧ w.runner.stuck ≠ some .kWifi ∧
        NoGap o pending rxEndUs w)
      (countClean .kWifi false (closing o rxEndUs doneUs false pending.isSome dropped))
      fun _ w => Primed (δ := δ) pending
        (reported (closing o rxEndUs doneUs false pending.isSome dropped) w) := by
  set report := closing o rxEndUs doneUs false pending.isSome dropped with hreport
  rintro w ⟨hw, hplain, hfree, hgap⟩
  rw [countClean, if_neg Bool.false_ne_true]
  by_cases hcounts : report.ended = .kCompleted ∧ report.observedMs > 0
  · rw [if_pos hcounts]
    have hclean : Pass.isClean report := ⟨hradio, hcounts⟩
    let counted : World δ := (update fun r =>
      { r with cleanWindows := Function.update r.cleanWindows .kWifi (r.cleanWindows .kWifi + 1) } :
      RadioM δ Unit) w |>.2
    have hbase : Base s counted :=
      { hw.toBase with off := fun hoff => absurd (hoff.symm.trans henabled) Bool.false_ne_true }
    change Primed pending (reported report ((if counted.runner.faultActive .kWifi = true ∧
      cleanNeeded counted.runner .kWifi ≤ (counted.runner.cleanWindows .kWifi).toNat
      then clearFault .kWifi else Pure.pure () : RadioM δ Unit) counted).2)
    have hneeded : cleanNeeded counted.runner .kWifi = s.config.wifiChannels.length :=
      congrArg (fun s => s.config.wifiChannels.length) hw.scheduler
    rw [hneeded]
    split
    · rename_i hclears
      obtain ⟨hle, htrail⟩ := hw.count hclears.1 hchannel hnext
      rw [le_antisymm hle hclears.2] at htrail
      obtain ⟨hcleared, hzero, hinactive, hpass⟩ := base_clearFault _ counted ⟨hbase, rfl⟩
      have hcovered : ∀ channel ∈ s.config.wifiChannels, channel ∈
          report.window.channel :: (Pass.of (clearFault .kWifi counted).2.calls).clean := by
        rw [hpass]
        exact fun channel => htrail.full
      obtain ⟨hbase', -⟩ := base_reported_clean hcleared hclean (.inr hcovered)
      exact ⟨s, hbase', fun _ => hzero, .inl fun h =>
        absurd (hinactive.symm.trans h) Bool.false_ne_true⟩
    · rename_i hkeeps
      obtain ⟨hbase', hpass⟩ := base_reported_clean hbase hclean (.inl hplain)
      refine ⟨s, hbase', fun hs => absurd hs hfree, .inl fun hactive => ?_⟩
      obtain ⟨-, htrail⟩ := hw.count hactive hchannel hnext
      have hshort := Nat.lt_of_not_le fun hle => hkeeps ⟨hactive, hle⟩
      refine ⟨hshort, ?_⟩
      change Trail _ (Pass.of (reported report counted).calls).clean _ _
      rw [hpass]
      exact htrail
  · rw [if_neg hcounts]
    have hunclean : ¬ Pass.isClean report := fun h => hcounts h.2
    obtain ⟨hbase, hpass⟩ := base_reported hw.toBase hplain hunclean
    refine ⟨s, hbase, hw.stuck, ?_⟩
    by_cases hactive : w.runner.faultActive .kWifi = true
    · by_cases hzero : w.runner.cleanWindows .kWifi = 0
      · exact .inl (OnTrail.of_zero hzero s.inPlan)
      · have hkept := hgap hactive hzero
        cases pending with
        | none =>
          refine absurd ⟨rfl, ?_⟩ hcounts
          exact UInt32.pos_iff_ne_zero.mpr hkept
        | some request =>
          obtain rfl := hw.scheduler
          exact .inr ⟨request, rfl, hkept⟩
    · exact .inl fun h => absurd h hactive

theorem closeReceiver_unstarted (hstarted : o.started = false) (w : World δ) :
    (closeReceiver d o w).1 = o.faulted := by
  rw [closeReceiver, if_neg (by simp [hstarted])]
  rfl

/-- All of the end of a window after its receiver was stopped. -/
theorem counted_rest (hreport : o.report.window = o.window) (hplaced : Placed s place o.window)
    (faulted : Bool) :
    Triple (fun w => Tracked s place w ∧
        (o.window.radio = .kWifi → faulted = false →
          w.runner.stuck ≠ some .kWifi ∧ NoGap o pending rxEndUs w))
      (do
        let dropped ← chargeDrops d o.report.windowId
        let doneUs ← nowUs d
        countClean o.window.radio faulted
          (closing o rxEndUs doneUs faulted pending.isSome dropped)
        emit (.windowReport (closing o rxEndUs doneUs faulted pending.isSome dropped))
        update fun r =>
          { r with
            nextStartUs := if r.stuck.isSome then none else some (max o.deadlineUs doneUs) }
        applyPending pending) fun _ => Counted := by
  have hcharge : Within Aside (chargeDrops d o.report.windowId) := by
    rw [chargeDrops]
    refine Within.bind (within_takeBoth inferInstance inferInstance
      (aside_call (fun _ _ => rfl) fun _ => rfl) (aside_call (fun _ _ => rfl) fun _ => rfl))
      fun _ => ?_
    refine Within.bind (within_read inferInstance) fun r => ?_
    exact Within.bind (aside_update (fun _ => ⟨rfl, rfl, rfl, rfl⟩) fun _ => id) fun _ =>
      Within.pure _
  have haside : ∀ {α : Type} {c : RadioM δ α}, Within Aside c → Triple
      (fun w => Tracked s place w ∧ (o.window.radio = .kWifi → faulted = false →
        w.runner.stuck ≠ some .kWifi ∧ NoGap o pending rxEndUs w)) c
      fun _ w => Tracked s place w ∧ (o.window.radio = .kWifi → faulted = false →
        w.runner.stuck ≠ some .kWifi ∧ NoGap o pending rxEndUs w) := by
    rintro α c h w ⟨hw, hwifi⟩
    have hc := h w
    refine ⟨hc.tracked hw, fun hradio hsound => ?_⟩
    obtain ⟨hfree, hgap⟩ := hwifi hradio hsound
    exact ⟨fun hs => hfree (hc.stuck hs), hc.noGap hgap⟩
  refine Triple.bind (haside hcharge) fun dropped => ?_
  refine Triple.bind (M := fun _ w => (Tracked s place w ∧ (o.window.radio = .kWifi →
    faulted = false → w.runner.stuck ≠ some .kWifi ∧ NoGap o pending rxEndUs w)) ∧ LastPlain w)
    ?_ fun doneUs => ?_
  · exact fun w hw => ⟨haside (aside_waiting d).nowUs w hw, lastPlain_of_append rfl (by simp)⟩
  refine Triple.bind (M := fun _ w => Primed pending
    (reported (closing o rxEndUs doneUs faulted pending.isSome dropped) w)) ?_ fun _ => ?_
  · have hwindow : (closing o rxEndUs doneUs faulted pending.isSome dropped).window = o.window :=
      hreport
    rintro w ⟨⟨hw, hwifi⟩, hplain⟩
    cases hradio : o.window.radio with
    | kBle =>
      rw [Placed, hradio] at hplaced
      exact primed_countBle (hwindow ▸ hradio) hplaced faulted pending w ⟨hw, hplain⟩
    | kWifi =>
      rw [Placed, hradio] at hplaced
      obtain ⟨henabled, hchannel, hnext⟩ := hplaced
      cases faulted with
      | true => exact primed_countFaulted w ⟨hw, hplain⟩
      | false =>
        rw [← hreport] at hradio hchannel
        obtain ⟨hfree, hgap⟩ := hwifi (hreport ▸ hradio) rfl
        exact primed_countWifi hradio henabled hchannel hnext w ⟨hw, hplain, hfree, hgap⟩
  refine Triple.bind (M := fun _ => Primed pending) (fun w hw => hw) fun _ => ?_
  refine Triple.bind (M := fun _ => Primed pending) ?_ fun _ => counted_applyPending pending
  rintro w ⟨s, hbase, hrest⟩
  exact ⟨s, { hbase with }, hrest⟩

theorem noGap_of_leavesGap {w : World δ} (hradio : o.window.radio = .kWifi)
    (hstarted : o.started = true) (h : leavesGap d o pending w = false) :
    NoGap o pending (nowUs d w).1 (closeReceiver d o (nowUs d w).2).2 := by
  intro hactive hcount
  simp only [leavesGap, hradio, hstarted, decide_true, Bool.true_and] at h
  rw [hactive, Bool.true_and, decide_eq_true hcount, Bool.true_and] at h
  cases pending with
  | none => exact of_decide_eq_false h
  | some request => exact of_decide_eq_false h

theorem counted_finishWindow (o : OpenWindow) (pending : Option ControlRequest) :
    Triple (fun w => (Holding o w ∧ Owned w ∧ Sane o w) ∧ leavesGap d o pending w = false)
      (finishWindow d o pending) fun _ => Counted := by
  rintro w ⟨⟨⟨hreport, s, place, hplace, hw, hplaced⟩, howned, hsane⟩, hgap⟩
  have hw₁ : Tracked s place (nowUs d w).2 := ((aside_waiting d).nowUs w).tracked hw
  have hw₂ := tracked_closeReceiver d hplace o _ hw₁
  have hfree := (owned_closeReceiver d o _ ⟨(steady_owned d).nowUs w howned, hsane⟩).2
  have hwifi : o.window.radio = .kWifi → (closeReceiver d o (nowUs d w).2).1 = false →
      (closeReceiver d o (nowUs d w).2).2.runner.stuck ≠ some .kWifi ∧
        NoGap o pending (nowUs d w).1 (closeReceiver d o (nowUs d w).2).2 := by
    intro hradio hsound
    have hstarted : o.started = true := by
      by_contra hunstarted
      have hunstarted : o.started = false := by simpa using hunstarted
      rw [closeReceiver_unstarted d hunstarted, hsane.2 hunstarted] at hsound
      cases hsound
    refine ⟨?_, noGap_of_leavesGap d hradio hstarted hgap⟩
    rw [hfree hsound]
    exact nofun
  exact counted_rest d hreport hplaced _ _ ⟨hw₂, hwifi⟩

theorem settled_step {config : ObservationConfig} :
    Triple (fun w => ((Unused config w ∨ Settled w) ∧ Upright w) ∧ gapAhead d w = false) (step d)
      fun _ => Settled := by
  rintro w ⟨hw, hgap⟩
  have hreached := atEnd_reached d w hw
  rw [step_eq]
  show Settled (ended d (reached d w).1 (reached d w).2).2
  rw [gapAhead] at hgap
  cases hover : (reached d w).1 with
  | none =>
    rw [hover] at hreached
    exact hreached
  | some held =>
    rw [hover] at hreached hgap
    have hcounted := counted_finishWindow d held.1 held.2 _ ⟨hreached, hgap⟩
    have haside : Within Aside (update fun r => { r with openWindow := none } : RadioM δ Unit) :=
      aside_update (fun _ => ⟨rfl, rfl, rfl, rfl⟩) fun _ => id
    exact ⟨fun _ => aside_counted haside _ hcounted, fun o ho => nomatch ho⟩

theorem settled_run (config : ObservationConfig) (driver : δ) (steps : ℕ)
    (h : ∀ n < steps, gapAhead d (run d config driver n) = false) :
    Unused config (run d config driver steps) ∨ Settled (run d config driver steps) := by
  induction steps with
  | zero => exact .inl ⟨rfl, rfl⟩
  | succ steps ih =>
    have hbefore := ih fun n hn => h n (hn.trans (Nat.lt_succ_self steps))
    have hgap := h steps (Nat.lt_succ_self steps)
    exact .inr (settled_step d _ ⟨⟨hbefore, upright_run d config driver steps⟩, hgap⟩)

theorem sound_run (config : ObservationConfig) (driver : δ) (steps : ℕ)
    (h : ∀ n < steps, gapAhead d (run d config driver n) = false) :
    ClearsOnFullPass (run d config driver steps).calls := by
  rcases settled_run d config driver steps h with hunused | hsettled
  · rw [hunused.2]
    exact ClearsOnFullPass.nil
  · cases hopen : (run d config driver steps).runner.openWindow with
    | none =>
      obtain ⟨s, hs⟩ := hsettled.1 hopen
      exact hs.sound
    | some o =>
      obtain ⟨-, s, place, -, hs, -⟩ := hsettled.2 o hopen
      exact hs.sound

end Count

/-- In a run whose steps leave no gap the WiFi fault clears only after a clean pass. -/
theorem run_clears_on_full_pass {δ : Type} (d : RadioDriver δ) (config : ObservationConfig)
    (driver : δ) (steps : ℕ) (h : ∀ n < steps, gapAhead d (run d config driver n) = false) :
    ClearsOnFullPass (run d config driver steps).calls :=
  sound_run d config driver steps h

structure Bench where
  us : UInt64 := 0
  starts : ℕ := 0
  asked : Bool := false
  control : Option ControlRequest := none

/-- WiFi's first start fails; in its third window a change of the dwell time may arrive. -/
def benchDriver (cut : Bool) : RadioDriver Bench where
  nowUs s := (s.us, s)
  beginWindow _ _ _ _ := pure ()
  endWindow := pure ()
  startWifi _ s :=
    (if s.starts = 0 then ⟨false, .kStart, 1⟩ else {}, { s with starts := s.starts + 1 })
  stopWifi := pure {}
  startBle := pure {}
  stopBle := pure {}
  waitUntilUs deadlineUs s :=
    if cut && s.starts == 3 && !s.asked then
      (.kControl,
        { s with us := s.us + 5000, asked := true, control := some { wifiDwellMs := some 300 } })
    else (.kDeadline, { s with us := deadlineUs })
  yield := pure ()
  drainEvents := pure ()
  takeDrops _ := pure 0
  takeUnattributed := pure 0
  dropsFirst _ := false
  poll s := (s.control, { s with control := none })

def threeChannels : ObservationConfig where
  bleEnabled := false
  wifiChannels := [1, 2, 3]

theorem run_clears_on_full_pass_uncut :
    ClearsOnFullPass (run (benchDriver false) threeChannels {} 5).calls ∧
      .emit (.faultCleared .kWifi) ∈ (run (benchDriver false) threeChannels {} 5).calls :=
  ⟨run_clears_on_full_pass (benchDriver false) threeChannels {} 5 (by decide +kernel),
    by decide +kernel⟩

/-- Channel 3 is cut short; channel 1 is counted in its place, and channel 2 twice. -/
theorem run_clears_on_full_pass_cut :
    ¬ ClearsOnFullPass (run (benchDriver true) threeChannels {} 5).calls := by
  intro h
  have hfull := h ((run (benchDriver true) threeChannels {} 5).calls.take 96)
    { window := ⟨.kWifi, 2, 715, 300⟩, observedMs := 300, windowId := 5, configGeneration := 2,
      completedMs := 1015 } [] (by decide +kernel)
  revert hfull
  decide +kernel

end CydMonitor.Observation
