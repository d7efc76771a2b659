import CydMonitor.Lib.CyclicWalk
import CydMonitor.Observation.Controls

/-!
# The pass that clears a WiFi fault

What the messages and calls say of the channels that had a clean window, and the count the
runner keeps in its place: the length of a trail along the plan, as long as no window goes by
uncounted.
-/

namespace CydMonitor.Observation

open RadioRunner Prog CyclicWalk

/-- The plan in force, and the channels that had a clean window since the last WiFi fault and
the last change of the plan or of WiFi's enable flag. -/
structure Pass where
  enabled : Bool := false
  plan : List UInt8 := []
  clean : List UInt8 := []

namespace Pass

def restart (p : Pass) : Pass := { p with clean := [] }

def isClean (report : WindowReport) : Prop :=
  report.window.radio = .kWifi ∧ report.ended = .kCompleted ∧ 0 < report.observedMs

instance (report : WindowReport) : Decidable (isClean report) :=
  inferInstanceAs (Decidable (_ ∧ _ ∧ _))

def note (p : Pass) : Event → Pass
  | .start .kWifi _ result => if result.ok then p else p.restart
  | .stop .kWifi result => if result.ok then p else p.restart
  | .emit (.fault fault) => if fault.radio = .kWifi then p.restart else p
  | .emit (.configApplied config) =>
    if config.wifiEnabled = p.enabled ∧ config.channels = p.plan then p
    else { enabled := config.wifiEnabled, plan := config.channels }
  | .emit (.windowReport report) =>
    if isClean report then { p with clean := report.window.channel :: p.clean } else p
  | _ => p

def of (calls : List Event) : Pass :=
  calls.foldl note {}

@[simp] theorem of_append (calls : List Event) (e : Event) :
    of (calls ++ [e]) = (of calls).note e :=
  List.foldl_concat ..

def Full (p : Pass) : Prop := ∀ channel ∈ p.plan, channel ∈ p.clean

instance (p : Pass) : Decidable p.Full :=
  List.decidableBAll (· ∈ p.clean) p.plan

end Pass

/-- Whenever the end of a window clears the WiFi fault, which is told just before the
window's report, the pass is full with that window. -/
def ClearsOnFullPass (calls : List Event) : Prop :=
  ∀ before report rest,
    calls = before ++ .emit (.faultCleared .kWifi) :: .emit (.windowReport report) :: rest →
    (Pass.of (before ++ [.emit (.faultCleared .kWifi), .emit (.windowReport report)])).Full

def isReport : Event → Bool
  | .emit (.windowReport _) => true
  | _ => false

theorem ClearsOnFullPass.nil : ClearsOnFullPass [] :=
  fun _ _ _ h => absurd h (by simp)

theorem ClearsOnFullPass.concat {calls : List Event} (h : ClearsOnFullPass calls) {e : Event}
    (he : isReport e = false) : ClearsOnFullPass (calls ++ [e]) := by
  intro before report rest hsplit
  rcases List.eq_nil_or_concat rest with rfl | ⟨rest, last, rfl⟩
  · have hlast := congrArg List.getLast? hsplit
    simp only [List.getLast?_append, List.getLast?_cons, List.getLast?_nil] at hlast
    obtain rfl : e = .emit (.windowReport report) := by simpa using hlast
    cases he
  · rw [List.concat_eq_append, ← List.cons_append, ← List.cons_append, ← List.append_assoc]
      at hsplit
    exact h before report rest (List.append_inj_left' hsplit rfl)

theorem ClearsOnFullPass.report {calls : List Event} (h : ClearsOnFullPass calls)
    {report : WindowReport}
    (hfull : ∀ before, calls = before ++ [.emit (.faultCleared .kWifi)] →
      (Pass.of (calls ++ [.emit (.windowReport report)])).Full) :
    ClearsOnFullPass (calls ++ [.emit (.windowReport report)]) := by
  intro before report' rest hsplit
  rcases List.eq_nil_or_concat rest with rfl | ⟨rest, last, rfl⟩
  · have hsplit' : calls ++ [.emit (.windowReport report)] =
        (before ++ [.emit (.faultCleared .kWifi)]) ++ [.emit (.windowReport report')] := by
      simpa using hsplit
    obtain ⟨hcalls, hreport⟩ := List.append_inj' hsplit' rfl
    have := hfull before hcalls
    rwa [hsplit] at this
  · rw [List.concat_eq_append, ← List.cons_append, ← List.cons_append, ← List.append_assoc]
      at hsplit
    exact h before report' rest (List.append_inj_left' hsplit rfl)

section Count

variable {δ α : Type}

/-- What holds between any two crossings, wherever the count stands. -/
structure Base (s : ObservationScheduler) (w : World δ) : Prop where
  scheduler : w.runner.scheduler = s
  announced : w.runner.announced = true
  enabled : (Pass.of w.calls).enabled = s.config.wifiEnabled
  plan : (Pass.of w.calls).plan = s.config.wifiChannels
  normal : normalizeConfig s.config = s.config
  aimed : s.nextRadio = .kWifi → s.config.wifiEnabled = true
  off : s.config.wifiEnabled = false → w.runner.cleanWindows .kWifi = 0
  sound : ClearsOnFullPass w.calls

/-- While a WiFi fault is active the count is short of a round, and is the trail's length. -/
def OnTrail (s : ObservationScheduler) (place : ℕ) (w : World δ) : Prop :=
  w.runner.faultActive .kWifi = true →
    (w.runner.cleanWindows .kWifi).toNat < s.config.wifiChannels.length ∧
    Trail s.config.wifiChannels (Pass.of w.calls).clean place
      (w.runner.cleanWindows .kWifi).toNat

theorem OnTrail.of_zero {s : ObservationScheduler} {w : World δ} {place : ℕ}
    (hzero : w.runner.cleanWindows .kWifi = 0) (hplace : place < s.config.wifiChannels.length) :
    OnTrail s place w := by
  intro _
  rw [hzero]
  exact ⟨Nat.zero_lt_of_lt hplace, Trail.zero hplace⟩

structure Tracked (s : ObservationScheduler) (place : ℕ) (w : World δ) : Prop
    extends Base s w where
  stuck : w.runner.stuck = some .kWifi → w.runner.cleanWindows .kWifi = 0
  trail : OnTrail s place w

/-- Nothing about the count or its pass changes. -/
structure Aside (w w' : World δ) : Prop where
  announced : w'.runner.announced = w.runner.announced
  scheduler : w'.runner.scheduler = w.runner.scheduler
  active : w'.runner.faultActive .kWifi = w.runner.faultActive .kWifi
  count : w'.runner.cleanWindows .kWifi = w.runner.cleanWindows .kWifi
  stuck : w'.runner.stuck = some .kWifi → w.runner.stuck = some .kWifi
  pass : Pass.of w'.calls = Pass.of w.calls
  sound : ClearsOnFullPass w.calls → ClearsOnFullPass w'.calls

instance : Std.Refl (Aside (δ := δ)) where
  refl _ := ⟨rfl, rfl, rfl, rfl, id, rfl, id⟩

instance : IsTrans (World δ) Aside where
  trans _ _ _ h h' :=
    ⟨h'.announced.trans h.announced, h'.scheduler.trans h.scheduler, h'.active.trans h.active,
      h'.count.trans h.count, fun hs => h.stuck (h'.stuck hs), h'.pass.trans h.pass,
      fun hs => h'.sound (h.sound hs)⟩

theorem Aside.base {w w' : World δ} {s : ObservationScheduler} (h : Aside w w')
    (hw : Base s w) : Base s w' where
  scheduler := h.scheduler.trans hw.scheduler
  announced := h.announced.trans hw.announced
  enabled := (congrArg Pass.enabled h.pass).trans hw.enabled
  plan := (congrArg Pass.plan h.pass).trans hw.plan
  normal := hw.normal
  aimed := hw.aimed
  off hoff := h.count.trans (hw.off hoff)
  sound := h.sound hw.sound

theorem Aside.tracked {w w' : World δ} {s : ObservationScheduler} {place : ℕ} (h : Aside w w')
    (hw : Tracked s place w) : Tracked s place w' := by
  refine ⟨h.base hw.toBase, fun hs => h.count.trans (hw.stuck (h.stuck hs)), ?_⟩
  rw [OnTrail, h.active, h.count, h.pass]
  exact hw.trail

theorem aside_call {f : StateM δ α} {note : α → Event}
    (hnote : ∀ a p, Pass.note p (note a) = p) (hplain : ∀ a, isReport (note a) = false) :
    Within Aside (call f note) :=
  fun _ => ⟨rfl, rfl, rfl, rfl, id, (Pass.of_append ..).trans (hnote _ _),
    fun h => h.concat (hplain _)⟩

theorem aside_emit {message : RadioMessage} (hnote : ∀ p, Pass.note p (.emit message) = p)
    (hplain : isReport (.emit message) = false) : Within Aside (emit message : RadioM δ Unit) :=
  fun _ => ⟨rfl, rfl, rfl, rfl, id, (Pass.of_append ..).trans (hnote _), fun h => h.concat hplain⟩

theorem aside_waiting (d : RadioDriver δ) : Waiting d Aside where
  refl := inferInstance
  trans := inferInstance
  nowUs := aside_call (fun _ _ => rfl) fun _ => rfl
  poll := aside_call (fun _ _ => rfl) fun _ => rfl
  waitUntilUs _ := aside_call (fun _ _ => rfl) fun _ => rfl
  yield := aside_call (fun _ _ => rfl) fun _ => rfl

theorem aside_update {f : RadioRunner → RadioRunner}
    (h : ∀ r, (f r).scheduler = r.scheduler ∧ (f r).announced = r.announced ∧
      (f r).faultActive .kWifi = r.faultActive .kWifi ∧
      (f r).cleanWindows .kWifi = r.cleanWindows .kWifi)
    (hstuck : ∀ r, (f r).stuck = some .kWifi → r.stuck = some .kWifi) :
    Within Aside (update f : RadioM δ Unit) := by
  intro w
  obtain ⟨hscheduler, hannounced, hactive, hcount⟩ := h w.runner
  exact ⟨hannounced, hscheduler, hactive, hcount, hstuck w.runner, rfl, id⟩

theorem aside_noteFault (result : DriverResult) :
    Within Aside (noteFault .kBle result : RadioM δ Unit) := by
  rw [noteFault]
  refine Within.bind (aside_update (fun _ => ⟨rfl, rfl, rfl, rfl⟩) fun _ => id) fun _ => ?_
  refine Within.bind (within_read inferInstance) fun r => Within.ite (Within.pure _) ?_
  refine Within.bind (aside_update (fun _ => ⟨rfl, rfl, rfl, rfl⟩) fun _ => id) fun _ => ?_
  exact aside_emit (fun _ => rfl) rfl

theorem aside_clearFault : Within Aside (clearFault .kBle : RadioM δ Unit) := by
  rw [clearFault]
  refine Within.bind (aside_update (fun _ => ⟨rfl, rfl, rfl, rfl⟩) fun _ => id) fun _ => ?_
  refine Within.bind (within_read inferInstance) fun r => Within.ite (Within.pure _) ?_
  refine Within.bind (aside_update (fun _ => ⟨rfl, rfl, rfl, rfl⟩) fun _ => id) fun _ => ?_
  exact aside_emit (fun _ => rfl) rfl

variable {s : ObservationScheduler} {place : ℕ}

theorem aside_triple {c : RadioM δ α} (h : Within Aside c) :
    Triple (Tracked s place) c fun _ => Tracked s place :=
  h.triple fun _ _ => Aside.tracked

/-- Where a WiFi call failed the trail is lost until the fault is noted. -/
def Shaken (s : ObservationScheduler) (place : ℕ) (radio : Radio) (w : World δ) : Prop :=
  Base s w ∧ (radio = .kBle → Tracked s place w)

theorem tracked_noteFault (hplace : place < s.config.wifiChannels.length) (radio : Radio)
    (result : DriverResult) :
    Triple (Shaken (δ := δ) s place radio) (noteFault radio result) fun _ => Tracked s place := by
  cases radio with
  | kBle => exact (aside_triple (aside_noteFault result)).pre fun w hw => hw.2 rfl
  | kWifi =>
    have hzero : ∀ {w : World δ}, Base s w → w.runner.cleanWindows .kWifi = 0 →
        Tracked s place w := fun hw hzero => ⟨hw, fun _ => hzero, OnTrail.of_zero hzero hplace⟩
    rw [noteFault]
    refine Triple.bind (M := fun _ w => Base s w ∧ w.runner.cleanWindows .kWifi = 0)
      (fun w hw => ⟨{ hw.1 with off := fun _ => rfl }, rfl⟩) fun _ => ?_
    refine Triple.bind (M := fun _ w => Base s w ∧ w.runner.cleanWindows .kWifi = 0)
      (fun w hw => hw) fun r => Triple.ite (fun _ w hw => hzero hw.1 hw.2) fun _ => ?_
    rintro w ⟨hw, hcount⟩
    have hpass : Pass.of (w.calls ++ [.emit (.fault ⟨.kWifi, result.op, result.code⟩)]) =
        (Pass.of w.calls).restart := Pass.of_append ..
    refine hzero { hw with enabled := ?_, plan := ?_, sound := hw.sound.concat rfl } hcount
    · exact (congrArg Pass.enabled hpass).trans hw.enabled
    · exact (congrArg Pass.plan hpass).trans hw.plan

/-- Clearing the WiFi fault empties the count and leaves the pass. -/
theorem base_clearFault (p : Pass) :
    Triple (fun w : World δ => Base s w ∧ Pass.of w.calls = p) (clearFault .kWifi) fun _ w =>
      Base s w ∧ w.runner.cleanWindows .kWifi = 0 ∧ w.runner.faultActive .kWifi = false ∧
        Pass.of w.calls = p := by
  rw [clearFault]
  refine Triple.bind (M := fun _ w => Base s w ∧ w.runner.cleanWindows .kWifi = 0 ∧
    Pass.of w.calls = p) (fun w hw => ⟨{ hw.1 with off := fun _ => rfl }, rfl, hw.2⟩) fun _ => ?_
  refine Triple.bind (M := fun r w => (Base s w ∧ w.runner.cleanWindows .kWifi = 0 ∧
    Pass.of w.calls = p) ∧ w.runner = r) (fun w hw => ⟨hw, rfl⟩) fun r =>
    Triple.ite (fun hinactive => ?_) fun _ => ?_
  · rintro w ⟨⟨hw, hcount, hpass⟩, rfl⟩
    have hinactive : w.runner.faultActive .kWifi = false := by simpa using hinactive
    exact ⟨hw, hcount, hinactive, hpass⟩
  · rintro w ⟨⟨hw, hcount, hpass⟩, -⟩
    have hsame : Pass.of (w.calls ++ [.emit (.faultCleared .kWifi)]) = Pass.of w.calls :=
      Pass.of_append ..
    refine ⟨{ hw with enabled := ?_, plan := ?_, sound := hw.sound.concat rfl }, hcount, rfl,
      hsame.trans hpass⟩
    · exact (congrArg Pass.enabled hsame).trans hw.enabled
    · exact (congrArg Pass.plan hsame).trans hw.plan

theorem tracked_clearFault (radio : Radio) :
    Triple (Tracked (δ := δ) s place) (clearFault radio) fun _ => Tracked s place := by
  cases radio with
  | kBle => exact aside_triple aside_clearFault
  | kWifi =>
    intro w hw
    obtain ⟨hbase, hcount, hinactive, -⟩ := base_clearFault _ w ⟨hw.toBase, rfl⟩
    exact ⟨hbase, fun _ => hcount, fun h => absurd (hinactive.symm.trans h) nofun⟩

variable (d : RadioDriver δ)

theorem tracked_noteStopFailure (hplace : place < s.config.wifiChannels.length) (radio : Radio)
    (result : DriverResult) :
    Triple (Shaken (δ := δ) s place radio) (noteStopFailure d radio result)
      fun _ => Tracked s place := by
  have haside : ∀ {α : Type} {c : RadioM δ α}, Within Aside c →
      Triple (Shaken s place radio) c fun _ => Shaken s place radio :=
    fun h => h.triple fun _ _ hw hshaken => ⟨hw.base hshaken.1, fun hr => hw.tracked (hshaken.2 hr)⟩
  rw [noteStopFailure]
  refine Triple.bind (M := fun _ => Shaken s place radio) ?_ fun _ => ?_
  · rintro w ⟨hbase, hble⟩
    refine ⟨{ hbase with }, fun hr => ?_⟩
    subst hr
    exact { hble rfl with stuck := nofun }
  refine Triple.bind (haside (aside_waiting d).nowUs) fun now => ?_
  refine Triple.bind (M := fun _ => Shaken s place radio) ?_ fun _ =>
    tracked_noteFault hplace radio result
  exact haside (aside_update (fun _ => ⟨rfl, rfl, rfl, rfl⟩) fun _ => id)

/-- A WiFi call restarts the pass if it failed. -/
theorem base_of_call {w w' : World δ} {e : Event} {ok : Bool} (hw : Base s w)
    (hrunner : w'.runner = w.runner) (hcalls : w'.calls = w.calls ++ [e])
    (hnote : ∀ p, Pass.note p e = if ok then p else p.restart) (hplain : isReport e = false) :
    Base s w' ∧ (ok = true → Pass.of w'.calls = Pass.of w.calls) := by
  have hpass : Pass.of w'.calls = if ok then Pass.of w.calls else (Pass.of w.calls).restart := by
    rw [hcalls, Pass.of_append, hnote]
  refine ⟨⟨?_, ?_, ?_, ?_, hw.normal, hw.aimed, ?_, ?_⟩, fun hok => by rw [hpass, if_pos hok]⟩
  · rw [hrunner]
    exact hw.scheduler
  · rw [hrunner]
    exact hw.announced
  · rw [hpass, ← hw.enabled]
    cases ok <;> rfl
  · rw [hpass, ← hw.plan]
    cases ok <;> rfl
  · rw [hrunner]
    exact hw.off
  · rw [hcalls]
    exact hw.sound.concat hplain

theorem shaken_of_call {w w' : World δ} {e : Event} {ok : Bool} (hw : Tracked s place w)
    (hrunner : w'.runner = w.runner) (hcalls : w'.calls = w.calls ++ [e])
    (hnote : ∀ p, Pass.note p e = if ok then p else p.restart) (hplain : isReport e = false) :
    Shaken s place .kWifi w' ∧ (ok = true → Tracked s place w') := by
  obtain ⟨hbase, hpass⟩ := base_of_call hw.toBase hrunner hcalls hnote hplain
  refine ⟨⟨hbase, nofun⟩, fun hok => ⟨hbase, ?_, ?_⟩⟩
  · rw [hrunner]
    exact hw.stuck
  · rw [OnTrail, hrunner, hpass hok]
    exact hw.trail

theorem shaken_issueStop (radio : Radio) :
    Triple (Tracked s place) (issueStop d radio) fun result w =>
      Shaken s place radio w ∧ (result.ok = true → Tracked s place w) := by
  cases radio with
  | kWifi =>
    exact fun w hw =>
      shaken_of_call (e := .stop .kWifi (d.stopWifi w.driver).1) hw rfl rfl (fun _ => rfl) rfl
  | kBle =>
    have haside : Within Aside (issueStop d .kBle) := aside_call (fun _ _ => rfl) fun _ => rfl
    intro w hw
    have htracked := aside_triple haside w hw
    exact ⟨⟨htracked.toBase, fun _ => htracked⟩, fun _ => htracked⟩

theorem aside_running (radio : Radio) (f : RadioRunner → Bool) :
    Within Aside (update fun r => { r with running := Function.update r.running radio (f r) } :
      RadioM δ Unit) :=
  aside_update (fun _ => ⟨rfl, rfl, rfl, rfl⟩) fun _ => id

theorem shaken_stopReceiver (radio : Radio) :
    Triple (Tracked s place) (stopReceiver d radio) fun result w =>
      Shaken s place radio w ∧ (result.ok = true → Tracked s place w) := by
  rw [stopReceiver]
  refine Triple.bind (shaken_issueStop d radio) fun result => ?_
  refine Triple.bind (M := fun _ w => Shaken s place radio w ∧
    (result.ok = true → Tracked s place w)) ?_ fun _ w hw => hw
  have haside : Within Aside (update fun r => { r with
      running := if result.ok then Function.update r.running radio false else r.running } :
      RadioM δ Unit) :=
    aside_update (fun _ => ⟨rfl, rfl, rfl, rfl⟩) fun _ => id
  rintro w ⟨⟨hbase, hble⟩, hok⟩
  have h := haside w
  exact ⟨⟨h.base hbase, fun hr => h.tracked (hble hr)⟩, fun ho => h.tracked (hok ho)⟩

/-- A stuck receiver has nothing counted that a further failed stop could spoil. -/
theorem tracked_retry (hplace : place < s.config.wifiChannels.length) (radio : Radio) :
    Triple (fun w => Tracked s place w ∧ w.runner.stuck = some radio) (stopReceiver d radio)
      fun _ => Tracked s place := by
  rintro w ⟨hw, hstuck⟩
  have hshaken := (shaken_stopReceiver d radio w hw).1
  cases radio with
  | kBle => exact hshaken.2 rfl
  | kWifi =>
    have hzero := hw.stuck hstuck
    exact ⟨hshaken.1, fun _ => hzero, OnTrail.of_zero hzero hplace⟩

theorem tracked_noteStop (hplace : place < s.config.wifiChannels.length) (radio : Radio)
    (result : DriverResult) :
    Triple (fun w => Shaken s place radio w ∧ (result.ok = true → Tracked s place w))
      (noteStop d radio result) fun _ => Tracked s place := by
  rw [noteStop]
  refine Triple.ite (fun _ => ?_) fun hok w hw => hw.2 (by simpa using hok)
  exact (tracked_noteStopFailure d hplace radio result).pre fun w hw => hw.1

theorem tracked_stopOther (hplace : place < s.config.wifiChannels.length) (radio : Radio) :
    Triple (Tracked s place) (stopOther d radio) fun _ => Tracked s place := by
  rw [stopOther]
  refine Triple.bind (M := fun _ => Tracked s place) (fun w hw => hw) fun r =>
    Triple.ite (fun _ => ?_) fun _ w hw => hw
  refine Triple.bind (shaken_stopReceiver d _) fun stopped => Triple.ite (fun _ => ?_) fun hok => ?_
  · refine Triple.bind (M := fun _ => Tracked s place) ?_ fun _ w hw => hw
    exact (tracked_noteStopFailure d hplace _ stopped).pre fun w hw => hw.1
  · exact fun w hw => hw.2 (by simpa using hok)

theorem shaken_startReceiver (window : Window) :
    Triple (Tracked s place) (startReceiver d window) fun result w =>
      Shaken s place window.radio w ∧ (result.ok = true → Tracked s place w) := by
  rw [startReceiver]
  cases window.radio with
  | kWifi =>
    exact fun w hw => shaken_of_call
      (e := .start .kWifi window.channel (d.startWifi window.channel w.driver).1) hw rfl rfl
      (fun _ => rfl) rfl
  | kBle =>
    have haside : Within Aside (call d.startBle (.start .kBle window.channel)) :=
      aside_call (fun _ _ => rfl) fun _ => rfl
    intro w hw
    have htracked := aside_triple haside w hw
    exact ⟨⟨htracked.toBase, fun _ => htracked⟩, fun _ => htracked⟩

theorem tracked_abandonStart (hplace : place < s.config.wifiChannels.length) (o : OpenWindow)
    (result : DriverResult) :
    Triple (Shaken s place o.window.radio) (abandonStart d o result) fun _ => Tracked s place := by
  rw [abandonStart]
  refine Triple.bind (tracked_noteFault hplace _ result) fun _ => ?_
  refine Triple.bind (M := fun _ => Tracked s place)
    (aside_triple (aside_running _ fun _ => true)) fun _ => ?_
  refine Triple.bind (shaken_stopReceiver d _) fun stopped => ?_
  exact Triple.bind (tracked_noteStop d hplace _ stopped) fun _ w hw => hw

theorem tracked_startWindow (hplace : place < s.config.wifiChannels.length) (o : OpenWindow) :
    Triple (Tracked s place) (startWindow d o) fun _ => Tracked s place := by
  rw [startWindow]
  refine Triple.bind (shaken_startReceiver d o.window) fun result =>
    Triple.ite (fun hok => ?_) fun _ => ?_
  · refine Triple.bind (M := fun _ => Tracked s place) ?_ fun _ => ?_
    · exact (aside_triple (aside_running _ fun _ => true)).pre fun w hw => hw.2 hok
    refine Triple.bind (aside_triple (aside_waiting d).nowUs) fun rxStartUs => ?_
    refine Triple.bind (aside_triple (aside_call (fun _ _ => rfl) fun _ => rfl)) fun _ => ?_
    exact Triple.bind (aside_triple (aside_emit (fun _ => rfl) rfl)) fun _ w hw => hw
  · exact (tracked_abandonStart d hplace o result).pre fun w hw => hw.1

theorem tracked_beginOpen (hplace : place < s.config.wifiChannels.length) (o : OpenWindow) :
    Triple (Tracked s place) (beginOpen d o) fun _ => Tracked s place := by
  rw [beginOpen]
  refine Triple.bind (tracked_stopOther d hplace _) fun faulted => ?_
  exact Triple.ite (fun _ w hw => hw) fun _ => tracked_startWindow d hplace o

theorem tracked_closeReceiver (hplace : place < s.config.wifiChannels.length) (o : OpenWindow) :
    Triple (Tracked s place) (closeReceiver d o) fun _ => Tracked s place := by
  rw [closeReceiver]
  refine Triple.ite (fun _ => ?_) fun _ w hw => hw
  refine Triple.bind (aside_triple (aside_call (fun _ _ => rfl) fun _ => rfl)) fun _ => ?_
  refine Triple.bind (shaken_stopReceiver d _) fun stopped => ?_
  refine Triple.bind (M := fun _ w => Shaken s place o.window.radio w ∧
    (stopped.ok = true → Tracked s place w)) ?_ fun _ => Triple.ite (fun _ => ?_) fun hok => ?_
  · have haside : Within Aside (call d.drainEvents fun _ => .drainEvents) :=
      aside_call (fun _ _ => rfl) fun _ => rfl
    rintro w ⟨⟨hbase, hble⟩, hok⟩
    have h := haside w
    exact ⟨⟨h.base hbase, fun hr => h.tracked (hble hr)⟩, fun ho => h.tracked (hok ho)⟩
  · refine Triple.bind (M := fun _ => Tracked s place) ?_ fun _ w hw => hw
    exact (tracked_noteStopFailure d hplace _ stopped).pre fun w hw => hw.1
  · exact fun w hw => hw.2 (by simpa using hok)

theorem tracked_recover (radio : Radio) :
    Triple (Tracked s place) (recover d radio) fun _ => Tracked s place := by
  rw [recover]
  refine Triple.bind (M := fun _ => Tracked s place)
    (fun w hw => { hw with stuck := nofun }) fun _ => ?_
  refine Triple.bind (aside_triple (aside_call (fun _ _ => rfl) fun _ => rfl)) fun _ => ?_
  refine Triple.bind (aside_triple (aside_call (fun _ _ => rfl) fun _ => rfl)) fun _ => ?_
  refine Triple.bind (M := fun _ => Tracked s place) ?_ fun _ => tracked_clearFault radio
  exact aside_triple (aside_update (fun _ => ⟨rfl, rfl, rfl, rfl⟩) fun _ => id)

/-- Between two windows the trail ends before the next channel. -/
def Counted (w : World δ) : Prop :=
  ∃ s, Tracked s s.nextChannel w

/-- The plan and WiFi's enable flag stay, and with them the clean pass. -/
def keepsPass (before next : ObservationConfig) : Prop :=
  next.wifiEnabled = before.wifiEnabled ∧ next.wifiChannels = before.wifiChannels

instance (before next : ObservationConfig) : Decidable (keepsPass before next) :=
  inferInstanceAs (Decidable (_ ∧ _))

/-- The trail holds, or the request to be applied starts a new one. -/
def Primed (pending : Option ControlRequest) (w : World δ) : Prop :=
  ∃ s, Base s w ∧ (w.runner.stuck = some .kWifi → w.runner.cleanWindows .kWifi = 0) ∧
    (OnTrail s s.nextChannel w ∨
      ∃ request, pending = some request ∧ ¬ keepsPass s.config (merged s.config request))

theorem Counted.primed {w : World δ} (hw : Counted w) (pending : Option ControlRequest) :
    Primed pending w := by
  obtain ⟨s, hs⟩ := hw
  exact ⟨s, hs.toBase, hs.stuck, .inl hs.trail⟩

theorem aside_counted {c : RadioM δ α} (h : Within Aside c) :
    Triple Counted c fun _ => Counted :=
  h.triple fun _ _ hw ⟨s, hs⟩ => ⟨s, hw.tracked hs⟩

theorem restartCleanPass_wifi (before next : ObservationConfig) (clean : Radio → UInt32) :
    restartCleanPass before next clean .kWifi =
      if keepsPass before next then clean .kWifi else 0 := by
  by_cases henabled : next.wifiEnabled = before.wifiEnabled
  · by_cases hplan : next.wifiChannels = before.wifiChannels <;>
      simp [restartCleanPass, keepsPass, henabled, hplan]
  · simp [restartCleanPass, keepsPass, henabled]

theorem note_toConfigApplied {p : Pass} {before next : ObservationConfig}
    (hnormal : normalizeConfig next = next) (henabled : p.enabled = before.wifiEnabled)
    (hplan : p.plan = before.wifiChannels) (configGeneration : UInt32) :
    p.note (.emit (.configApplied (toConfigApplied configGeneration next))) =
      if keepsPass before next then p
      else { enabled := next.wifiEnabled, plan := next.wifiChannels } := by
  have htake : next.wifiChannels.take kMaxPlanChannels = next.wifiChannels := by
    have hrange := inRange_normalize next
    rw [hnormal] at hrange
    exact List.take_of_length_le hrange.length_le
  simp only [Pass.note, toConfigApplied, hnormal, htake, henabled, hplan]
  rfl

/-- A change of the configuration, told. -/
theorem tracked_configured {w w' : World δ} {request : ControlRequest}
    (hw : Primed (some request) w) (hscheduler : w'.runner.scheduler =
      w.runner.scheduler.configure (merged w.runner.scheduler.config request))
    (hannounced : w'.runner.announced = w.runner.announced)
    (hactive : w'.runner.faultActive = w.runner.faultActive)
    (hcount : w'.runner.cleanWindows = restartCleanPass w.runner.scheduler.config
      (merged w.runner.scheduler.config request) w.runner.cleanWindows)
    (hstuck : w'.runner.stuck = w.runner.stuck)
    (hcalls : w'.calls = w.calls ++ [.emit (.configApplied
      (toConfigApplied w'.runner.configGeneration w'.runner.scheduler.config))]) :
    Counted w' := by
  obtain ⟨s, hbase, hzero, htrail⟩ := hw
  obtain rfl := hbase.scheduler
  have hconfig : w'.runner.scheduler.config = merged w.runner.scheduler.config request := by
    rw [hscheduler]
    exact normalizeConfig_merged ..
  have hpass : Pass.of w'.calls =
      if keepsPass w.runner.scheduler.config w'.runner.scheduler.config then Pass.of w.calls
      else { enabled := w'.runner.scheduler.config.wifiEnabled,
             plan := w'.runner.scheduler.config.wifiChannels } := by
    rw [hcalls, Pass.of_append]
    refine note_toConfigApplied ?_ hbase.enabled hbase.plan _
    rw [hconfig, normalizeConfig_merged]
  have hclean : w'.runner.cleanWindows .kWifi =
      if keepsPass w.runner.scheduler.config w'.runner.scheduler.config
      then w.runner.cleanWindows .kWifi else 0 := by
    rw [hcount, ← hconfig, restartCleanPass_wifi]
  have hsound : ClearsOnFullPass w'.calls := by
    rw [hcalls]
    exact hbase.sound.concat rfl
  have hnormal : normalizeConfig w'.runner.scheduler.config = w'.runner.scheduler.config := by
    rw [hconfig, normalizeConfig_merged]
  have haimed : w'.runner.scheduler.nextRadio = .kWifi →
      w'.runner.scheduler.config.wifiEnabled = true := by
    rw [hscheduler]
    exact fun h => by_contra fun hoff => by
      simp [ObservationScheduler.configure, ObservationScheduler.firstRadio] at h hoff
      simp [hoff] at h
  have hannounced' := hannounced.trans hbase.announced
  have hplace := w'.runner.scheduler.inPlan
  by_cases hkeep : keepsPass w.runner.scheduler.config w'.runner.scheduler.config
  · rw [if_pos hkeep] at hpass hclean
    have hzero' : w'.runner.stuck = some .kWifi → w'.runner.cleanWindows .kWifi = 0 := by
      rw [hstuck, hclean]
      exact hzero
    have hoff : w'.runner.scheduler.config.wifiEnabled = false →
        w'.runner.cleanWindows .kWifi = 0 := by
      rw [hkeep.1, hclean]
      exact hbase.off
    have hbase' : Base w'.runner.scheduler w' :=
      ⟨rfl, hannounced', by rw [hpass, hkeep.1, hbase.enabled],
        by rw [hpass, hkeep.2, hbase.plan], hnormal, haimed, hoff, hsound⟩
    refine ⟨_, hbase', hzero', ?_⟩
    by_cases henabled : w'.runner.scheduler.config.wifiEnabled = true
    · have hkept : w'.runner.scheduler.nextChannel = w.runner.scheduler.nextChannel := by
        rw [hscheduler]
        change ObservationScheduler.keepPlace w.runner.scheduler.config _
          (normalizeConfig (merged w.runner.scheduler.config request)) = _
        rw [normalizeConfig_merged, ← hconfig, ObservationScheduler.keepPlace, hkeep.2, ← hkeep.1]
        simp [henabled]
      have htrail' : OnTrail w.runner.scheduler w.runner.scheduler.nextChannel w := by
        rcases htrail with htrail | ⟨request', hrequest, hbreak⟩
        · exact htrail
        · obtain rfl := Option.some.inj hrequest
          exact absurd (hconfig ▸ hkeep) hbreak
      rw [OnTrail, hactive, hclean, hpass, hkeep.2, hkept]
      exact htrail'
    · exact OnTrail.of_zero (hoff (by simpa using henabled)) hplace
  · rw [if_neg hkeep] at hpass hclean
    have hbase' : Base w'.runner.scheduler w' :=
      ⟨rfl, hannounced', by rw [hpass], by rw [hpass], hnormal, haimed, fun _ => hclean, hsound⟩
    exact ⟨_, hbase', fun _ => hclean, OnTrail.of_zero hclean hplace⟩

theorem tracked_clearDisabled {s : ObservationScheduler} {place : ℕ} (radio : Radio) :
    Triple (Tracked (δ := δ) s place) (clearDisabled radio) fun _ => Tracked s place := by
  rw [clearDisabled]
  refine Triple.bind (M := fun _ => Tracked s place) (fun w hw => hw) fun r => ?_
  exact Triple.ite (fun _ => tracked_clearFault radio) fun _ w hw => hw

theorem counted_applyControl (request : ControlRequest) :
    Triple (Primed (δ := δ) (some request)) (applyControl request) fun _ => Counted := by
  have hclear : Triple (Counted (δ := δ)) (do clearDisabled .kWifi; clearDisabled .kBle; pure true)
      fun _ => Counted := by
    rintro w ⟨s, hs⟩
    have hrest : Triple (Tracked (δ := δ) s s.nextChannel)
        (do clearDisabled .kWifi; clearDisabled .kBle; pure true)
        fun _ => Tracked s s.nextChannel :=
      Triple.bind (tracked_clearDisabled .kWifi) fun _ =>
        Triple.bind (tracked_clearDisabled .kBle) fun _ w hw => hw
    exact ⟨s, hrest w hs⟩
  rw [applyControl]
  refine Triple.bind (M := fun r w => Primed (some request) w ∧ w.runner = r)
    (fun w hw => ⟨hw, rfl⟩) fun r => Triple.ite (fun hsame => ?_) fun _ => ?_
  · rintro w ⟨⟨s, hbase, hzero, htrail⟩, rfl⟩
    obtain rfl := hbase.scheduler
    refine ⟨_, hbase, hzero, htrail.resolve_right ?_⟩
    rintro ⟨request', hrequest, hbreak⟩
    obtain rfl := Option.some.inj hrequest
    exact hbreak (by rw [sameConfig_iff.mp hsame]; exact ⟨rfl, rfl⟩)
  · rintro w ⟨hw, rfl⟩
    exact hclear _ (tracked_configured hw rfl rfl rfl rfl rfl rfl)

theorem counted_applyPending (pending : Option ControlRequest) :
    Triple (Primed (δ := δ) pending) (applyPending pending) fun _ => Counted := by
  cases pending with
  | none =>
    rintro w ⟨s, hbase, hzero, htrail⟩
    exact ⟨s, hbase, hzero, htrail.resolve_right fun ⟨_, hnone, _⟩ => nomatch hnone⟩
  | some request => exact Triple.bind (counted_applyControl request) fun _ w hw => hw

theorem counted_applied (pending : Option ControlRequest) :
    Triple (Counted (δ := δ)) (applyPending pending) fun _ => Counted :=
  (counted_applyPending pending).pre fun _ hw => hw.primed pending

end Count

end CydMonitor.Observation
