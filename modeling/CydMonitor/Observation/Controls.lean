import CydMonitor.Observation.Seam

/-!
# Operator controls are a left fold

Every request taken from the control source is merged into the configuration once and in
the order it was taken, and each change is numbered and told once.
-/

namespace CydMonitor.Observation

open RadioRunner Prog

def polledRequest : Event → Option ControlRequest
  | .poll request => request
  | _ => none

/-- The requests taken from the control source, oldest first. -/
def polledOf (calls : List Event) : List ControlRequest :=
  calls.filterMap polledRequest

def appliedConfig : Event → Option ConfigAppliedMessage
  | .emit (.configApplied message) => some message
  | _ => none

def appliedOf (calls : List Event) : List ConfigAppliedMessage :=
  calls.filterMap appliedConfig

/-- The configuration a request changes to, if it changes it. -/
def changeOf (config : ObservationConfig) (request : ControlRequest) : List ObservationConfig :=
  if merged config request = config then [] else [merged config request]

/-- The configurations that the steps of the fold change to. -/
def changesOf (config : ObservationConfig) : List ControlRequest → List ObservationConfig
  | [] => []
  | request :: rest => changeOf config request ++ changesOf (merged config request) rest

theorem changesOf_append (config : ObservationConfig) (requests : List ControlRequest)
    (request : ControlRequest) :
    changesOf config (requests ++ [request]) =
      changesOf config requests ++ changeOf (requests.foldl merged config) request := by
  induction requests generalizing config with
  | nil => simp [changesOf]
  | cons first rest ih => simp [changesOf, ih]

theorem sameConfig_iff {a b : ObservationConfig} : sameConfig a b = true ↔ a = b := by
  cases a
  cases b
  simp [sameConfig, and_assoc]

@[simp] theorem normalizeConfig_merged (config : ObservationConfig) (request : ControlRequest) :
    normalizeConfig (merged config request) = merged config request :=
  normalizeConfig_idem _

/-- What the controls decide: the configuration and the messages about it. -/
structure Controls where
  config : ObservationConfig
  configGeneration : UInt32
  announced : Bool
  polled : List ControlRequest
  applied : List ConfigAppliedMessage

def World.controls {δ : Type} (w : World δ) : Controls where
  config := w.runner.scheduler.config
  configGeneration := w.runner.configGeneration
  announced := w.runner.announced
  polled := polledOf w.calls
  applied := appliedOf w.calls

/-- The books after the requests of a list: its fold, with one numbered message for the
first configuration and for each change. -/
structure Controls.Folded (config : ObservationConfig) (requests : List ControlRequest)
    (k : Controls) : Prop where
  normal : normalizeConfig k.config = k.config
  fold : k.config = requests.foldl merged config
  generation : k.configGeneration = UInt32.ofNat (1 + (changesOf config requests).length)
  announced : k.announced = true
  told : k.applied.map toObservationConfig = config :: changesOf config requests
  numbered : k.applied.map ConfigAppliedMessage.configGeneration =
    (List.range (1 + (changesOf config requests).length)).map fun i => UInt32.ofNat (i + 1)

namespace Controls.Folded

variable {config : ObservationConfig} {requests : List ControlRequest} {k : Controls}
  (h : k.Folded config requests) {request : ControlRequest}

include h

theorem ignore (hsame : merged k.config request = k.config) :
    k.Folded config (requests ++ [request]) := by
  have hchanges : changesOf config (requests ++ [request]) = changesOf config requests := by
    rw [changesOf_append, ← h.fold, changeOf, if_pos hsame, List.append_nil]
  refine { h with fold := ?_, generation := ?_, told := ?_, numbered := ?_ }
  · rw [List.foldl_append, List.foldl_cons, ← h.fold, hsame, List.foldl_nil]
  · rw [hchanges, h.generation]
  · rw [hchanges, h.told]
  · rw [hchanges, h.numbered]

theorem change (hchange : merged k.config request ≠ k.config) {polled : List ControlRequest} :
    Folded config (requests ++ [request])
      { k with
        config := merged k.config request
        configGeneration := k.configGeneration + 1
        applied := k.applied ++
          [toConfigApplied (k.configGeneration + 1) (merged k.config request)]
        polled } := by
  have hchanges : changesOf config (requests ++ [request]) =
      changesOf config requests ++ [merged k.config request] := by
    rw [changesOf_append, ← h.fold, changeOf, if_neg hchange]
  have hnext : k.configGeneration + 1 =
      UInt32.ofNat (1 + (changesOf config requests).length + 1) := by
    rw [h.generation, UInt32.ofNat_add _ 1]
    rfl
  refine ⟨normalizeConfig_merged .., ?_, ?_, h.announced, ?_, ?_⟩
  · rw [List.foldl_append, List.foldl_cons, ← h.fold, List.foldl_nil]
  · rw [hchanges, List.length_append, List.length_singleton, ← Nat.add_assoc]
    exact hnext
  · rw [hchanges, List.map_append, h.told, List.map_singleton,
      toObservationConfig_toConfigApplied, normalizeConfig_merged, List.cons_append]
  · rw [hchanges, List.map_append, h.numbered, List.length_append, List.length_singleton,
      ← Nat.add_assoc, List.range_succ, List.map_append, List.map_singleton, List.map_singleton,
      ← hnext]
    rfl

end Controls.Folded

variable {δ : Type}

/-- All requests taken so far are in the configuration, but for one still carried. -/
def Followed (config : ObservationConfig) (pending : Option ControlRequest) (w : World δ) :
    Prop :=
  ∃ requests, w.controls.polled = requests ++ pending.toList ∧ w.controls.Folded config requests

def Still (w w' : World δ) : Prop :=
  w'.controls = w.controls

instance : Std.Refl (Still (δ := δ)) where
  refl _ := rfl

instance : IsTrans (World δ) Still where
  trans _ _ _ h h' := h'.trans h

theorem still_change {f : RadioRunner → RadioRunner} (h : ∀ r, (f r).settings = r.settings) :
    Within Still (update f : RadioM δ Unit) := by
  intro w
  show Controls.mk (f w.runner).settings.config (f w.runner).settings.configGeneration
    (f w.runner).settings.announced _ _ = w.controls
  rw [h]
  rfl

theorem still_call {α : Type} {f : StateM δ α} {note : α → Event}
    (hpolled : ∀ a, polledRequest (note a) = none)
    (happlied : ∀ a, appliedConfig (note a) = none) : Within Still (call f note) := by
  intro w
  show Controls.mk _ _ _ (polledOf (w.calls ++ [_])) (appliedOf (w.calls ++ [_])) = w.controls
  rw [polledOf, appliedOf, List.filterMap_append, List.filterMap_append]
  simp only [List.filterMap_cons, hpolled, happlied, List.filterMap_nil, List.append_nil]
  rfl

theorem still_emit {message : RadioMessage} (h : appliedConfig (.emit message) = none) :
    Within Still (emit message : RadioM δ Unit) := by
  intro w
  show Controls.mk _ _ _ (polledOf (w.calls ++ [_])) (appliedOf (w.calls ++ [_])) = w.controls
  rw [polledOf, appliedOf, List.filterMap_append, List.filterMap_append]
  simp only [List.filterMap_cons, h, polledRequest, List.filterMap_nil, List.append_nil]
  rfl

theorem still_clearFault (radio : Radio) : Within Still (clearFault radio : RadioM δ Unit) := by
  rw [clearFault]
  refine Within.bind (still_change fun _ => rfl) fun _ => ?_
  refine Within.bind (within_read inferInstance) fun r => Within.ite (Within.pure _) ?_
  refine Within.bind ?_ fun _ => still_emit rfl
  exact fun w => rfl

theorem still_noteFault (radio : Radio) (result : DriverResult) :
    Within Still (noteFault radio result : RadioM δ Unit) := by
  rw [noteFault]
  refine Within.bind (still_change fun _ => rfl) fun _ => ?_
  refine Within.bind (within_read inferInstance) fun r => Within.ite (Within.pure _) ?_
  refine Within.bind ?_ fun _ => still_emit rfl
  exact fun w => rfl

theorem still_nowUs (d : RadioDriver δ) : Within Still (nowUs d) :=
  still_call (fun _ => rfl) fun _ => rfl

theorem driven_still (d : RadioDriver δ) : Driven d Still where
  refl := inferInstance
  trans := inferInstance
  change _ h _ := still_change h
  noteFault := still_noteFault
  noteStopFailure := within_noteStopFailure (fun _ => still_change) inferInstance (still_nowUs d)
    still_noteFault
  recover := within_recover (fun _ => still_change) inferInstance
    (still_call (fun _ => rfl) fun _ => rfl) (still_call (fun _ => rfl) fun _ => rfl)
    still_clearFault
  windowStarted _ := still_emit rfl
  windowReport _ := still_emit rfl
  nowUs := still_nowUs d
  beginWindow _ _ _ _ := still_call (fun _ => rfl) fun _ => rfl
  endWindow := still_call (fun _ => rfl) fun _ => rfl
  start window := by
    rw [startReceiver]
    cases window.radio with
    | kWifi => exact still_call (fun _ => rfl) fun _ => rfl
    | kBle => exact still_call (fun _ => rfl) fun _ => rfl
  stop radio := by
    cases radio with
    | kWifi => exact still_call (fun _ => rfl) fun _ => rfl
    | kBle => exact still_call (fun _ => rfl) fun _ => rfl
  drainEvents := still_call (fun _ => rfl) fun _ => rfl
  takeDrops _ := still_call (fun _ => rfl) fun _ => rfl
  takeUnattributed := still_call (fun _ => rfl) fun _ => rfl

theorem still_countClean (radio : Radio) (faulted : Bool) (report : WindowReport) :
    Within Still (countClean radio faulted report : RadioM δ Unit) :=
  within_countClean inferInstance inferInstance (fun _ h => still_change fun r => (h r).2)
    still_clearFault radio faulted report

theorem still_clearDisabled (radio : Radio) :
    Within Still (clearDisabled radio : RadioM δ Unit) :=
  within_clearDisabled inferInstance inferInstance still_clearFault radio

section Follow

variable {config : ObservationConfig} {α : Type}

theorem Followed.still {w w' : World δ} {pending : Option ControlRequest} (h : Still w w')
    (hw : Followed config pending w) : Followed config pending w' := by
  rw [Followed, h]
  exact hw

theorem still_followed {c : RadioM δ α} (h : Within Still c) (pending : Option ControlRequest) :
    Triple (Followed config pending) c fun _ => Followed config pending :=
  h.triple fun _ _ => Followed.still

variable (d : RadioDriver δ)

theorem followed_poll :
    Triple (Followed (δ := δ) config none) (poll d) fun request => Followed config request := by
  rintro w ⟨requests, hpolled, hfolded⟩
  refine ⟨requests, ?_, ?_⟩
  · show polledOf (w.calls ++ [_]) = _
    have hbefore : polledOf w.calls = requests := hpolled.trans (List.append_nil _)
    rw [polledOf, List.filterMap_append, ← polledOf, hbefore]
    change requests ++ List.filterMap polledRequest [.poll (d.poll w.driver).1] =
      requests ++ (d.poll w.driver).1.toList
    cases (d.poll w.driver).1 <;> rfl
  · have happlied : appliedOf (w.calls ++ [.poll (d.poll w.driver).1]) = appliedOf w.calls := by
      simp [appliedOf, appliedConfig]
    exact { hfolded with
      told := (congrArg _ happlied).trans hfolded.told
      numbered := (congrArg _ happlied).trans hfolded.numbered }

/-- A request that would change nothing may as well have been applied. -/
theorem Followed.drop {w : World δ} {request : ControlRequest}
    (hw : Followed config (some request) w)
    (hsame : sameConfig (merged w.runner.scheduler.config request) w.runner.scheduler.config) :
    Followed config none w := by
  obtain ⟨requests, hpolled, hfolded⟩ := hw
  refine ⟨requests ++ [request], ?_, hfolded.ignore (sameConfig_iff.mp hsame)⟩
  rw [hpolled]
  simp

theorem followed_wake (deadlineUs : UInt64) :
    Triple (Followed (δ := δ) config none) (wake d deadlineUs)
      fun request => Followed config request := by
  rw [wake]
  refine Triple.bind (still_followed (still_call (fun _ => rfl) fun _ => rfl) _) fun reason => ?_
  refine Triple.ite (fun _ => ?_) fun _ w hw => hw
  refine Triple.bind (followed_poll d) fun request => ?_
  intro w hw
  cases request with
  | none => exact hw
  | some request =>
    change Followed config (Option.filter (fun q =>
      !sameConfig (merged w.runner.scheduler.config q) w.runner.scheduler.config) (some request)) w
    by_cases hsame : sameConfig (merged w.runner.scheduler.config request)
        w.runner.scheduler.config = true
    · rw [Option.filter_some, if_neg (by simpa using hsame)]
      exact hw.drop hsame
    · rw [Option.filter_some, if_pos (by simpa using hsame)]
      exact hw

theorem followed_waitLoop (deadlineUs lastNowUs : UInt64) (stalledWakes : ℕ) :
    Triple (Followed (δ := δ) config none) (waitLoop d deadlineUs lastNowUs stalledWakes)
      fun request => Followed config request := by
  induction lastNowUs, stalledWakes using RadioRunner.waitLoop.induct deadlineUs with
  | case1 lastNowUs stalledWakes hbefore hmoves hwaits =>
    rw [waitLoop, dif_pos hbefore]
    refine Triple.bind (followed_wake d deadlineUs) fun request => ?_
    refine Triple.ite (fun _ w hw => hw) fun hnone => ?_
    obtain rfl : request = none := by simpa using hnone
    refine Triple.bind (still_followed (still_nowUs d) _) fun now => ?_
    by_cases hmoved : now > lastNowUs
    · rw [dif_pos hmoved]
      exact hmoves now hmoved
    rw [dif_neg hmoved]
    by_cases hstalled : stalledWakes + 1 > kMaxStalledWakes
    · rw [dif_pos hstalled]
      exact Triple.bind (still_followed (still_call (fun _ => rfl) fun _ => rfl) _) fun _ w hw => hw
    · rw [dif_neg hstalled]
      exact hwaits hstalled
  | case2 lastNowUs stalledWakes hafter =>
    rw [waitLoop, dif_neg hafter]
    exact fun w hw => hw

theorem followed_waitUntil (deadlineUs : UInt64) :
    Triple (Followed (δ := δ) config none) (waitUntil d deadlineUs)
      fun request => Followed config request :=
  Triple.bind (still_followed (still_nowUs d) _) fun _ => followed_waitLoop d _ _ _

/-- Giving up a wait is no way out for a request. -/
theorem followed_gaveUp (deadlineUs : UInt64) (pending : Option ControlRequest) :
    Triple (Followed (δ := δ) config pending) (gaveUp d deadlineUs pending)
      fun early w => Followed config pending w ∧ (early = true → pending = none) := by
  rw [gaveUp]
  refine Triple.ite (fun _ w hw => ⟨hw, fun h => absurd h Bool.false_ne_true⟩) fun hnone => ?_
  refine Triple.bind (still_followed (still_nowUs d) _) fun now w hw => ⟨hw, fun _ => ?_⟩
  simpa using hnone

theorem followed_emitConfig {w : World δ} {requests : List ControlRequest}
    {request : ControlRequest} (hpolled : polledOf w.calls = requests ++ [request])
    (hfolded : w.controls.Folded config requests)
    (hchange : merged w.runner.scheduler.config request ≠ w.runner.scheduler.config)
    {r : RadioRunner}
    (hconfig : r.scheduler.config = merged w.runner.scheduler.config request)
    (hgeneration : r.configGeneration = w.runner.configGeneration + 1)
    (hannounced : r.announced = w.runner.announced) :
    Followed config none (emitConfig { w with runner := r }).2 := by
  have happlied : appliedOf (w.calls ++
      [.emit (.configApplied (toConfigApplied r.configGeneration r.scheduler.config))]) =
      appliedOf w.calls ++ [toConfigApplied r.configGeneration r.scheduler.config] := by
    simp [appliedOf, appliedConfig]
  have hcalls : polledOf (w.calls ++
      [.emit (.configApplied (toConfigApplied r.configGeneration r.scheduler.config))]) =
      requests ++ [request] := by
    rw [polledOf, List.filterMap_append, ← polledOf, hpolled]
    exact List.append_nil _
  refine ⟨requests ++ [request], hcalls.trans (List.append_nil _).symm, ?_⟩
  show Controls.Folded _ _ ⟨r.scheduler.config, r.configGeneration, r.announced, _, appliedOf
    (w.calls ++ [.emit (.configApplied (toConfigApplied r.configGeneration r.scheduler.config))])⟩
  rw [happlied, hconfig, hgeneration, hannounced]
  exact hfolded.change hchange

theorem followed_applyControl (request : ControlRequest) :
    Triple (Followed (δ := δ) config (some request)) (applyControl request)
      fun _ => Followed config none := by
  have hclear : Triple (Followed (δ := δ) config none)
      (do clearDisabled .kWifi; clearDisabled .kBle; pure true) fun _ => Followed config none :=
    Triple.bind (still_followed (still_clearDisabled .kWifi) _) fun _ =>
      Triple.bind (still_followed (still_clearDisabled .kBle) _) fun _ w hw => hw
  rw [applyControl]
  refine Triple.bind (M := fun r w => Followed config (some request) w ∧ w.runner = r)
    (fun w hw => ⟨hw, rfl⟩) fun r => Triple.ite (fun hsame => ?_) fun hchange => ?_
  · rintro w ⟨hw, rfl⟩
    exact hw.drop hsame
  · rintro w ⟨⟨requests, hpolled, hfolded⟩, rfl⟩
    refine hclear _ (followed_emitConfig hpolled hfolded (fun h => hchange (sameConfig_iff.mpr h))
      ?_ rfl rfl)
    exact normalizeConfig_merged ..

theorem followed_applyPending (pending : Option ControlRequest) :
    Triple (Followed (δ := δ) config pending) (applyPending pending)
      fun _ => Followed config none := by
  cases pending with
  | none => exact fun w hw => hw
  | some request => exact Triple.bind (followed_applyControl request) fun _ w hw => hw

theorem followed_pollControls (rounds : ℕ) :
    Triple (Followed (δ := δ) config none) (pollControls d rounds)
      fun _ => Followed config none := by
  induction rounds with
  | zero => exact fun w hw => hw
  | succ rounds ih =>
    rw [pollControls]
    refine Triple.bind (followed_poll d) fun request => Triple.ite (fun _ => ?_) fun hnone => ?_
    · exact Triple.bind (followed_applyPending request) fun _ => ih
    · obtain rfl : request = none := by simpa using hnone
      exact fun w hw => hw

theorem followed_holdWindow (o : OpenWindow) :
    Triple (Followed (δ := δ) config none) (holdWindow d o)
      fun held w => Followed config held.1 w ∧ (held.2 = true → held.1 = none) := by
  rw [holdWindow]
  refine Triple.bind (M := fun _ => Followed config none) (fun w hw => hw) fun r => ?_
  refine Triple.ite (fun _ w hw => ⟨hw, fun _ => rfl⟩) fun _ => ?_
  refine Triple.bind (followed_waitUntil d _) fun pending => ?_
  exact Triple.bind (followed_gaveUp d _ pending) fun early w hw => hw

theorem followed_finishWindow (o : OpenWindow) (pending : Option ControlRequest) :
    Triple (Followed (δ := δ) config pending) (finishWindow d o pending)
      fun _ => Followed config none := by
  have hdriven := driven_still d
  rw [finishWindow]
  refine Triple.bind (still_followed hdriven.nowUs _) fun rxEndUs => ?_
  refine Triple.bind (still_followed (hdriven.closeReceiver o) _) fun faulted => ?_
  refine Triple.bind (still_followed (hdriven.chargeDrops _) _) fun dropped => ?_
  refine Triple.bind (still_followed hdriven.nowUs _) fun doneUs => ?_
  refine Triple.bind (still_followed (still_countClean _ _ _) _) fun _ => ?_
  refine Triple.bind (still_followed (hdriven.windowReport _) _) fun _ => ?_
  refine Triple.bind (M := fun _ => Followed config pending)
    (still_followed (still_change fun _ => rfl) _) fun _ => ?_
  exact followed_applyPending pending

theorem followed_resumeWindow (o : OpenWindow) :
    Triple (Followed (δ := δ) config none) (resumeWindow d o) fun _ => Followed config none := by
  rw [resumeWindow]
  refine Triple.bind (followed_holdWindow d o) fun held => Triple.ite (fun hearly => ?_) fun _ => ?_
  · rintro w ⟨hw, hnone⟩
    exact hnone hearly ▸ hw
  · refine Triple.bind ((followed_finishWindow d o held.1).pre fun w hw => hw.1) fun _ => ?_
    exact still_followed (still_change fun _ => rfl) _

theorem still_takeWindow (startUs : UInt64) :
    Within Still (takeWindow startUs : RadioM δ (Option Window)) := by
  intro w
  show Controls.mk (w.runner.scheduler.nextWindow _).2.config _ _ _ _ = w.controls
  rw [ObservationScheduler.nextWindow_config]
  rfl

theorem followed_openNext (startUs : UInt64) :
    Triple (Followed (δ := δ) config none) (openNext d startUs) fun _ => Followed config none := by
  rw [openNext]
  refine Triple.bind (still_followed (still_takeWindow startUs) _) fun window => ?_
  cases window with
  | none => exact fun w hw => hw
  | some window =>
    show Triple _ (openWindowAt d startUs window) _
    rw [openWindowAt]
    refine Triple.bind (M := fun _ => Followed config none)
      (still_followed (still_change fun _ => rfl) _) fun _ => ?_
    refine Triple.bind (M := fun _ => Followed config none) (fun w hw => hw) fun r => ?_
    refine Triple.bind (still_followed ((driven_still d).beginOpen _) _) fun o => ?_
    refine Triple.bind (M := fun _ => Followed config none)
      (still_followed (still_change fun _ => rfl) _) fun _ => ?_
    exact followed_resumeWindow d o

theorem followed_runWindow :
    Triple (Followed (δ := δ) config none) (runWindow d) fun _ => Followed config none := by
  rw [runWindow]
  refine Triple.bind (still_followed (still_nowUs d) _) fun now => ?_
  refine Triple.bind (M := fun _ => Followed config none) (fun w hw => hw) fun r => ?_
  refine Triple.bind (followed_waitUntil d _) fun request => ?_
  refine Triple.bind (followed_gaveUp d _ request) fun early => ?_
  refine Triple.ite (fun _ => (followed_applyPending request).pre fun w hw => hw.1) fun hnone => ?_
  obtain rfl : request = none := by simpa using hnone
  exact Triple.ite (fun _ w hw => hw.1) fun _ => (followed_openNext d _).pre fun w hw => hw.1

theorem followed_retryStop (radio : Radio) :
    Triple (Followed (δ := δ) config none) (retryStop d radio) fun _ => Followed config none := by
  have hdriven := driven_still d
  rw [retryStop]
  refine Triple.bind (M := fun _ => Followed config none) (fun w hw => hw) fun r => ?_
  refine Triple.bind (followed_waitUntil d _) fun request => ?_
  refine Triple.bind (followed_gaveUp d _ request) fun early => ?_
  refine Triple.ite (fun _ => (followed_applyPending request).pre fun w hw => hw.1) fun hnone => ?_
  obtain rfl : request = none := by simpa using hnone
  refine Triple.ite (fun _ w hw => hw.1) fun _ => ?_
  refine Triple.bind ((still_followed (hdriven.stopReceiver radio) none).pre fun w hw => hw.1)
    fun stopped => Triple.ite (fun _ => ?_) fun _ => still_followed (hdriven.recover radio) _
  refine Triple.bind (still_followed (still_nowUs d) _) fun now => ?_
  exact still_followed (still_change fun r => settings_retryAt r _) _

theorem followed_schedule :
    Triple (Followed (δ := δ) config none) (schedule d) fun _ => Followed config none := by
  rw [schedule]
  refine Triple.bind (followed_pollControls d _) fun _ => ?_
  refine Triple.bind (M := fun _ => Followed config none) (fun w hw => hw) fun r => ?_
  cases r.stuck with
  | some radio => exact followed_retryStop d radio
  | none =>
    refine Triple.ite (fun _ => ?_) fun _ => followed_runWindow d
    refine Triple.bind (M := fun _ => Followed config none)
      (still_followed (still_change fun _ => rfl) _) fun _ => ?_
    exact Triple.bind (followed_waitUntil d _) fun request => followed_applyPending request

/-- Before its first step the runner has taken nothing and told nothing. -/
def Fresh (config : ObservationConfig) (w : World δ) : Prop :=
  w.controls = ⟨config, 0, false, [], []⟩

theorem followed_announce :
    Triple (fun w : World δ => Fresh (normalizeConfig config) w ∨
        Followed (normalizeConfig config) none w) announce
      fun _ => Followed (normalizeConfig config) none := by
  rintro w (hfresh | hw)
  · have hannounced : w.runner.announced = false := congrArg Controls.announced hfresh
    have hconfig : w.runner.scheduler.config = normalizeConfig config :=
      congrArg Controls.config hfresh
    have hgeneration : w.runner.configGeneration = 0 :=
      congrArg Controls.configGeneration hfresh
    have hpolled : polledOf w.calls = [] := congrArg Controls.polled hfresh
    have happlied : appliedOf w.calls = [] := congrArg Controls.applied hfresh
    have hidem := normalizeConfig_idem config
    change Followed _ none ((if w.runner.announced then Pure.pure () else _ : RadioM δ Unit) w).2
    rw [if_neg (by simp [hannounced])]
    refine ⟨[], ?_, ?_⟩
    · show polledOf (w.calls ++ [_]) = []
      rw [polledOf, List.filterMap_append, ← polledOf, hpolled]
      rfl
    · show Controls.Folded _ _ ⟨w.runner.scheduler.config, w.runner.configGeneration + 1, true, _,
        appliedOf (w.calls ++ [.emit (.configApplied (toConfigApplied
          (w.runner.configGeneration + 1) w.runner.scheduler.config))])⟩
      rw [appliedOf, List.filterMap_append, ← appliedOf, happlied, hconfig, hgeneration]
      refine ⟨hidem, rfl, rfl, rfl, ?_, rfl⟩
      simp [appliedConfig, changesOf, toObservationConfig_toConfigApplied, hidem]
  · obtain ⟨requests, hpolled, hfolded⟩ := id hw
    change Followed _ none ((if w.runner.announced then Pure.pure () else _ : RadioM δ Unit) w).2
    rw [if_pos (show w.runner.announced = true from hfolded.announced)]
    exact hw

theorem followed_step :
    Triple (fun w : World δ => Fresh (normalizeConfig config) w ∨
        Followed (normalizeConfig config) none w) (step d)
      fun _ => Followed (normalizeConfig config) none := by
  rw [step]
  refine Triple.bind followed_announce fun _ => ?_
  refine Triple.bind (M := fun _ => Followed _ none) (fun w hw => hw) fun r => ?_
  cases r.openWindow with
  | some o => exact followed_resumeWindow d o
  | none => exact followed_schedule d

/-- After each step. -/
theorem followed_run (driver : δ) (steps : ℕ) :
    Followed (normalizeConfig config) none (run d config driver (steps + 1)) := by
  induction steps with
  | zero => exact followed_step d _ (.inl rfl)
  | succ steps ih => exact followed_step d _ (.inr ih)

end Follow

theorem run_controls_fold (d : RadioDriver δ) (config : ObservationConfig) (driver : δ)
    (steps : ℕ) :
    let w := run d config driver (steps + 1)
    let changes := changesOf (normalizeConfig config) (polledOf w.calls)
    w.runner.scheduler.config = (polledOf w.calls).foldl merged (normalizeConfig config) ∧
      w.runner.configGeneration = UInt32.ofNat (1 + changes.length) ∧
      (appliedOf w.calls).map toObservationConfig = normalizeConfig config :: changes ∧
      (appliedOf w.calls).map ConfigAppliedMessage.configGeneration =
        (List.range (1 + changes.length)).map fun i => UInt32.ofNat (i + 1) := by
  intro w changes
  obtain ⟨requests, hpolled, hfolded⟩ := @followed_run _ config d driver steps
  obtain rfl : polledOf w.calls = requests := hpolled.trans (List.append_nil _)
  exact ⟨hfolded.fold, hfolded.generation, hfolded.told, hfolded.numbered⟩

end CydMonitor.Observation
