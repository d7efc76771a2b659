import CydMonitor.Observation.Balance

/-!
# Every step keeps the books balanced

The functions of the runner in the order in which they call each other, each with what it
leaves in the books.
-/

namespace CydMonitor.Observation

open RadioRunner Prog World

variable {δ : Type} (d : RadioDriver δ) {l : Ledger} {k : Core}

/-- The receiver of the window has been dealt with; its drops are still to be taken. -/
structure Ending (o : OpenWindow) (rxEndUs : UInt64) (l : Ledger) (k : Core) : Prop where
  record : ∃ v ws, l.windows = v :: ws ∧ Opened v (ws.length + 1) o (some rxEndUs) ∧
    AllReported ws
  sound : Sound l k
  taken : Taken l k.carriedDrops
  phase : At (if o.started then .drained k.stuck o.report.windowId else .held k.stuck) l k

theorem Ending.later {o : OpenWindow} {rxEndUs : UInt64} {rs : List UInt64}
    (h : Ending o rxEndUs l k) (hrs : l.readings <+: rs) :
    Ending o rxEndUs { l with readings := rs } k :=
  ⟨h.record, h.sound.later hrs, h.taken, h.phase.phase, h.phase.running⟩

/-- The books after EndWindow, the stop and the drain. -/
def afterClose (l : Ledger) (o : OpenWindow) (result : DriverResult) : Ledger :=
  ((l.note .endWindow).note (.stop o.window.radio result)).note .drainEvents

private theorem running_stopped {radio : Radio} (result : DriverResult)
    (h : ∀ x, k.running x = decide (x ∈ [radio])) (x : Radio) :
    (k.stopped radio result).running x = decide (x ∈ (Phase.afterStop radio result).toList) := by
  by_cases hok : result.ok = true
  · by_cases hx : x = radio
    · simp [Core.stopped, Phase.afterStop, hok, hx]
    · simp [Core.stopped, Phase.afterStop, hok, h, hx]
  · simp [Core.stopped, Phase.afterStop, hok, h]

private theorem at_drained {o : OpenWindow}
    (hphase : l.phase = some (.receiving o.window.radio o.report.windowId))
    (hrunning : ∀ x, k.running x =
      decide (x ∈ (Phase.receiving o.window.radio o.report.windowId).maybeOn))
    (result : DriverResult) {rs : List UInt64} :
    At (.drained (Phase.afterStop o.window.radio result) o.report.windowId)
      (afterClose { l with readings := rs } o result)
      { k.stopped o.window.radio result with
        stuck := Phase.afterStop o.window.radio result } := by
  refine ⟨?_, running_stopped result hrunning⟩
  simp [afterClose, Ledger.note, hphase]

theorem ending_afterClose {o : OpenWindow} {rxEndUs : UInt64} (h : Pending o l k)
    (hstarted : o.started = true) (result : DriverResult) :
    Ending o rxEndUs
      (afterClose { l with readings := l.readings ++ [rxEndUs] } o result)
      { k.stopped o.window.radio result with
        stuck := Phase.afterStop o.window.radio result } := by
  obtain ⟨⟨v, ws, hws, hopened, hreported⟩, hsound, htaken, ⟨hphase, hrunning⟩, hstuck⟩ := h
  simp only [heldPhase, hstarted, if_true] at hphase hrunning
  have hwindows : (afterClose { l with readings := l.readings ++ [rxEndUs] } o result).windows =
      { v with rxEndUs := some rxEndUs } :: ws := by
    simp [afterClose, Ledger.note, Ledger.noteWindow, Ledger.noteReading, hws]
  refine ⟨⟨{ v with rxEndUs := some rxEndUs }, ws, hwindows, ?_, hreported⟩, ⟨?_, ?_, ?_⟩, ?_, ?_⟩
  · exact ⟨hopened.radio, hopened.channel, hopened.ok, hopened.window, hopened.windowId,
      hopened.deadline, hopened.messages, hopened.rxStart, by simp [hstarted]⟩
  · rw [hwindows]
    have := hsound.ids
    rw [hws] at this
    exact this
  · have hstamps := hsound.stamps
    rw [hws] at hstamps
    rw [hwindows]
    have hend := hopened.rxEnd
    simp only [hstarted, if_true] at hend
    simp only [stamps, hend, Option.toList_none, List.append_nil] at hstamps
    exact hstamps.append (List.Sublist.refl [rxEndUs])
  · have hsent := hsound.sent
    rw [hws] at hsent
    rw [hwindows]
    exact hsent
  · exact htaken
  · rw [if_pos hstarted]
    exact at_drained hphase hrunning result

/-- A receiver that stopped, or would not: the fault is noted and nothing is owed. -/
theorem meets_noteStop {radio : Radio} {result : DriverResult} {Q : Unit → Ledger → Core → Prop}
    (hstuck : k.stuck = none)
    (h : ∀ rs, l.readings <+: rs →
      Q () { l with readings := rs } { k with stuck := Phase.afterStop radio result }) :
    Meets (noteStop d radio result) Q l k := by
  rw [noteStop]
  refine Meets.ite (fun hfailed => ?_) fun hok => ?_
  · simp only [Bool.not_eq_true'] at hfailed
    refine meets_noteStopFailure d fun rs hrs => ?_
    have := h rs hrs
    simpa [Phase.afterStop, hfailed] using this
  · simp only [Bool.not_eq_true', Bool.not_eq_false] at hok
    have := h l.readings List.prefix_rfl
    simp only [Phase.afterStop, hok, if_true, ← hstuck] at this
    exact Meets.pure this

theorem meets_closeReceiver {o : OpenWindow} {rxEndUs : UInt64}
    {Q : Bool → Ledger → Core → Prop} (h : Pending o l k)
    (hQ : ∀ faulted l k, Ending o rxEndUs l k → Q faulted l k) :
    Meets (closeReceiver d o) Q { l with readings := l.readings ++ [rxEndUs] } k := by
  rw [closeReceiver]
  refine Meets.ite (fun hstarted => ?_) fun hfailed => ?_
  · have hstuck := h.stuck hstarted
    refine Meets.bind (Meets.call fun _ => Meets.bind (meets_stopReceiver d fun result => ?_))
    refine Meets.bind (Meets.call fun _ => ?_)
    have hending : Ending o rxEndUs _ _ := ending_afterClose h hstarted result
    refine Meets.ite (fun hfailed => ?_) fun hok => ?_
    · simp only [Bool.not_eq_true'] at hfailed
      refine Meets.bind (meets_noteStopFailure d fun rs hrs => Meets.pure (hQ _ _ _ ?_))
      have hleft : Phase.afterStop o.window.radio result = some o.window.radio := by
        simp [Phase.afterStop, hfailed]
      rw [hleft] at hending
      exact hending.later hrs
    · simp only [Bool.not_eq_true', Bool.not_eq_false] at hok
      refine Meets.pure (hQ _ _ _ ?_)
      have hleft : Phase.afterStop o.window.radio result = k.stuck := by
        simp [Phase.afterStop, hok, hstuck]
      rw [hleft] at hending
      exact hending
  · obtain ⟨⟨v, ws, hws, hopened, hreported⟩, hsound, htaken, hphase, hstuck⟩ :=
      h.later (List.prefix_append l.readings [rxEndUs])
    refine Meets.pure (hQ _ _ _ ⟨⟨v, ws, hws, ?_, hreported⟩, hsound, htaken, ?_⟩)
    · exact ⟨hopened.radio, hopened.channel, hopened.ok, hopened.window, hopened.windowId,
        hopened.deadline, hopened.messages, hopened.rxStart, by simp [hfailed, hopened.rxEnd]⟩
    · rw [heldPhase, if_neg hfailed] at hphase
      rwa [if_neg hfailed]

/-- The drops are taken: what is still to come is the report. -/
structure Ended (o : OpenWindow) (rxEndUs : UInt64) (dropped : UInt32) (l : Ledger) (k : Core) :
    Prop where
  record : ∃ v ws, l.windows = v :: ws ∧ Opened v (ws.length + 1) o (some rxEndUs) ∧
    AllReported ws
  sound : Sound l k
  taken : Taken l dropped
  carried : k.carriedDrops = 0
  phase : At (Phase.rest k.stuck) l k

theorem Ended.later {o : OpenWindow} {rxEndUs : UInt64} {dropped : UInt32} {rs : List UInt64}
    (h : Ended o rxEndUs dropped l k) (hrs : l.readings <+: rs) :
    Ended o rxEndUs dropped { l with readings := rs } k :=
  ⟨h.record, h.sound.later hrs, h.taken, h.carried, h.phase.phase, h.phase.running⟩

/-- Each of the two counts is taken once, and nothing else changes. -/
structure Charged (taken : UInt32) (l : Ledger) (k : Core) (l' : Ledger) : Prop where
  phase : l'.phase = some (Phase.rest k.stuck)
  windows : l'.windows = l.windows
  readings : l'.readings = l.readings
  sent : l'.sent = l.sent
  taken : taken < kUint32Max → l'.taken = l.taken + taken.toNat

private theorem phase_ending {o : OpenWindow} {rxEndUs : UInt64} (h : Ending o rxEndUs l k) :
    l.phase = some (.drained k.stuck o.report.windowId) ∨ l.phase = some (.held k.stuck) := by
  have hphase := h.phase.phase
  split at hphase
  · exact Or.inl hphase
  · exact Or.inr hphase

private theorem charged_dropsFirst {o : OpenWindow} {rxEndUs : UInt64} (h : Ending o rxEndUs l k)
    (drops unattributed : UInt32) : Charged (saturatingAdd32 drops unattributed) l k
      ((l.note (.takeDrops o.report.windowId drops)).note (.takeUnattributed unattributed)) := by
  refine ⟨?_, ?_, rfl, rfl, fun hlt => ?_⟩
  · rcases phase_ending h with hphase | hphase <;> simp [Ledger.note, hphase]
  · rcases l with ⟨_, _ | _, _, _, _⟩ <;> rfl
  · rw [(saturatingAdd32_lt hlt).2.2]
    exact Nat.add_assoc ..

private theorem charged_dropsLast {o : OpenWindow} {rxEndUs : UInt64} (h : Ending o rxEndUs l k)
    (drops unattributed : UInt32) : Charged (saturatingAdd32 drops unattributed) l k
      ((l.note (.takeUnattributed unattributed)).note (.takeDrops o.report.windowId drops)) := by
  refine ⟨?_, ?_, rfl, rfl, fun hlt => ?_⟩
  · rcases phase_ending h with hphase | hphase <;> simp [Ledger.note, hphase]
  · rcases l with ⟨_, _ | _, _, _, _⟩ <;> rfl
  · rw [(saturatingAdd32_lt hlt).2.2]
    exact (Nat.add_right_comm ..).trans (Nat.add_assoc ..)

theorem meets_takeBoth {o : OpenWindow} {rxEndUs : UInt64} {Q : UInt32 → Ledger → Core → Prop}
    (h : Ending o rxEndUs l k) (hQ : ∀ taken l', Charged taken l k l' → Q taken l' k) :
    Meets (takeBoth d o.report.windowId) Q l k := by
  rw [takeBoth]
  refine Meets.bind (meets_dropsFirst d fun first => Meets.ite (fun _ => ?_) fun _ => ?_)
  · refine Meets.bind (Meets.call fun drops => Meets.bind (Meets.call fun unattributed => ?_))
    exact Meets.pure (hQ _ _ (charged_dropsFirst h drops unattributed))
  · refine Meets.bind (Meets.call fun unattributed => Meets.bind (Meets.call fun drops => ?_))
    exact Meets.pure (hQ _ _ (charged_dropsLast h drops unattributed))

/-- The runner knows the same receivers on before and after the drops are taken. -/
private theorem running_rest {o : OpenWindow} {rxEndUs : UInt64} (h : Ending o rxEndUs l k)
    (x : Radio) : k.running x = decide (x ∈ (Phase.rest k.stuck).maybeOn) := by
  have hrunning := h.phase.running x
  have hsame : (Phase.rest k.stuck).maybeOn = k.stuck.toList := by
    cases k.stuck <;> rfl
  rw [hsame]
  by_cases hstarted : o.started = true
  · rwa [if_pos hstarted] at hrunning
  · rwa [if_neg hstarted] at hrunning

theorem meets_chargeDrops {o : OpenWindow} {rxEndUs : UInt64} {Q : UInt32 → Ledger → Core → Prop}
    (h : Ending o rxEndUs l k) (hQ : ∀ dropped l k, Ended o rxEndUs dropped l k → Q dropped l k) :
    Meets (chargeDrops d o.report.windowId) Q l k := by
  rw [chargeDrops]
  refine Meets.bind (meets_takeBoth d h fun taken l' hcharged => ?_)
  refine Meets.bind (Meets.read fun r hr => Meets.bind ?_)
  refine Meets.update (fun k => { k with carriedDrops := 0 }) (fun _ => rfl)
    (Meets.pure (hQ _ _ _ ?_))
  obtain ⟨v, ws, hws, hopened, hreported⟩ := h.record
  have hwindows := hcharged.windows
  have hrunning := running_rest h
  refine ⟨⟨v, ws, hwindows.trans hws, hopened, hreported⟩, ⟨?_, ?_, ?_⟩, ?_, rfl, hcharged.phase,
    hrunning⟩
  · rw [hwindows]
    exact h.sound.ids
  · rw [hwindows, hcharged.readings]
    exact h.sound.stamps
  · rw [hwindows, hcharged.sent]
    exact h.sound.sent
  · intro hsent hdropped
    rw [hcharged.sent] at hsent ⊢
    obtain ⟨hboth, hcarried, hsum⟩ := saturatingAdd32_lt hdropped
    have hk : r.carriedDrops = k.carriedDrops := by rw [← hr]; rfl
    have htaken := h.taken hsent (hk ▸ hcarried)
    rw [hsum, hk, hcharged.taken hboth]
    omega

/-- The record of the window once its report is sent. -/
def WindowRecord.sending (v : WindowRecord) (report : WindowReport) : WindowRecord :=
  { v with messages := v.messages ++ [.windowReport report] }

private theorem reported_closing {v : WindowRecord} {n : ℕ} {o : OpenWindow}
    {rxEndUs : UInt64} (h : Opened v n o (some rxEndUs)) (doneUs : UInt64) (faulted cut : Bool)
    (dropped : UInt32) :
    (v.sending (closing o rxEndUs doneUs faulted cut dropped)).Reported n
      (closing o rxEndUs doneUs faulted cut dropped) := by
  obtain ⟨hplanned, hmeasured⟩ := @toNat_observedMs_le o rxEndUs h.deadline
  refine ⟨?_, h.windowId, ?_, ?_, ?_, fun hok => ?_, ?_⟩
  · by_cases hstarted : o.started = true
    · simp only [WindowRecord.sending, h.ok, hstarted, if_true, h.messages]
      exact ⟨startedMessage o, rfl, rfl, h.radio.symm, h.channel.symm⟩
    · simp [WindowRecord.sending, h.ok, hstarted, h.messages]
  · show o.report.window.radio = v.radio
    rw [h.window, h.radio]
  · show o.report.window.channel = v.channel
    rw [h.window, h.channel]
  · show observedMs o rxEndUs ≤ o.report.window.plannedMs
    rw [h.window]
    exact UInt32.le_iff_toNat_le.mpr hplanned
  · exact observedMs_failed (h.ok.symm.trans hok) rxEndUs
  · show (observedMs o rxEndUs).toNat * 1000 ≤ v.receiveUs
    by_cases hstarted : o.started = true
    · simpa [WindowRecord.receiveUs, h.rxStart, h.rxEnd, hstarted] using hmeasured
    · rw [observedMs_failed (by simpa using hstarted)]
      exact Nat.zero_le _

private theorem taken_report {report : WindowReport} (h : Taken l report.droppedEvents) :
    Taken (l.note (.emit (.windowReport report))) 0 := by
  intro hsent _
  have hdropped : report.droppedEvents < kUint32Max :=
    hsent report (List.mem_append_right _ (List.mem_singleton_self _))
  have htaken := h (fun report' hmem => hsent report' (List.mem_append_left _ hmem)) hdropped
  show l.taken = charged (l.sent ++ [.windowReport report]) + 0
  simp [charged, dropsOf] at htaken ⊢
  exact htaken

private theorem phase_emit (message : RadioMessage) : (l.note (.emit message)).phase = l.phase := by
  simp [Ledger.note]

/-- Sending the report settles the window. -/
theorem closed_report {o : OpenWindow} {rxEndUs : UInt64} {dropped : UInt32}
    (h : Ended o rxEndUs dropped l k) (doneUs : UInt64) (faulted cut : Bool) :
    Closed (l.note (.emit (.windowReport (closing o rxEndUs doneUs faulted cut dropped)))) k := by
  obtain ⟨⟨v, ws, hws, hopened, hreported⟩, ⟨hids, hstamps, hsent⟩, htaken, hcarried,
    ⟨hphase, hrunning⟩⟩ := h
  have hwindows :
      (l.note (.emit (.windowReport (closing o rxEndUs doneUs faulted cut dropped)))).windows =
        v.sending (closing o rxEndUs doneUs faulted cut dropped) :: ws := by
    simp [Ledger.note, Ledger.noteWindow, hws, Ledger.ofWindow, WindowRecord.sending]
  rw [hws] at hids hstamps hsent
  refine ⟨?_, ⟨?_, ?_, ?_⟩, ?_, (phase_emit _).trans hphase, hrunning⟩
  · rw [hwindows]
    exact ⟨⟨_, reported_closing hopened doneUs faulted cut dropped⟩, hreported⟩
  · rw [hwindows]
    exact hids
  · rw [hwindows]
    exact hstamps
  · rw [hwindows]
    show l.sent ++ _ = messagesOf ws ++ (v.messages ++ _)
    rw [hsent]
    exact List.append_assoc ..
  · rw [hcarried]
    exact taken_report htaken

theorem meets_finishWindow {o : OpenWindow} {pending : Option ControlRequest}
    {Q : Unit → Ledger → Core → Prop} (h : Pending o l k) (hQ : ∀ l k, Closed l k → Q () l k) :
    Meets (finishWindow d o pending) Q l k := by
  rw [finishWindow]
  refine Meets.bind (meets_nowUs d fun rxEndUs => Meets.bind ?_)
  refine meets_closeReceiver d h fun faulted l k hending => Meets.bind ?_
  refine meets_chargeDrops d hending fun dropped l k hended => Meets.bind ?_
  refine meets_nowUs d fun doneUs => Meets.bind (Meets.quiet (quiet_countClean _ _ _) ?_)
  intro _ rs hrs
  have hclosed := closed_report ((hended.later (List.prefix_append ..)).later hrs) doneUs faulted
    pending.isSome
  refine Meets.bind (Meets.emit (Meets.bind (Meets.update id (fun _ => rfl) ?_)))
  exact Meets.quiet ((quiet d).applyPending pending) fun _ rs hrs => hQ _ _ (hclosed.later hrs)

theorem meets_gaveUp {deadlineUs : UInt64} {pending : Option ControlRequest}
    {Q : Bool → Ledger → Core → Prop}
    (h : ∀ early rs, l.readings <+: rs →
      (early = true → ∃ us, rs.getLast? = some us ∧ us < deadlineUs) →
      Q early { l with readings := rs } k) :
    Meets (gaveUp d deadlineUs pending) Q l k := by
  rw [gaveUp]
  refine Meets.ite (fun _ => Meets.pure (h false l.readings List.prefix_rfl fun hearly => ?_))
    fun _ => ?_
  · exact absurd hearly Bool.false_ne_true
  refine Meets.bind (meets_nowUs d fun us => Meets.pure (h _ _ (List.prefix_append ..) ?_))
  exact fun hearly => ⟨us, List.getLast?_concat, of_decide_eq_true hearly⟩

theorem meets_holdWindow {o : OpenWindow} {Q : Option ControlRequest × Bool → Ledger → Core → Prop}
    (h : ∀ held rs, l.readings <+: rs →
      (held.2 = true → k.stuck = none ∧ ∃ us, rs.getLast? = some us ∧ us < o.deadlineUs) →
      Q held { l with readings := rs } k) :
    Meets (holdWindow d o) Q l k := by
  rw [holdWindow]
  refine Meets.bind (Meets.read fun r hr => Meets.ite (fun _ => ?_) fun hfree => ?_)
  · exact Meets.pure (h (none, false) l.readings List.prefix_rfl fun hearly =>
      absurd hearly Bool.false_ne_true)
  refine Meets.bind (Meets.quiet ((quiet d).waitUntil _) fun pending rs hrs => Meets.bind ?_)
  refine meets_gaveUp d fun early rs' hrs' hearly => Meets.pure (h _ rs' (hrs.trans hrs') ?_)
  have hstuck : k.stuck = none := by
    rw [← hr]
    exact Option.not_isSome_iff_eq_none.mp hfree
  exact fun he => ⟨hstuck, hearly he⟩

theorem Closed.balanced (h : Closed l k) :
    Balanced l { k with openWindow := none } :=
  ⟨h.reported, ⟨h.sound.ids, h.sound.stamps, h.sound.sent⟩, h.taken,
    h.phase.phase, h.phase.running⟩

/-- An open window is waited out and settled, or left open by a clock that stands. -/
theorem meets_resumeWindow {o : OpenWindow} (hopen : k.openWindow = some o)
    (h : Pending o l k) : Meets (resumeWindow d o) (fun _ => Balanced) l k := by
  rw [resumeWindow]
  refine Meets.bind (meets_holdWindow d fun held rs hrs hearly => Meets.ite (fun he => ?_) ?_)
  · refine Meets.pure ?_
    rw [Balanced, hopen]
    exact ⟨(hearly he).1, h.later hrs, (hearly he).2⟩
  · intro _
    refine Meets.bind (meets_finishWindow d (h.later hrs) fun l k hclosed => ?_)
    exact Meets.update (fun k => { k with openWindow := none }) (fun _ => rfl) hclosed.balanced

/-- The record a start call opens. -/
def Window.record (window : Window) (ok : Bool) : WindowRecord where
  radio := window.radio
  channel := window.channel
  ok

/-- No window is open and nothing is stuck; the identity of the next one is taken. -/
structure Ready (o : OpenWindow) (l : Ledger) (k : Core) : Prop where
  reported : AllReported l.windows
  ids : k.windowId = UInt32.ofNat (l.windows.length + 1)
  stamps : (stamps l.windows).Sublist l.readings
  sent : l.sent = messagesOf l.windows
  taken : Taken l k.carriedDrops
  phase : l.phase = some .off
  running : ∀ radio, k.running radio = false
  stuck : k.stuck = none
  window : o.report.window = o.window
  windowId : o.report.windowId = k.windowId
  deadline : o.deadlineUs = saturatingAdd o.startUs (o.window.plannedMs.toUInt64 * kUsPerMs)
  started : o.started = false

private theorem windows_start (window : Window) (result : DriverResult) :
    (l.note (.start window.radio window.channel result)).windows =
      window.record result.ok :: l.windows := by
  rcases l with ⟨_, _ | _, _, _, _⟩ <;> rfl

private theorem running_started {radio : Radio} (h : ∀ x, k.running x = false) (x : Radio) :
    Function.update k.running radio true x = decide (x ∈ [radio]) := by
  by_cases hx : x = radio
  · simp [hx]
  · simp [hx, h]

/-- The books after a start that worked: the clock reading, BeginWindow, WindowStarted. -/
def afterStart (l : Ledger) (o : OpenWindow) (result : DriverResult) (rxStartUs : UInt64) :
    Ledger :=
  (({ l.note (.start o.window.radio o.window.channel result) with
      readings := l.readings ++ [rxStartUs] }.note
    (.beginWindow o.report.windowId o.report.configGeneration rxStartUs o.deadlineUs)).note
    (.emit (.windowStarted (startedMessage { o with started := true, rxStartUs }))))

theorem pending_afterStart {o : OpenWindow} (h : Ready o l k) {result : DriverResult}
    (hok : result.ok = true) (rxStartUs : UInt64) :
    Pending { o with started := true, rxStartUs } (afterStart l o result rxStartUs)
      { k with running := Function.update k.running o.window.radio true } := by
  have hwindows : (afterStart l o result rxStartUs).windows =
      { o.window.record true with
        rxStartUs := some rxStartUs
        messages := [.windowStarted (startedMessage { o with started := true, rxStartUs })] } ::
        l.windows := by
    simp [afterStart, Ledger.note, Ledger.noteWindow, Ledger.noteReading, Ledger.ofWindow, hok,
      Window.record]
  refine ⟨⟨_, l.windows, hwindows, ⟨rfl, rfl, rfl, h.window, ?_, h.deadline, rfl, rfl, rfl⟩,
    h.reported⟩, ⟨?_, ?_, ?_⟩, ?_, ⟨?_, running_started h.running⟩, fun _ => h.stuck⟩
  · exact h.windowId.trans h.ids
  · rw [hwindows]
    exact h.ids
  · rw [hwindows]
    simp only [stamps, Window.record, Option.toList_some, Option.toList_none, List.append_nil]
    exact h.stamps.append (List.Sublist.refl [rxStartUs])
  · rw [hwindows]
    show l.sent ++ _ = messagesOf l.windows ++ _
    rw [h.sent]
    rfl
  · intro hsent howed
    have htaken := h.taken (fun report hmem => hsent report (List.mem_append_left _ hmem)) howed
    show l.taken = charged (l.sent ++ [_]) + _
    simpa [charged, dropsOf] using htaken
  · simp [afterStart, Ledger.note, h.phase, hok, heldPhase]

/-- A start that failed and the stop that followed it. -/
theorem pending_abandoned {o : OpenWindow} (h : Ready o l k) {result stopped : DriverResult}
    (hfailed : result.ok = false) {rs : List UInt64} (hrs : l.readings <+: rs) :
    Pending { o with faulted := true }
      ({ l.note (.start o.window.radio o.window.channel result) with readings := rs }.note
        (.stop o.window.radio stopped))
      { Core.stopped { k with running := Function.update k.running o.window.radio true }
          o.window.radio stopped with
        stuck := Phase.afterStop o.window.radio stopped } := by
  have hwindows :
      ({ l.note (.start o.window.radio o.window.channel result) with readings := rs }.note
        (.stop o.window.radio stopped)).windows = o.window.record false :: l.windows := by
    rw [← hfailed, ← windows_start]
    simp [Ledger.note, Ledger.noteWindow]
  refine ⟨⟨_, l.windows, hwindows, ⟨rfl, rfl, ?_, h.window, ?_, h.deadline, ?_, ?_, ?_⟩,
    h.reported⟩, ⟨?_, ?_, ?_⟩, h.taken, ⟨?_, ?_⟩, ?_⟩
  · exact h.started.symm
  · exact h.windowId.trans h.ids
  · simp [h.started, Window.record]
  · simp [h.started, Window.record]
  · simp [h.started, Window.record]
  · rw [hwindows]
    exact h.ids
  · rw [hwindows]
    simp only [stamps, Window.record, Option.toList_none, List.append_nil]
    exact h.stamps.trans hrs.sublist
  · rw [hwindows]
    show l.sent = messagesOf l.windows ++ []
    rw [h.sent, List.append_nil]
  · simp [Ledger.note, h.phase, hfailed, heldPhase, h.started]
  · simp only [heldPhase, h.started]
    exact running_stopped stopped (running_started h.running)
  · intro hstarted
    rw [h.started] at hstarted
    cases hstarted

theorem meets_abandonStart {o : OpenWindow} {result : DriverResult}
    {Q : OpenWindow → Ledger → Core → Prop} (h : Ready o l k) (hfailed : result.ok = false)
    (hQ : ∀ o' l' k', k'.openWindow = k.openWindow → Pending o' l' k' → Q o' l' k') :
    Meets (abandonStart d o result) Q (l.note (.start o.window.radio o.window.channel result))
      k := by
  rw [abandonStart]
  refine Meets.bind (Meets.quiet (quiet_noteFault _ _) fun _ rs hrs => Meets.bind ?_)
  refine Meets.update (fun k => { k with running := Function.update k.running o.window.radio true })
    (fun _ => rfl) (Meets.bind (meets_stopReceiver d fun stopped => Meets.bind ?_))
  refine meets_noteStop d h.stuck fun rs' hrs' => Meets.pure (hQ _ _ _ rfl ?_)
  exact (pending_abandoned h hfailed hrs).later hrs'

theorem meets_startWindow {o : OpenWindow} {Q : OpenWindow → Ledger → Core → Prop}
    (h : Ready o l k)
    (hQ : ∀ o' l' k', k'.openWindow = k.openWindow → Pending o' l' k' → Q o' l' k') :
    Meets (startWindow d o) Q l k := by
  rw [startWindow]
  refine Meets.bind (meets_startReceiver d fun result => Meets.ite (fun hok => ?_) ?_)
  · refine Meets.bind (Meets.update
      (fun k => { k with running := Function.update k.running o.window.radio true })
      (fun _ => rfl) ?_)
    refine Meets.bind (meets_nowUs d fun rxStartUs => Meets.bind (Meets.call fun _ => ?_))
    refine Meets.bind (Meets.emit (Meets.pure (hQ _ _ _ ?_ ?_)))
    · rfl
    · exact pending_afterStart h hok rxStartUs
  · intro hfailed
    exact meets_abandonStart d h (by simpa using hfailed) hQ

theorem meets_beginOpen {o : OpenWindow} {Q : OpenWindow → Ledger → Core → Prop}
    (h : Ready o l k)
    (hQ : ∀ o' l' k', k'.openWindow = k.openWindow → Pending o' l' k' → Q o' l' k') :
    Meets (beginOpen d o) Q l k := by
  rw [beginOpen, stopOther]
  refine Meets.bind (Meets.bind (Meets.read fun r hr => Meets.ite (fun hon => ?_) fun _ => ?_))
  · -- the other receiver is never on here
    have hoff : r.running (other o.window.radio) = false := by
      rw [show r.running = k.running from congrArg Core.running hr]
      exact h.running _
    rw [hoff] at hon
    cases hon
  · exact Meets.pure (Meets.ite (fun h => absurd h Bool.false_ne_true) fun _ =>
      meets_startWindow d h hQ)

theorem ready_opening {r : RadioRunner} (h : Closed l k)
    (hr : r.core = { k with windowId := k.windowId + 1 }) (hstuck : k.stuck = none)
    (window : Window) (startUs : UInt64) :
    Ready (opening r window startUs) l { k with windowId := k.windowId + 1 } := by
  have hphase := h.phase
  rw [hstuck] at hphase
  refine ⟨h.reported, ?_, h.sound.stamps, h.sound.sent, h.taken, hphase.phase, ?_, hstuck, rfl,
    congrArg Core.windowId hr, rfl, rfl⟩
  · show k.windowId + 1 = _
    rw [h.sound.ids, UInt32.ofNat_add]
    rfl
  · simpa [Phase.maybeOn, Phase.rest] using hphase.running

theorem meets_openWindowAt {startUs : UInt64} {window : Window} (h : Closed l k)
    (hstuck : k.stuck = none) : Meets (openWindowAt d startUs window) (fun _ => Balanced) l k := by
  rw [openWindowAt]
  refine Meets.bind (Meets.update (fun k => { k with windowId := k.windowId + 1 })
    (fun _ => rfl) ?_)
  refine Meets.bind (Meets.read fun r hr => ?_)
  refine Meets.bind (meets_beginOpen d (ready_opening h hr hstuck window startUs) ?_)
  intro o l k _ hpending
  refine Meets.bind (Meets.update (fun k => { k with openWindow := some o }) (fun _ => rfl) ?_)
  refine meets_resumeWindow d rfl ?_
  exact ⟨hpending.record, ⟨hpending.sound.ids, hpending.sound.stamps, hpending.sound.sent⟩,
    hpending.taken, ⟨hpending.phase.phase, hpending.phase.running⟩, hpending.stuck⟩

theorem meets_openNext {startUs : UInt64} (h : Closed l k) (hstuck : k.stuck = none)
    (hopen : k.openWindow = none) : Meets (openNext d startUs) (fun _ => Balanced) l k := by
  rw [openNext]
  refine Meets.bind (Meets.quiet ((quiet d).takeWindow startUs) fun window rs hrs => ?_)
  have hclosed := h.later hrs
  cases window with
  | none =>
    refine Meets.pure ?_
    rw [Balanced, hopen]
    exact hclosed
  | some window => exact meets_openWindowAt d hclosed hstuck

theorem Closed.balanced_of (h : Closed l k) (hopen : k.openWindow = none) : Balanced l k := by
  rw [Balanced, hopen]
  exact h

include d in
theorem meets_applyPending {pending : Option ControlRequest} (h : Closed l k)
    (hopen : k.openWindow = none) :
    Meets (applyPending pending : RadioM δ Unit) (fun _ => Balanced) l k := by
  exact Meets.quiet ((quiet d).applyPending pending) fun _ _ hrs => (h.later hrs).balanced_of hopen

theorem meets_runWindow (h : Closed l k) (hstuck : k.stuck = none) (hopen : k.openWindow = none) :
    Meets (runWindow d) (fun _ => Balanced) l k := by
  rw [runWindow]
  refine Meets.bind (Meets.quiet (quiet d).nowUs fun now rs₁ h₁ => Meets.bind ?_)
  refine Meets.quiet (quiet d).read fun r rs₂ h₂ => Meets.bind ?_
  refine Meets.quiet ((quiet d).waitUntil _) fun request rs₃ h₃ => Meets.bind ?_
  refine Meets.quiet ((quiet d).gaveUp _ _) fun early rs₄ h₄ => ?_
  have hclosed := (((h.later h₁).later h₂).later h₃).later h₄
  refine Meets.ite (fun _ => meets_applyPending d hclosed hopen) fun _ => ?_
  refine Meets.ite (fun _ => Meets.pure (hclosed.balanced_of hopen)) fun _ => ?_
  exact meets_openNext d hclosed hstuck hopen

private theorem windows_stop (radio : Radio) (result : DriverResult) :
    (l.note (.stop radio result)).windows = l.windows := by
  rcases l with ⟨_, _ | _, _, _, _⟩ <;> rfl

/-- The stop failed again: everything stands as it was. -/
theorem closed_retried {radio : Radio} (h : Closed l k) (hstuck : k.stuck = some radio)
    {result : DriverResult} (hfailed : result.ok = false) :
    Closed (l.note (.stop radio result)) (k.stopped radio result) := by
  have hphase := h.phase.phase
  rw [hstuck] at hphase
  have hwindows := windows_stop (l := l) radio result
  refine ⟨?_, ⟨?_, ?_, ?_⟩, h.taken, ?_, ?_⟩
  · rw [hwindows]
    exact h.reported
  · rw [hwindows]
    exact h.sound.ids
  · rw [hwindows]
    exact h.sound.stamps
  · rw [hwindows]
    exact h.sound.sent
  · show (l.phase.bind _) = some (Phase.rest k.stuck)
    rw [hphase, hstuck]
    simp [Phase.rest, hfailed]
  · simpa [Core.stopped, hfailed] using h.phase.running

private theorem windows_recover (radio : Radio) (result : DriverResult) (unattributed : UInt32) :
    (((l.note (.stop radio result)).note .drainEvents).note
      (.takeUnattributed unattributed)).windows = l.windows := by
  rcases l with ⟨_, _ | _, _, _, _⟩ <;> rfl

/-- The stop worked: the drops that came in meanwhile are carried to the next report. -/
theorem closed_recovered {radio : Radio} (h : Closed l k) (hstuck : k.stuck = some radio)
    {result : DriverResult} (hok : result.ok = true) (unattributed : UInt32) :
    Closed (((l.note (.stop radio result)).note .drainEvents).note
        (.takeUnattributed unattributed))
      { k.stopped radio result with
        stuck := none
        carriedDrops := saturatingAdd32 k.carriedDrops unattributed } := by
  have hphase := h.phase.phase
  have hrunning := h.phase.running
  rw [hstuck] at hphase hrunning
  have hwindows := windows_recover (l := l) radio result unattributed
  refine ⟨?_, ⟨?_, ?_, ?_⟩, ?_, ?_, fun x => ?_⟩
  · rw [hwindows]
    exact h.reported
  · rw [hwindows]
    exact h.sound.ids
  · rw [hwindows]
    exact h.sound.stamps
  · rw [hwindows]
    exact h.sound.sent
  · intro hsent howed
    obtain ⟨hcarried, -, hsum⟩ := saturatingAdd32_lt howed
    have htaken := h.taken hsent hcarried
    rw [hsum]
    show l.taken + unattributed.toNat = charged l.sent + _
    omega
  · simp [Ledger.note, hphase, Phase.rest, hok]
  · have hoff := running_stopped result hrunning x
    simpa [Phase.afterStop, hok, Phase.rest, Phase.maybeOn] using hoff

theorem meets_recover {radio : Radio} {result : DriverResult} (h : Closed l k)
    (hstuck : k.stuck = some radio) (hok : result.ok = true) (hopen : k.openWindow = none) :
    Meets (recover d radio) (fun _ => Balanced) (l.note (.stop radio result))
      (k.stopped radio result) := by
  rw [recover]
  refine Meets.bind (Meets.update (fun k => { k with stuck := none }) (fun _ => rfl) ?_)
  refine Meets.bind (Meets.call fun _ => Meets.bind (Meets.call fun unattributed => ?_))
  refine Meets.bind (Meets.update
    (fun k => { k with carriedDrops := saturatingAdd32 k.carriedDrops unattributed })
    (fun _ => rfl) ?_)
  have hclosed := closed_recovered h hstuck hok unattributed
  exact Meets.quiet (quiet_clearFault radio) fun _ rs hrs =>
    (hclosed.later hrs).balanced_of hopen

theorem meets_retryStop {radio : Radio} (h : Closed l k) (hstuck : k.stuck = some radio)
    (hopen : k.openWindow = none) : Meets (retryStop d radio) (fun _ => Balanced) l k := by
  rw [retryStop]
  refine Meets.bind (Meets.quiet (quiet d).read fun r rs₁ h₁ => Meets.bind ?_)
  refine Meets.quiet ((quiet d).waitUntil _) fun request rs₂ h₂ => Meets.bind ?_
  refine Meets.quiet ((quiet d).gaveUp _ _) fun early rs₃ h₃ => ?_
  have hclosed := ((h.later h₁).later h₂).later h₃
  refine Meets.ite (fun _ => meets_applyPending d hclosed hopen) fun _ => ?_
  refine Meets.ite (fun _ => Meets.pure (hclosed.balanced_of hopen)) fun _ => ?_
  refine Meets.bind (meets_stopReceiver d fun result => Meets.ite (fun hfailed => ?_) ?_)
  · have hretried := closed_retried hclosed hstuck (by simpa using hfailed)
    refine Meets.bind (Meets.quiet (quiet d).nowUs fun now rs₄ h₄ => ?_)
    exact Meets.update id (fun r => core_retryAt r _) ((hretried.later h₄).balanced_of hopen)
  · intro hok
    exact meets_recover d hclosed hstuck (by simpa using hok) hopen

theorem meets_schedule (h : Closed l k) (hopen : k.openWindow = none) :
    Meets (schedule d) (fun _ => Balanced) l k := by
  rw [schedule]
  refine Meets.bind (Meets.quiet ((quiet d).pollControls _) fun _ rs hrs => Meets.bind ?_)
  refine Meets.read fun r hr => ?_
  have hclosed := h.later hrs
  have hk : r.stuck = k.stuck := congrArg Core.stuck hr
  cases hstuck : r.stuck with
  | some radio => exact meets_retryStop d hclosed (hk ▸ hstuck) hopen
  | none =>
    refine Meets.ite (fun _ => ?_) fun _ => meets_runWindow d hclosed (hk ▸ hstuck) hopen
    exact Meets.quiet (quiet d).idle fun _ rs hrs => (hclosed.later hrs).balanced_of hopen

/-- A step keeps the books balanced. -/
theorem meets_step (h : Balanced l k) : Meets (step d) (fun _ => Balanced) l k := by
  rw [step]
  refine Meets.bind (Meets.quiet (quiet d).announce fun _ rs hrs => Meets.bind ?_)
  refine Meets.read fun r hr => ?_
  have hk : r.openWindow = k.openWindow := congrArg Core.openWindow hr
  cases hopen : r.openWindow with
  | none =>
    rw [Balanced, ← hk, hopen] at h
    exact meets_schedule d (h.later hrs) (hk ▸ hopen)
  | some o =>
    rw [Balanced, ← hk, hopen] at h
    exact meets_resumeWindow d (hk ▸ hopen) (h.2.1.later hrs)

theorem balanced_boot (config : ObservationConfig) (driver : δ) :
    Balanced (boot config driver).ledger (boot config driver).core :=
  ⟨trivial, ⟨rfl, List.Sublist.refl _, rfl⟩, fun _ _ => rfl, rfl, fun _ => rfl⟩

/-- The books balance after any number of steps, whatever the driver does. -/
theorem balanced_run (config : ObservationConfig) (driver : δ) (steps : ℕ) :
    Balanced (run d config driver steps).ledger (run d config driver steps).core := by
  have hstep : Triple (fun w : World δ => Balanced w.ledger w.core) (step d)
      fun _ w => Balanced w.ledger w.core := by
    intro w hw
    have hmeets := meets_step d hw
    exact hmeets w ⟨rfl, rfl⟩
  exact repeated_invariant hstep (balanced_boot config driver) steps

end CydMonitor.Observation
