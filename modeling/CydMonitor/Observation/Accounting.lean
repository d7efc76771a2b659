import CydMonitor.Observation.Seam
import CydMonitor.Observation.Windows
import Mathlib.Data.List.Pairwise

/-!
# Window accounting

Read off the balanced books: what each opened window sent, and that the observed time of a
run never exceeds the time that passed on a clock that does not go back.
-/

namespace CydMonitor.Observation

open RadioRunner

/-- The windows a list of calls opened, oldest first. -/
def windowsOf (calls : List Event) : List WindowRecord :=
  (Ledger.of calls).windows.reverse

/-- The clock readings, oldest first. -/
def readingsOf (calls : List Event) : List UInt64 :=
  (Ledger.of calls).readings

/-- The messages about windows, oldest first. -/
def sentOf (calls : List Event) : List RadioMessage :=
  (Ledger.of calls).sent

def observedOf : RadioMessage → ℕ
  | .windowReport report => report.observedMs.toNat
  | _ => 0

/-- The milliseconds all reports together claim. -/
def observedTotal (sent : List RadioMessage) : ℕ :=
  (sent.map observedOf).sum

/-- The microseconds between the first and the last reading. -/
def elapsedUs (readings : List UInt64) : ℕ :=
  (readings.getLast?.getD 0).toNat - (readings.head?.getD 0).toNat

/-- The measured interval of one window ends before that of a later one starts. -/
def WindowRecord.Before (v v' : WindowRecord) : Prop :=
  ∀ rxEndUs ∈ v.rxEndUs, ∀ rxStartUs ∈ v'.rxStartUs, rxEndUs ≤ rxStartUs

/-- A window that has not been reported: WindowStarted alone, if its start worked. -/
structure WindowRecord.Held (v : WindowRecord) (n : ℕ) (o : OpenWindow) : Prop where
  messages : v.messages = if v.ok then [.windowStarted (startedMessage o)] else []
  ok : v.ok = o.started
  windowId : o.report.windowId = UInt32.ofNat n

theorem messagesOf_eq (ws : List WindowRecord) :
    messagesOf ws = ws.reverse.flatMap WindowRecord.messages := by
  induction ws with
  | nil => rfl
  | cons v ws ih => simp [messagesOf, ih]

theorem reported_of_allReported {ws : List WindowRecord} (h : AllReported ws) {i : ℕ}
    {v : WindowRecord} (hv : ws.reverse[i]? = some v) : ∃ report, v.Reported (i + 1) report := by
  induction ws with
  | nil => cases hv
  | cons w ws ih =>
    rw [List.reverse_cons] at hv
    by_cases hi : i < ws.length
    · rw [List.getElem?_append_left (by simpa using hi)] at hv
      exact ih h.2 hv
    · rw [List.getElem?_append_right (by simpa using hi)] at hv
      obtain ⟨hlt, rfl⟩ := List.getElem?_eq_some_iff.mp hv
      have hi' : i = ws.length := by
        simp only [List.length_reverse, List.length_singleton] at hlt
        omega
      subst hi'
      simpa using h.1

section Clock

private theorem mem_stamps_cons {v : WindowRecord} {ws : List WindowRecord} {us : UInt64}
    (h : us ∈ stamps ws) : us ∈ stamps (v :: ws) :=
  List.mem_append_left _ (List.mem_append_left _ h)

private theorem rxEnd_mem_stamps {ws : List WindowRecord} {v : WindowRecord} (hv : v ∈ ws)
    {us : UInt64} (hus : us ∈ v.rxEndUs) : us ∈ stamps ws := by
  induction ws with
  | nil => cases hv
  | cons w ws ih =>
    rcases List.mem_cons.mp hv with rfl | hv
    · exact List.mem_append_right _ (Option.mem_toList.mpr hus)
    · exact mem_stamps_cons (ih hv)

/-- Windows whose stamps are in order do not overlap. -/
theorem before_of_stamps {ws : List WindowRecord} (h : (stamps ws).Pairwise (· ≤ ·)) :
    ws.reverse.Pairwise WindowRecord.Before := by
  rw [List.pairwise_reverse]
  induction ws with
  | nil => exact .nil
  | cons v ws ih =>
    have hinit := (List.pairwise_append.mp h).1
    obtain ⟨hws, -, hstart⟩ := List.pairwise_append.mp hinit
    refine .cons (fun w hw rxEndUs hend rxStartUs hbegin => ?_) (ih hws)
    exact hstart rxEndUs (rxEnd_mem_stamps hw hend) rxStartUs (Option.mem_toList.mpr hbegin)

/-- Stamps in order between two bounds: the intervals add up to at most their distance. -/
theorem receiveUs_sum_le {ws : List WindowRecord} (h : (stamps ws).Pairwise (· ≤ ·))
    {lo hi : ℕ} (hlo : ∀ us ∈ stamps ws, lo ≤ us.toNat) (hhi : ∀ us ∈ stamps ws, us.toNat ≤ hi) :
    (ws.map WindowRecord.receiveUs).sum ≤ hi - lo := by
  induction ws generalizing hi with
  | nil => exact Nat.zero_le _
  | cons v ws ih =>
    have hinit := (List.pairwise_append.mp h).1
    obtain ⟨hws, -, hstart⟩ := List.pairwise_append.mp hinit
    have hlo' : ∀ us ∈ stamps ws, lo ≤ us.toNat := fun us hus => hlo us (mem_stamps_cons hus)
    have hrest := ih hws hlo' fun us hus => hhi us (mem_stamps_cons hus)
    rw [List.map_cons, List.sum_cons]
    cases hbegin : v.rxStartUs with
    | none => simpa [WindowRecord.receiveUs, hbegin] using hrest
    | some rxStartUs =>
      cases hend : v.rxEndUs with
      | none => simpa [WindowRecord.receiveUs, hbegin, hend] using hrest
      | some rxEndUs =>
        have hearlier := @ih hws rxStartUs.toNat hlo' fun us hus =>
          UInt64.le_iff_toNat_le.mp (hstart us hus rxStartUs (by simp [hbegin]))
        have hlow := hlo rxStartUs (by simp [stamps, hbegin])
        have hhigh := hhi rxEndUs (by simp [stamps, hend])
        simp only [WindowRecord.receiveUs, hbegin, hend]
        omega

theorem le_getLast {readings : List UInt64} (h : readings.Pairwise (· ≤ ·)) {us : UInt64}
    (hus : us ∈ readings) : us.toNat ≤ (readings.getLast?.getD 0).toNat := by
  induction readings using List.reverseRecOn with
  | nil => cases hus
  | append_singleton readings last _ =>
    rw [List.getLast?_concat, Option.getD_some]
    rcases List.mem_append.mp hus with hus | hus
    · exact UInt64.le_iff_toNat_le.mp
        ((List.pairwise_append.mp h).2.2 us hus last (List.mem_singleton_self _))
    · exact Nat.le_of_eq (congrArg UInt64.toNat (List.mem_singleton.mp hus))

theorem head_le {readings : List UInt64} (h : readings.Pairwise (· ≤ ·)) {us : UInt64}
    (hus : us ∈ readings) : (readings.head?.getD 0).toNat ≤ us.toNat := by
  cases readings with
  | nil => cases hus
  | cons first readings =>
    rcases List.mem_cons.mp hus with rfl | hus
    · exact Nat.le_refl _
    · exact UInt64.le_iff_toNat_le.mp ((List.pairwise_cons.mp h).1 us hus)

end Clock

theorem observedTotal_append (sent sent' : List RadioMessage) :
    observedTotal (sent ++ sent') = observedTotal sent + observedTotal sent' := by
  simp [observedTotal]

theorem WindowRecord.Reported.observed_le {v : WindowRecord} {n : ℕ} {report : WindowReport}
    (h : v.Reported n report) : observedTotal v.messages * 1000 ≤ v.receiveUs := by
  have hobserved : observedTotal v.messages = report.observedMs.toNat := by
    have hmessages := h.messages
    by_cases hok : v.ok = true
    · rw [if_pos hok] at hmessages
      obtain ⟨started, hmessages, -⟩ := hmessages
      simp [hmessages, observedTotal, observedOf]
    · rw [if_neg hok] at hmessages
      simp [hmessages, observedTotal, observedOf]
  rw [hobserved]
  exact h.measured

theorem observed_le_of_allReported {ws : List WindowRecord} (h : AllReported ws) :
    observedTotal (messagesOf ws) * 1000 ≤ (ws.map WindowRecord.receiveUs).sum := by
  induction ws with
  | nil => exact Nat.le_refl _
  | cons v ws ih =>
    obtain ⟨⟨report, hreport⟩, hws⟩ := h
    rw [messagesOf, observedTotal_append, List.map_cons, List.sum_cons, Nat.add_mul, Nat.add_comm]
    exact Nat.add_le_add hreport.observed_le (ih hws)

theorem Opened.observed {v : WindowRecord} {n : ℕ} {o : OpenWindow} {rxEndUs : Option UInt64}
    (h : Opened v n o rxEndUs) : observedTotal v.messages = 0 := by
  rw [h.messages]
  cases o.started <;> rfl

/-- What the reports claim lies in the measured intervals. -/
theorem observed_le_of_balanced {l : Ledger} {k : Core} (h : Balanced l k) :
    observedTotal l.sent * 1000 ≤ (l.windows.map WindowRecord.receiveUs).sum := by
  rw [Balanced] at h
  cases hopen : k.openWindow with
  | none =>
    rw [hopen] at h
    rw [h.sound.sent]
    exact observed_le_of_allReported h.reported
  | some o =>
    rw [hopen] at h
    obtain ⟨-, ⟨⟨v, ws, hws, hopened, hreported⟩, hsound, -, -, -⟩, -⟩ := h
    have hrest := observed_le_of_allReported hreported
    rw [hsound.sent, hws, messagesOf, observedTotal_append, hopened.observed, List.map_cons,
      List.sum_cons]
    omega

theorem sound_of_balanced {l : Ledger} {k : Core} (h : Balanced l k) : Sound l k := by
  rw [Balanced] at h
  cases hopen : k.openWindow with
  | none =>
    rw [hopen] at h
    exact h.sound
  | some o =>
    rw [hopen] at h
    exact h.2.1.sound

/-- Each window was reported, or it is the last one and still held. -/
theorem reported_or_held {l : Ledger} {k : Core} (h : Balanced l k) {i : ℕ} {v : WindowRecord}
    (hv : l.windows.reverse[i]? = some v) :
    (∃ report, v.Reported (i + 1) report) ∨
      i + 1 = l.windows.length ∧ ∃ o, k.openWindow = some o ∧ v.Held (i + 1) o ∧
        ∃ us, l.readings.getLast? = some us ∧ us < o.deadlineUs := by
  rw [Balanced] at h
  cases hopen : k.openWindow with
  | none =>
    rw [hopen] at h
    exact .inl (reported_of_allReported h.reported hv)
  | some o =>
    rw [hopen] at h
    obtain ⟨-, ⟨⟨w, ws, hws, hopened, hreported⟩, -, -, -, -⟩, hstalled⟩ := h
    rw [hws, List.reverse_cons] at hv
    by_cases hi : i < ws.length
    · rw [List.getElem?_append_left (by simpa using hi)] at hv
      exact .inl (reported_of_allReported hreported hv)
    · rw [List.getElem?_append_right (by simpa using hi)] at hv
      obtain ⟨hlt, rfl⟩ := List.getElem?_eq_some_iff.mp hv
      have hi' : i = ws.length := by
        simp only [List.length_reverse, List.length_singleton] at hlt
        omega
      subst hi'
      refine .inr ⟨by rw [hws]; rfl, o, rfl, ?_, hstalled⟩
      simp only [List.length_reverse, Nat.sub_self, List.getElem_cons_zero]
      exact ⟨by rw [hopened.messages, hopened.ok], hopened.ok, hopened.windowId⟩

/-- On a clock that does not go back, each opened window has its messages and its one
report, but for a last one held on a clock that still reads before its deadline; the
measured intervals are disjoint, and together the reports claim no more than the time that
passed. -/
theorem run_accounted {δ : Type} (d : RadioDriver δ) (config : ObservationConfig) (driver : δ)
    (steps : ℕ) (hclock : (readingsOf (run d config driver steps).calls).Pairwise (· ≤ ·)) :
    let w := run d config driver steps
    sentOf w.calls = (windowsOf w.calls).flatMap WindowRecord.messages ∧
      (∀ i v, (windowsOf w.calls)[i]? = some v →
        (∃ report, v.Reported (i + 1) report) ∨
          i + 1 = (windowsOf w.calls).length ∧ ∃ o, w.runner.openWindow = some o ∧
            v.Held (i + 1) o ∧
            ∃ us, (readingsOf w.calls).getLast? = some us ∧ us < o.deadlineUs) ∧
      (windowsOf w.calls).Pairwise WindowRecord.Before ∧
      observedTotal (sentOf w.calls) ≤ elapsedUs (readingsOf w.calls) / 1000 := by
  intro w
  have hbalanced := balanced_run d config driver steps
  have hsound := sound_of_balanced hbalanced
  have hstamps := hclock.sublist hsound.stamps
  refine ⟨?_, fun i v hv => ?_, before_of_stamps hstamps, ?_⟩
  · rw [windowsOf, ← messagesOf_eq]
    exact hsound.sent
  · have := reported_or_held hbalanced hv
    rwa [← List.length_reverse] at this
  · have hsum := receiveUs_sum_le hstamps
      (fun us hus => head_le hclock (hsound.stamps.subset hus))
      (fun us hus => le_getLast hclock (hsound.stamps.subset hus))
    have hclaimed := observed_le_of_balanced hbalanced
    rw [Nat.le_div_iff_mul_le (Nat.succ_pos _)]
    exact Nat.le_trans hclaimed hsum

/-- A driver whose receivers always work, with a clock of its own. -/
def clockDriver {δ : Type} (nowUs : StateM δ UInt64) : RadioDriver δ where
  nowUs
  beginWindow _ _ _ _ := pure ()
  endWindow := pure ()
  startWifi _ := pure {}
  stopWifi := pure {}
  startBle := pure {}
  stopBle := pure {}
  waitUntilUs _ := pure .kDeadline
  yield := pure ()
  drainEvents := pure ()
  takeDrops _ := pure 0
  takeUnattributed := pure 0
  dropsFirst _ := false
  poll := pure none

/-- A second passes between two readings. -/
def tickingDriver : RadioDriver UInt64 :=
  clockDriver fun us => (us, us + 1000000)

theorem run_accounted_ticking :
    (windowsOf (run tickingDriver {} 0 3).calls).Pairwise WindowRecord.Before ∧
      observedTotal (sentOf (run tickingDriver {} 0 3).calls) ≤
        elapsedUs (readingsOf (run tickingDriver {} 0 3).calls) / 1000 ∧
      (windowsOf (run tickingDriver {} 0 3).calls).length = 3 :=
  ⟨(run_accounted tickingDriver {} 0 3 (by decide +kernel)).2.2.1,
    (run_accounted tickingDriver {} 0 3 (by decide +kernel)).2.2.2, by decide +kernel⟩

def stalledDriver : RadioDriver Unit :=
  clockDriver (pure 0)

/-- A wait on a clock that stands brings nothing. -/
private theorem waitLoop_stalled (deadlineUs : UInt64) (stalledWakes : ℕ) (w : World Unit) :
    (waitLoop stalledDriver deadlineUs 0 stalledWakes w).1 = none := by
  induction hleft : kMaxStalledWakes - stalledWakes generalizing stalledWakes w with
  | zero =>
    rw [waitLoop]
    split
    · change ((if _ : (0 : UInt64) > 0 then waitLoop stalledDriver deadlineUs 0 0
        else if _ : stalledWakes + 1 > kMaxStalledWakes then _ else _ : RadioM Unit _) _).1 = none
      rw [dif_neg (UInt64.lt_irrefl _), dif_pos (by omega)]
      rfl
    · rfl
  | succ left ih =>
    rw [waitLoop]
    split
    · change ((if _ : (0 : UInt64) > 0 then waitLoop stalledDriver deadlineUs 0 0
        else if _ : stalledWakes + 1 > kMaxStalledWakes then _ else
          waitLoop stalledDriver deadlineUs 0 (stalledWakes + 1) : RadioM Unit _) _).1 = none
      rw [dif_neg (UInt64.lt_irrefl _), dif_neg (by omega)]
      exact ih _ _ (by omega)
    · rfl

private theorem holdWindow_stalled {w : World Unit} {o : OpenWindow}
    (hstuck : w.runner.stuck = none) (hdeadline : 0 < o.deadlineUs) :
    (holdWindow stalledDriver o w).1.2 = true := by
  have hpending : (waitUntil stalledDriver o.deadlineUs w).1 = none := waitLoop_stalled _ _ _
  change ((if w.runner.stuck.isSome then pure (none, false) else _ : RadioM Unit _) w).1.2 = true
  rw [if_neg (by rw [hstuck]; exact Bool.false_ne_true)]
  change (gaveUp stalledDriver o.deadlineUs (waitUntil stalledDriver o.deadlineUs w).1 _).1 = true
  rw [hpending]
  exact decide_eq_true hdeadline

private theorem resumeWindow_stalled {w : World Unit} {o : OpenWindow}
    (hstuck : w.runner.stuck = none) (hdeadline : 0 < o.deadlineUs) :
    World.Quiet w (resumeWindow stalledDriver o w).2 := by
  have hquiet := (quiet stalledDriver).holdWindow o w
  change World.Quiet w ((if (holdWindow stalledDriver o w).1.2 then pure () else _ : RadioM Unit _)
    (holdWindow stalledDriver o w).2).2
  rw [holdWindow_stalled hstuck hdeadline]
  exact hquiet

/-- A window held on a clock that stands before its deadline: the step changes nothing. -/
private theorem step_stalled {w : World Unit} {o : OpenWindow} (hopen : w.core.openWindow = some o)
    (hstuck : w.core.stuck = none) (hdeadline : 0 < o.deadlineUs) :
    World.Quiet w (step stalledDriver w).2 := by
  have hannounced : World.Quiet w ((announce : RadioM Unit Unit) w).2 :=
    (quiet stalledDriver).announce w
  have hopen' : ((announce : RadioM Unit Unit) w).2.runner.openWindow = some o :=
    (congrArg Core.openWindow hannounced.1).trans hopen
  have hstuck' : ((announce : RadioM Unit Unit) w).2.runner.stuck = none :=
    (congrArg Core.stuck hannounced.1).trans hstuck
  refine IsTrans.trans _ _ _ hannounced ?_
  rw [step]
  dsimp only [bind, StateT.bind]
  generalize (announce : RadioM Unit Unit) w = p at hopen' hstuck' ⊢
  obtain ⟨u, w'⟩ := p
  unfold RadioRunner.read
  dsimp only at hopen' ⊢
  rw [hopen']
  exact resumeWindow_stalled hstuck' hdeadline

/-- A world whose clock has only read zero. -/
private def ReadsZero (w : World Unit) : Prop :=
  ∀ us ∈ w.ledger.readings, us = 0

private def KeepsZero (w w' : World Unit) : Prop :=
  ReadsZero w → ReadsZero w'

instance : Std.Refl KeepsZero where
  refl _ h := h

instance : IsTrans (World Unit) KeepsZero where
  trans _ _ _ h h' hw := h' (h hw)

private theorem keepsZero_call {α : Type} {f : StateM Unit α} {note : α → Event}
    (h : ∀ s l, Ledger.noteReading l (note (f s).1) = l ∨
      Ledger.noteReading l (note (f s).1) = l ++ [0]) :
    Prog.Within KeepsZero (call f note) := by
  intro w hw us hus
  change us ∈ (Ledger.of (w.calls ++ [note (f w.driver).1])).readings at hus
  rw [Ledger.of_append] at hus
  change us ∈ Ledger.noteReading (Ledger.of w.calls).readings _ at hus
  rcases h w.driver (Ledger.of w.calls).readings with hnote | hnote
  · rw [hnote] at hus
    exact hw us hus
  · rw [hnote] at hus
    rcases List.mem_append.mp hus with hus | hus
    · exact hw us hus
    · exact List.mem_singleton.mp hus

private theorem keepsZero_emit (message : RadioMessage) :
    Prog.Within KeepsZero (emit message : RadioM Unit Unit) := by
  intro w hw us hus
  change us ∈ (Ledger.of (w.calls ++ [.emit message])).readings at hus
  rw [Ledger.of_append] at hus
  exact hw us hus

private theorem keepsZero_update (f : RadioRunner → RadioRunner) :
    Prog.Within KeepsZero (update f : RadioM Unit Unit) :=
  fun _ hw => hw

private theorem keepsZero_clearFault (radio : Radio) :
    Prog.Within KeepsZero (clearFault radio : RadioM Unit Unit) :=
  within_clearFault inferInstance inferInstance (fun f _ => keepsZero_update f)
    (fun _ => keepsZero_emit _) radio

private theorem keepsZero_noteFault (radio : Radio) (result : DriverResult) :
    Prog.Within KeepsZero (noteFault radio result : RadioM Unit Unit) :=
  within_noteFault inferInstance inferInstance (fun f _ => keepsZero_update f)
    (fun _ => keepsZero_emit _) radio result

private theorem seam_stalled : Seam stalledDriver KeepsZero where
  refl := inferInstance
  trans := inferInstance
  adjust f _ := keepsZero_update f
  change f _ _ := keepsZero_update f
  noteFault := keepsZero_noteFault
  clearDisabled := within_clearDisabled inferInstance inferInstance keepsZero_clearFault
  countClean := within_countClean inferInstance inferInstance (fun f _ => keepsZero_update f)
    keepsZero_clearFault
  noteStopFailure := within_noteStopFailure (fun f _ => keepsZero_update f) inferInstance
    (keepsZero_call fun _ _ => .inr rfl) keepsZero_noteFault
  recover := within_recover (fun f _ => keepsZero_update f) inferInstance
    (keepsZero_call fun _ _ => .inl rfl) (keepsZero_call fun _ _ => .inl rfl)
    keepsZero_clearFault
  emitConfig := Prog.Within.bind (within_read inferInstance) fun _ => keepsZero_emit _
  windowStarted _ := keepsZero_emit _
  windowReport _ := keepsZero_emit _
  nowUs := keepsZero_call fun _ _ => .inr rfl
  poll := keepsZero_call fun _ _ => .inl rfl
  waitUntilUs _ := keepsZero_call fun _ _ => .inl rfl
  yield := keepsZero_call fun _ _ => .inl rfl
  beginWindow _ _ _ _ := keepsZero_call fun _ _ => .inl rfl
  endWindow := keepsZero_call fun _ _ => .inl rfl
  start window := by
    rw [startReceiver]
    cases window.radio with
    | kWifi => exact keepsZero_call fun _ _ => .inl rfl
    | kBle => exact keepsZero_call fun _ _ => .inl rfl
  stop radio := by
    cases radio with
    | kWifi => exact keepsZero_call fun _ _ => .inl rfl
    | kBle => exact keepsZero_call fun _ _ => .inl rfl
  drainEvents := keepsZero_call fun _ _ => .inl rfl
  takeDrops _ := keepsZero_call fun _ _ => .inl rfl
  takeUnattributed := keepsZero_call fun _ _ => .inl rfl

private theorem steady_stalled (steps : ℕ) :
    (readingsOf (run stalledDriver {} () steps).calls).Pairwise (· ≤ ·) := by
  have hzero : ReadsZero (run stalledDriver {} () steps) :=
    seam_stalled.run (fun _ _ h => h) {} () (fun _ hus => absurd hus List.not_mem_nil) steps
  rw [List.pairwise_iff_forall_sublist]
  intro us us' hsub
  rw [hzero us (hsub.subset (by simp)), hzero us' (hsub.subset (by simp))]
  exact UInt64.le_refl 0

/-- What the first step over the stalled driver leaves: one open window without a report. -/
private def StalledOpen (w : World Unit) : Prop :=
  w.ledger.windows.length = 1 ∧
    w.ledger.sent = [.windowStarted ⟨1, 1, .kWifi, 1, 0, 205⟩] ∧ w.core.stuck = none ∧
    ∃ o, w.core.openWindow = some o ∧ 0 < o.deadlineUs

private theorem stalledOpen_run (steps : ℕ) :
    StalledOpen (run stalledDriver {} () (steps + 1)) := by
  induction steps with
  | zero =>
    refine ⟨by decide +kernel, by decide +kernel, by decide +kernel, ?_⟩
    have hopen : (run stalledDriver {} () 1).core.openWindow.any (0 < ·.deadlineUs) = true := by
      decide +kernel
    obtain ⟨o, ho, hdeadline⟩ := (Option.any_eq_true _ _).mp hopen
    exact ⟨o, ho, of_decide_eq_true hdeadline⟩
  | succ steps ih =>
    obtain ⟨hwindows, hsent, hstuck, o, hopen, hdeadline⟩ := ih
    obtain ⟨hcore, rs, -, hledger⟩ := step_stalled hopen hstuck hdeadline
    refine ⟨?_, ?_, (congrArg Core.stuck hcore).trans hstuck, o,
      (congrArg Core.openWindow hcore).trans hopen, hdeadline⟩
    · exact (congrArg (fun l => l.windows.length) hledger).trans hwindows
    · exact (congrArg Ledger.sent hledger).trans hsent

/-- On a clock that stands, the window of the first step is never reported. -/
theorem run_accounted_stalled :
    (windowsOf (run stalledDriver {} () 0).calls).length = 0 ∧
      ∀ steps, (readingsOf (run stalledDriver {} () (steps + 1)).calls).Pairwise (· ≤ ·) ∧
        (windowsOf (run stalledDriver {} () (steps + 1)).calls).length = 1 ∧
        sentOf (run stalledDriver {} () (steps + 1)).calls =
          [.windowStarted ⟨1, 1, .kWifi, 1, 0, 205⟩] := by
  refine ⟨rfl, fun steps => ?_⟩
  obtain ⟨hwindows, hsent, -⟩ := stalledOpen_run steps
  refine ⟨steady_stalled _, ?_, hsent⟩
  rw [windowsOf, List.length_reverse]
  exact hwindows

end CydMonitor.Observation
