import CydMonitor.Observation.Coverage
import Mathlib.Algebra.GroupWithZero.Nat
import Mathlib.Algebra.Order.BigOperators.Group.List
import Mathlib.Algebra.Order.Group.Nat
import Mathlib.Data.List.Induction

/-!
# The picture and its history

What the app loop knows is told by the messages it received: each radio's totals are the sums of
its reports, the gaps are the latest ones, and the status bar shows a radio at work only on a
recent report that observed enough.
-/

namespace CydMonitor.Observation

def RadioMessage.reportOf (radio : Radio) : RadioMessage → Option WindowReport
  | .windowReport report => if report.window.radio = radio then some report else none
  | _ => none

def RadioMessage.report : RadioMessage → Option WindowReport
  | .windowReport report => some report
  | _ => none

/-- A radio's reports, oldest first. -/
def reportsOf (radio : Radio) (messages : List RadioMessage) : List WindowReport :=
  messages.filterMap (RadioMessage.reportOf radio)

def gapsOf (messages : List RadioMessage) : List CoverageGap :=
  ((messages.filterMap RadioMessage.report).filter fun report =>
    isGap report.counted report.window.plannedMs).map WindowReport.gap

/-- What a message makes of the fault shown for a radio. -/
def faultAfter (radio : Radio) (shown : Option (FaultOp × Int32)) :
    RadioMessage → Option (FaultOp × Int32)
  | .fault f => if f.radio = radio then some (f.op, f.code) else shown
  | .faultCleared radio' => if radio' = radio then none else shown
  | _ => shown

def faultTold (radio : Radio) (messages : List RadioMessage) : Option (FaultOp × Int32) :=
  messages.foldl (faultAfter radio) none

def RadioMessage.config : RadioMessage → Option ConfigAppliedMessage
  | .configApplied config => some config
  | _ => none

def configTold (messages : List RadioMessage) : Option ConfigAppliedMessage :=
  (messages.filterMap RadioMessage.config).getLast?

@[simp] theorem reportsOf_append (radio : Radio) (l l' : List RadioMessage) :
    reportsOf radio (l ++ l') = reportsOf radio l ++ reportsOf radio l' :=
  List.filterMap_append

@[simp] theorem faultTold_concat (radio : Radio) (messages : List RadioMessage)
    (message : RadioMessage) :
    faultTold radio (messages ++ [message]) = faultAfter radio (faultTold radio messages) message :=
  List.foldl_concat ..

@[simp] theorem picture_concat (messages : List RadioMessage) (message : RadioMessage) :
    picture (messages ++ [message]) = (picture messages).pump message :=
  List.foldl_concat ..

theorem configTold_concat (messages : List RadioMessage) (message : RadioMessage) :
    configTold (messages ++ [message]) = (message.config <|> configTold messages) := by
  rw [configTold, List.filterMap_append]
  cases hconfig : message.config with
  | none => simp [configTold, hconfig]
  | some config => simp [hconfig]

/-- The picture's faults are those that the messages tell. -/
theorem faults_picture (messages : List RadioMessage) (radio : Radio) :
    (picture messages).ledger.faults radio =
      (faultTold radio messages).elim [] fun fault => faultText fault.1 fault.2 := by
  induction messages using List.reverseRecOn with
  | nil => rfl
  | append_singleton messages message ih =>
    rw [picture_concat, faultTold_concat]
    cases message with
    | fault f =>
      by_cases hradio : f.radio = radio
      · simp [RadioApp.pump, CoverageLedger.setFault, faultAfter, hradio]
      · simpa [RadioApp.pump, CoverageLedger.setFault, faultAfter, hradio,
          Function.update_of_ne (Ne.symm hradio)] using ih
    | faultCleared radio' =>
      by_cases hradio : radio' = radio
      · simp [RadioApp.pump, CoverageLedger.clearFault, CoverageLedger.setFault, faultAfter, hradio]
      · simpa [RadioApp.pump, CoverageLedger.clearFault, CoverageLedger.setFault, faultAfter,
          hradio, Function.update_of_ne (Ne.symm hradio)] using ih
    | _ => exact ih

/-- The picture's configuration is the last one told. -/
theorem config_picture (messages : List RadioMessage) :
    (picture messages).config = (configTold messages).elim {} toObservationConfig ∧
      (picture messages).generation =
        (configTold messages).elim 0 ConfigAppliedMessage.configGeneration := by
  induction messages using List.reverseRecOn with
  | nil => exact ⟨rfl, rfl⟩
  | append_singleton messages message ih =>
    rw [picture_concat, configTold_concat]
    cases message with
    | configApplied config => exact ⟨rfl, rfl⟩
    | _ => exact ih

theorem totals_picture (messages : List RadioMessage) (radio : Radio) :
    (picture messages).ledger.totals radio =
      (reportsOf radio messages).foldl RadioTotals.add {} := by
  induction messages using List.reverseRecOn with
  | nil => rfl
  | append_singleton messages message ih =>
    rw [picture_concat, reportsOf_append, List.foldl_append]
    cases message with
    | windowReport report =>
      by_cases hradio : report.window.radio = radio
      · subst hradio
        simp [RadioApp.pump, CoverageLedger.record, reportsOf, RadioMessage.reportOf, ih]
      · simp [RadioApp.pump, CoverageLedger.record, reportsOf, RadioMessage.reportOf, hradio,
          Function.update_of_ne (Ne.symm hradio), ih]
    | _ => exact ih

private theorem pushGap_drop (gaps : List CoverageGap) (gap : CoverageGap) :
    CoverageLedger.pushGap (gaps.drop (gaps.length - kMaxGaps)) gap =
      (gaps ++ [gap]).drop ((gaps ++ [gap]).length - kMaxGaps) := by
  have hdrop : gaps.drop (gaps.length - kMaxGaps) ++ [gap] =
      (gaps ++ [gap]).drop (gaps.length - kMaxGaps) := by
    rw [List.drop_append_of_le_length (Nat.sub_le ..)]
  rw [CoverageLedger.pushGap, hdrop]
  split_ifs with hlong
  · rw [List.tail_drop]
    congr 1
    simp only [List.length_drop, List.length_append, List.length_singleton] at hlong ⊢
    omega
  · congr 1
    simp only [List.length_drop, List.length_append, List.length_singleton] at hlong ⊢
    omega

/-- Older gaps roll off. -/
theorem gaps_picture (messages : List RadioMessage) :
    (picture messages).ledger.gaps =
      (gapsOf messages).drop ((gapsOf messages).length - kMaxGaps) := by
  induction messages using List.reverseRecOn with
  | nil => rfl
  | append_singleton messages message ih =>
    rw [picture_concat]
    cases message with
    | windowReport report =>
      by_cases hgap : isGap report.counted report.window.plannedMs = true
      · have hgaps : gapsOf (messages ++ [.windowReport report]) =
            gapsOf messages ++ [report.gap] := by
          simp [gapsOf, RadioMessage.report, hgap]
        rw [hgaps, ← pushGap_drop, ← ih]
        simp [RadioApp.pump, CoverageLedger.record, hgap]
      · have hgaps : gapsOf (messages ++ [.windowReport report]) = gapsOf messages := by
          simp [gapsOf, RadioMessage.report, hgap]
        rw [hgaps, ← ih]
        simp [RadioApp.pump, CoverageLedger.record, hgap]
    | _ =>
      rw [show gapsOf (messages ++ [_]) = gapsOf messages by simp [gapsOf, RadioMessage.report]]
      exact ih

/-- Time planned for, and observed in, the windows reported. -/
def plannedTime (reports : List WindowReport) : ℕ :=
  (reports.map fun report => report.window.plannedMs.toNat).sum

def observedTime (reports : List WindowReport) : ℕ :=
  (reports.map fun report => report.counted.toNat).sum

theorem counted_le (report : WindowReport) :
    report.counted.toNat ≤ report.window.plannedMs.toNat := by
  rw [WindowReport.counted]
  change (if report.observedMs ≤ report.window.plannedMs then report.observedMs
    else report.window.plannedMs).toNat ≤ _
  split_ifs with hle
  · exact UInt32.le_iff_toNat_le.mp hle
  · exact Nat.le_refl _

theorem observedTime_le (reports : List WindowReport) :
    observedTime reports ≤ plannedTime reports :=
  List.sum_le_sum fun report _ => counted_le report

/-- The totals of a list of reports, while the clock can count them. -/
theorem totals_add (reports : List WindowReport) (h : plannedTime reports < 2 ^ 64) :
    (reports.foldl RadioTotals.add {}).plannedMs.toNat = plannedTime reports ∧
      (reports.foldl RadioTotals.add {}).observedMs.toNat = observedTime reports := by
  induction reports using List.reverseRecOn with
  | nil => exact ⟨rfl, rfl⟩
  | append_singleton reports report ih =>
    have hplanned : plannedTime (reports ++ [report]) =
        plannedTime reports + report.window.plannedMs.toNat := by
      simp [plannedTime]
    have hobserved : observedTime (reports ++ [report]) =
        observedTime reports + report.counted.toNat := by
      simp [observedTime]
    have hle := observedTime_le (reports ++ [report])
    rw [hplanned] at h hle
    obtain ⟨ihplanned, ihobserved⟩ := ih (by omega)
    rw [List.foldl_concat, hplanned, hobserved]
    rw [hobserved] at hle
    refine ⟨?_, ?_⟩
    · rw [RadioTotals.add, UInt64.toNat_add, ihplanned, UInt32.toNat_toUInt64,
        Nat.mod_eq_of_lt h]
    · rw [RadioTotals.add, UInt64.toNat_add, ihobserved, UInt32.toNat_toUInt64,
        Nat.mod_eq_of_lt (by omega)]

/-- The last report is the one the totals show. -/
theorem last_add (reports : List WindowReport) (report : WindowReport) :
    ((reports ++ [report]).foldl RadioTotals.add {}).lastReportMs = some report.completedMs ∧
      ((reports ++ [report]).foldl RadioTotals.add {}).lastPlannedMs = report.window.plannedMs ∧
      ((reports ++ [report]).foldl RadioTotals.add {}).lastObservedMs = report.counted := by
  rw [List.foldl_concat]
  exact ⟨rfl, rfl, rfl⟩

def revisitFor (config : ObservationConfig) : Radio → UInt32
  | .kWifi => wifiRevisitFor config
  | .kBle => bleRevisitFor config

/-- The channel aside, a radio's view is its own. -/
def OwnView (given : ObservationConfig) (ledger : CoverageLedger) (nowMs : UInt64) (radio : Radio)
    (v : RadioCoverageView) : Prop :=
  ∃ channel, v =
    { makeRadioView (enabledIn (normalizeConfig given) radio) (ledger.totals radio)
        (ledger.faults radio) (revisitFor (normalizeConfig given) radio) nowMs with
      lastChannel := channel }

theorem radio_latest (view : CoverageView) (ledger : CoverageLedger) (radio : Radio) :
    (view.latest ledger).radio radio = view.radio radio := by
  rw [CoverageView.latest]
  split_ifs <;> cases radio <;> rfl

theorem radio_showChannel (view : CoverageView) (which radio : Radio) (channel : UInt8) :
    ∃ shown, (view.showChannel which channel).radio radio =
      { view.radio radio with lastChannel := shown } := by
  cases which with
  | kWifi =>
    rw [CoverageView.showChannel]
    split_ifs
    · cases radio with
      | kWifi => exact ⟨channel, rfl⟩
      | kBle => exact ⟨_, rfl⟩
    · exact ⟨_, rfl⟩
  | kBle =>
    rw [CoverageView.showChannel]
    split_ifs
    · cases radio with
      | kWifi => exact ⟨_, rfl⟩
      | kBle => exact ⟨channel, rfl⟩
    · exact ⟨_, rfl⟩

theorem own_view (given : ObservationConfig) (ledger : CoverageLedger) (nowMs : UInt64)
    (active : Option ActiveWindow) (radio : Radio) :
    OwnView given ledger nowMs radio
      ((makeCoverageView given ledger nowMs active).radio radio) := by
  unfold makeCoverageView
  dsimp only
  generalize hview : CoverageView.mk _ _ _ _ _ = view
  have hown : OwnView given ledger nowMs radio (view.radio radio) := by
    subst hview
    cases radio <;> exact ⟨_, rfl⟩
  have hshown (which : Radio) (channel : UInt8) :
      OwnView given ledger nowMs radio ((view.showChannel which channel).radio radio) := by
    obtain ⟨channel', hchannel⟩ := hown
    obtain ⟨shown, hradio⟩ := radio_showChannel view which radio channel
    exact ⟨shown, by rw [hradio, hchannel]⟩
  cases active with
  | none => rw [radio_latest]; exact hown
  | some window =>
    dsimp only
    split_ifs
    · rw [radio_latest]
      exact hown
    · rw [radio_latest]
      exact hshown .kWifi window.channel
    · rw [radio_latest]
      exact hown
    · have hcurrent (view : CoverageView) (current : Option Radio) :
          CoverageView.radio { view with current } radio = view.radio radio := by
        cases radio <;> rfl
      rw [hcurrent]
      exact hshown window.radio window.channel
    · rw [radio_latest]
      exact hown

theorem state_makeRadioView (enabled : Bool) (totals : RadioTotals) (fault : List Char)
    (revisitMs : UInt32) (nowMs : UInt64) :
    (makeRadioView enabled totals fault revisitMs nowMs).state =
      if enabled = false then .kOperatorDisabled
      else if fault ≠ [] then .kFault
      else if stale totals revisitMs nowMs = true then .kNoData
      else if isGap totals.lastObservedMs totals.lastPlannedMs = true then .kGap
      else .kObserving := by
  rw [makeRadioView]
  cases enabled with
  | false => rfl
  | true =>
    cases fault with
    | nil =>
      cases stale totals revisitMs nowMs with
      | true => rfl
      | false => cases isGap totals.lastObservedMs totals.lastPlannedMs <;> rfl
    | cons c fault => rfl

theorem permille_makeRadioView (totals : RadioTotals) (fault : List Char) (revisitMs : UInt32)
    (nowMs : UInt64) (hfits : totals.observedMs.toNat * 1000 < 2 ^ 64)
    (hshare : totals.observedMs.toNat * 1000 / totals.plannedMs.toNat < 2 ^ 32) :
    (makeRadioView true totals fault revisitMs nowMs).observedPermille.toNat =
      totals.observedMs.toNat * 1000 / totals.plannedMs.toNat := by
  have hview : (makeRadioView true totals fault revisitMs nowMs).observedPermille =
      if totals.plannedMs > 0 then (totals.observedMs * 1000 / totals.plannedMs).toUInt32
      else 0 := by
    cases fault with
    | nil =>
      rw [makeRadioView]
      cases stale totals revisitMs nowMs <;> rfl
    | cons c fault => rfl
  rw [hview]
  by_cases hsome : totals.plannedMs > 0
  · have hproduct : (totals.observedMs * 1000).toNat = totals.observedMs.toNat * 1000 := by
      rw [UInt64.toNat_mul]
      exact Nat.mod_eq_of_lt hfits
    rw [if_pos hsome, UInt64.toNat_toUInt32, UInt64.toNat_div, hproduct, Nat.mod_eq_of_lt hshare]
  · have hzero : totals.plannedMs.toNat = 0 :=
      Nat.eq_zero_of_not_pos fun hpos => hsome (UInt64.lt_iff_toNat_lt.mpr hpos)
    rw [if_neg hsome, hzero, Nat.div_zero]
    rfl

/-- The coverage of every history: sums over a radio's reports, the latest gaps, and the share of
its planned time that it observed. -/
theorem coverage_of_history (messages : List RadioMessage) (radio : Radio)
    (h : plannedTime (reportsOf radio messages) * 1000 < 2 ^ 64) :
    ((picture messages).ledger.totals radio).plannedMs.toNat =
        plannedTime (reportsOf radio messages) ∧
      ((picture messages).ledger.totals radio).observedMs.toNat =
        observedTime (reportsOf radio messages) ∧
      (picture messages).ledger.gaps =
        (gapsOf messages).drop ((gapsOf messages).length - kMaxGaps) ∧
      ∀ (given : ObservationConfig) (nowMs : UInt64) (active : Option ActiveWindow),
        enabledIn (normalizeConfig given) radio = true →
        (((makeCoverageView given (picture messages).ledger nowMs active).radio
            radio).observedPermille).toNat =
          observedTime (reportsOf radio messages) * 1000 / plannedTime (reportsOf radio messages) ∧
        (((makeCoverageView given (picture messages).ledger nowMs active).radio
            radio).observedPermille).toNat ≤ 1000 := by
  have hle := observedTime_le (reportsOf radio messages)
  obtain ⟨hplanned, hobserved⟩ := totals_add (reportsOf radio messages) (by omega)
  rw [← totals_picture] at hplanned hobserved
  refine ⟨hplanned, hobserved, gaps_picture messages, fun given nowMs active henabled => ?_⟩
  obtain ⟨channel, hview⟩ := own_view given (picture messages).ledger nowMs active radio
  have hshare : observedTime (reportsOf radio messages) * 1000 /
      plannedTime (reportsOf radio messages) ≤ 1000 :=
    Nat.div_le_of_le_mul (Nat.mul_le_mul_right 1000 hle)
  have hpermille := permille_makeRadioView ((picture messages).ledger.totals radio)
    ((picture messages).ledger.faults radio) (revisitFor (normalizeConfig given) radio) nowMs
  rw [hobserved, hplanned] at hpermille
  have hequal := hpermille (Nat.lt_of_le_of_lt (Nat.mul_le_mul_right 1000 hle) h)
    (Nat.lt_of_le_of_lt hshare (by decide))
  rw [hview, henabled]
  exact ⟨hequal, Nat.le_trans (Nat.le_of_eq hequal) hshare⟩

/-- A window of which less than half was observed, then a whole one. -/
def cutThenWhole : List RadioMessage :=
  [.windowReport { window := { plannedMs := 205 }, observedMs := 100, completedMs := 205 },
    .windowReport { window := { plannedMs := 205 }, observedMs := 300, completedMs := 615 }]

theorem coverage_of_history_gap :
    (((makeCoverageView {} (picture cutThenWhole).ledger 700 none).radio
        .kWifi).observedPermille).toNat =
      observedTime (reportsOf .kWifi cutThenWhole) * 1000 /
        plannedTime (reportsOf .kWifi cutThenWhole) ∧
      (((makeCoverageView {} (picture cutThenWhole).ledger 700 none).radio
        .kWifi).observedPermille).toNat ≤ 1000 :=
  (coverage_of_history cutThenWhole .kWifi (by decide)).2.2.2 {} 700 none (by decide)

/-- The radio's last report, when it is recent enough to tell anything. -/
def recentReport (revisitMs : UInt32) (nowMs : UInt64) (reports : List WindowReport) :
    Option WindowReport :=
  reports.getLast?.filter fun report =>
    nowMs.toNat ≤ report.completedMs.toNat + 3 * revisitMs.toNat

theorem stale_iff (totals : RadioTotals) (revisitMs : UInt32) (nowMs : UInt64) :
    stale totals revisitMs nowMs = false ↔
      ∃ lastMs, totals.lastReportMs = some lastMs ∧
        nowMs.toNat ≤ lastMs.toNat + 3 * revisitMs.toNat := by
  rw [stale]
  cases totals.lastReportMs with
  | none => simp
  | some lastMs =>
    have hrevisit : (kStaleRevisitPeriods * revisitMs.toUInt64).toNat = 3 * revisitMs.toNat := by
      have hlt := revisitMs.toNat_lt
      rw [UInt64.toNat_mul, UInt32.toNat_toUInt64]
      exact Nat.mod_eq_of_lt (show 3 * revisitMs.toNat < 2 ^ 64 by omega)
    have hlater : (nowMs > lastMs) ↔ lastMs.toNat < nowMs.toNat := UInt64.lt_iff_toNat_lt
    have hold : (nowMs - lastMs > kStaleRevisitPeriods * revisitMs.toUInt64) ↔
        3 * revisitMs.toNat < (nowMs - lastMs).toNat := by
      rw [← hrevisit]
      exact UInt64.lt_iff_toNat_lt
    simp only [Bool.and_eq_false_iff, decide_eq_false_iff_not, hlater, hold, Option.some.injEq,
      exists_eq_left']
    by_cases hafter : lastMs.toNat < nowMs.toNat
    · rw [UInt64.toNat_sub_of_le _ _ (UInt64.le_iff_toNat_le.mpr hafter.le)]
      omega
    · omega

theorem isGap_iff (observedMs plannedMs : UInt32) :
    isGap observedMs plannedMs = true ↔ observedMs.toNat * 2 < plannedMs.toNat := by
  have hlt := observedMs.toNat_lt
  have hdouble : (observedMs.toUInt64 * 2).toNat = observedMs.toNat * 2 := by
    rw [UInt64.toNat_mul, UInt32.toNat_toUInt64]
    exact Nat.mod_eq_of_lt (show observedMs.toNat * 2 < 2 ^ 64 by omega)
  rw [isGap, decide_eq_true_iff, UInt64.lt_iff_toNat_lt, hdouble, UInt32.toNat_toUInt64]

/-- What a radio's state is by its history. -/
def verdict (enabled : Bool) (fault : Option (FaultOp × Int32)) (recent : Option WindowReport) :
    RadioState :=
  if enabled = false then .kOperatorDisabled
  else if fault.isSome then .kFault
  else
    match recent with
    | none => .kNoData
    | some report =>
      if report.counted.toNat * 2 < report.window.plannedMs.toNat then .kGap else .kObserving

/-- The state that is shown is the verdict of the history. -/
theorem state_of_history (messages : List RadioMessage) (given : ObservationConfig)
    (nowMs : UInt64) (active : Option ActiveWindow) (radio : Radio) :
    ((makeCoverageView given (picture messages).ledger nowMs active).radio radio).state =
      verdict (enabledIn (normalizeConfig given) radio) (faultTold radio messages)
        (recentReport (revisitFor (normalizeConfig given) radio) nowMs
          (reportsOf radio messages)) := by
  obtain ⟨channel, hview⟩ := own_view given (picture messages).ledger nowMs active radio
  rw [hview]
  refine (state_makeRadioView ..).trans ?_
  unfold verdict
  rw [faults_picture, totals_picture]
  congr 1
  have hfault : ((faultTold radio messages).elim [] fun fault => faultText fault.1 fault.2) ≠ [] ↔
      (faultTold radio messages).isSome = true := by
    cases faultTold radio messages with
    | none => simp
    | some fault => simp [faultText_ne_nil]
  simp only [hfault]
  congr 1
  generalize revisitFor (normalizeConfig given) radio = revisitMs
  rcases List.eq_nil_or_concat (reportsOf radio messages) with hnil | ⟨reports, report, hlast⟩
  · rw [hnil]
    rfl
  · rw [List.concat_eq_append] at hlast
    obtain ⟨hcompleted, hplanned, hcounted⟩ := last_add reports report
    have hstale := stale_iff ((reports ++ [report]).foldl RadioTotals.add {}) revisitMs nowMs
    rw [hcompleted] at hstale
    have hgap := isGap_iff report.counted report.window.plannedMs
    have hrecent : recentReport revisitMs nowMs (reports ++ [report]) =
        if nowMs.toNat ≤ report.completedMs.toNat + 3 * revisitMs.toNat then some report
        else none := by
      rw [recentReport, List.getLast?_concat]
      by_cases hle : nowMs.toNat ≤ report.completedMs.toNat + 3 * revisitMs.toNat
      · rw [if_pos hle]
        exact Option.filter_some_pos (decide_eq_true hle)
      · rw [if_neg hle]
        exact Option.filter_some_neg (by simpa using hle)
    rw [hlast, hplanned, hcounted, hrecent]
    generalize (reports ++ [report]).foldl RadioTotals.add {} = totals at hstale
    by_cases hle : nowMs.toNat ≤ report.completedMs.toNat + 3 * revisitMs.toNat
    · rw [hstale.mpr ⟨_, rfl, hle⟩, if_pos hle]
      simp [hgap]
    · have hstale' : stale totals revisitMs nowMs = true := by
        rw [← Bool.not_eq_false, hstale]
        rintro ⟨lastMs, hlastMs, hle'⟩
        rw [← Option.some.inj hlastMs] at hle'
        exact hle hle'
      rw [hstale', if_neg hle]
      rfl

/-- The slot that a verdict shows, scanning or idle aside. -/
def RadioSlotState.of : RadioState → RadioSlotState
  | .kOperatorDisabled => .kOff
  | .kFault => .kFault
  | .kNoData => .kNoData
  | .kGap => .kGap
  | .kObserving => .kIdle

theorem slot_state (view : CoverageView) (radio : Radio) :
    (slot view radio).state =
      if (view.radio radio).state = .kObserving ∧ view.current = some radio then .kScanning
      else .of (view.radio radio).state := by
  rw [slot]
  cases (view.radio radio).state with
  | kObserving =>
    by_cases hcurrent : view.current = some radio <;> simp [hcurrent, RadioSlotState.of]
  | _ => simp [RadioSlotState.of]

def CoverageStatus.slot (status : CoverageStatus) : Radio → RadioSlotView
  | .kWifi => status.wifi
  | .kBle => status.ble

def configInForce (messages : List RadioMessage) : ObservationConfig :=
  normalizeConfig ((configTold messages).elim {} toObservationConfig)

/-- What the history says of a radio that shows no fault. -/
def recentOf (messages : List RadioMessage) (nowMs : UInt64) (radio : Radio) :
    Option WindowReport :=
  recentReport (revisitFor (configInForce messages) radio) nowMs (reportsOf radio messages)

/-- A radio's slot says what its history says. -/
structure SlotTells (messages : List RadioMessage) (nowMs : UInt64) (radio : Radio)
    (state : RadioSlotState) : Prop where
  off : state = .kOff ↔ enabledIn (configInForce messages) radio = false
  fault : state = .kFault ↔
    enabledIn (configInForce messages) radio = true ∧ (faultTold radio messages).isSome
  noData : state = .kNoData ↔ enabledIn (configInForce messages) radio = true ∧
    faultTold radio messages = none ∧ recentOf messages nowMs radio = none
  gap : state = .kGap ↔ enabledIn (configInForce messages) radio = true ∧
    faultTold radio messages = none ∧ ∃ report, recentOf messages nowMs radio = some report ∧
      report.counted.toNat * 2 < report.window.plannedMs.toNat
  observing : state = .kScanning ∨ state = .kIdle ↔
    enabledIn (configInForce messages) radio = true ∧
      faultTold radio messages = none ∧ ∃ report, recentOf messages nowMs radio = some report ∧
        report.window.plannedMs.toNat ≤ report.counted.toNat * 2

theorem slotTells_verdict {messages : List RadioMessage} {nowMs : UInt64} {radio : Radio}
    {state : RadioSlotState} {current : Prop} [Decidable current]
    (h : state =
      if verdict (enabledIn (configInForce messages) radio) (faultTold radio messages)
          (recentOf messages nowMs radio) = .kObserving ∧ current then .kScanning
      else .of (verdict (enabledIn (configInForce messages) radio) (faultTold radio messages)
        (recentOf messages nowMs radio))) :
    SlotTells messages nowMs radio state := by
  cases henabled : enabledIn (configInForce messages) radio with
  | false => constructor <;> simp [h, verdict, henabled, RadioSlotState.of]
  | true =>
    cases hfault : faultTold radio messages with
    | some fault => constructor <;> simp [h, verdict, henabled, hfault, RadioSlotState.of]
    | none =>
      cases hrecent : recentOf messages nowMs radio with
      | none => constructor <;> simp [h, verdict, henabled, hfault, hrecent, RadioSlotState.of]
      | some report =>
        by_cases hgap : report.counted.toNat * 2 < report.window.plannedMs.toNat
        · constructor <;>
            simp [h, verdict, henabled, hfault, hrecent, hgap, Nat.not_le.mpr hgap,
              RadioSlotState.of]
        · by_cases hcurrent : current <;> constructor <;>
            simp [h, verdict, henabled, hfault, hrecent, hgap, Nat.not_lt.mp hgap, hcurrent,
              RadioSlotState.of]

theorem scanning_current {view : CoverageView} {radio : Radio}
    (h : (slot view radio).state = .kScanning) : view.current = some radio := by
  rw [slot_state] at h
  by_contra hcurrent
  rw [if_neg fun hnow => hcurrent hnow.2] at h
  cases hof : (view.radio radio).state <;> rw [hof] at h <;> cases h

/-- The status bar is told by the history, and shows one radio scanning at most. -/
theorem status_of_history (messages : List RadioMessage) (nowMs : UInt64) :
    (∀ radio, SlotTells messages nowMs radio
      (((picture messages).status nowMs).slot radio).state) ∧
      ¬(((picture messages).status nowMs).wifi.state = .kScanning ∧
        ((picture messages).status nowMs).ble.state = .kScanning) := by
  refine ⟨fun radio => ?_, fun hboth => ?_⟩
  · have hslot : ((picture messages).status nowMs).slot radio =
        slot (makeCoverageView (picture messages).config (picture messages).ledger nowMs
          (picture messages).active) radio := by
      cases radio <;> rfl
    have hstate := state_of_history messages (picture messages).config nowMs
      (picture messages).active radio
    have hconfig : normalizeConfig (picture messages).config = configInForce messages := by
      rw [(config_picture messages).1]
      rfl
    rw [hconfig] at hstate
    rw [hslot, slot_state, hstate]
    exact slotTells_verdict rfl
  · have hwifi := scanning_current hboth.1
    have hble := scanning_current hboth.2
    exact absurd (hwifi.symm.trans hble) (by decide)

end CydMonitor.Observation
