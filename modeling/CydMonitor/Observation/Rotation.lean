import CydMonitor.Lib.CyclicWalk
import CydMonitor.Observation.Schedule

/-!
# The rotation of the windows

What a scheduler hands out between changes of its configuration, and across the changes that
leave the WiFi plan alone.
-/

namespace CydMonitor.Observation

open ObservationScheduler CyclicWalk

inductive ScheduleCall where
  | nextWindow (startMs : UInt64)
  | configure (config : ObservationConfig)

namespace ObservationScheduler

def call (s : ObservationScheduler) : ScheduleCall → List Window × ObservationScheduler
  | .nextWindow startMs => ((s.nextWindow startMs).1.toList, (s.nextWindow startMs).2)
  | .configure config => ([], s.configure config)

/-- The windows handed out, and the scheduler after the calls. -/
def calls (s : ObservationScheduler) : List ScheduleCall → List Window × ObservationScheduler
  | [] => ([], s)
  | c :: rest => ((s.call c).1 ++ ((s.call c).2.calls rest).1, ((s.call c).2.calls rest).2)

end ObservationScheduler

/-- The channels of the WiFi windows. -/
def wifiVisits (windows : List Window) : List UInt8 :=
  (windows.filter (·.radio = .kWifi)).map (·.channel)

/-- The call leaves WiFi on and its plan as it is. -/
def ScheduleCall.Keeps (plan : List UInt8) : ScheduleCall → Prop
  | .nextWindow _ => True
  | .configure config => config.wifiEnabled = true ∧ (normalizeConfig config).wifiChannels = plan

variable {s : ObservationScheduler} {config : ObservationConfig}

/-- Such a change keeps the place of the walk. -/
theorem configure_keeps (hwifi : s.config.wifiEnabled = true)
    (hkeeps : (ScheduleCall.configure config).Keeps s.config.wifiChannels) :
    (s.configure config).config.wifiEnabled = true ∧
      (s.configure config).config.wifiChannels = s.config.wifiChannels ∧
        (s.configure config).nextChannel = s.nextChannel := by
  have henabled : (normalizeConfig config).wifiEnabled = true := hkeeps.1
  exact ⟨henabled, hkeeps.2, if_pos (by simp [hwifi, henabled, hkeeps.2])⟩

/-- A window moves the walk exactly when it is one of WiFi. -/
theorem nextWindow_walks (hwifi : s.config.wifiEnabled = true) (startMs : UInt64) :
    (wifiVisits (s.nextWindow startMs).1.toList = [] ∧
        (s.nextWindow startMs).2.nextChannel = s.nextChannel) ∨
      (wifiVisits (s.nextWindow startMs).1.toList = [s.config.wifiChannels.get ⟨_, s.inPlan⟩] ∧
        (s.nextWindow startMs).2.nextChannel =
          (s.nextChannel + 1) % s.config.wifiChannels.length) := by
  rw [nextWindow, if_neg (by simp [hwifi])]
  cases s.nextRadio with
  | kWifi => exact .inr ⟨rfl, rfl⟩
  | kBle => exact .inl ⟨rfl, rfl⟩

theorem wifiVisits_append (a b : List Window) :
    wifiVisits (a ++ b) = wifiVisits a ++ wifiVisits b := by
  rw [wifiVisits, List.filter_append, List.map_append]
  rfl

/-- The walk goes on over any such calls. -/
theorem calls_walk (hwifi : s.config.wifiEnabled = true) {calls : List ScheduleCall}
    (hkeeps : ∀ c ∈ calls, c.Keeps s.config.wifiChannels) :
    Walk s.config.wifiChannels s.nextChannel (wifiVisits (s.calls calls).1) := by
  induction calls generalizing s with
  | nil => exact .nil
  | cons c calls ih =>
    obtain ⟨hc, hrest⟩ := List.forall_mem_cons.mp hkeeps
    rw [ObservationScheduler.calls, wifiVisits_append]
    cases c with
    | configure config =>
      obtain ⟨henabled, hplan, hplace⟩ := configure_keeps hwifi hc
      have hwalk := ih (s := s.configure config) henabled (by rwa [hplan])
      rw [hplan, hplace] at hwalk
      exact hwalk
    | nextWindow startMs =>
      have hconfig := s.nextWindow_config startMs
      have hwalk := ih (s := (s.nextWindow startMs).2) (by rwa [hconfig]) (by rwa [hconfig])
      rw [hconfig] at hwalk
      rcases nextWindow_walks hwifi startMs with ⟨hvisits, hplace⟩ | ⟨hvisits, hplace⟩
      · rw [hplace] at hwalk
        rw [ObservationScheduler.call, hvisits]
        exact hwalk
      · rw [hplace] at hwalk
        rw [ObservationScheduler.call, hvisits]
        exact Walk.cons s.inPlan hwalk

/-- The radio of each turn when both are on. -/
def turn (i : ℕ) : Radio := if i % 2 = 0 then .kWifi else .kBle

/-- With both radios on the windows take turns. -/
theorem calls_alternate (hwifi : s.config.wifiEnabled = true) (hble : s.config.bleEnabled = true)
    {i : ℕ} (hradio : s.nextRadio = turn i) (starts : List UInt64) :
    (s.calls (starts.map .nextWindow)).1.map (·.radio) =
      (List.range' i starts.length).map turn := by
  induction starts generalizing s i with
  | nil => rfl
  | cons startMs starts ih =>
    have hconfig := s.nextWindow_config startMs
    have hstep : (s.nextWindow startMs).1.toList.map (·.radio) = [turn i] ∧
        (s.nextWindow startMs).2.nextRadio = turn (i + 1) := by
      rw [nextWindow, if_neg (by simp [hwifi]), hradio, turn, turn]
      rcases Nat.mod_two_eq_zero_or_one i with heven | hodd
      · have hnext : (i + 1) % 2 ≠ 0 := by omega
        simp [heven, hnext, hble]
      · have hnext : (i + 1) % 2 = 0 := by omega
        simp [hodd, hnext, hwifi]
    rw [List.map_cons, ObservationScheduler.calls, List.map_append, ObservationScheduler.call,
      hstep.1, ih (by rwa [hconfig]) (by rwa [hconfig]) hstep.2]
    rfl

/-- The rotation of the windows over any calls. -/
theorem rotation :
    (∀ (s : ObservationScheduler) (calls : List ScheduleCall), s.config.wifiEnabled = true →
      (∀ c ∈ calls, c.Keeps s.config.wifiChannels) →
      Walk s.config.wifiChannels s.nextChannel (wifiVisits (s.calls calls).1)) ∧
    (∀ (s : ObservationScheduler) (config : ObservationConfig),
      (s.configure config).nextChannel < (s.configure config).config.wifiChannels.length) ∧
    ∀ (s : ObservationScheduler) (config : ObservationConfig) (starts : List UInt64),
      s = make config ∨ (∃ before : ObservationScheduler, s = before.configure config) →
      config.wifiEnabled = true → config.bleEnabled = true →
      (s.calls (starts.map .nextWindow)).1.map (·.radio) =
        (List.range' 0 starts.length).map turn := by
  refine ⟨fun s calls hwifi hkeeps => calls_walk hwifi hkeeps,
    fun s config => (s.configure config).inPlan, fun s config starts hs hwifi hble => ?_⟩
  have hconfig : s.config = normalizeConfig config ∧
      s.nextRadio = firstRadio (normalizeConfig config) := by
    rcases hs with rfl | ⟨before, rfl⟩
    · exact ⟨rfl, rfl⟩
    · exact ⟨rfl, rfl⟩
  have hradio : s.nextRadio = turn 0 := hconfig.2.trans (if_pos hwifi)
  exact calls_alternate (hconfig.1 ▸ hwifi) (hconfig.1 ▸ hble) hradio starts

end CydMonitor.Observation
