import CydMonitor.Metrics.Agents

/-!
# What the activity of an agent depends on

The nested scans answer by which evidence there is, not by its order or number.
-/

namespace CydMonitor.Metrics

variable {records records' : List ProcessRecord} {uid : UInt32} {home : List Char}
  {hooks hooks' : List HookRecord} {agent : Agent}

/-- An event file of a process that runs as its agent. -/
def HookRecord.Live (h : HookRecord) (records : List ProcessRecord) (uid : UInt32)
    (home : List Char) : Prop :=
  ∃ r ∈ records, r.pid = h.pid ∧ r.runs uid home h.agent = true

def HookRecord.Fresh (h : HookRecord) : Prop := h.activity = .busy ∧ h.ageMs < hookBusyTimeoutMs

instance (h : HookRecord) (records : List ProcessRecord) (uid : UInt32) (home : List Char) :
    Decidable (h.Live records uid home) :=
  inferInstanceAs (Decidable (∃ r ∈ records, r.pid = h.pid ∧ r.runs uid home h.agent = true))

instance (h : HookRecord) : Decidable h.Fresh :=
  inferInstanceAs (Decidable (h.activity = .busy ∧ h.ageMs < hookBusyTimeoutMs))

theorem runs_iff {r : ProcessRecord} :
    r.runs uid home agent = true ↔ r.uid = uid ∧ identify r.path home = some agent := by
  simp [ProcessRecord.runs]

/-- The early return of the loop is an existence. -/
theorem reportOf_eq_busy {reported : Bool} :
    reportOf reported hooks = .busy ↔ ∃ h ∈ hooks, h.Fresh := by
  induction hooks generalizing reported with
  | nil => cases reported <;> simp [reportOf]
  | cons hook hooks ih =>
    rw [reportOf]
    split_ifs with hfresh
    · exact iff_of_true rfl ⟨hook, List.mem_cons_self, hfresh⟩
    · rw [ih, List.exists_mem_cons_iff]
      exact (or_iff_right hfresh).symm

theorem reportOf_eq_idle {reported : Bool} :
    reportOf reported hooks = .idle ↔
      (reported = true ∨ hooks ≠ []) ∧ ¬ ∃ h ∈ hooks, h.Fresh := by
  induction hooks generalizing reported with
  | nil => cases reported <;> simp [reportOf]
  | cons hook hooks ih =>
    rw [reportOf]
    split_ifs with hfresh
    · exact iff_of_false (by intro h; cases h) fun h => h.2 ⟨hook, List.mem_cons_self, hfresh⟩
    · have hrest : (∃ h ∈ hook :: hooks, h.Fresh) ↔ ∃ h ∈ hooks, h.Fresh :=
        (List.exists_mem_cons_iff ..).trans (or_iff_right hfresh)
      rw [ih, hrest]
      simp

/-- The event files that are read for an agent. -/
theorem mem_read {h : HookRecord} :
    h ∈ hooks.filter (fun h => h.agent == agent &&
        records.any fun r => r.pid == h.pid && r.runs uid home agent) ↔
      h ∈ hooks ∧ h.agent = agent ∧ h.Live records uid home := by
  rw [List.mem_filter, Bool.and_eq_true, beq_iff_eq, List.any_eq_true]
  refine and_congr_right fun _ => and_congr_right fun hagent => ?_
  subst hagent
  simp [HookRecord.Live]

theorem fromHooks_eq_busy :
    fromHooks agent records uid home hooks = .busy ↔
      ∃ h ∈ hooks, h.agent = agent ∧ h.Live records uid home ∧ h.Fresh := by
  rw [fromHooks, reportOf_eq_busy]
  constructor
  · rintro ⟨h, hh, hfresh⟩
    obtain ⟨hmem, hagent, hlive⟩ := mem_read.mp hh
    exact ⟨h, hmem, hagent, hlive, hfresh⟩
  · rintro ⟨h, hmem, hagent, hlive, hfresh⟩
    exact ⟨h, mem_read.mpr ⟨hmem, hagent, hlive⟩, hfresh⟩

theorem fromHooks_eq_idle :
    fromHooks agent records uid home hooks = .idle ↔
      (∃ h ∈ hooks, h.agent = agent ∧ h.Live records uid home) ∧
        ¬ ∃ h ∈ hooks, h.agent = agent ∧ h.Live records uid home ∧ h.Fresh := by
  rw [← fromHooks_eq_busy, fromHooks, reportOf_eq_idle, reportOf_eq_busy]
  refine and_congr_left fun _ => ?_
  rw [or_iff_right nofun, Ne, List.eq_nil_iff_forall_not_mem, not_forall_not]
  exact exists_congr fun h => mem_read

theorem classifyActivity_of_running (h : ∃ r ∈ records, r.runs uid home agent = true) :
    classifyActivity records uid home hooks agent = fromHooks agent records uid home hooks := by
  rw [classifyActivity, if_pos]
  rw [Ne, classify_eq_notRunning]
  obtain ⟨r, hr, hruns⟩ := h
  exact fun hnone => Bool.false_ne_true ((hnone r hr).symm.trans hruns)

/-- Which state the evidence asks for. -/
def Evidenced (records : List ProcessRecord) (uid : UInt32) (home : List Char)
    (hooks : List HookRecord) (agent : Agent) (state : AgentState) : Prop :=
  if ∃ r ∈ records, r.uid = uid ∧ identify r.path home = some agent then
    if ∃ h ∈ hooks, h.agent = agent ∧ h.Live records uid home ∧ h.Fresh then state = .busy
    else if ∃ h ∈ hooks, h.agent = agent ∧ h.Live records uid home then state = .idle
    else state = .runningActivityUnknown
  else state = .notRunning

theorem evidenced_classifyActivity :
    Evidenced records uid home hooks agent (classifyActivity records uid home hooks agent) := by
  have hrunning : (∃ r ∈ records, r.uid = uid ∧ identify r.path home = some agent) ↔
      ∃ r ∈ records, r.runs uid home agent = true :=
    exists_congr fun r => and_congr_right fun _ => runs_iff.symm
  rw [Evidenced]
  split_ifs with hruns hbusy hidle
  · rw [classifyActivity_of_running (hrunning.mp hruns), fromHooks_eq_busy]
    exact hbusy
  · rw [classifyActivity_of_running (hrunning.mp hruns), fromHooks_eq_idle]
    exact ⟨hidle, hbusy⟩
  · rw [classifyActivity_of_running (hrunning.mp hruns)]
    have hnot := reportOf_ne_notRunning false
      (hooks.filter fun h => h.agent == agent &&
        records.any fun r => r.pid == h.pid && r.runs uid home agent)
    cases hstate : fromHooks agent records uid home hooks with
    | notRunning => exact absurd hstate hnot
    | runningActivityUnknown => rfl
    | busy => exact absurd (fromHooks_eq_busy.mp hstate) hbusy
    | idle => exact absurd (fromHooks_eq_idle.mp hstate).1 hidle
  · rw [classifyActivity_eq_notRunning]
    intro r hr
    by_contra hruns'
    exact hruns (hrunning.mpr ⟨r, hr, by simpa using hruns'⟩)

theorem Evidenced.unique {state state' : AgentState}
    (h : Evidenced records uid home hooks agent state)
    (h' : Evidenced records uid home hooks agent state') : state = state' := by
  rw [Evidenced] at h h'
  split_ifs at h h' <;> rw [h, h']

/-- The same evidence about an agent: its processes, and its live event files. -/
structure SameEvidence (uid : UInt32) (home : List Char) (agent : Agent)
    (records records' : List ProcessRecord) (hooks hooks' : List HookRecord) : Prop where
  processes : ∀ r : ProcessRecord, r.uid = uid → identify r.path home = some agent →
    (r ∈ records ↔ r ∈ records')
  files : ∀ h : HookRecord, h.agent = agent → h.Live records uid home → (h ∈ hooks ↔ h ∈ hooks')

namespace SameEvidence

variable (same : SameEvidence uid home agent records records' hooks hooks')
include same

theorem runs {p : ProcessRecord → Prop} (hp : ∀ r, p r → r.runs uid home agent = true) :
    (∃ r ∈ records, p r) ↔ ∃ r ∈ records', p r := by
  refine exists_congr fun r => and_congr_left fun hr => ?_
  obtain ⟨huid, hid⟩ := runs_iff.mp (hp r hr)
  exact same.processes r huid hid

theorem live {h : HookRecord} (hagent : h.agent = agent) :
    h.Live records uid home ↔ h.Live records' uid home :=
  same.runs fun _ hr => hagent ▸ hr.2

theorem evidenced {state : AgentState} :
    Evidenced records uid home hooks agent state ↔
      Evidenced records' uid home hooks' agent state := by
  have hrunning : (∃ r ∈ records, r.uid = uid ∧ identify r.path home = some agent) ↔
      ∃ r ∈ records', r.uid = uid ∧ identify r.path home = some agent :=
    same.runs fun _ hr => runs_iff.mpr hr
  have hread (p : HookRecord → Prop) :
      (∃ h ∈ hooks, h.agent = agent ∧ h.Live records uid home ∧ p h) ↔
        ∃ h ∈ hooks', h.agent = agent ∧ h.Live records' uid home ∧ p h := by
    refine exists_congr fun h => ?_
    constructor
    · rintro ⟨hmem, hagent, hlive, hp⟩
      exact ⟨(same.files h hagent hlive).mp hmem, hagent, (same.live hagent).mp hlive, hp⟩
    · rintro ⟨hmem, hagent, hlive, hp⟩
      have hlive := (same.live hagent).mpr hlive
      exact ⟨(same.files h hagent hlive).mpr hmem, hagent, hlive, hp⟩
  have hidle := hread fun _ => True
  simp only [and_true] at hidle
  rw [Evidenced, Evidenced]
  simp only [hrunning, hread, hidle]

end SameEvidence

/-- Activity is what the evidence says, and nothing else moves it. -/
theorem activity_evidenced (records : List ProcessRecord) (uid : UInt32) (home : List Char)
    (hooks : List HookRecord) :
    (∀ agent state, classifyActivity records uid home hooks agent = state ↔
      Evidenced records uid home hooks agent state) ∧
    ∀ agent records' hooks', SameEvidence uid home agent records records' hooks hooks' →
      classifyActivity records' uid home hooks' agent =
        classifyActivity records uid home hooks agent := by
  refine ⟨fun agent state => ⟨?_, fun h => ?_⟩, fun agent records' hooks' same => ?_⟩
  · rintro rfl
    exact evidenced_classifyActivity
  · exact evidenced_classifyActivity.unique h
  · exact evidenced_classifyActivity.unique (same.evidenced.mp evidenced_classifyActivity)

end CydMonitor.Metrics
