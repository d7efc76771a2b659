import CydMonitor.Hci.Standing

/-!
# Whose answer it is

An event ends the command that is waited for only if it is that command's own answer.
-/

namespace CydMonitor.Hci

namespace Tracker

variable {t : Tracker} {e : Event} {now arrival : ℕ}

@[simp] theorem engaged_credited : (t.credited e).engaged = t.engaged :=
  rfl

@[simp] theorem terminates_credited : (t.credited e).terminates e = t.terminates e :=
  rfl

@[simp] theorem isLate_credited : (t.credited e).isLate e now = t.isLate e now :=
  rfl

@[simp] theorem pending_release : (t.release e).pending = t.pending := by
  rw [release]
  split <;> rfl

@[simp] theorem engaged_release : (t.release e).engaged = t.engaged := by
  rw [release]
  split <;> rfl

@[simp] theorem opcode_release : (t.release e).opcode = t.opcode := by
  rw [release]
  split <;> rfl

@[simp] theorem deadline_release : (t.release e).deadline = t.deadline := by
  rw [release]
  split <;> rfl

@[simp] theorem floorUs_release : (t.release e).floorUs = t.floorUs := by
  rw [release]
  split <;> rfl

@[simp] theorem quarantineUntil_release : (t.release e).quarantineUntil = t.quarantineUntil := by
  rw [release]
  split <;> rfl

theorem quarantined_release (t : Tracker) (e : Event) (x : Command) :
    (t.release e).quarantined x = (t.quarantined x && index e.opcode != some x) := by
  rw [release]
  cases hx : index e.opcode with
  | none => simp
  | some y =>
    by_cases hxy : x = y
    · simp [hxy]
    · simp [Function.update_of_ne hxy, Ne.symm hxy]

theorem continues_release (t : Tracker) (e : Event) : t.Continues (t.release e) :=
  fun h => ⟨by simpa using h, by simp, by simp, by simp, by simp, fun x hx => by
    simp [quarantined_release, hx]⟩

@[simp] theorem terminates_release : (t.release e).terminates e = t.terminates e := by
  simp [terminates]

/-- An event that the tracker takes for the answer to what it waits for. -/
def Takes (t : Tracker) (e : Event) (now arrival : ℕ) : Prop :=
  t.terminates e = true ∧ ¬ arrival < t.floorUs ∧ t.isLate e now = false

theorem isAnswer_of_terminates (he : e.isCommandEvent = true) {x : Command}
    (hx : index t.opcode = some x) (h : t.terminates e = true) :
    e.isAnswer = true ∧ index e.opcode = some x ∧ t.engaged = true := by
  simp only [terminates, Bool.and_eq_true, beq_iff_eq] at h
  obtain ⟨⟨⟨-, hengaged⟩, hopcode⟩, hkind⟩ := h
  rw [hopcode] at hx
  refine ⟨?_, hx, hengaged⟩
  simp only [Event.isAnswer, hx, Event.isCommandEvent] at he ⊢
  cases hk : e.kind <;> simp_all

/-- An answer to the command waited for. -/
theorem terminates_of_isAnswer (he : e.isAnswer = true) (hengaged : t.engaged = true)
    (hopcode : index t.opcode = index e.opcode) : t.terminates e = true := by
  simp only [Event.isAnswer, Bool.and_eq_true] at he
  obtain ⟨hkind, hsome⟩ := he
  obtain ⟨x, hx⟩ := Option.isSome_iff_exists.mp hsome
  have heq : t.opcode = e.opcode := by
    rw [← opcode_of_index hx, ← opcode_of_index (hopcode.trans hx)]
  have hne : e.opcode ≠ 0 := by
    rintro h
    rw [h, index_zero] at hx
    cases hx
  have hends : (e.kind == .kComplete || e.status != 0) = true := by
    simp only [Bool.or_eq_true, Bool.and_eq_true] at hkind ⊢
    exact hkind.imp_right And.right
  simp [terminates, hengaged, heq, hne, hends]

private theorem isAnswer_of_ends (he : e.isCommandEvent = true)
    (hends : (e.kind == .kComplete || e.status != 0) = true) (hlate : t.isLate e now = true) :
    e.isAnswer = true := by
  have hsome : (index e.opcode).isSome = true := by
    rw [isLate] at hlate
    cases hx : index e.opcode with
    | none => simp [hx] at hlate
    | some x => rfl
  simp only [Event.isCommandEvent] at he
  simp only [Event.isAnswer, hsome, Bool.and_true]
  cases hkind : e.kind <;> simp_all

private theorem conclude_cases (t : Tracker) (timeout : Result)
    (hzero : ¬ (e.opcode == 0) = true) (hends : (e.kind == .kComplete || e.status != 0) = true) :
    t.terminates e = false ∧
      t.conclude timeout e = (timeout, { t with unexpected := t.unexpected + 1 }) ∨
    t.terminates e = true ∧ t.conclude timeout e = (answer e, t.finish e) := by
  have hterminates : t.terminates e = (t.engaged && t.opcode == e.opcode) := by
    have hne : (e.opcode != 0) = true := by simpa using hzero
    rw [terminates, hne, hends]
    simp
  rw [conclude, hterminates]
  by_cases hawaited : (t.engaged && t.opcode == e.opcode) = true
  · refine .inr ⟨hawaited, ?_⟩
    simp only [Bool.and_eq_true, beq_iff_eq] at hawaited
    simp [hawaited]
  · refine .inl ⟨by simpa using hawaited, if_pos ?_⟩
    simpa [Classical.or_iff_not_imp_left] using hawaited

/-- What the tracker makes of a command event: too old for the command waited for, of no
consequence but its credit, the end of a quarantine, an answer nobody waits for, or the
answer. -/
theorem record_cases (t : Tracker) (timeout : Result) {e : Event} (he : e.isCommandEvent = true)
    (now arrival : ℕ) :
    ((t.terminates e && arrival < t.floorUs) = true ∧
      t.record timeout e now arrival = (timeout, { t with stale := t.stale + 1 })) ∨
    (t.terminates e && arrival < t.floorUs) = false ∧
      (e.isAnswer = false ∧ t.record timeout e now arrival = (timeout, t.credited e) ∨
      e.isAnswer = true ∧ t.isLate e now = true ∧ t.record timeout e now arrival =
        (timeout, { (t.credited e).release e with late := t.late + 1 }) ∨
      t.isLate e now = false ∧ t.terminates e = false ∧ t.record timeout e now arrival =
        (timeout, { (t.credited e).release e with
          unexpected := ((t.credited e).release e).unexpected + 1 }) ∨
      t.isLate e now = false ∧ t.terminates e = true ∧ t.record timeout e now arrival =
        (answer e, ((t.credited e).release e).finish e)) := by
  rw [record]
  cases hdropped : t.terminates e && decide (arrival < t.floorUs) with
  | true => exact .inl ⟨rfl, by simp⟩
  | false =>
    refine .inr ⟨rfl, ?_⟩
    rw [if_neg Bool.false_ne_true, accept]
    by_cases hstatus : (e.kind == .kStatus && e.status == 0) = true
    · refine .inl ⟨?_, if_pos hstatus⟩
      simp only [Bool.and_eq_true, beq_iff_eq] at hstatus
      simp [Event.isAnswer, hstatus]
    · rw [if_neg hstatus]
      by_cases hzero : (e.opcode == 0) = true
      · refine .inl ⟨?_, if_pos hzero⟩
        rw [Event.isAnswer, beq_iff_eq.mp hzero, index_zero]
        simp
      · have hends : (e.kind == .kComplete || e.status != 0) = true := by
          simp only [Event.isCommandEvent] at he
          cases hkind : e.kind <;> simp_all
        rw [if_neg hzero, isLate_credited]
        cases hlate : t.isLate e now with
        | true => exact .inr (.inl ⟨isAnswer_of_ends he hends hlate, rfl, if_pos rfl⟩)
        | false =>
          rw [if_neg Bool.false_ne_true]
          rcases conclude_cases ((t.credited e).release e) timeout hzero hends with
            ⟨hends, heq⟩ | ⟨hends, heq⟩ <;>
            rw [terminates_release, terminates_credited] at hends
          · exact .inr (.inr (.inl ⟨rfl, hends, heq⟩))
          · exact .inr (.inr (.inr ⟨rfl, hends, heq⟩))

end Tracker

namespace World

variable {p w w' : World} {a : Arrival} {c : Sent} {now : ℕ}

/-- What handling an event makes of the world, given what the tracker returned. -/
def settle (p : World) (r : Result × Tracker) (a : Arrival) (now : ℕ) : World :=
  { (p.noteLifted a now).noteReset r.1 a.event now with tracker := r.2 }.returned r.1 (some a)

/-- The queue plays no part in a poll. -/
theorem polled_queue (w : World) (rest : List Arrival) (now : ℕ) :
    ({ w with queue := rest } : World).polled now = { w.polled now with queue := rest } := by
  have htimes : ({ w with queue := rest } : World).timesOut now = w.timesOut now := rfl
  rw [polled, polled, htimes]
  cases w.timesOut now <;> rfl

theorem polled_resetUs (w : World) (now : ℕ) : (w.polled now).resetUs = w.resetUs := by
  rw [polled]
  split <;> rfl

theorem noteReset_of_ne {r : Result} (h : r.outcome ≠ .kCompleted) (e : Event) :
    p.noteReset r e now = p :=
  if_neg fun hr => h hr.1

theorem noteLifted_none (h : p.lifts a now = none) : p.noteLifted a now = p := by
  rw [noteLifted, h]

theorem noteReset_log (p : World) (r : Result) (e : Event) (now : ℕ) :
    (p.noteReset r e now).log = p.log := by
  rw [noteReset]
  split_ifs <;> rfl

theorem noteReset_issued (p : World) (r : Result) (e : Event) (now : ℕ) :
    (p.noteReset r e now).issued = p.issued := by
  rw [noteReset]
  split_ifs <;> rfl

/-- The command waited for gets its own answer in time. -/
theorem Sound.takes (hs : p.Sound) (ha : p.Placed a) (hc : a.answers = some c)
    (hreset : p.resetUs ≤ a.arrivalUs) (hdeadline : p.nowUs ≤ c.deadline) :
    c.id = p.issued ∧ p.tracker.Takes a.event p.nowUs a.arrivalUs := by
  obtain ⟨htracked, hanswer, hopcode, ⟨u, hle, hu⟩, hwaiting, -⟩ := ha.answers c hc
  obtain ⟨hid, hengaged⟩ := (hwaiting hreset).resolve_right fun h => by omega
  have hp := Tracker.pending_of_engaged hengaged
  obtain ⟨-, hindex, -⟩ := htracked.2 hid hp
  obtain ⟨-, -, hfloor⟩ := hs.handed c.id u hu
  obtain ⟨x, hx, hfree⟩ := hs.free hp
  refine ⟨hid, Tracker.terminates_of_isAnswer hanswer hengaged (hindex.trans hopcode.symm), ?_, ?_⟩
  · have := (hfloor hid hp).2
    omega
  · obtain rfl : x = c.command := Option.some.inj (hx.symm.trans hindex)
    simp [Tracker.isLate, hopcode, hfree]

/-- What the tracker takes for the answer is the command's own. -/
theorem Sound.own (hs : p.Sound) (ha : p.Placed a) (he : a.event.isCommandEvent = true)
    (hreset : p.resetUs ≤ a.arrivalUs) (h : p.tracker.terminates a.event = true)
    (hfloor : ¬ a.arrivalUs < p.tracker.floorUs) :
    ∃ c, a.answers = some c ∧ c.id = p.issued ∧ p.tracker.pending = true := by
  have hp : p.tracker.pending = true := by
    simp only [Tracker.terminates, Bool.and_eq_true] at h
    exact Tracker.pending_of_engaged h.1.1.2
  obtain ⟨x, hx, -⟩ := hs.free hp
  obtain ⟨hanswer, hopcode, hengaged⟩ := Tracker.isAnswer_of_terminates he hx h
  cases hanswers : a.answers with
  | none =>
    rw [ha.idle hanswers] at hanswer
    cases hanswer
  | some c =>
    refine ⟨c, rfl, ?_, hp⟩
    by_contra hid
    have hc := (ha.answers c hanswers)
    have hindex : index p.tracker.opcode = some c.command := by
      rw [hx, ← hopcode, hc.opcode]
    exact hfloor (hc.foreign hreset hengaged hid hindex)

/-- A change of the counters. -/
private theorem Sound.counted (hs : p.Sound) {t : Tracker} (hp : t.pending = p.tracker.pending)
    (he : t.engaged = p.tracker.engaged) (ho : t.opcode = p.tracker.opcode)
    (hd : t.deadline = p.tracker.deadline) (hf : t.floorUs = p.tracker.floorUs)
    (hq : t.quarantined = p.tracker.quarantined)
    (hu : t.quarantineUntil = p.tracker.quarantineUntil) : { p with tracker := t }.Sound := by
  have hguarded (c : Sent) (hc : p.Guarded c) : { p with tracker := t }.Guarded c := by
    obtain ⟨hc₁, hc₂, hc₃⟩ := hc
    exact ⟨by rw [hq]; exact hc₁, hc₂, by rw [hu]; exact hc₃⟩
  exact hs.relax
    ⟨rfl, rfl, rfl, rfl, rfl, rfl, rfl, fun h => ⟨hp ▸ h, he, ho, hd, hf, fun x hx => hq ▸ hx⟩⟩
    (fun _ _ hl => ⟨hl.1, he.trans hl.2⟩) (fun _ hc => hc) (fun c _ hc => .inr (hguarded c hc))
    fun _ _ c _ hc => .inr (hguarded c hc)

/-- The quarantine of the event's opcode is over. -/
private theorem Sound.released (hs : p.Sound) (ht : p.Timely)
    (hlate : p.tracker.isLate a.event p.nowUs = false) {t : Tracker}
    (hcontinues : p.tracker.Continues t)
    (hlive : ∀ c, c.id ∈ p.known → p.Live c → t.engaged = true)
    (hq : ∀ x, t.quarantined x = (p.tracker.quarantined x && index a.event.opcode != some x))
    (hu : t.quarantineUntil = p.tracker.quarantineUntil) : { p with tracker := t }.Sound := by
  have hguarded (c : Sent) (hc : p.Guarded c) (hne : index a.event.opcode ≠ some c.command) :
      { p with tracker := t }.Guarded c := by
    obtain ⟨hc₁, hc₂, hc₃⟩ := hc
    exact ⟨by simp [hq, hc₁, hne], hc₂, by rw [hu]; exact hc₃⟩
  have hover (c : Sent) (hc : p.Guarded c) (hx : index a.event.opcode = some c.command) :
      p.tracker.quarantineUntil c.command ≤ p.nowUs := by
    simpa [Tracker.isLate, hx, hc.1] using hlate
  refine hs.relax ⟨rfl, rfl, rfl, rfl, rfl, rfl, rfl, hcontinues⟩
    (fun c hknown hl => ⟨hl.1, hlive c hknown hl⟩) (fun _ hc => hc) (fun c _ hc => ?_)
    fun a' ha' c hc hg => ?_
  · by_cases hx : index a.event.opcode = some c.command
    · exact .inl ⟨_, .inl hc.2.2, hover c hc hx⟩
    · exact .inr (hguarded c hc hx)
  · by_cases hx : index a.event.opcode = some c.command
    · exact .inl ((ht a' ha' c hc _ hg.2.2).trans_le (hover c hg hx))
    · exact .inr (hguarded c hg hx)

/-- The late answer of the command that a quarantine is for lifts it. -/
private theorem Sound.lifted_own (hs : p.Sound) (hnew : c.id ∉ p.known)
    {x : Command} (hx : index a.event.opcode = some x) (howner : p.owner x = c.id) {t : Tracker}
    (hcontinues : p.tracker.Continues t) (he : t.engaged = p.tracker.engaged)
    (hq : ∀ x, t.quarantined x = (p.tracker.quarantined x && index a.event.opcode != some x))
    (hu : t.quarantineUntil = p.tracker.quarantineUntil) : { p with tracker := t }.Sound := by
  have hguarded (c' : Sent) (hknown : c'.id ∈ p.known) (hg : p.Guarded c') :
      { p with tracker := t }.Guarded c' := by
    obtain ⟨hg₁, hg₂, hg₃⟩ := hg
    have hne : index a.event.opcode ≠ some c'.command := by
      rw [hx]
      rintro heq
      obtain rfl := Option.some.inj heq
      rw [← hg₂, howner] at hknown
      exact hnew hknown
    exact ⟨by simp [hq, hg₁, hne], hg₂, by rw [hu]; exact hg₃⟩
  exact hs.relax ⟨rfl, rfl, rfl, rfl, rfl, rfl, rfl, hcontinues⟩
    (fun _ _ hl => ⟨hl.1, he.trans hl.2⟩) (fun _ hc => hc)
    (fun c' hc' hg => .inr (hguarded c' (mem_known_of_reserved hc') hg))
    fun a' ha' c' hc' hg => .inr (hguarded c' (mem_known_of_queue ha' hc') hg)

/-- The late answer of another command lifts it: what is waiting came before. -/
private theorem Sound.lifted_foreign (hs : p.Sound) {x : Command}
    (hx : index a.event.opcode = some x) {t : Tracker}
    (hcontinues : p.tracker.Continues t) (he : t.engaged = p.tracker.engaged)
    (hq : ∀ x, t.quarantined x = (p.tracker.quarantined x && index a.event.opcode != some x))
    (hu : t.quarantineUntil = p.tracker.quarantineUntil)
    (hw : w = { p with
      tracker := t, liftedUs := Function.update p.liftedUs (p.owner x) (some p.nowUs) })
    (hg : w.Guarding) : w.Sound := by
  subst hw
  have hlifted (c : Sent) (hc : p.Guarded c) (hxc : x = c.command) :
      Function.update p.liftedUs (p.owner x) (some p.nowUs) c.id = some p.nowUs := by
    rw [hxc, hc.2.1, Function.update_self]
  have hguarded (c : Sent) (hc : p.Guarded c) (hne : x ≠ c.command) :
      { p with
        tracker := t
        liftedUs := Function.update p.liftedUs (p.owner x) (some p.nowUs) }.Guarded c := by
    obtain ⟨hc₁, hc₂, hc₃⟩ := hc
    exact ⟨by simp [hq, hc₁, hx, hne], hc₂, by rw [hu]; exact hc₃⟩
  refine hs.relax ⟨rfl, rfl, rfl, rfl, rfl, rfl, rfl, hcontinues⟩
    (fun _ _ hl => ⟨hl.1, he.trans hl.2⟩) (fun c hc => ?_) (fun c _ hc => ?_)
    fun a' ha' c hc hgu => ?_
  · obtain ⟨u, hu, hle⟩ := hc
    by_cases hid : c.id = p.owner x
    · exact ⟨p.nowUs, .inr (by rw [hid]; exact Function.update_self ..), le_rfl⟩
    · exact ⟨u, hu.imp_right (Function.update_of_ne hid ..).trans, hle⟩
  · by_cases hxc : x = c.command
    · exact .inl ⟨p.nowUs, .inr (hlifted c hc hxc), le_rfl⟩
    · exact .inr (hguarded c hc hxc)
  · by_cases hxc : x = c.command
    · exact .inl (hg a' ha' c hc _ (hlifted c hgu hxc))
    · exact .inr (hguarded c hgu hxc)

/-- A quarantine that an answer lifts before its end. -/
private theorem Sound.lifted (hs : p.Sound) (ha : p.Placed a)
    (hnew : ∀ c, a.answers = some c → c.id ∉ p.known) (hanswer : a.event.isAnswer = true)
    (hkept : (p.tracker.terminates a.event && a.arrivalUs < p.tracker.floorUs) = false)
    (hlate : p.tracker.isLate a.event p.nowUs = true) {n : UInt64}
    (hw : w = { p.noteLifted a p.nowUs with
      tracker := { (p.tracker.credited a.event).release a.event with late := n } })
    (hg : w.Guarding) :
    w.Sound ∧ w.log = p.log ∧ w.issued = p.issued ∧ w.nowUs = p.nowUs := by
  obtain ⟨c, hc⟩ : ∃ c, a.answers = some c := by
    cases hc : a.answers with
    | none =>
      rw [ha.idle hc] at hanswer
      cases hanswer
    | some c => exact ⟨c, rfl⟩
  have hx := (ha.answers c hc).opcode
  have hlifts : p.lifts a p.nowUs = some c.command := by
    rw [lifts, hanswer, hkept, hlate]
    exact hx
  have hcontinues := Tracker.continues_release (p.tracker.credited a.event) a.event
  have hengaged := Tracker.engaged_release (t := p.tracker.credited a.event) (e := a.event)
  have hq := Tracker.quarantined_release (p.tracker.credited a.event) a.event
  have hu := Tracker.quarantineUntil_release (t := p.tracker.credited a.event) (e := a.event)
  rw [noteLifted, hlifts, hc] at hw
  by_cases hown : some c.id = some (p.owner c.command)
  · simp only [Option.map_some, if_pos hown] at hw
    subst hw
    exact ⟨hs.lifted_own (hnew c hc) hx (Option.some.inj hown).symm hcontinues hengaged hq hu,
      rfl, rfl, rfl⟩
  · simp only [Option.map_some, if_neg hown] at hw
    refine ⟨hs.lifted_foreign hx
      (t := { (p.tracker.credited a.event).release a.event with late := n })
      hcontinues hengaged hq hu hw hg, ?_, ?_, ?_⟩ <;> rw [hw]

/-- A reset of the controller completed: what is waiting came before. -/
private theorem Sound.finished_reset (hs : p.Sound)
    (hlive : ∀ c, c.id ∈ p.known → ¬ p.Live c) {t : Tracker} (hp : t.pending = false)
    (hw : w = { p with tracker := t, endUs := fun id => (p.endUs id).map (min p.nowUs) })
    (ht : w.Timely) : w.Sound := by
  subst hw
  have hend (c : Sent) {u : ℕ} (hu : p.endUs c.id = some u) :
      (p.endUs c.id).map (min p.nowUs) = some (min p.nowUs u) := by
    rw [hu]
    rfl
  refine hs.relax
    ⟨rfl, rfl, rfl, rfl, rfl, rfl, rfl, fun h => Bool.noConfusion (hp.symm.trans h)⟩
    (fun c hknown hl => absurd hl (hlive c hknown)) (fun c hc => ?_)
    (fun c _ hc => .inl ⟨_, .inl (hend c hc.2.2), min_le_left ..⟩) fun a' ha' c hc hg => .inl ?_
  · obtain ⟨u, hu | hu, hle⟩ := hc
    · exact ⟨_, .inl (hend c hu), min_le_left ..⟩
    · exact ⟨u, .inr hu, hle⟩
  · exact (ht a' ha' c hc _ (hend c hg.2.2)).trans_le (min_le_left ..)

/-- The tracker took the event for the answer, which it is. -/
private theorem Sound.finished (hs : p.Sound) (hlive : ∀ c, c.id ∈ p.known → ¬ p.Live c)
    (hlate : p.tracker.isLate a.event p.nowUs = false)
    (hw : w = { p.noteReset (Tracker.answer a.event) a.event p.nowUs with
      tracker := ((p.tracker.credited a.event).release a.event).finish a.event })
    (ht : w.Timely) : w.Sound := by
  by_cases hreset : (Tracker.answer a.event).outcome = .kCompleted ∧
      a.event.opcode = Command.kReset.opcode
  · refine hs.finished_reset hlive
      (t := ((p.tracker.credited a.event).release a.event).finish a.event) rfl ?_ ht
    rw [hw, noteReset, if_pos hreset]
  · rw [noteReset, if_neg hreset] at hw
    subst hw
    refine hs.released ht hlate (fun h => by cases h) (fun c hc hl => absurd hl (hlive c hc)) ?_ ?_
    · intro x
      have hno : ¬ (a.event.kind == .kComplete && a.event.status == 0 &&
          a.event.opcode == Command.kReset.opcode) = true := by
        intro h
        simp only [Bool.and_eq_true, beq_iff_eq] at h
        exact hreset ⟨by simp [Tracker.answer, h.1.2], h.2⟩
      rw [Tracker.finish, if_neg hno]
      exact Tracker.quarantined_release ..
    · exact Tracker.quarantineUntil_release

/-- The event was not the answer that is waited for: the poll's result is returned. -/
private theorem Logged.passed (hl : p.Logged) (hs : p.Sound) (ha : p.Placed a)
    (hreset : p.resetUs ≤ a.arrivalUs) {r : Result}
    (hr : r.outcome ≠ .kCompleted ∧ r.outcome ≠ .kRejected)
    (honce : r.outcome ≠ .kNone → p.issued ∉ outcomes p.log ∧ p.tracker.pending = false)
    (hnot : a.event.isAnswer = true → ¬ p.tracker.Takes a.event p.nowUs a.arrivalUs)
    (hlog : w.log = p.log) (hissued : w.issued = p.issued) (hnow : w.nowUs = p.nowUs)
    (hpending : w.tracker.pending = true → p.tracker.pending = true) :
    (w.returned r (some a)).Logged := by
  refine (hl.quiet hlog hissued hpending).returned (fun h => ?_) (fun a' c ha' hc hdeadline => ?_)
    fun hout => ?_
  · exact absurd h (not_or.mpr hr)
  · obtain rfl : a = a' := Option.some.inj ha'
    have hdeadline' : p.nowUs ≤ c.deadline := hnow ▸ hdeadline
    exact absurd (hs.takes ha hc hreset hdeadline').2 (hnot (ha.answers c hc).answer)
  · obtain ⟨hnew, hfalse⟩ := honce hout
    refine ⟨by rwa [hissued, hlog], ?_⟩
    cases hp : w.tracker.pending with
    | false => rfl
    | true => exact absurd (hpending hp) (by simp [hfalse])

theorem Sound.settle (hs : p.Sound) (hl : p.Logged) (ha : p.Placed a)
    (hnew : ∀ c, a.answers = some c → c.id ∉ p.known) (he : a.event.isCommandEvent = true)
    (hreset : p.resetUs ≤ a.arrivalUs) {r : Result}
    (hr : r.outcome ≠ .kCompleted ∧ r.outcome ≠ .kRejected)
    (honce : r.outcome ≠ .kNone → p.issued ∉ outcomes p.log ∧ p.tracker.pending = false)
    (hw : w = p.settle (p.tracker.record r a.event p.nowUs a.arrivalUs) a p.nowUs)
    (ht : w.Timely) (hg : w.Guarding) : w.Sound ∧ w.Logged := by
  have hquiet : p.noteReset r a.event p.nowUs = p := noteReset_of_ne hr.1 _
  rcases p.tracker.record_cases r he p.nowUs a.arrivalUs with
    ⟨hdropped, hrecord⟩ | ⟨hkept, ⟨hidle, hrecord⟩ | ⟨hanswer, hlate, hrecord⟩ |
      ⟨hlate, hno, hrecord⟩ | ⟨hlate, hterminates, hrecord⟩⟩
  · -- too old for the command waited for
    have hlifts : p.lifts a p.nowUs = none := by simp [lifts, hdropped]
    rw [hrecord, World.settle, noteLifted_none hlifts, hquiet] at hw
    subst hw
    have hsound : { p with
        tracker := { p.tracker with stale := p.tracker.stale + 1 } }.Sound :=
      hs.counted rfl rfl rfl rfl rfl rfl rfl
    refine ⟨hsound.returned r _,
      hl.passed hs ha hreset hr honce (fun _ htakes => ?_) rfl rfl rfl fun h => h⟩
    simp only [Bool.and_eq_true, decide_eq_true_eq] at hdropped
    exact htakes.2.1 hdropped.2
  · -- only its credit counts
    have hlifts : p.lifts a p.nowUs = none := by simp [lifts, hidle]
    rw [hrecord, World.settle, noteLifted_none hlifts, hquiet] at hw
    subst hw
    have hsound : { p with tracker := p.tracker.credited a.event }.Sound :=
      hs.counted rfl rfl rfl rfl rfl rfl rfl
    exact ⟨hsound.returned r _, hl.passed hs ha hreset hr honce
      (fun h => by rw [hidle] at h; cases h) rfl rfl rfl fun h => h⟩
  · -- it lifts a quarantine
    obtain ⟨v, hv⟩ : ∃ v, v = { p.noteLifted a p.nowUs with
        tracker := { (p.tracker.credited a.event).release a.event with
          late := p.tracker.late + 1 } } := ⟨_, rfl⟩
    have hwv : w = v.returned r (some a) := by
      rw [hw, hrecord, World.settle, noteReset_of_ne hr.1, hv]
    subst hwv
    obtain ⟨hsound, hlog, hissued, hnow⟩ := hs.lifted ha hnew hanswer hkept hlate hv hg
    refine ⟨hsound.returned r _, hl.passed hs ha hreset hr honce (fun _ htakes => ?_) hlog
      hissued hnow fun h => ?_⟩
    · rw [htakes.2.2] at hlate
      cases hlate
    · rw [hv] at h
      exact Tracker.pending_release (t := p.tracker.credited a.event) ▸ h
  · -- nobody waits for it
    have hlifts : p.lifts a p.nowUs = none := by simp [lifts, hlate]
    rw [hrecord, World.settle, noteLifted_none hlifts, hquiet] at hw
    subst hw
    have hsound : { p with
        tracker := { (p.tracker.credited a.event).release a.event with
          unexpected := ((p.tracker.credited a.event).release a.event).unexpected + 1 } }.Sound :=
      hs.released ht hlate (Tracker.continues_release (p.tracker.credited a.event) a.event)
        (fun c _ h => (Tracker.engaged_release (t := p.tracker.credited a.event)).trans h.2)
        (Tracker.quarantined_release (p.tracker.credited a.event) a.event)
        Tracker.quarantineUntil_release
    refine ⟨hsound.returned r _,
      hl.passed hs ha hreset hr honce (fun _ htakes => ?_) rfl rfl rfl fun h => ?_⟩
    · rw [htakes.1] at hno
      cases hno
    · exact Tracker.pending_release (t := p.tracker.credited a.event) ▸ h
  · -- it is the answer
    have hlifts : p.lifts a p.nowUs = none := by simp [lifts, hlate]
    rw [hrecord, World.settle, noteLifted_none hlifts] at hw
    have hfloor : ¬ a.arrivalUs < p.tracker.floorUs := by
      simpa [hterminates] using hkept
    obtain ⟨c, hc, hid, hp⟩ := hs.own ha he hreset hterminates hfloor
    have hlive (c' : Sent) (hknown : c'.id ∈ p.known) : ¬ p.Live c' := by
      rintro ⟨hid', -⟩
      rw [hid', ← hid] at hknown
      exact hnew c hc hknown
    obtain ⟨v, hv⟩ : ∃ v, v = { p.noteReset (Tracker.answer a.event) a.event p.nowUs with
        tracker := ((p.tracker.credited a.event).release a.event).finish a.event } := ⟨_, rfl⟩
    have hwv : w = v.returned (Tracker.answer a.event) (some a) := by rw [hw, hv]
    subst hwv
    have hsound := hs.finished hlive hlate hv ht
    refine ⟨hsound.returned _ _, ?_⟩
    have hvlog : v.log = p.log ∧ v.issued = p.issued ∧ v.tracker.pending = false := by
      subst hv
      exact ⟨noteReset_log .., noteReset_issued .., rfl⟩
    obtain ⟨hlog, hissued, hfalse⟩ := hvlog
    refine (hl.quiet hlog hissued fun h => Bool.noConfusion (hfalse.symm.trans h)).returned
      (fun _ => ⟨a, c, rfl, hc, hid.trans hissued.symm, rfl⟩) (fun a' c' ha' hc' _ => ?_)
      fun _ => ⟨?_, hfalse⟩
    · obtain rfl : a = a' := Option.some.inj ha'
      obtain rfl : c = c' := Option.some.inj (hc.symm.trans hc')
      exact ⟨hid.trans hissued.symm, rfl⟩
    · rw [hissued, hlog]
      intro hmem
      rw [(hl.ended _ hmem).2 rfl] at hp
      cases hp

/-- An arrival leaves the queue. -/
private theorem Sound.pop (hs : w.Sound) {rest : List Arrival} (hq : w.queue = a :: rest) :
    { w with queue := rest }.Sound ∧ { w with queue := rest }.Placed a ∧
      ∀ c, a.answers = some c → c.id ∉ { w with queue := rest }.known := by
  have hplaced (a' : Arrival) (ha' : a' ∈ w.queue) : { w with queue := rest }.Placed a' := by
    obtain ⟨harrived, hquiet, hanswers⟩ := hs.queued a' ha'
    refine ⟨harrived, hquiet, fun c hc => ?_⟩
    obtain ⟨ht, hanswer, hopcode, hhanded, hwaiting, hforeign⟩ := hanswers c hc
    exact ⟨ht, hanswer, hopcode, hhanded, hwaiting, hforeign⟩
  have hknown : w.known = w.reserved.map Sent.id ++ ((a.answers.map Sent.id).toList ++
      rest.filterMap fun a => a.answers.map Sent.id) := by
    rw [known, hq, List.filterMap_cons]
    cases a.answers <;> rfl
  have hnodup := hs.nodup
  rw [hknown] at hnodup
  refine ⟨?_, hplaced a (by simp [hq]), fun c hc hmem => ?_⟩
  · exact
      { free := hs.free
        floor := hs.floor
        handed := hs.handed
        sending := hs.sending
        reserved := hs.reserved
        queued := fun a' ha' => hplaced a' (by simp [hq, ha'])
        nodup := hnodup.sublist ((List.sublist_append_right _ _).append_left _) }
  · rw [hc] at hnodup
    have hperm : List.Perm (c.id :: { w with queue := rest }.known)
        (w.reserved.map Sent.id ++ (((some c).map Sent.id).toList ++
          rest.filterMap fun a => a.answers.map Sent.id)) := by
      exact List.perm_middle.symm
    exact (List.nodup_cons.mp (hperm.nodup_iff.mpr hnodup)).1 hmem

theorem polled_keeps_queue (w : World) (now : ℕ) : (w.polled now).queue = w.queue := by
  rw [polled]
  split <;> rfl

theorem isAnswer_of_not_command {e : Event} (h : e.isCommandEvent = false) :
    e.isAnswer = false := by
  simp only [Event.isCommandEvent] at h
  simp only [Event.isAnswer]
  cases hk : e.kind <;> simp_all

theorem handle_eq_settle (w : World) (a : Arrival) (now : ℕ) :
    w.handle a now = (w.polled now).settle (w.tracker.onEvent a.event now a.arrivalUs) a now :=
  rfl

/-- An event that no reset made stale is handled. -/
theorem Sound.handle (hs : w.Sound) (hl : w.Logged) {rest : List Arrival}
    (hq : w.queue = a :: rest) (hfresh : isStaleAfterReset a.event a.arrivalUs w.resetUs = false)
    (hw : w' = ({ w with queue := rest } : World).handle a w.nowUs) (ht : w'.Timely)
    (hg : w'.Guarding) : w'.Sound ∧ w'.Logged := by
  have hqueue : (w.polled w.nowUs).queue = a :: rest := (polled_keeps_queue ..).trans hq
  obtain ⟨hsound, hplaced, hnew⟩ := hs.polled.pop hqueue
  have hlogged : ({ w.polled w.nowUs with queue := rest } : World).Logged :=
    (hl.polled w.nowUs).quiet rfl rfl fun h => h
  rw [handle_eq_settle, polled_queue] at hw
  generalize hp : ({ w.polled w.nowUs with queue := rest } : World) = p at *
  have hnow : p.nowUs = w.nowUs := by rw [← hp]; exact polled_nowUs _
  have htracker : p.tracker = (w.tracker.poll w.nowUs).2 := by rw [← hp]; exact polled_tracker _
  have hlog : p.log = w.log := by rw [← hp]; exact polled_log _
  have hissued : p.issued = w.issued := by rw [← hp]; exact polled_issued _
  have hreset : p.resetUs = w.resetUs := by
    rw [← hp]
    exact polled_resetUs ..
  have hr : (w.tracker.poll w.nowUs).1.outcome ≠ .kCompleted ∧
      (w.tracker.poll w.nowUs).1.outcome ≠ .kRejected := by
    rcases poll_outcome w.tracker w.nowUs with h | h <;> rw [h] <;> decide
  have honce (h : (w.tracker.poll w.nowUs).1.outcome ≠ .kNone) :
      p.issued ∉ outcomes p.log ∧ p.tracker.pending = false := by
    rw [hissued, hlog, htracker]
    exact hl.poll_once h
  cases he : a.event.isCommandEvent with
  | true =>
    have hin : p.resetUs ≤ a.arrivalUs := by
      rw [hreset]
      simpa [isStaleAfterReset, he] using hfresh
    refine hsound.settle hlogged hplaced hnew he hin hr honce ?_ ht hg
    rw [hw, Tracker.onEvent, if_pos he, htracker, hnow]
  | false =>
    have hidle := isAnswer_of_not_command he
    have hlifts : p.lifts a w.nowUs = none := by simp [lifts, hidle]
    have hwp : w' = p.returned (w.tracker.poll w.nowUs).1 (some a) := by
      rw [hw, Tracker.onEvent, if_neg (by simp [he]), World.settle, noteLifted_none hlifts,
        noteReset_of_ne hr.1, ← htracker]
    rw [hwp]
    refine ⟨hsound.returned ..,
      hlogged.returned (own_of_poll _ _ _ _ _) (fun a' c ha' hc _ => ?_) honce⟩
    obtain rfl : a = a' := Option.some.inj ha'
    exact absurd (hplaced.answers c hc).answer (by simp [hidle])

theorem Sound.process (hs : w.Sound) (hl : w.Logged) (h : w.process w.nowUs = some w')
    (ht : w'.Timely) (hg : w'.Guarding) : w'.Sound ∧ w'.Logged := by
  rw [World.process] at h
  cases hq : w.queue with
  | nil =>
    rw [hq] at h
    cases h
  | cons a rest =>
    simp only [hq] at h
    split_ifs at h with hstale
    · obtain rfl := Option.some.inj h
      exact ⟨(hs.pop hq).1, hl.quiet rfl rfl fun h => h⟩
    · exact hs.handle hl hq (by simpa using hstale) (Option.some.inj h).symm ht hg

theorem Logged.tick (hl : w.Logged) (h : w.tick now = some w') : w'.Logged := by
  rw [World.tick] at h
  split_ifs at h
  obtain rfl := Option.some.inj h
  exact hl.quiet rfl rfl fun h => h

/-- What every step keeps. -/
theorem step_sound {act : Action} (h : w.step act = some w') (hP : w'.Timely ∧ w'.Guarding)
    (hw : w.Sound ∧ w.Logged) : w'.Sound ∧ w'.Logged := by
  obtain ⟨hs, hl⟩ := hw
  cases act with
  | issue opcode now timeout =>
    obtain ⟨v, htick, rfl⟩ := Option.map_eq_some_iff.mp h
    obtain ⟨hv, rfl⟩ := hs.tick htick
    exact ⟨hv.issue hP.1 opcode timeout, (hl.tick htick).issue ..⟩
  | tryBeginSend now =>
    simp only [step, Option.ite_none_right_eq_some] at h
    obtain ⟨v, htick, rfl⟩ := Option.map_eq_some_iff.mp h.2
    obtain ⟨hv, rfl⟩ := hs.tick htick
    exact ⟨hv.tryBeginSend, (hl.tick htick).tryBeginSend _⟩
  | handOver now =>
    obtain ⟨v, htick, hv'⟩ := Option.bind_eq_some_iff.mp h
    obtain ⟨hv, rfl⟩ := hs.tick htick
    exact ⟨hv.handOver hv', (hl.tick htick).handOver hv'⟩
  | markSent => exact ⟨hs.markSent h, hl.markSent h⟩
  | poll now =>
    obtain ⟨v, htick, rfl⟩ := Option.map_eq_some_iff.mp h
    obtain ⟨hv, rfl⟩ := hs.tick htick
    exact ⟨hv.polled.returned .., (hl.tick htick).poll _⟩
  | arrive now event answers =>
    obtain ⟨v, htick, hv'⟩ := Option.bind_eq_some_iff.mp h
    obtain ⟨hv, rfl⟩ := hs.tick htick
    exact ⟨hv.arrive hv' hP.1 hP.2, (hl.tick htick).arrive hv'⟩
  | process now =>
    obtain ⟨v, htick, hv'⟩ := Option.bind_eq_some_iff.mp h
    obtain ⟨hv, rfl⟩ := hs.tick htick
    exact hv.process (hl.tick htick) hv' hP.1 hP.2
  | resetController now =>
    obtain ⟨v, htick, hv'⟩ := Option.bind_eq_some_iff.mp h
    obtain ⟨hv, rfl⟩ := hs.tick htick
    exact ⟨hv.resetController hv', (hl.tick htick).resetController hv'⟩

theorem start_sound : ({} : World).Sound ∧ ({} : World).Logged where
  left :=
    { free := fun h => Bool.noConfusion h
      floor := fun h => Bool.noConfusion h
      handed := fun _ _ h => absurd h (by simp)
      sending := fun _ h => absurd h (by simp)
      reserved := fun _ h => absurd h List.not_mem_nil
      queued := fun _ h => absurd h List.not_mem_nil
      nodup := List.nodup_nil }
  right :=
    { attributed :=
        { own := fun _ h => absurd h List.not_mem_nil
          once := List.nodup_nil
          prompt := fun _ h => absurd h List.not_mem_nil }
      ended := fun _ h => absurd h List.not_mem_nil }

end World

/-- In a run in which every answer arrives before the end of its command's quarantine and
before another command's late answer lifts that quarantine, no answer is misattributed. -/
theorem run_attributed (actions : List Action) {w : World} (hrun : run actions = some w)
    (htimely : GuardedRun.Throughout World.step World.Timely {} actions)
    (hguarding : GuardedRun.Throughout World.step World.Guarding {} actions) :
    Attributed w.log :=
  (GuardedRun.invariant (I := fun w : World => w.Sound ∧ w.Logged)
    (fun _ _ _ h hP hv => World.step_sound h hP hv) World.start_sound
    (htimely.and hguarding) hrun).2.attributed

private def completed (opcode : UInt16) (credit : UInt8) : Event :=
  { kind := .kComplete, code := 0x0e, credit := credit, opcode := opcode }

private def sendEnable (now timeout : ℕ) : List Action :=
  [.issue 0x200c now timeout, .tryBeginSend now, .handOver now, .markSent]

/-- A command times out and its late answer comes; the next one is answered in time. -/
def lateThenAnswered : List Action :=
  sendEnable 0 10 ++ [.poll 11, .arrive 20 (completed 0x200c 1) (some 1), .process 21] ++
    sendEnable 22 10 ++ [.arrive 23 (completed 0x200c 1) (some 2), .process 24]

theorem run_attributed_late :
    ∃ w, run lateThenAnswered = some w ∧ outcomes w.log = [1, 2] ∧ Attributed w.log := by
  have hlog : (run lateThenAnswered).map (fun w => outcomes w.log) = some [1, 2] := by
    decide +kernel
  obtain ⟨w, hw, houtcomes⟩ := Option.map_eq_some_iff.mp hlog
  have htimely : GuardedRun.Along World.step World.Timely {} lateThenAnswered := by
    decide +kernel
  have hguarding : GuardedRun.Along World.step World.Guarding {} lateThenAnswered := by
    decide +kernel
  exact ⟨w, hw, houtcomes,
    run_attributed lateThenAnswered hw htimely.throughout hguarding.throughout⟩

/-- Two scan enables time out. The answer to the first, processed after the second timed out,
lifts the quarantine that is for the second; the answer to the second then comes, well
before that quarantine's end, while a third one is waited for. -/
def liftedEarly : List Action :=
  sendEnable 0 10 ++ [.arrive 1 (completed 0 2) none, .process 1, .poll 11,
    .arrive 20 (completed 0x200c 2) (some 1)] ++ sendEnable 31 10 ++
    [.poll 42, .process 43] ++ sendEnable 44 10 ++
    [.arrive 45 (completed 0x200c 1) (some 2), .process 46]

/-- The third is reported completed on the answer to the second. -/
theorem run_attributed_lifted :
    ∃ w, run liftedEarly = some w ∧
      GuardedRun.Throughout World.step World.Timely {} liftedEarly ∧ ¬ Attributed w.log := by
  have hlast : (run liftedEarly).map (fun w => w.log.getLast?) = some (some
      ⟨3, ⟨.kCompleted, 0⟩, 46, some ⟨completed 0x200c 1, 45,
        some ⟨2, .kLeSetScanEnable, 41⟩, [3]⟩⟩) := by
    decide +kernel
  obtain ⟨w, hw, hlast⟩ := Option.map_eq_some_iff.mp hlast
  have htimely : GuardedRun.Along World.step World.Timely {} liftedEarly := by
    decide +kernel
  refine ⟨w, hw, htimely.throughout, fun h => ?_⟩
  obtain ⟨a, c, ha, hc, hid, -⟩ := h.own _ (List.mem_of_getLast? hlast) (.inl rfl)
  obtain rfl := Option.some.inj ha
  obtain rfl := Option.some.inj hc
  exact absurd hid (by decide)

end CydMonitor.Hci
