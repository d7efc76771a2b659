import CydMonitor.Hci.Bus
import Mathlib.Data.List.Nodup

/-!
# Where every command stands

HCI has no transaction identifiers. What is known of a command that was handed over: either
it is the one that is waited for, or it has timed out and its opcode stays quarantined for
it until nothing can arrive for it any more.
-/

namespace CydMonitor.Hci

/-- Completed or rejected is returned on the command's own answer only, with its status. -/
def Own (r : Return) : Prop :=
  r.result.outcome = .kCompleted ∨ r.result.outcome = .kRejected →
    ∃ a c, r.arrival = some a ∧ a.answers = some c ∧ c.id = r.command ∧
      r.result = Tracker.answer a.event

/-- An own answer processed no later than the deadline yields its outcome. -/
def Prompt (r : Return) : Prop :=
  ∀ a c, r.arrival = some a → a.answers = some c → r.nowUs ≤ c.deadline →
    c.id = r.command ∧ r.result = Tracker.answer a.event

def Return.ends (r : Return) : Bool := r.result.outcome != .kNone

/-- The commands that had an outcome. -/
def outcomes (log : List Return) : List ℕ :=
  (log.filter Return.ends).map Return.command

structure Attributed (log : List Return) : Prop where
  own : ∀ r ∈ log, Own r
  once : (outcomes log).Nodup
  prompt : ∀ r ∈ log, Prompt r

namespace World

/-- Every answer that is waiting arrived before the end of its command's quarantine. -/
def Timely (w : World) : Prop :=
  ∀ a ∈ w.queue, ∀ c, a.answers = some c → ∀ u, w.endUs c.id = some u → a.arrivalUs < u

/-- Every answer that is waiting arrived before another command's answer lifted the
quarantine of its opcode. -/
def Guarding (w : World) : Prop :=
  ∀ a ∈ w.queue, ∀ c, a.answers = some c → ∀ u, w.liftedUs c.id = some u → a.arrivalUs < u

instance : DecidablePred Timely := fun w => inferInstanceAs
  (Decidable (∀ a ∈ w.queue, ∀ c ∈ a.answers, ∀ u ∈ w.endUs c.id, a.arrivalUs < u))

instance : DecidablePred Guarding := fun w => inferInstanceAs
  (Decidable (∀ a ∈ w.queue, ∀ c ∈ a.answers, ∀ u ∈ w.liftedUs c.id, a.arrivalUs < u))

/-- The command that is waited for. -/
def Live (w : World) (c : Sent) : Prop :=
  c.id = w.issued ∧ w.tracker.engaged = true

/-- Nothing can arrive for the command any more. -/
def Closed (w : World) (c : Sent) : Prop :=
  ∃ u, (w.endUs c.id = some u ∨ w.liftedUs c.id = some u) ∧ u ≤ w.nowUs

/-- Its opcode is quarantined for the command. -/
def Guarded (w : World) (c : Sent) : Prop :=
  w.tracker.quarantined c.command = true ∧ w.owner c.command = c.id ∧
    w.endUs c.id = some (w.tracker.quarantineUntil c.command)

/-- Where a command stands that the controller has not answered. -/
def Held (w : World) (c : Sent) : Prop :=
  w.Live c ∨ c.deadline < w.nowUs ∧ (w.Closed c ∨ w.Guarded c)

/-- Where a command stands whose answer is waiting. -/
def Waiting (w : World) (a : Arrival) (c : Sent) : Prop :=
  w.Live c ∨ c.deadline < w.nowUs ∧ (a.arrivalUs < w.nowUs ∨ w.Guarded c)

/-- The command is the one the tracker speaks of, if it was issued last. -/
def Tracked (w : World) (c : Sent) : Prop :=
  c.id ≤ w.issued ∧ (c.id = w.issued → w.tracker.pending = true →
    w.tracker.engaged = true ∧ index w.tracker.opcode = some c.command ∧
      w.tracker.deadline = c.deadline)

/-- An answer to another command with the opcode is too old for the one waited for. -/
def Foreign (w : World) (a : Arrival) (c : Sent) : Prop :=
  w.tracker.engaged = true → c.id ≠ w.issued → index w.tracker.opcode = some c.command →
    a.arrivalUs < w.tracker.floorUs

structure Answers (w : World) (a : Arrival) (c : Sent) : Prop where
  tracked : w.Tracked c
  answer : a.event.isAnswer = true
  opcode : index a.event.opcode = some c.command
  handed : ∃ h ≤ a.arrivalUs, w.handedUs c.id = some h
  waiting : w.resetUs ≤ a.arrivalUs → w.Waiting a c
  foreign : w.resetUs ≤ a.arrivalUs → w.Foreign a c

structure Placed (w : World) (a : Arrival) : Prop where
  arrived : a.arrivalUs ≤ w.nowUs
  idle : a.answers = none → a.event.isAnswer = false
  answers : ∀ c, a.answers = some c → w.Answers a c

def known (w : World) : List ℕ :=
  w.reserved.map Sent.id ++ w.queue.filterMap fun a => a.answers.map Sent.id

structure Sound (w : World) : Prop where
  free : w.tracker.pending = true →
    ∃ x, index w.tracker.opcode = some x ∧ w.tracker.quarantined x = false
  floor : w.tracker.engaged = true → w.tracker.floorUs ≤ w.nowUs
  handed : ∀ id h, w.handedUs id = some h → id ≤ w.issued ∧ h ≤ w.nowUs ∧
    (id = w.issued → w.tracker.pending = true →
      w.tracker.engaged = true ∧ w.tracker.floorUs ≤ h)
  sending : ∀ id, w.sending = some id → id ≤ w.issued ∧
    (id = w.issued → w.tracker.pending = true → w.tracker.engaged = true) ∧
    (id ≠ w.issued → w.tracker.engaged = false)
  reserved : ∀ c ∈ w.reserved, w.Tracked c ∧ w.Held c
  queued : ∀ a ∈ w.queue, w.Placed a
  nodup : w.known.Nodup

/-- What was returned so far; the command waited for has had no outcome. -/
structure Logged (w : World) : Prop where
  attributed : Attributed w.log
  ended : ∀ id ∈ outcomes w.log, id ≤ w.issued ∧ (id = w.issued → w.tracker.pending = false)

end World

/-- A change of the tracker after which it waits for the same command, if for any. -/
def Tracker.Continues (t t' : Tracker) : Prop :=
  t'.pending = true → t.pending = true ∧ t'.engaged = t.engaged ∧ t'.opcode = t.opcode ∧
    t'.deadline = t.deadline ∧ t'.floorUs = t.floorUs ∧
      ∀ x, t.quarantined x = false → t'.quarantined x = false

theorem Tracker.pending_of_engaged {t : Tracker} (h : t.engaged = true) : t.pending = true := by
  simp only [engaged, Bool.and_eq_true] at h
  exact h.1

namespace World

variable {w w' : World}

/-- A change of the tracker and of what is known of the quarantines only. -/
structure Retracks (w w' : World) : Prop where
  issued : w'.issued = w.issued
  handedUs : w'.handedUs = w.handedUs
  resetUs : w'.resetUs = w.resetUs
  sending : w'.sending = w.sending
  reserved : w'.reserved = w.reserved
  queue : w'.queue = w.queue
  nowUs : w'.nowUs = w.nowUs
  continues : w.tracker.Continues w'.tracker

theorem Retracks.tracked (h : w.Retracks w') {c : Sent} (hc : w.Tracked c) : w'.Tracked c := by
  refine ⟨h.issued ▸ hc.1, fun hid hpending => ?_⟩
  obtain ⟨hp, hengaged, hopcode, hdeadline, -, -⟩ := h.continues hpending
  rw [hengaged, hopcode, hdeadline]
  exact hc.2 (h.issued ▸ hid) hp

/-- Such a change keeps what is known, where it leaves every command a place. -/
theorem Sound.retrack (hs : w.Sound) (h : w.Retracks w')
    (hheld : ∀ c ∈ w.reserved, w.Tracked c → w.Held c → w'.Held c)
    (hwaiting : ∀ a ∈ w.queue, ∀ c, a.answers = some c → w.Tracked c →
      w.Waiting a c → w'.Waiting a c) : w'.Sound where
  free hpending := by
    obtain ⟨hp, -, hopcode, -, -, hfree⟩ := h.continues hpending
    obtain ⟨x, hx, hq⟩ := hs.free hp
    exact ⟨x, hopcode ▸ hx, hfree x hq⟩
  floor hengaged := by
    obtain ⟨-, he, -, -, hfloor, -⟩ := h.continues (Tracker.pending_of_engaged hengaged)
    rw [hfloor, h.nowUs]
    exact hs.floor (he ▸ hengaged)
  handed id u hu := by
    obtain ⟨hle, hnow, hid⟩ := hs.handed id u (h.handedUs ▸ hu)
    refine ⟨h.issued ▸ hle, h.nowUs ▸ hnow, fun heq hpending => ?_⟩
    obtain ⟨hp, he, -, -, hfloor, -⟩ := h.continues hpending
    rw [he, hfloor]
    exact hid (h.issued ▸ heq) hp
  sending id hid := by
    obtain ⟨hle, heq, hne⟩ := hs.sending id (h.sending ▸ hid)
    refine ⟨h.issued ▸ hle, fun hissued hpending => ?_, fun hissued => ?_⟩
    · obtain ⟨hp, he, -⟩ := h.continues hpending
      rw [he]
      exact heq (h.issued ▸ hissued) hp
    · by_contra hengaged
      rw [Bool.not_eq_false] at hengaged
      obtain ⟨-, he, -⟩ := h.continues (Tracker.pending_of_engaged hengaged)
      rw [he, hne (h.issued ▸ hissued)] at hengaged
      cases hengaged
  reserved c hc := by
    rw [h.reserved] at hc
    obtain ⟨htracked, hh⟩ := hs.reserved c hc
    exact ⟨h.tracked htracked, hheld c hc htracked hh⟩
  queued a ha := by
    rw [h.queue] at ha
    obtain ⟨harrived, hidle, hanswers⟩ := hs.queued a ha
    refine ⟨h.nowUs ▸ harrived, hidle, fun c hc => ?_⟩
    obtain ⟨htracked, hanswer, hopcode, hhanded, hw, hforeign⟩ := hanswers c hc
    refine ⟨h.tracked htracked, hanswer, hopcode, h.handedUs ▸ hhanded, fun hreset => ?_,
      fun hreset hengaged hne hindex => ?_⟩
    · exact hwaiting a ha c hc htracked (hw (h.resetUs ▸ hreset))
    · obtain ⟨-, he, hop, -, hfloor, -⟩ := h.continues (Tracker.pending_of_engaged hengaged)
      rw [hfloor]
      exact hforeign (h.resetUs ▸ hreset) (he ▸ hengaged) (h.issued ▸ hne) (hop ▸ hindex)
  nodup := by
    rw [known, h.reserved, h.queue]
    exact hs.nodup

theorem mem_known_of_reserved {c : Sent} (hc : c ∈ w.reserved) : c.id ∈ w.known :=
  List.mem_append_left _ (List.mem_map_of_mem hc)

theorem mem_known_of_queue {a : Arrival} {c : Sent} (ha : a ∈ w.queue)
    (hc : a.answers = some c) : c.id ∈ w.known :=
  List.mem_append_right _ (List.mem_filterMap.mpr ⟨a, ha, by simp [hc]⟩)

/-- Quarantines that end leave nothing that could still arrive. -/
theorem Sound.relax (hs : w.Sound) (h : w.Retracks w')
    (hlive : ∀ c, c.id ∈ w.known → w.Live c → w'.Live c)
    (hclosed : ∀ c, w.Closed c → w'.Closed c)
    (hreserved : ∀ c ∈ w.reserved, w.Guarded c → w'.Closed c ∨ w'.Guarded c)
    (hqueue : ∀ a ∈ w.queue, ∀ c, a.answers = some c → w.Guarded c →
      a.arrivalUs < w.nowUs ∨ w'.Guarded c) : w'.Sound := by
  refine hs.retrack h (fun c hc _ hheld => ?_) fun a ha c hc _ hwaiting => ?_
  · rcases hheld with hl | ⟨hdeadline, hq⟩
    · exact .inl (hlive c (mem_known_of_reserved hc) hl)
    · refine .inr ⟨h.nowUs ▸ hdeadline, ?_⟩
      rcases hq with hq | hq
      · exact .inl (hclosed c hq)
      · exact hreserved c hc hq
  · rcases hwaiting with hl | ⟨hdeadline, hq⟩
    · exact .inl (hlive c (mem_known_of_queue ha hc) hl)
    · refine .inr ⟨h.nowUs ▸ hdeadline, ?_⟩
      rw [h.nowUs]
      rcases hq with hq | hq
      · exact .inl hq
      · exact hqueue a ha c hc hq

/-- Time passes. -/
theorem Sound.tick (hs : w.Sound) {now : ℕ} (h : w.tick now = some w') :
    w'.Sound ∧ w'.nowUs = now := by
  rw [World.tick] at h
  split_ifs at h with hnow
  obtain ⟨hle, -⟩ := hnow
  obtain rfl := Option.some.inj h
  refine ⟨?_, rfl⟩
  have hclosed (c : Sent) (hc : w.Closed c) : { w with nowUs := now }.Closed c := by
    obtain ⟨u, hu, hunow⟩ := hc
    exact ⟨u, hu, hunow.trans hle⟩
  refine { hs with
    floor := fun he => (hs.floor he).trans hle
    handed := fun id u hu => ?_
    reserved := fun c hc => ?_
    queued := fun a ha => ?_ }
  · obtain ⟨hid, hu, heq⟩ := hs.handed id u hu
    exact ⟨hid, hu.trans hle, heq⟩
  · obtain ⟨htracked, hl | ⟨hdeadline, hq⟩⟩ := hs.reserved c hc
    · exact ⟨htracked, .inl hl⟩
    · exact ⟨htracked, .inr ⟨hdeadline.trans_le hle, hq.imp_left (hclosed c)⟩⟩
  · obtain ⟨harrived, hidle, hanswers⟩ := hs.queued a ha
    refine ⟨harrived.trans hle, hidle, fun c hc => ?_⟩
    refine { hanswers c hc with waiting := fun hreset => ?_ }
    rcases (hanswers c hc).waiting hreset with hl | ⟨hdeadline, hq⟩
    · exact .inl hl
    · exact .inr ⟨hdeadline.trans_le hle, hq.imp_left fun h => h.trans_le hle⟩

end World

namespace Tracker

variable {t : Tracker} {now : ℕ}

theorem poll_waiting (h : t.pending = false ∨ now ≤ t.deadline) : t.poll now = ({}, t) := by
  rcases h with h | h <;> simp [poll, h]

theorem poll_timedOut (hpending : t.pending = true) (hdeadline : t.deadline < now) :
    t.poll now = (⟨.kTimedOut, 0⟩,
      { (if t.sent || t.reserved then t.quarantine now else t) with pending := false }) := by
  rw [poll, if_neg]
  simp only [hpending, Bool.not_true, Bool.false_or, decide_eq_true_eq]
  omega

theorem poll_pending_le (h : (t.poll now).2.pending = true) : (t.poll now).2 = t := by
  by_cases hw : t.pending = false ∨ now ≤ t.deadline
  · rw [poll_waiting hw]
  · rw [not_or, Bool.not_eq_false, not_le] at hw
    rw [poll_timedOut hw.1 hw.2] at h
    cases h

end Tracker

namespace World

variable {w w' : World}

/-- The command waited for times out: its opcode is quarantined for it from now on. -/
private theorem Sound.expired (hs : w.Sound) (hengaged : w.tracker.engaged = true)
    (hdeadline : w.tracker.deadline < w.nowUs) {x : Command}
    (hx : index w.tracker.opcode = some x) (hfree : w.tracker.quarantined x = false)
    (h : w.Retracks w')
    (hq : w'.tracker.quarantined = Function.update w.tracker.quarantined x true)
    (hu : w'.tracker.quarantineUntil = Function.update w.tracker.quarantineUntil x
      (Tracker.quarantineEnd w.nowUs w.tracker.timeout))
    (ho : w'.owner = Function.update w.owner x w.issued)
    (he : w'.endUs = Function.update w.endUs w.issued
      (some (Tracker.quarantineEnd w.nowUs w.tracker.timeout)))
    (hl : w'.liftedUs = w.liftedUs) : w'.Sound := by
  have hlive (c : Sent) (hc : w.Tracked c) (hid : c.id = w.issued) :
      c.deadline < w'.nowUs ∧ w'.Guarded c := by
    obtain ⟨-, hindex, hd⟩ := hc.2 hid (Tracker.pending_of_engaged hengaged)
    obtain rfl : x = c.command := Option.some.inj (hx.symm.trans hindex)
    refine ⟨by rw [h.nowUs, ← hd]; exact hdeadline, ?_, ?_, ?_⟩
    · rw [hq, Function.update_self]
    · rw [ho, Function.update_self, hid]
    · rw [he, hu, hid, Function.update_self, Function.update_self]
  have hclosed (c : Sent) (hid : c.id ≠ w.issued) (hc : w.Closed c) : w'.Closed c := by
    obtain ⟨u, hu, hnow⟩ := hc
    refine ⟨u, ?_, h.nowUs ▸ hnow⟩
    rwa [he, hl, Function.update_of_ne hid]
  have hguarded (c : Sent) (hid : c.id ≠ w.issued) (hc : w.Guarded c) : w'.Guarded c := by
    obtain ⟨hc₁, hc₂, hc₃⟩ := hc
    have hne : c.command ≠ x := by
      rintro rfl
      rw [hfree] at hc₁
      cases hc₁
    refine ⟨?_, ?_, ?_⟩
    · rwa [hq, Function.update_of_ne hne]
    · rwa [ho, Function.update_of_ne hne]
    · rwa [he, hu, Function.update_of_ne hid, Function.update_of_ne hne]
  refine hs.retrack h (fun c _ hc hheld => ?_) fun a _ c _ hc hwaiting => ?_
  · by_cases hid : c.id = w.issued
    · exact .inr ((hlive c hc hid).imp_right .inr)
    · rcases hheld with hl | ⟨hdeadline, hplace⟩
      · exact absurd hl.1 hid
      · exact .inr ⟨h.nowUs ▸ hdeadline, hplace.imp (hclosed c hid) (hguarded c hid)⟩
  · by_cases hid : c.id = w.issued
    · exact .inr ((hlive c hc hid).imp_right .inr)
    · rcases hwaiting with hl | ⟨hdeadline, hplace⟩
      · exact absurd hl.1 hid
      · exact .inr ⟨h.nowUs ▸ hdeadline, h.nowUs ▸ hplace.imp_right (hguarded c hid)⟩

/-- A command that never left times out: nothing is quarantined. -/
private theorem Sound.dropped (hs : w.Sound) (hengaged : w.tracker.engaged = false) :
    { w with tracker := { w.tracker with pending := false } }.Sound := by
  refine hs.relax ⟨rfl, rfl, rfl, rfl, rfl, rfl, rfl, fun h => by cases h⟩ ?_
    (fun _ hc => hc) (fun _ _ hc => .inr hc) fun _ _ _ _ hc => .inr hc
  rintro c - ⟨-, he⟩
  rw [hengaged] at he
  cases he

theorem Sound.polled (hs : w.Sound) : (w.polled w.nowUs).Sound := by
  by_cases hw : w.tracker.pending = false ∨ w.nowUs ≤ w.tracker.deadline
  · have hnone : w.timesOut w.nowUs = none := by
      rw [timesOut, if_neg]
      rintro ⟨he, hd⟩
      rcases hw with hw | hw
      · rw [Tracker.pending_of_engaged he] at hw
        cases hw
      · omega
    rw [World.polled, hnone]
    show World.Sound { w with tracker := (w.tracker.poll w.nowUs).2 }
    rw [Tracker.poll_waiting hw]
    exact hs
  · rw [not_or, Bool.not_eq_false, not_le] at hw
    obtain ⟨hpending, hdeadline⟩ := hw
    obtain ⟨x, hx, hfree⟩ := hs.free hpending
    have hpoll := Tracker.poll_timedOut hpending hdeadline
    by_cases hengaged : w.tracker.engaged = true
    · have hsome : w.timesOut w.nowUs = some x := by
        rw [timesOut, if_pos ⟨hengaged, hdeadline⟩, hx]
      have hout : (w.tracker.sent || w.tracker.reserved) = true := by
        simpa [Tracker.engaged, hpending] using hengaged
      rw [World.polled, hsome]
      refine hs.expired hengaged hdeadline hx hfree ⟨rfl, rfl, rfl, rfl, rfl, rfl, rfl, ?_⟩
        ?_ ?_ rfl rfl rfl
      · intro h
        rw [hpoll] at h
        cases h
      · simp [hpoll, hout, Tracker.quarantine, hx]
      · simp [hpoll, hout, Tracker.quarantine, hx]
    · rw [Bool.not_eq_true] at hengaged
      have hnone : w.timesOut w.nowUs = none := by
        rw [timesOut, if_neg]
        rintro ⟨he, -⟩
        rw [hengaged] at he
        cases he
      have hout : ¬ (w.tracker.sent || w.tracker.reserved) = true := by
        simpa [Tracker.engaged, hpending] using hengaged
      rw [World.polled, hnone]
      show World.Sound { w with tracker := (w.tracker.poll w.nowUs).2 }
      rw [hpoll, if_neg hout]
      exact hs.dropped hengaged

@[simp] theorem outcomes_concat (log : List Return) (r : Return) :
    outcomes (log ++ [r]) = outcomes log ++ if r.ends then [r.command] else [] := by
  by_cases hr : r.ends = true <;> simp [outcomes, hr]

/-- What is returned changes nothing else. -/
theorem Sound.returned (hs : w.Sound) (result : Result) (arrival : Option Arrival) :
    (w.returned result arrival).Sound :=
  hs.relax
    ⟨rfl, rfl, rfl, rfl, rfl, rfl, rfl, fun h => ⟨h, rfl, rfl, rfl, rfl, fun _ hx => hx⟩⟩
    (fun _ _ hl => hl) (fun _ hc => hc) (fun _ _ hc => .inr hc) fun _ _ _ _ hc => .inr hc

/-- Nothing is returned. -/
theorem Logged.quiet (h : w.Logged) (hlog : w'.log = w.log) (hissued : w'.issued = w.issued)
    (hpending : w'.tracker.pending = true → w.tracker.pending = true) : w'.Logged := by
  refine ⟨hlog ▸ h.attributed, fun id hid => ?_⟩
  obtain ⟨hle, heq⟩ := h.ended id (hlog ▸ hid)
  refine ⟨hissued ▸ hle, fun hi => ?_⟩
  have hfalse := heq (hissued ▸ hi)
  cases hp : w'.tracker.pending with
  | false => rfl
  | true => exact absurd (hpending hp) (by simp [hfalse])

/-- A result is returned that is the command's own, and its only one. -/
theorem Logged.returned (h : w.Logged) {result : Result} {arrival : Option Arrival}
    (hown : Own ⟨w.issued, result, w.nowUs, arrival⟩)
    (hprompt : Prompt ⟨w.issued, result, w.nowUs, arrival⟩)
    (honce : result.outcome ≠ .kNone → w.issued ∉ outcomes w.log ∧ w.tracker.pending = false) :
    (w.returned result arrival).Logged := by
  have hends : (⟨w.issued, result, w.nowUs, arrival⟩ : Return).ends = true ↔
      result.outcome ≠ .kNone := by
    simp [Return.ends]
  refine ⟨⟨fun r hr => ?_, ?_, fun r hr => ?_⟩, fun id hid => ?_⟩
  · rcases List.mem_append.mp hr with hr | hr
    · exact h.attributed.own r hr
    · rwa [List.mem_singleton.mp hr]
  · rw [World.returned, outcomes_concat]
    split_ifs with hend
    · refine List.nodup_append.mpr ⟨h.attributed.once, List.nodup_singleton _, ?_⟩
      rintro id hid _ hlast rfl
      rw [List.mem_singleton.mp hlast] at hid
      exact (honce (hends.mp hend)).1 hid
    · rw [List.append_nil]
      exact h.attributed.once
  · rcases List.mem_append.mp hr with hr | hr
    · exact h.attributed.prompt r hr
    · rwa [List.mem_singleton.mp hr]
  · rw [World.returned, outcomes_concat] at hid
    split_ifs at hid with hend
    · rcases List.mem_append.mp hid with hid | hid
      · exact h.ended id hid
      · obtain rfl := List.mem_singleton.mp hid
        exact ⟨le_rfl, fun _ => (honce (hends.mp hend)).2⟩
    · rw [List.append_nil] at hid
      exact h.ended id hid

@[simp] theorem polled_log (now : ℕ) : (w.polled now).log = w.log := by
  rw [polled]
  split <;> rfl

@[simp] theorem polled_issued (now : ℕ) : (w.polled now).issued = w.issued := by
  rw [polled]
  split <;> rfl

@[simp] theorem polled_nowUs (now : ℕ) : (w.polled now).nowUs = w.nowUs := by
  rw [polled]
  split <;> rfl

@[simp] theorem polled_tracker (now : ℕ) :
    (w.polled now).tracker = (w.tracker.poll now).2 := by
  rw [polled]
  split <;> rfl

/-- A poll that times a command out returns the first outcome of that command. -/
theorem Logged.poll_once (h : w.Logged) {now : ℕ}
    (hout : (w.tracker.poll now).1.outcome ≠ .kNone) :
    w.issued ∉ outcomes w.log ∧ (w.tracker.poll now).2.pending = false := by
  by_cases hw : w.tracker.pending = false ∨ now ≤ w.tracker.deadline
  · rw [Tracker.poll_waiting hw] at hout
    exact absurd rfl hout
  · rw [not_or, Bool.not_eq_false, not_le] at hw
    refine ⟨fun hmem => ?_, by rw [Tracker.poll_timedOut hw.1 hw.2]⟩
    rw [(h.ended _ hmem).2 rfl] at hw
    exact Bool.noConfusion hw.1

theorem poll_outcome (t : Tracker) (now : ℕ) :
    (t.poll now).1 = {} ∨ (t.poll now).1 = ⟨.kTimedOut, 0⟩ := by
  by_cases hw : t.pending = false ∨ now ≤ t.deadline
  · rw [Tracker.poll_waiting hw]
    exact .inl rfl
  · rw [not_or, Bool.not_eq_false, not_le] at hw
    rw [Tracker.poll_timedOut hw.1 hw.2]
    exact .inr rfl

/-- What a poll returns is not an answer. -/
theorem own_of_poll (t : Tracker) (now id us : ℕ) (arrival : Option Arrival) :
    Own ⟨id, (t.poll now).1, us, arrival⟩ := by
  intro h
  rcases poll_outcome t now with hp | hp <;> rw [hp] at h <;> rcases h with h | h <;> cases h

theorem Logged.polled (h : w.Logged) (now : ℕ) : (w.polled now).Logged := by
  refine h.quiet (polled_log now) (polled_issued now) fun hp => ?_
  rw [polled_tracker] at hp
  rwa [Tracker.poll_pending_le hp] at hp

theorem Logged.poll (h : w.Logged) (now : ℕ) : (w.poll now).Logged := by
  refine (h.polled now).returned (own_of_poll _ _ _ _ _) (fun a c ha => by cases ha) fun hout => ?_
  rw [polled_issued, polled_log, polled_tracker]
  exact h.poll_once hout

/-- Quarantines that are over end. -/
theorem Sound.expire (hs : w.Sound) (ht : w.Timely) :
    { w with tracker := w.tracker.expire w.nowUs }.Sound := by
  have hcontinues : w.tracker.Continues (w.tracker.expire w.nowUs) := by
    refine fun h => ⟨h, rfl, rfl, rfl, rfl, fun x hx => ?_⟩
    simp [Tracker.expire, hx]
  have hguarded (c : Sent) (hc : w.Guarded c)
      (hlt : w.nowUs < w.tracker.quarantineUntil c.command) :
      { w with tracker := w.tracker.expire w.nowUs }.Guarded c :=
    ⟨by simp [Tracker.expire, hc.1, hlt], hc.2.1, hc.2.2⟩
  refine hs.relax ⟨rfl, rfl, rfl, rfl, rfl, rfl, rfl, hcontinues⟩ (fun _ _ hl => hl)
    (fun _ hc => hc) (fun c _ hc => ?_) fun a ha c hac hc => ?_
  · by_cases hlt : w.nowUs < w.tracker.quarantineUntil c.command
    · exact .inr (hguarded c hc hlt)
    · exact .inl ⟨_, .inl hc.2.2, by simpa using hlt⟩
  · by_cases hlt : w.nowUs < w.tracker.quarantineUntil c.command
    · exact .inr (hguarded c hc hlt)
    · exact .inl ((ht a ha c hac _ hc.2.2).trans_le (by simpa using hlt))

end World

namespace Tracker

/-- The tracker with a command that was just issued. -/
def begun (t : Tracker) (x : Command) (now timeout : ℕ) : Tracker :=
  { t with
    pending := true
    sent := false
    reserved := false
    opcode := x.opcode
    deadline := now + timeout
    timeout := timeout }

theorem issue_cases (t : Tracker) (opcode : UInt16) (now timeout : ℕ) :
    ((t.issue opcode now timeout).1 ≠ .kIssued ∧ ((t.issue opcode now timeout).2 = t ∨
      t.pending = false ∧ (t.issue opcode now timeout).2 = t.expire now)) ∨
    ((t.issue opcode now timeout).1 = .kIssued ∧ t.pending = false ∧
      ∃ x, (t.expire now).quarantined x = false ∧
        (t.issue opcode now timeout).2 = (t.expire now).begun x now timeout) := by
  rw [issue]
  cases index opcode with
  | none => exact .inl ⟨by simp, .inl rfl⟩
  | some x =>
    by_cases hinvalid : timeout = 0 ∨ kMaxUs - now < timeout
    · simp [hinvalid]
    · cases hp : t.pending with
      | true => simp [hinvalid]
      | false =>
        simp only [hinvalid, if_false, Bool.false_eq_true, begin]
        cases hq : (t.expire now).quarantined x with
        | true => simp
        | false =>
          by_cases hcredit : ((t.expire now).credit == 0) = true
          · by_cases hany : (t.expire now).anyQuarantined = true <;> simp [hcredit, hany]
          · exact .inr ⟨by simp [hcredit], trivial, x, hq, by simp [hcredit, begun]⟩

end Tracker

namespace World

variable {w w' : World}

/-- A new command is waited for; it has not left. -/
private theorem Sound.begun (hs : w.Sound) (hp : w.tracker.pending = false) {x : Command}
    (hx : w.tracker.quarantined x = false) (now timeout : ℕ) :
    { w with tracker := w.tracker.begun x now timeout, issued := w.issued + 1 }.Sound := by
  have hidle : w.tracker.engaged = false := by simp [Tracker.engaged, hp]
  have hengaged : (w.tracker.begun x now timeout).engaged = false := by
    simp [Tracker.engaged, Tracker.begun]
  have htracked (c : Sent) (hc : w.Tracked c) :
      { w with tracker := w.tracker.begun x now timeout, issued := w.issued + 1 }.Tracked c :=
    ⟨hc.1.trans (Nat.le_succ _), fun hid => absurd hid (Nat.ne_of_lt (Nat.lt_succ_of_le hc.1))⟩
  have hlive (c : Sent) : ¬ w.Live c := by
    rintro ⟨-, he⟩
    rw [hidle] at he
    cases he
  refine
    { free := fun _ => ⟨x, by simp [Tracker.begun], hx⟩
      floor := fun he => absurd he (by simp [hengaged])
      handed := fun id u hu => ?_
      sending := fun id hid => ?_
      reserved := fun c hc => ?_
      queued := fun a ha => ?_
      nodup := hs.nodup }
  · obtain ⟨hle, hnow, -⟩ := hs.handed id u hu
    exact ⟨hle.trans (Nat.le_succ _), hnow, fun hid =>
      absurd hid (Nat.ne_of_lt (Nat.lt_succ_of_le hle))⟩
  · have hle := (hs.sending id hid).1
    exact ⟨hle.trans (Nat.le_succ _), fun hid =>
      absurd hid (Nat.ne_of_lt (Nat.lt_succ_of_le hle)), fun _ => hengaged⟩
  · obtain ⟨ht, hheld⟩ := hs.reserved c hc
    exact ⟨htracked c ht, .inr (hheld.resolve_left (hlive c))⟩
  · obtain ⟨harrived, hidle, hanswers⟩ := hs.queued a ha
    refine ⟨harrived, hidle, fun c hc => ?_⟩
    obtain ⟨ht, hanswer, hopcode, hhanded, hwaiting, -⟩ := hanswers c hc
    exact ⟨htracked c ht, hanswer, hopcode, hhanded, fun hreset =>
      .inr ((hwaiting hreset).resolve_left (hlive c)), fun _ he => absurd he (by simp [hengaged])⟩

theorem Sound.issue (hs : w.Sound) (ht : w.Timely) (opcode : UInt16) (timeout : ℕ) :
    (w.issue opcode w.nowUs timeout).Sound := by
  rcases w.tracker.issue_cases opcode w.nowUs timeout with
    ⟨hno, hsame | ⟨-, hexpired⟩⟩ | ⟨hissued, hp, x, hx, hbegun⟩
  · rw [World.issue, if_neg hno, hsame]
    exact hs
  · rw [World.issue, if_neg hno, hexpired]
    exact hs.expire ht
  · rw [World.issue, if_pos hissued, hbegun]
    exact (hs.expire ht).begun hp hx w.nowUs timeout

theorem Logged.issue (h : w.Logged) (opcode : UInt16) (now timeout : ℕ) :
    (w.issue opcode now timeout).Logged := by
  rcases w.tracker.issue_cases opcode now timeout with
    ⟨hno, hsame | ⟨-, hexpired⟩⟩ | ⟨hissued, hp, x, hx, hbegun⟩
  · rw [World.issue, if_neg hno, hsame]
    exact h
  · rw [World.issue, if_neg hno, hexpired]
    exact h.quiet rfl rfl fun hp => hp
  · rw [World.issue, if_pos hissued, hbegun]
    refine ⟨h.attributed, fun id hid => ?_⟩
    have hle := (h.ended id hid).1
    exact ⟨hle.trans (Nat.le_succ _), fun heq =>
      absurd heq (Nat.ne_of_lt (Nat.lt_succ_of_le hle))⟩

end World

namespace Tracker

theorem tryBeginSend_true {t : Tracker} {now : ℕ} (h : (t.tryBeginSend now).1 = true) :
    t.pending = true ∧ t.engaged = false ∧ now ≤ t.deadline ∧ t.credit ≠ 0 ∧
      (t.tryBeginSend now).2 =
        { t with reserved := true, floorUs := now, credit := t.credit - 1 } := by
  by_cases hno : (!t.pending || t.sent || t.reserved || now > t.deadline || t.credit == 0) = true
  · rw [tryBeginSend, if_pos hno] at h
    cases h
  · have heq : t.tryBeginSend now =
        (true, { t with reserved := true, floorUs := now, credit := t.credit - 1 }) := by
      rw [tryBeginSend, if_neg hno]
    simp only [Bool.or_eq_true, Bool.not_eq_true', decide_eq_true_eq, beq_iff_eq, not_or,
      Bool.not_eq_false, Bool.not_eq_true, gt_iff_lt, not_lt] at hno
    obtain ⟨⟨⟨⟨hp, hsent⟩, hreserved⟩, hdeadline⟩, hcredit⟩ := hno
    exact ⟨hp, by simp [engaged, hsent, hreserved], hdeadline, hcredit, by rw [heq]⟩

end Tracker

namespace World

variable {w w' : World}

theorem not_live (h : w.tracker.engaged = false) (c : Sent) : ¬ w.Live c := by
  rintro ⟨-, he⟩
  rw [h] at he
  cases he

/-- The packet of the command waited for is about to leave. -/
private theorem Sound.reserve (hs : w.Sound) (hp : w.tracker.pending = true)
    (hidle : w.tracker.engaged = false) {x : Command} (hx : index w.tracker.opcode = some x)
    (hfree : w.tracker.quarantined x = false) (credit : UInt8) :
    ({ w with
      tracker := { w.tracker with reserved := true, floorUs := w.nowUs, credit := credit }
      sending := some w.issued
      reserved := w.reserved ++ [(⟨w.issued, x, w.tracker.deadline⟩ : Sent)] } : World).Sound := by
  have hengaged : ({ w.tracker with
      reserved := true, floorUs := w.nowUs, credit := credit } : Tracker).engaged = true := by
    simp [Tracker.engaged, hp]
  have hne (c : Sent) (hc : w.Tracked c) : c.id ≠ w.issued := by
    intro hid
    rw [(hc.2 hid hp).1] at hidle
    cases hidle
  refine
    { free := fun _ => ⟨x, hx, hfree⟩
      floor := fun _ => le_rfl
      handed := fun id u hu => ?_
      sending := fun id hid => ?_
      reserved := fun c hc => ?_
      queued := fun a ha => ?_
      nodup := ?_ }
  · obtain ⟨hle, hnow, hid⟩ := hs.handed id u hu
    refine ⟨hle, hnow, fun heq _ => ?_⟩
    rw [(hid heq hp).1] at hidle
    cases hidle
  · obtain rfl := Option.some.inj hid
    exact ⟨le_rfl, fun _ _ => hengaged, fun hid => absurd rfl hid⟩
  · rcases List.mem_append.mp hc with hc | hc
    · obtain ⟨ht, hheld⟩ := hs.reserved c hc
      exact ⟨⟨ht.1, fun hid => absurd hid (hne c ht)⟩,
        .inr (hheld.resolve_left (not_live hidle c))⟩
    · obtain rfl := List.mem_singleton.mp hc
      exact ⟨⟨le_rfl, fun _ _ => ⟨hengaged, hx, rfl⟩⟩, .inl ⟨rfl, hengaged⟩⟩
  · obtain ⟨harrived, hquiet, hanswers⟩ := hs.queued a ha
    refine ⟨harrived, hquiet, fun c hc => ?_⟩
    obtain ⟨ht, hanswer, hopcode, hhanded, hwaiting, -⟩ := hanswers c hc
    refine ⟨⟨ht.1, fun hid => absurd hid (hne c ht)⟩, hanswer, hopcode, hhanded,
      fun hreset => .inr ((hwaiting hreset).resolve_left (not_live hidle c)),
      fun hreset _ _ hindex => ?_⟩
    -- its opcode was free when the command was issued, so the answer is not guarded
    obtain ⟨-, hlt | hguarded⟩ := (hwaiting hreset).resolve_left (not_live hidle c)
    · exact hlt
    · obtain rfl : x = c.command := Option.some.inj (hx.symm.trans hindex)
      exact absurd hguarded.1 (by simp [hfree])
  · have hnew : w.issued ∉ w.known := by
      intro hmem
      rcases List.mem_append.mp hmem with hmem | hmem
      · obtain ⟨c, hc, hid⟩ := List.mem_map.mp hmem
        exact hne c (hs.reserved c hc).1 hid
      · obtain ⟨a, ha, hid⟩ := List.mem_filterMap.mp hmem
        obtain ⟨c, hc, hid⟩ := Option.map_eq_some_iff.mp hid
        exact hne c ((hs.queued a ha).answers c hc).tracked hid
    have hperm : List.Perm (w.issued :: w.known)
        ((w.reserved ++ [(⟨w.issued, x, w.tracker.deadline⟩ : Sent)]).map Sent.id ++
          w.queue.filterMap fun a => a.answers.map Sent.id) := by
      rw [List.map_append, List.append_assoc]
      exact List.perm_middle.symm
    exact hperm.nodup_iff.mp (List.nodup_cons.mpr ⟨hnew, hs.nodup⟩)

theorem Sound.tryBeginSend (hs : w.Sound) : (w.tryBeginSend w.nowUs).Sound := by
  rw [World.tryBeginSend]
  split_ifs with h
  · obtain ⟨hp, hidle, hdeadline, -, htracker⟩ := Tracker.tryBeginSend_true h
    obtain ⟨x, hx, hfree⟩ := hs.free hp
    rw [htracker, hx]
    exact hs.reserve hp hidle hx hfree _
  · exact hs

theorem Logged.tryBeginSend (h : w.Logged) (now : ℕ) : (w.tryBeginSend now).Logged := by
  rw [World.tryBeginSend]
  split_ifs with hsend
  · obtain ⟨hp, -, -, -, -⟩ := Tracker.tryBeginSend_true hsend
    exact h.quiet rfl rfl fun _ => hp
  · exact h

theorem Sound.handOver (hs : w.Sound) (h : w.handOver w.nowUs = some w') : w'.Sound := by
  rw [World.handOver] at h
  cases hsending : w.sending with
  | none =>
    rw [hsending] at h
    cases h
  | some id =>
    simp only [hsending, Option.ite_none_right_eq_some, Option.some.injEq] at h
    obtain ⟨hnone, rfl⟩ := h
    obtain ⟨hle, hengaged, -⟩ := hs.sending id hsending
    refine
      { free := hs.free
        floor := hs.floor
        handed := fun id' u hu => ?_
        sending := fun id' hid => hs.sending id' (hsending.trans hid)
        reserved := hs.reserved
        queued := fun a ha => ?_
        nodup := hs.nodup }
    · by_cases hid : id' = id
      · subst hid
        obtain rfl : w.nowUs = u := by simpa using hu
        exact ⟨hle, le_rfl, fun heq hp =>
          ⟨hengaged heq hp, hs.floor (hengaged heq hp)⟩⟩
      · exact hs.handed id' u (by simpa [Function.update_of_ne hid] using hu)
    · obtain ⟨harrived, hquiet, hanswers⟩ := hs.queued a ha
      refine ⟨harrived, hquiet, fun c hc => ?_⟩
      obtain ⟨ht, hanswer, hopcode, ⟨u, hle, hu⟩, hwaiting, hforeign⟩ := hanswers c hc
      refine ⟨ht, hanswer, hopcode, ⟨u, hle, ?_⟩, hwaiting, hforeign⟩
      have hid : c.id ≠ id := by
        rintro rfl
        rw [hnone] at hu
        cases hu
      simpa [Function.update_of_ne hid] using hu

end World

namespace Tracker

variable {t : Tracker} {sendUs : ℕ}

theorem markSent_cases (t : Tracker) (sendUs : ℕ) : t.markSent sendUs = t ∨
    t.engaged = true ∧
      t.markSent sendUs = { t with sent := true, floorUs := max t.floorUs sendUs } := by
  by_cases hno : (!t.pending || !t.reserved || t.sent) = true
  · exact .inl (by rw [markSent, if_pos hno])
  · refine .inr ⟨?_, ?_⟩
    · simp only [Bool.or_eq_true, Bool.not_eq_true', not_or, Bool.not_eq_false,
        Bool.not_eq_true] at hno
      simp [engaged, hno]
    · rw [markSent, if_neg hno]
      by_cases hlt : sendUs > t.floorUs
      · rw [if_pos hlt, max_eq_right hlt.le]
      · rw [if_neg hlt, max_eq_left (not_lt.mp hlt)]

end Tracker

namespace World

variable {w w' : World}

theorem Sound.sent (hs : w.Sound) : { w with sending := none }.Sound :=
  { free := hs.free
    floor := hs.floor
    handed := hs.handed
    sending := fun _ hid => by cases hid
    reserved := hs.reserved
    queued := fun a ha => by
      obtain ⟨harrived, hquiet, hanswers⟩ := hs.queued a ha
      refine ⟨harrived, hquiet, fun c hc => ?_⟩
      obtain ⟨ht, hanswer, hopcode, hhanded, hwaiting, hforeign⟩ := hanswers c hc
      exact ⟨ht, hanswer, hopcode, hhanded, hwaiting, hforeign⟩
    nodup := hs.nodup }

/-- The floor rises to the time of the hand-over, which no own answer precedes. -/
private theorem Sound.raise (hs : w.Sound) (hengaged : w.tracker.engaged = true) {u : ℕ}
    (hu : w.handedUs w.issued = some u) :
    { w with
      tracker := { w.tracker with sent := true, floorUs := max w.tracker.floorUs u } }.Sound := by
  have hp := Tracker.pending_of_engaged hengaged
  obtain ⟨-, hnow, hfloor⟩ := hs.handed w.issued u hu
  have he : ({ w.tracker with
      sent := true, floorUs := max w.tracker.floorUs u } : Tracker).engaged = true := by
    simp [Tracker.engaged, hp]
  have hlive (c : Sent) (hl : w.Live c) :
      { w with
        tracker := { w.tracker with sent := true, floorUs := max w.tracker.floorUs u } }.Live c :=
    ⟨hl.1, he⟩
  have htracked (c : Sent) (hc : w.Tracked c) :
      { w with
        tracker := { w.tracker with
          sent := true, floorUs := max w.tracker.floorUs u } }.Tracked c :=
    ⟨hc.1, fun hid hp => ⟨he, (hc.2 hid hp).2⟩⟩
  refine
    { free := hs.free
      floor := fun _ => max_le (hs.floor hengaged) hnow
      handed := fun id u' hu' => ?_
      sending := fun id hid => ?_
      reserved := fun c hc => ?_
      queued := fun a ha => ?_
      nodup := hs.nodup }
  · obtain ⟨hle, hnow', -⟩ := hs.handed id u' hu'
    refine ⟨hle, hnow', fun heq _ => ⟨he, ?_⟩⟩
    obtain rfl : id = w.issued := heq
    obtain rfl : u = u' := Option.some.inj (hu.symm.trans hu')
    exact max_le (hfloor rfl hp).2 le_rfl
  · obtain ⟨hle, heq, hne⟩ := hs.sending id hid
    exact ⟨hle, fun _ _ => he, fun hid => absurd (hne hid) (by simp [hengaged])⟩
  · obtain ⟨ht, hheld⟩ := hs.reserved c hc
    exact ⟨htracked c ht, hheld.imp_left (hlive c)⟩
  · obtain ⟨harrived, hquiet, hanswers⟩ := hs.queued a ha
    refine ⟨harrived, hquiet, fun c hc => ?_⟩
    obtain ⟨ht, hanswer, hopcode, hhanded, hwaiting, hforeign⟩ := hanswers c hc
    exact ⟨htracked c ht, hanswer, hopcode, hhanded, fun hr => (hwaiting hr).imp_left (hlive c),
      fun hr _ hne hx => lt_max_of_lt_left (hforeign hr hengaged hne hx)⟩

theorem Sound.markSent (hs : w.Sound) (h : w.markSent = some w') : w'.Sound := by
  rw [World.markSent] at h
  cases hbind : w.sending.bind w.handedUs with
  | none =>
    rw [hbind] at h
    cases h
  | some u =>
    rw [hbind] at h
    obtain rfl := Option.some.inj h
    obtain ⟨id, hsending, hu⟩ := Option.bind_eq_some_iff.mp hbind
    rcases w.tracker.markSent_cases u with hsame | ⟨hengaged, hraised⟩
    · rw [hsame]
      exact hs.sent
    · obtain rfl : id = w.issued := by
        by_contra hne
        rw [(hs.sending id hsending).2.2 hne] at hengaged
        cases hengaged
      rw [hraised]
      exact (hs.raise hengaged hu).sent

theorem Logged.markSent (h : w.Logged) (hsent : w.markSent = some w') : w'.Logged := by
  rw [World.markSent] at hsent
  cases hbind : w.sending.bind w.handedUs with
  | none =>
    rw [hbind] at hsent
    cases hsent
  | some u =>
    rw [hbind] at hsent
    obtain rfl := Option.some.inj hsent
    refine h.quiet rfl rfl fun hp => ?_
    rcases w.tracker.markSent_cases u with hsame | ⟨hengaged, hraised⟩
    · simpa [hsame] using hp
    · exact Tracker.pending_of_engaged hengaged

theorem Logged.handOver (h : w.Logged) {now : ℕ} (hout : w.handOver now = some w') :
    w'.Logged := by
  rw [World.handOver] at hout
  cases hsending : w.sending with
  | none =>
    rw [hsending] at hout
    cases hout
  | some id =>
    simp only [hsending, Option.ite_none_right_eq_some, Option.some.injEq] at hout
    obtain ⟨-, rfl⟩ := hout
    exact h.quiet rfl rfl fun hp => hp

/-- An arrival joins the queue. -/
private theorem Sound.enqueue (hs : w.Sound) {e : Event} {answers : Option Sent}
    (hplaced : ∀ a : Arrival, a.event = e → a.answers = answers → a.arrivalUs = w.nowUs →
      w.Placed a)
    (hnodup : (w.enqueue e answers).known.Nodup) : (w.enqueue e answers).Sound := by
  have hold (a : Arrival) (ha : w.Placed a) : (w.enqueue e answers).Placed a := by
    obtain ⟨harrived, hquiet, hanswers⟩ := ha
    refine ⟨harrived, hquiet, fun c hc => ?_⟩
    obtain ⟨ht, hanswer, hopcode, hhanded, hwaiting, hforeign⟩ := hanswers c hc
    exact ⟨ht, hanswer, hopcode, hhanded, hwaiting, hforeign⟩
  refine
    { free := hs.free
      floor := hs.floor
      handed := hs.handed
      sending := hs.sending
      reserved := hs.reserved
      queued := fun a ha => ?_
      nodup := hnodup }
  rcases List.mem_append.mp ha with ha | ha
  · exact hold a (hs.queued a ha)
  · obtain rfl := List.mem_singleton.mp ha
    exact hold _ (hplaced _ rfl rfl rfl)

theorem known_enqueue_none (w : World) (e : Event) : (w.enqueue e none).known = w.known := by
  simp [known, enqueue]

theorem known_enqueue_some (w : World) (e : Event) (c : Sent) :
    (w.enqueue e (some c)).known = w.known ++ [c.id] := by
  simp [known, enqueue]

/-- The commands that are still unanswered once one is answered. -/
def unreserve (w : World) (id : ℕ) : World :=
  { w with reserved := w.reserved.filter fun c => c.id != id }

theorem known_unreserve_sublist (w : World) (id : ℕ) :
    List.Sublist (w.unreserve id).known w.known :=
  (List.filter_sublist.map _).append_right _

private theorem Sound.unreserve (hs : w.Sound) (id : ℕ) : (w.unreserve id).Sound :=
  { free := hs.free
    floor := hs.floor
    handed := hs.handed
    sending := hs.sending
    reserved := fun c hc => hs.reserved c (List.mem_filter.mp hc).1
    queued := fun a ha => by
      obtain ⟨harrived, hquiet, hanswers⟩ := hs.queued a ha
      refine ⟨harrived, hquiet, fun c hc => ?_⟩
      obtain ⟨ht, hanswer, hopcode, hhanded, hwaiting, hforeign⟩ := hanswers c hc
      exact ⟨ht, hanswer, hopcode, hhanded, hwaiting, hforeign⟩
    nodup := (known_unreserve_sublist w id).nodup hs.nodup }

private theorem Sound.not_mem_unreserve (hs : w.Sound) {c : Sent} (hc : c ∈ w.reserved) :
    c.id ∉ (w.unreserve c.id).known := by
  intro hmem
  rcases List.mem_append.mp hmem with hmem | hmem
  · obtain ⟨c', hc', hid⟩ := List.mem_map.mp hmem
    have hne := (List.mem_filter.mp hc').2
    simp [hid] at hne
  · exact (List.disjoint_of_nodup_append hs.nodup) (List.mem_map_of_mem hc) hmem

/-- An answer that arrives while nothing can arrive any more is none. -/
private theorem not_closed {a : Arrival} {c : Sent} (ht : w'.Timely) (hg : w'.Guarding)
    (ha : a ∈ w'.queue) (hc : a.answers = some c) (hnow : a.arrivalUs = w'.nowUs) :
    ¬ w'.Closed c := by
  rintro ⟨u, hu | hu, hle⟩
  · have := ht a ha c hc u hu
    omega
  · have := hg a ha c hc u hu
    omega

theorem Sound.arrive (hs : w.Sound) {e : Event} {answers : Option ℕ}
    (h : w.arrive e answers = some w') (ht : w'.Timely) (hg : w'.Guarding) : w'.Sound := by
  cases answers with
  | none =>
    simp only [World.arrive] at h
    split_ifs at h with hidle
    obtain rfl := Option.some.inj h
    refine hs.enqueue (fun a hevent hanswers hnow => ⟨hnow.le, fun _ => ?_, fun c hc => ?_⟩) ?_
    · rw [hevent]
      simpa using hidle
    · rw [hanswers] at hc
      cases hc
    · rw [known_enqueue_none]
      exact hs.nodup
  | some id =>
    simp only [World.arrive] at h
    cases hfind : w.reserved.find? fun c => c.id == id with
    | none =>
      rw [hfind] at h
      cases h
    | some c =>
      simp only [hfind, Option.ite_none_right_eq_some, Option.some.injEq] at h
      obtain ⟨⟨hanswer, hopcode, hhanded⟩, rfl⟩ := h
      have hc : c ∈ w.reserved := List.mem_of_find?_eq_some hfind
      obtain rfl : c.id = id := by simpa using List.find?_some hfind
      obtain ⟨u, hu⟩ := Option.isSome_iff_exists.mp hhanded
      obtain ⟨htracked, hheld⟩ := hs.reserved c hc
      refine (hs.unreserve c.id).enqueue (fun a hevent hanswers hnow => ?_) ?_
      · have hopen : ¬ w.Closed c := by
          have hlast := not_closed (a := ⟨e, w.nowUs, some c, (w.unreserve c.id).unanswered.map
            Sent.id⟩) ht hg (List.mem_append_right _ (List.mem_singleton_self _)) rfl rfl
          exact hlast
        have hplace : w.Live c ∨ c.deadline < w.nowUs ∧ w.Guarded c :=
          hheld.imp_right fun h => ⟨h.1, h.2.resolve_left hopen⟩
        refine ⟨hnow.le, fun hno => ?_, fun c' hc' => ?_⟩
        · rw [hanswers] at hno
          cases hno
        · obtain rfl : c = c' := Option.some.inj (hanswers.symm.trans hc')
          refine ⟨htracked, hevent ▸ hanswer, hevent ▸ hopcode,
            ⟨u, hnow ▸ (hs.handed _ u hu).2.1, hu⟩, fun _ => ?_, fun _ hengaged hne hx => ?_⟩
          · exact hplace.imp_right fun h => ⟨h.1, .inr h.2⟩
          · obtain ⟨x, hx', hfree⟩ := hs.free (Tracker.pending_of_engaged hengaged)
            obtain rfl : x = c.command := Option.some.inj (hx'.symm.trans hx)
            rcases hplace with hl | ⟨-, hguarded⟩
            · exact absurd hl.1 hne
            · exact absurd hguarded.1 (by simp [hfree])
      · rw [known_enqueue_some]
        refine List.nodup_append.mpr
          ⟨(known_unreserve_sublist w c.id).nodup hs.nodup, List.nodup_singleton _, ?_⟩
        rintro id hid _ hlast rfl
        rw [List.mem_singleton.mp hlast] at hid
        exact hs.not_mem_unreserve hc hid

theorem Logged.arrive (h : w.Logged) {e : Event} {answers : Option ℕ}
    (ha : w.arrive e answers = some w') : w'.Logged := by
  cases answers with
  | none =>
    simp only [World.arrive] at ha
    split_ifs at ha
    obtain rfl := Option.some.inj ha
    exact h.quiet rfl rfl fun hp => hp
  | some id =>
    simp only [World.arrive] at ha
    cases hfind : w.reserved.find? fun c => c.id == id with
    | none =>
      rw [hfind] at ha
      cases ha
    | some c =>
      simp only [hfind, Option.ite_none_right_eq_some, Option.some.injEq] at ha
      obtain ⟨-, rfl⟩ := ha
      exact h.quiet rfl rfl fun hp => hp

theorem Sound.resetController (hs : w.Sound) (h : w.resetController w.nowUs = some w') :
    w'.Sound := by
  rw [World.resetController] at h
  split_ifs at h with hguard
  obtain ⟨hsending, hbefore⟩ := hguard
  obtain rfl := Option.some.inj h
  refine
    { free := fun hp => by cases hp
      floor := fun he => by cases he
      handed := fun id u hu => ?_
      sending := fun id hid => ?_
      reserved := fun c hc => by cases hc
      queued := fun a ha => ?_
      nodup := hs.nodup.sublist (List.sublist_append_right _ _) }
  · obtain ⟨hle, hnow, -⟩ := hs.handed id u hu
    exact ⟨hle, hnow, fun _ hp => by cases hp⟩
  · exact absurd (hsending.symm.trans hid) (by simp)
  · obtain ⟨harrived, hquiet, hanswers⟩ := hs.queued a ha
    refine ⟨harrived, hquiet, fun c hc => ?_⟩
    obtain ⟨ht, hanswer, hopcode, hhanded, -, -⟩ := hanswers c hc
    -- everything that waits arrived before the reset, so it will be dropped
    have hstale : ¬ w.nowUs ≤ a.arrivalUs := not_le.mpr (hbefore a ha)
    exact ⟨⟨ht.1, fun _ hp => by cases hp⟩, hanswer, hopcode, hhanded,
      fun hreset => absurd hreset hstale, fun hreset => absurd hreset hstale⟩

theorem Logged.resetController (h : w.Logged) {now : ℕ}
    (hreset : w.resetController now = some w') : w'.Logged := by
  rw [World.resetController] at hreset
  split_ifs at hreset
  obtain rfl := Option.some.inj hreset
  exact h.quiet rfl rfl fun hp => by cases hp

end World

end CydMonitor.Hci
