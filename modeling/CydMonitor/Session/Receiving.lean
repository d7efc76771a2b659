import CydMonitor.Device.Authorization
import CydMonitor.Session.Steps

/-!
# What the device's gate makes of an event

A session opens with a Pair for it, a snapshot passes in an open session only, and nothing else
moves the receiver.
-/

namespace CydMonitor.Session

open Transport Device Trace Codec HostLink

/-- What an action makes of the gate. -/
inductive Turn (l : HostLink) (a : Action) (l' : HostLink) : Prop where
  | opened (session : Identity)
      (source : (∃ now d, a = .frame now (.ok d) ∧ d.envelope.type = .kPair ∧
          d.envelope.session = session) ∨
        a = .confirmPairing true ∧ l.phase = .kAwaitingConfirmation ∧ l.pendingSession = session)
      (phase : l'.phase = .kSessionOpen) (receiver : l'.feed.session = .reset session)
      (applied : l'.feed.stats.applied = l.feed.stats.applied)
  | pended (now : UInt64) (d : Cpp.Decoded) (action : a = .frame now (.ok d))
      (type : d.envelope.type = .kPair) (phase : l'.phase = .kAwaitingConfirmation)
      (pendingSession : l'.pendingSession = d.envelope.session)
      (applied : l'.feed.stats.applied = l.feed.stats.applied)
  | applied (now : UInt64) (d : Cpp.Decoded) (action : a = .frame now (.ok d))
      (type : d.envelope.type = .kSnapshot)
      (session : d.envelope.session = l.feed.session.session)
      (newer : l.feed.session.lastSequence < d.envelope.sequence)
      (opened : l.phase = .kSessionOpen) (phase : l'.phase = .kSessionOpen)
      (receiver : l'.feed.session =
        { l.feed.session with lastSequence := d.envelope.sequence })
  | calm (opened : l'.phase = .kSessionOpen →
        l.phase = .kSessionOpen ∧ l'.feed.session = l.feed.session)
      (pending : l'.phase = .kAwaitingConfirmation →
        l.phase = .kAwaitingConfirmation ∧ l'.pendingSession = l.pendingSession)
      (applied : l'.feed.stats.applied = l.feed.stats.applied)

private theorem confirm_applied (accepted : Bool) (l : HostLink) :
    (l.confirmPairing accepted).feed.stats.applied = l.feed.stats.applied := by
  rw [confirmPairing]
  split_ifs
  · rfl
  · rw [decline_feed]
  · dsimp only
    split_ifs
    · rw [decline_feed]
    · rw [openSession, send_feed]
      rfl

/-- Only a snapshot is applied. -/
theorem step_applied {l : HostLink} {a : Action}
    (h : ∀ now d, a = .frame now (.ok d) → d.envelope.type ≠ .kSnapshot) :
    (l.step a).feed.stats.applied = l.feed.stats.applied := by
  cases a with
  | frame now result =>
    rw [step]
    rcases onFrame_feed l now result with hsame | ⟨_, hafter⟩ | hafter |
      ⟨_, _, _, _, _, _, _, _, hafter⟩ | ⟨_, _, _, hafter⟩ | ⟨_, hafter⟩ | ⟨d, hframe, htype, -⟩
    · rw [hsame]
    · rw [hafter]
      rfl
    · rw [hafter]
      rfl
    · rw [hafter]
      rfl
    · rw [hafter]
      rfl
    · rw [hafter]
      rfl
    · exact absurd htype (h now d (by rw [hframe]))
  | expire now =>
    rw [step, expire_feed]
  | confirmPairing accepted => exact confirm_applied accepted l
  | _ => rfl

private theorem turn_snapshot {past : List LinkMoment} {l : HostLink} (hl : Keeps past l)
    (now : UInt64) {d : Cpp.Decoded} (htype : d.envelope.type = .kSnapshot) :
    Turn l (.frame now (.ok d)) (l.step (.frame now (.ok d))) := by
  rw [step, onFrame, if_neg (not_not.mpr htype)]
  rcases onSnapshot_cases now d hl.explicitSession fun h => hl.active (hl.agree.mp h) with
    ⟨-, hreceiver, happlied⟩ | ⟨hopen, hsession, hlt, hreceiver⟩
  · exact .calm (fun hopen => ⟨hopen, hreceiver⟩) (fun hawaits => ⟨hawaits, rfl⟩) happlied
  · have hphase := hl.agree.mp hopen
    exact .applied now d rfl htype hsession hlt hphase hphase hreceiver

/-- What opens a session asked for it. -/
private theorem source_of_opens {l : HostLink} {a : Action} {session host : Identity}
    (h : Opens l a session host) :
    (∃ now d, a = .frame now (.ok d) ∧ d.envelope.type = .kPair ∧ d.envelope.session = session) ∨
      a = .confirmPairing true ∧ l.phase = .kAwaitingConfirmation ∧ l.pendingSession = session := by
  cases a with
  | frame now result =>
    cases result with
    | error e => exact h.elim
    | ok d =>
      obtain ⟨pair, hpair, hsession, -⟩ := h
      exact Or.inl ⟨now, d, rfl, hpair.1, hsession.symm⟩
  | confirmPairing accepted =>
    obtain ⟨haccepted, hawaits, -, hsession, -⟩ := h
    rw [haccepted]
    exact Or.inr ⟨rfl, hawaits, hsession.symm⟩
  | _ => exact h.elim

theorem turn_step {past : List LinkMoment} {l : HostLink} (hl : Keeps past l) (a : Action) :
    Turn l a (l.step a) := by
  by_cases hsnapshot : ∃ now d, a = .frame now (.ok d) ∧ d.envelope.type = .kSnapshot
  · obtain ⟨now, d, rfl, htype⟩ := hsnapshot
    exact turn_snapshot hl now htype
  have happlied : (l.step a).feed.stats.applied = l.feed.stats.applied :=
    step_applied fun now d ha htype => hsnapshot ⟨now, d, ha, htype⟩
  rcases step_effect l a with ⟨session, host, hopens, hphase, -, hreceiver, -, -⟩ |
    ⟨-, hnot, hwait, -, -⟩ | ⟨now, d, pair, ha, hpends, hphase, -, -, hsession, -, -⟩ |
    ⟨-, hphase, -, -⟩ | ⟨now, d, ha, htype, -⟩ | ⟨-, hsame⟩
  · exact .opened session (source_of_opens hopens) hphase hreceiver happlied
  · exact .calm (fun hopen => absurd hopen hnot) (fun hawaits => absurd hawaits hwait) happlied
  · exact .pended now d ha hpends.1 hphase hsession happlied
  · refine .calm (fun hopen => ?_) (fun hawaits => ?_) happlied
    · rw [hphase] at hopen
      cases hopen
    · rw [hphase] at hawaits
      cases hawaits
  · exact absurd ⟨now, d, ha, htype⟩ hsnapshot
  · refine .calm (fun hopen => ?_) (fun hawaits => ?_) happlied
    · exact ⟨hsame.phase.symm.trans hopen, hsame.receiver⟩
    · exact ⟨hsame.phase.symm.trans hawaits, hsame.pendingSession⟩

/-- The frame that the device applies here. -/
def appliedAt (m : Moment Joint Event) : Option (List UInt8) :=
  match m.action with
  | .deviceReads _ frame =>
    if m.after.device.feed.stats.applied = m.before.device.feed.stats.applied + 1 then some frame
    else none
  | _ => none

/-- What an event makes of the gate. -/
inductive Turns (j : Joint) (e : Event) : Prop where
  | opened (session : Identity)
      (source : (∃ now frame d, e = .deviceReads now frame ∧ Cpp.decode frame = .ok d ∧
          d.envelope.type = .kPair ∧ d.envelope.session = session) ∨
        e = .confirmPairing true ∧ j.device.phase = .kAwaitingConfirmation ∧
          j.device.pendingSession = session)
      (phase : (j.step e).device.phase = .kSessionOpen)
      (receiver : (j.step e).device.feed.session = .reset session)
      (silent : appliedAt ⟨j, e, j.step e⟩ = none)
  | pended (now : UInt64) (frame : List UInt8) (d : Cpp.Decoded)
      (event : e = .deviceReads now frame) (decoded : Cpp.decode frame = .ok d)
      (type : d.envelope.type = .kPair) (phase : (j.step e).device.phase = .kAwaitingConfirmation)
      (pendingSession : (j.step e).device.pendingSession = d.envelope.session)
      (silent : appliedAt ⟨j, e, j.step e⟩ = none)
  | applied (now : UInt64) (frame : List UInt8) (d : Cpp.Decoded)
      (event : e = .deviceReads now frame) (decoded : Cpp.decode frame = .ok d)
      (type : d.envelope.type = .kSnapshot)
      (session : d.envelope.session = j.device.feed.session.session)
      (newer : j.device.feed.session.lastSequence < d.envelope.sequence)
      (opened : j.device.phase = .kSessionOpen)
      (phase : (j.step e).device.phase = .kSessionOpen)
      (receiver : (j.step e).device.feed.session =
        { j.device.feed.session with lastSequence := d.envelope.sequence })
  | calm (opened : (j.step e).device.phase = .kSessionOpen →
        j.device.phase = .kSessionOpen ∧ (j.step e).device.feed.session = j.device.feed.session)
      (pending : (j.step e).device.phase = .kAwaitingConfirmation →
        j.device.phase = .kAwaitingConfirmation ∧
          (j.step e).device.pendingSession = j.device.pendingSession)
      (silent : appliedAt ⟨j, e, j.step e⟩ = none)

theorem silent_of_applied {j j' : Joint} {e : Event}
    (h : j'.device.feed.stats.applied = j.device.feed.stats.applied) :
    appliedAt ⟨j, e, j'⟩ = none := by
  cases e with
  | deviceReads now frame =>
    refine if_neg fun hnext => ?_
    exact ne_add_one _ (h.symm.trans hnext)
  | _ => rfl

theorem keeps_event {j : Joint} {e : Event} (h : Does j e (j.actions e))
    (hj : ∃ ms, Keeps ms j.device) : ∃ ms, Keeps ms (j.step e).device := by
  refine h.keeps (I := fun l => ∃ ms, Keeps ms l) (fun l a hl hdecoded => ?_) hj fun bootIdentity =>
    ⟨[], keeps_new _ bootIdentity⟩
  obtain ⟨ms, hms⟩ := hl
  refine ⟨_, keeps_step hms fun now d ha htype => ?_⟩
  obtain ⟨f, hf⟩ := hdecoded now d ha
  exact hello_of_decode hf htype

private theorem turns_of_turn {j : Joint} {e : Event} {l : HostLink} {a : Action}
    (h : Turn l a (j.step e).device) (hphase : l.phase = j.device.phase)
    (hreceiver : l.feed.session = j.device.feed.session)
    (hpending : l.pendingSession = j.device.pendingSession)
    (happlied : l.feed.stats.applied = j.device.feed.stats.applied)
    (hframe : ∀ now d, a = .frame now (.ok d) → ∃ frame, e = .deviceReads now frame ∧
      Cpp.decode frame = .ok d)
    (hconfirm : a = .confirmPairing true → e = .confirmPairing true) : Turns j e := by
  have hsilent (hsame : (j.step e).device.feed.stats.applied = l.feed.stats.applied) :
      appliedAt ⟨j, e, j.step e⟩ = none := silent_of_applied (hsame.trans happlied)
  cases h with
  | opened session hsource hphase' hreceiver' hsame =>
    refine .opened session ?_ hphase' hreceiver' (hsilent hsame)
    rcases hsource with ⟨now, d, ha, htype, hsession⟩ | ⟨ha, hawaits, hsession⟩
    · obtain ⟨frame, hevent, hdecode⟩ := hframe now d ha
      exact Or.inl ⟨now, frame, d, hevent, hdecode, htype, hsession⟩
    · exact Or.inr ⟨hconfirm ha, hphase.symm.trans hawaits, hpending.symm.trans hsession⟩
  | pended now d ha htype hphase' hsession hsame =>
    obtain ⟨frame, hevent, hdecode⟩ := hframe now d ha
    exact .pended now frame d hevent hdecode htype hphase' hsession (hsilent hsame)
  | applied now d ha htype hsession hnewer hopen hphase' hreceiver' =>
    obtain ⟨frame, hevent, hdecode⟩ := hframe now d ha
    rw [hreceiver] at hsession hnewer hreceiver'
    exact .applied now frame d hevent hdecode htype hsession hnewer (hphase.symm.trans hopen)
      hphase' hreceiver'
  | calm hopen hpends hsame =>
    rw [hphase, hreceiver] at hopen
    rw [hphase, hpending] at hpends
    exact .calm hopen hpends (hsilent hsame)

theorem turns_step {j : Joint} {e : Event} (h : Does j e (j.actions e))
    (hj : ∃ ms, Keeps ms j.device) : Turns j e := by
  obtain ⟨ms, hms⟩ := hj
  by_cases hrestart : ∃ bootIdentity, e = .restart bootIdentity
  · obtain ⟨bootIdentity, rfl⟩ := hrestart
    refine .calm (fun hopen => ?_) (fun hawaits => ?_) rfl
    · cases hopen
    · cases hawaits
  have hfound : j.found e = j.device := by
    cases e with
    | restart bootIdentity => exact absurd ⟨_, rfl⟩ hrestart
    | _ => rfl
  have hdevice := step_device j e
  rw [hfound] at hdevice
  have hsingle {a : Action} (ha : (j.step e).device = j.device.step a)
      (hframe : ∀ now d, a ≠ .frame now (.ok d))
      (hconfirm : a = .confirmPairing true → e = .confirmPairing true) : Turns j e := by
    have hturn := turn_step hms a
    rw [← ha] at hturn
    exact turns_of_turn hturn rfl rfl rfl rfl (fun now d h => absurd h (hframe now d)) hconfirm
  generalize j.actions e = as at h hdevice
  cases h with
  | nothing =>
    have hsame : (j.step e).device = j.device := hdevice
    refine .calm (fun hopen => ?_) (fun hawaits => ?_) (silent_of_applied (by rw [hsame]))
    · rw [hsame] at hopen ⊢
      exact ⟨hopen, rfl⟩
    · rw [hsame] at hawaits ⊢
      exact ⟨hawaits, rfl⟩
  | reads now frame d hevent hd =>
    have hbuffered := keeps_step (a := .buffer j.device.feed.stream now) hms
      fun now d ha => by cases ha
    have hturn := turn_step hbuffered (.frame now (.ok d))
    have hafter :
        (j.step e).device = HostLink.step (j.device.step (.buffer j.device.feed.stream now))
        (.frame now (.ok d)) := hdevice
    rw [← hafter] at hturn
    refine turns_of_turn hturn rfl rfl rfl rfl (fun now' d' ha => ?_) fun ha => by cases ha
    cases ha
    exact ⟨frame, hevent, hd⟩
  | ticks now hevent =>
    have hadvanced := keeps_step (a := .advance now) hms fun now d ha => by cases ha
    have hturn := turn_step hadvanced (.expire now)
    have hafter : (j.step e).device = HostLink.step (j.device.step (.advance now)) (.expire now) :=
      hdevice
    rw [← hafter] at hturn
    exact turns_of_turn hturn rfl rfl rfl rfl (fun now d ha => by cases ha) fun ha => by cases ha
  | confirms accepted hevent =>
    refine hsingle (a := .confirmPairing accepted) hdevice
      (fun now d ha => by cases ha) fun ha => ?_
    cases ha
    exact hevent
  | unpairs =>
    exact hsingle (a := .unpair) hdevice (fun now d ha => by cases ha) fun ha => by cases ha
  | handles handler =>
    exact hsingle (a := .setCalibrationResetHandler handler) hdevice (fun now d ha => by cases ha)
      fun ha => by cases ha
  | takes hevent =>
    exact hsingle (a := .takeOutgoing) hdevice (fun now d ha => by cases ha) fun ha => by cases ha

end CydMonitor.Session
