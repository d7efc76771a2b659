import CydMonitor.Hci.Attribution

/-!
# Command credit

The credit counter and the commands that were reserved and not answered fit into the slots
of the controller, as long as every event is counted against what has left since.
-/

namespace CydMonitor.Hci

namespace World

/-- Every waiting event reports the slots that were free when it was emitted. -/
def Honest (slots : ℕ) (w : World) : Prop :=
  ∀ a ∈ w.queue, a.event.isCommandEvent = true →
    a.event.credit.toNat = slots - a.unanswered.length

instance (slots : ℕ) : DecidablePred (Honest slots) := fun w => inferInstanceAs
  (Decidable (∀ a ∈ w.queue, a.event.isCommandEvent = true →
    a.event.credit.toNat = slots - a.unanswered.length))

/-- Whatever is unanswered was so when the event was emitted, or is the one command that is
waited for, which the event does not answer. -/
def Accounts (w : World) (a : Arrival) : Prop :=
  ∀ c ∈ w.reserved, c.id ∈ a.unanswered ∨
    c.id = w.issued ∧ w.tracker.engaged = true ∧ w.tracker.terminates a.event = false

/-- An event whose credit is taken accounts for what is unanswered. -/
def Accounted (w : World) : Action → Prop
  | .process now => ∀ a ∈ w.queue.head?, isStaleAfterReset a.event a.arrivalUs w.resetUs = false →
      a.event.isCommandEvent = true →
      ((w.polled now).tracker.terminates a.event &&
        a.arrivalUs < (w.polled now).tracker.floorUs) = false →
      (w.polled now).Accounts a
  | _ => True

instance (w : World) (a : Arrival) : Decidable (w.Accounts a) := inferInstanceAs
  (Decidable (∀ c ∈ w.reserved, c.id ∈ a.unanswered ∨
    c.id = w.issued ∧ w.tracker.engaged = true ∧ w.tracker.terminates a.event = false))

instance (w : World) (act : Action) : Decidable (w.Accounted act) :=
  match act with
  | .process now => inferInstanceAs (Decidable (∀ a ∈ w.queue.head?,
      isStaleAfterReset a.event a.arrivalUs w.resetUs = false →
      a.event.isCommandEvent = true →
      ((w.polled now).tracker.terminates a.event &&
        a.arrivalUs < (w.polled now).tracker.floorUs) = false →
      (w.polled now).Accounts a))
  | .issue .. | .tryBeginSend _ | .handOver _ | .markSent | .poll _ | .arrive .. |
    .resetController _ => isTrue trivial

/-- A packet may leave only while the controller has a free slot. -/
def Respects (slots : ℕ) (w : World) : Action → Prop
  | .tryBeginSend now => (w.tracker.tryBeginSend now).1 = true → w.unanswered.length < slots
  | _ => True

structure Fits (slots : ℕ) (w : World) : Prop where
  numbered : ∀ c ∈ w.reserved, c.id ≤ w.issued ∧
    (c.id = w.issued → w.tracker.pending = true → w.tracker.engaged = true)
  nodup : (w.reserved.map Sent.id).Nodup
  credit : w.tracker.credit.toNat + w.reserved.length ≤ slots

end World

namespace Tracker

variable {t : Tracker} {e : Event} {now arrival : ℕ}

@[simp] theorem credit_release : (t.release e).credit = t.credit := by
  rw [release]
  split <;> rfl

@[simp] theorem credit_poll : (t.poll now).2.credit = t.credit := by
  by_cases hw : t.pending = false ∨ now ≤ t.deadline
  · rw [poll_waiting hw]
  · rw [not_or, Bool.not_eq_false, not_le] at hw
    rw [poll_timedOut hw.1 hw.2]
    split_ifs
    · rw [quarantine]
      split <;> rfl
    · rfl

/-- An event leaves the credit alone or sets it; what is waited for stays or ends. -/
theorem record_credit (t : Tracker) (timeout : Result) (he : e.isCommandEvent = true)
    (now arrival : ℕ) :
    ((t.record timeout e now arrival).2.pending = true →
      t.pending = true ∧ (t.record timeout e now arrival).2.engaged = t.engaged) ∧
    ((t.terminates e && arrival < t.floorUs) = true ∧
        (t.record timeout e now arrival).2.credit = t.credit ∨
      (t.terminates e && arrival < t.floorUs) = false ∧
        (t.record timeout e now arrival).2.credit = (t.credited e).credit) := by
  rcases t.record_cases timeout he now arrival with
    ⟨hdropped, hrecord⟩ | ⟨hkept, ⟨-, hrecord⟩ | ⟨-, -, hrecord⟩ | ⟨-, -, hrecord⟩ |
      ⟨-, -, hrecord⟩⟩
  · rw [hrecord]
    exact ⟨fun h => ⟨h, rfl⟩, .inl ⟨hdropped, rfl⟩⟩
  · rw [hrecord]
    exact ⟨fun h => ⟨h, rfl⟩, .inr ⟨hkept, rfl⟩⟩
  · rw [hrecord]
    exact ⟨fun h => ⟨pending_release (t := t.credited e) ▸ h,
      engaged_release (t := t.credited e)⟩, .inr ⟨hkept, credit_release⟩⟩
  · rw [hrecord]
    exact ⟨fun h => ⟨pending_release (t := t.credited e) ▸ h,
      engaged_release (t := t.credited e)⟩, .inr ⟨hkept, credit_release⟩⟩
  · rw [hrecord]
    exact ⟨fun h => Bool.noConfusion h, .inr ⟨hkept, credit_release⟩⟩

end Tracker

namespace World

variable {slots : ℕ} {w w' : World} {a : Arrival}

/-- A change after which the tracker waits for the same command, if for any. -/
private theorem Fits.keep (h : w.Fits slots) (hissued : w'.issued = w.issued)
    (hreserved : List.Sublist w'.reserved w.reserved)
    (hcontinues : w'.tracker.pending = true →
      w.tracker.pending = true ∧ w'.tracker.engaged = w.tracker.engaged)
    (hcredit : w'.tracker.credit.toNat + w'.reserved.length ≤ slots) : w'.Fits slots := by
  refine ⟨fun c hc => ?_, (hreserved.map _).nodup h.nodup, hcredit⟩
  obtain ⟨hle, heq⟩ := h.numbered c (hreserved.subset hc)
  refine ⟨hissued ▸ hle, fun hid hp => ?_⟩
  obtain ⟨hp', he⟩ := hcontinues hp
  rw [he]
  exact heq (hissued ▸ hid) hp'

/-- Such a change that leaves the credit alone. -/
private theorem Fits.mono (h : w.Fits slots) (hissued : w'.issued = w.issued)
    (hreserved : List.Sublist w'.reserved w.reserved)
    (hcontinues : w'.tracker.pending = true →
      w.tracker.pending = true ∧ w'.tracker.engaged = w.tracker.engaged)
    (hcredit : w'.tracker.credit = w.tracker.credit) : w'.Fits slots := by
  refine h.keep hissued hreserved hcontinues ?_
  rw [hcredit]
  exact (Nat.add_le_add_left hreserved.length_le _).trans h.credit

theorem Fits.tick (h : w.Fits slots) {now : ℕ} (htick : w.tick now = some w') :
    w'.Fits slots ∧ w' = { w with nowUs := now } := by
  rw [World.tick] at htick
  split_ifs at htick
  obtain rfl := Option.some.inj htick
  exact ⟨h.mono rfl (List.Sublist.refl _) (fun h => ⟨h, rfl⟩) rfl, rfl⟩

theorem Fits.issue (h : w.Fits slots) (opcode : UInt16) (now timeout : ℕ) :
    (w.issue opcode now timeout).Fits slots := by
  rcases w.tracker.issue_cases opcode now timeout with
    ⟨hno, hsame | ⟨-, hexpired⟩⟩ | ⟨hissued, -, x, -, hbegun⟩
  · rw [World.issue, if_neg hno, hsame]
    exact h
  · rw [World.issue, if_neg hno, hexpired]
    exact h.mono rfl (List.Sublist.refl _) (fun h => ⟨h, rfl⟩) rfl
  · rw [World.issue, if_pos hissued, hbegun]
    refine ⟨fun c hc => ?_, h.nodup, h.credit⟩
    have hlt := Nat.lt_succ_of_le (h.numbered c hc).1
    exact ⟨hlt.le, fun hid => absurd hid hlt.ne⟩

theorem Fits.tryBeginSend (h : w.Fits slots) (now : ℕ) : (w.tryBeginSend now).Fits slots := by
  rw [World.tryBeginSend]
  split_ifs with hsend
  · obtain ⟨hp, hidle, -, hcredit, htracker⟩ := Tracker.tryBeginSend_true hsend
    rw [htracker]
    generalize hnew : ((index w.tracker.opcode).map fun c =>
      (⟨w.issued, c, w.tracker.deadline⟩ : Sent)).toList = new
    have hid (c : Sent) (hc : c ∈ new) : c.id = w.issued := by
      subst hnew
      obtain ⟨x, -, rfl⟩ := Option.map_eq_some_iff.mp (Option.mem_toList.mp hc)
      rfl
    have hlength : new.length ≤ 1 ∧ (new.map Sent.id).Nodup := by
      subst hnew
      cases index w.tracker.opcode <;> simp
    have hold (c : Sent) (hc : c ∈ w.reserved) : c.id ≠ w.issued := by
      intro hid
      rw [(h.numbered c hc).2 hid hp] at hidle
      cases hidle
    refine ⟨fun c hc => ?_, ?_, ?_⟩
    · refine ⟨?_, fun _ _ => by simp [Tracker.engaged, hp]⟩
      rcases List.mem_append.mp hc with hc | hc
      · exact (h.numbered c hc).1
      · exact (hid c hc).le
    · rw [List.map_append]
      refine List.nodup_append.mpr ⟨h.nodup, hlength.2, ?_⟩
      intro id hmem id' hmem' heq
      obtain ⟨c, hc, rfl⟩ := List.mem_map.mp hmem
      obtain ⟨c', hc', rfl⟩ := List.mem_map.mp hmem'
      exact hold c hc (heq.trans (hid c' hc'))
    · have hpos : w.tracker.credit.toNat ≠ 0 := fun h => hcredit (UInt8.toNat_inj.mp h)
      have hone : (w.tracker.credit - 1).toNat = w.tracker.credit.toNat - 1 := by
        rw [UInt8.toNat_sub_of_le]
        · rfl
        · rw [UInt8.le_iff_toNat_le]
          exact Nat.one_le_iff_ne_zero.mpr hpos
      have := h.credit
      have := hlength.1
      rw [List.length_append, hone]
      omega
  · exact h

theorem Fits.handOver (h : w.Fits slots) {now : ℕ} (hout : w.handOver now = some w') :
    w'.Fits slots := by
  rw [World.handOver] at hout
  split at hout
  · cases hout
  · split_ifs at hout
    obtain rfl := Option.some.inj hout
    exact h.mono rfl (List.Sublist.refl _) (fun h => ⟨h, rfl⟩) rfl

theorem Fits.markSent (h : w.Fits slots) (hsent : w.markSent = some w') : w'.Fits slots := by
  rw [World.markSent] at hsent
  split at hsent
  · cases hsent
  · rename_i sendUs _
    obtain rfl := Option.some.inj hsent
    rcases w.tracker.markSent_cases sendUs with hsame | ⟨hengaged, hraised⟩
    · rw [hsame]
      exact h.mono rfl (List.Sublist.refl _) (fun h => ⟨h, rfl⟩) rfl
    · rw [hraised]
      refine h.mono rfl (List.Sublist.refl _) (fun hp => ⟨hp, ?_⟩) rfl
      rw [hengaged]
      simpa [Tracker.engaged] using hp

theorem Fits.polled (h : w.Fits slots) (now : ℕ) : (w.polled now).Fits slots := by
  have hreserved : (w.polled now).reserved = w.reserved := by
    rw [World.polled]
    split <;> rfl
  refine h.mono (polled_issued now) (hreserved ▸ List.Sublist.refl _) (fun hp => ?_) ?_
  · rw [polled_tracker] at hp ⊢
    have hsame := Tracker.poll_pending_le hp
    rw [hsame] at hp ⊢
    exact ⟨hp, rfl⟩
  · rw [polled_tracker, Tracker.credit_poll]

theorem Fits.arrive (h : w.Fits slots) {e : Event} {answers : Option ℕ}
    (ha : w.arrive e answers = some w') : w'.Fits slots := by
  cases answers with
  | none =>
    simp only [World.arrive] at ha
    split_ifs at ha
    obtain rfl := Option.some.inj ha
    exact h.mono rfl (List.Sublist.refl _) (fun h => ⟨h, rfl⟩) rfl
  | some id =>
    simp only [World.arrive] at ha
    split at ha
    · cases ha
    · split_ifs at ha
      obtain rfl := Option.some.inj ha
      exact h.mono rfl List.filter_sublist (fun h => ⟨h, rfl⟩) rfl

theorem fits_resetController (hslots : 1 ≤ slots) {now : ℕ}
    (hreset : w.resetController now = some w') : w'.Fits slots := by
  rw [World.resetController] at hreset
  split_ifs at hreset
  obtain rfl := Option.some.inj hreset
  exact ⟨fun c hc => absurd hc List.not_mem_nil, List.nodup_nil, hslots⟩

/-- The credit that an event reports fits what is unanswered now. -/
theorem Fits.credited (h : w.Fits slots) (hhonest : a.event.credit.toNat =
    slots - a.unanswered.length) (haccounts : w.Accounts a) :
    (w.tracker.credited a.event).credit.toNat + w.reserved.length ≤ slots := by
  have hfits := h.credit
  have hsub : w.reserved.map Sent.id ⊆ a.unanswered ++
      if w.tracker.engaged && !w.tracker.terminates a.event then [w.issued] else [] := by
    intro id hid
    obtain ⟨c, hc, rfl⟩ := List.mem_map.mp hid
    rcases haccounts c hc with hc | ⟨hid, he, ht⟩
    · exact List.mem_append_left _ hc
    · refine List.mem_append_right _ ?_
      rw [he, ht]
      simp [hid]
  have hlength := (h.nodup.subperm hsub).length_le
  rw [List.length_map, List.length_append] at hlength
  cases hengaged : w.tracker.engaged && !w.tracker.terminates a.event with
  | false =>
    simp only [hengaged, Bool.false_eq_true, if_false, List.length_nil] at hlength
    simp only [Tracker.credited, hengaged, Bool.false_and, Bool.false_eq_true, if_false]
    omega
  | true =>
    simp only [hengaged, if_true, List.length_singleton] at hlength
    by_cases hzero : a.event.credit = 0
    · simp only [Tracker.credited, hzero, bne_self_eq_false, Bool.and_false, Bool.false_eq_true,
        if_false]
      simp only [UInt8.toNat_zero]
      omega
    · have hpos : a.event.credit.toNat ≠ 0 := fun h => hzero (UInt8.toNat_inj.mp h)
      have hone : (a.event.credit - 1).toNat = a.event.credit.toNat - 1 := by
        rw [UInt8.toNat_sub_of_le]
        · rfl
        · rw [UInt8.le_iff_toNat_le]
          exact Nat.one_le_iff_ne_zero.mpr hpos
      simp only [Tracker.credited, hengaged, bne_iff_ne, ne_eq, hzero, not_false_eq_true,
        Bool.true_and, if_true, hone]
      omega

theorem reserved_polled (w : World) (now : ℕ) : (w.polled now).reserved = w.reserved := by
  rw [polled]
  split <;> rfl

theorem settle_tracker (w : World) (r : Result × Tracker) (a : Arrival) (now : ℕ) :
    (w.settle r a now).tracker = r.2 :=
  rfl

theorem noteReset_reserved (w : World) (r : Result) (e : Event) (now : ℕ) :
    (w.noteReset r e now).reserved = w.reserved := by
  rw [noteReset]
  split_ifs <;> rfl

theorem noteLifted_reserved (w : World) (a : Arrival) (now : ℕ) :
    (w.noteLifted a now).reserved = w.reserved := by
  rw [noteLifted]
  split
  · rfl
  · split_ifs <;> rfl

theorem noteLifted_issued (w : World) (a : Arrival) (now : ℕ) :
    (w.noteLifted a now).issued = w.issued := by
  rw [noteLifted]
  split
  · rfl
  · split_ifs <;> rfl

theorem settle_reserved (w : World) (r : Result × Tracker) (a : Arrival) (now : ℕ) :
    (w.settle r a now).reserved = w.reserved :=
  (noteReset_reserved ..).trans (noteLifted_reserved ..)

theorem settle_issued (w : World) (r : Result × Tracker) (a : Arrival) (now : ℕ) :
    (w.settle r a now).issued = w.issued :=
  (noteReset_issued ..).trans (noteLifted_issued ..)

theorem Fits.handle (h : w.Fits slots) {now : ℕ}
    (hhonest : a.event.isCommandEvent = true →
      a.event.credit.toNat = slots - a.unanswered.length)
    (haccounts : a.event.isCommandEvent = true →
      ((w.polled now).tracker.terminates a.event &&
        a.arrivalUs < (w.polled now).tracker.floorUs) = false → (w.polled now).Accounts a) :
    (w.handle a now).Fits slots := by
  rw [handle_eq_settle]
  have hp := h.polled now
  have hreserved (r : Result × Tracker) :
      List.Sublist ((w.polled now).settle r a now).reserved (w.polled now).reserved := by
    rw [settle_reserved]
  cases he : a.event.isCommandEvent with
  | false =>
    have htracker : (w.tracker.poll now).2 = (w.polled now).tracker := (polled_tracker now).symm
    rw [Tracker.onEvent, if_neg (by simp [he])]
    refine hp.mono (settle_issued ..) (hreserved _) (fun h => ?_) ?_
    · rw [settle_tracker, htracker] at h ⊢
      exact ⟨h, rfl⟩
    · rw [settle_tracker, htracker]
  | true =>
    rw [Tracker.onEvent, if_pos he, ← polled_tracker]
    obtain ⟨hcontinues, hcredit⟩ := (w.polled now).tracker.record_credit
      (w.tracker.poll now).1 he now a.arrivalUs
    rcases hcredit with ⟨hdropped, hsame⟩ | ⟨hkept, hset⟩
    · exact hp.mono (settle_issued ..) (hreserved _) hcontinues hsame
    · refine hp.keep (settle_issued ..) (hreserved _) hcontinues ?_
      rw [settle_tracker, settle_reserved, hset]
      exact hp.credited (hhonest he) (haccounts he hkept)

/-- What every step keeps, when the events are honest and account for what is unanswered. -/
theorem Fits.step (hslots : 1 ≤ slots) {act : Action} (hw : w.Honest slots)
    (haccounted : w.Accounted act) (h : w.Fits slots) (hstep : w.step act = some w') :
    w'.Fits slots := by
  cases act with
  | issue opcode now timeout =>
    obtain ⟨v, htick, rfl⟩ := Option.map_eq_some_iff.mp hstep
    exact (h.tick htick).1.issue ..
  | tryBeginSend now =>
    simp only [World.step, Option.ite_none_right_eq_some] at hstep
    obtain ⟨v, htick, rfl⟩ := Option.map_eq_some_iff.mp hstep.2
    exact (h.tick htick).1.tryBeginSend _
  | handOver now =>
    obtain ⟨v, htick, hv⟩ := Option.bind_eq_some_iff.mp hstep
    exact (h.tick htick).1.handOver hv
  | markSent => exact h.markSent hstep
  | poll now =>
    obtain ⟨v, htick, rfl⟩ := Option.map_eq_some_iff.mp hstep
    exact ((h.tick htick).1.polled now).mono rfl (List.Sublist.refl _) (fun h => ⟨h, rfl⟩) rfl
  | arrive now event answers =>
    obtain ⟨v, htick, hv⟩ := Option.bind_eq_some_iff.mp hstep
    exact (h.tick htick).1.arrive hv
  | process now =>
    obtain ⟨v, htick, hv⟩ := Option.bind_eq_some_iff.mp hstep
    obtain ⟨hfits, rfl⟩ := h.tick htick
    rw [World.process] at hv
    cases hq : w.queue with
    | nil => simp [hq] at hv
    | cons a rest =>
      simp only [hq] at hv
      have hpop : ({ w with nowUs := now, queue := rest } : World).Fits slots :=
        hfits.mono rfl (List.Sublist.refl _) (fun h => ⟨h, rfl⟩) rfl
      split_ifs at hv with hstale
      · obtain rfl := Option.some.inj hv
        exact hpop
      · obtain rfl := Option.some.inj hv
        refine hpop.handle (hw a (by simp [hq])) fun he hkept => ?_
        rw [polled_tracker] at hkept
        have haccounts : (w.polled now).Accounts a := by
          refine haccounted a (by simp [hq]) (by simpa using hstale) he ?_
          rw [polled_tracker]
          exact hkept
        intro c hc
        rw [reserved_polled] at hc
        have hplace := haccounts c (by rw [reserved_polled]; exact hc)
        rw [polled_issued, polled_tracker] at hplace ⊢
        exact hplace
  | resetController now =>
    obtain ⟨v, htick, hv⟩ := Option.bind_eq_some_iff.mp hstep
    exact fits_resetController hslots hv

theorem start_fits (hslots : 1 ≤ slots) : ({} : World).Fits slots :=
  ⟨fun _ hc => absurd hc List.not_mem_nil, List.nodup_nil, hslots⟩

theorem Fits.respects (h : w.Fits slots) (act : Action) : w.Respects slots act := by
  cases act with
  | tryBeginSend now =>
    intro hsend
    obtain ⟨-, -, -, hcredit, -⟩ := Tracker.tryBeginSend_true hsend
    have hpos : w.tracker.credit.toNat ≠ 0 := fun h => hcredit (UInt8.toNat_inj.mp h)
    have hle : w.unanswered.length ≤ w.reserved.length := List.length_filter_le ..
    have := h.credit
    omega
  | _ => trivial

end World

/-- With honest events, each of which accounts for what is unanswered when its credit is
taken, a packet leaves only while the controller has a free slot. -/
theorem run_respects (slots : ℕ) (hslots : 1 ≤ slots) (actions : List Action)
    (hhonest : GuardedRun.Throughout World.step (World.Honest slots) {} actions)
    (haccounted : GuardedRun.Always World.step World.Accounted {} actions) :
    GuardedRun.Always World.step (World.Respects slots) {} actions := by
  intro before act rest w hsplit hw
  have hbefore : GuardedRun.Always World.step
      (fun v a => v.Honest slots ∧ v.Accounted a) {} before := by
    intro earlier a later v hv hrun
    refine ⟨hhonest earlier (a :: (later ++ act :: rest)) v ?_ hrun,
      haccounted earlier a (later ++ act :: rest) v ?_ hrun⟩ <;> simp [hsplit, hv]
  have hfits : w.Fits slots := GuardedRun.invariant_of (I := fun v : World => v.Fits slots)
    (fun v a v' hstep hP hv => hv.step hslots hP.1 hP.2 hstep) (World.start_fits hslots)
    hbefore hw
  exact hfits.respects act

private def reported (opcode : UInt16) (credit : UInt8) : Event :=
  { kind := .kComplete, code := 0x0e, credit := credit, opcode := opcode }

/-- One slot: a free-slot report from before a hand-over is processed while that command is
waited for; then the command is answered and the next one leaves. -/
def countedInTime : List Action :=
  [.arrive 0 (reported 0 1) none, .issue 0x200c 1 10, .tryBeginSend 1, .handOver 1, .markSent,
    .process 2, .arrive 3 (reported 0x200c 1) (some 1), .process 4, .issue 0x200b 5 10,
    .tryBeginSend 5]

theorem run_respects_countedInTime :
    (run countedInTime).isSome = true ∧
      GuardedRun.Always World.step (World.Respects 1) {} countedInTime := by
  have hhonest : GuardedRun.Along World.step (World.Honest 1) {} countedInTime := by
    decide +kernel
  have haccounted : GuardedRun.AlongSteps World.step World.Accounted {} countedInTime := by
    decide +kernel
  exact ⟨by decide +kernel,
    run_respects 1 le_rfl countedInTime hhonest.throughout haccounted.always⟩

/-- One slot: the free-slot report from before a hand-over is processed after the command
timed out, and is taken at its word. -/
def countedLate : List Action :=
  [.arrive 0 (reported 0 1) none, .issue 0x200c 1 10, .tryBeginSend 1, .handOver 1, .markSent,
    .poll 12, .process 13, .issue 0x200b 14 10]

/-- The next command leaves while the only slot is taken. -/
theorem run_respects_countedLate :
    GuardedRun.Throughout World.step (World.Honest 1) {} (countedLate ++ [.tryBeginSend 15]) ∧
      ¬ GuardedRun.Always World.step (World.Respects 1) {}
        (countedLate ++ [.tryBeginSend 15]) := by
  have hhonest : GuardedRun.Along World.step (World.Honest 1) {}
      (countedLate ++ [.tryBeginSend 15]) := by
    decide +kernel
  refine ⟨hhonest.throughout, fun h => ?_⟩
  have hsends : (run countedLate).map (fun w =>
      ((w.tracker.tryBeginSend 15).1, w.unanswered.length)) = some (true, 1) := by
    decide +kernel
  obtain ⟨w, hw, hpair⟩ := Option.map_eq_some_iff.mp hsends
  obtain ⟨hsend, hlength⟩ := Prod.mk.inj hpair
  have hlt : w.unanswered.length < 1 := h countedLate _ [] w rfl hw hsend
  omega

end CydMonitor.Hci
