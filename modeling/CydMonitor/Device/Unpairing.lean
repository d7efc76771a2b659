import CydMonitor.Device.Commands

/-!
# What an unpair reply tells

The link replies before it clears the pairing, and does not look whether the store
cleared it. When the store does clear it, and a retried unpair was an unpair before, the
reply tells the truth.
-/

namespace CydMonitor.Device

open Trace HostLink Codec

/-- The action brings a command that is carried out. -/
def ExecutesAt (l : HostLink) (a : Action) (c : Cpp.CommandBody) : Prop :=
  ∃ now d, a = .frame now (.ok d) ∧ Executes l d.envelope c

/-- A CommandReply says that the pairing is gone: applied or already applied. -/
def TellsUnpaired (m : LinkMoment) : Prop :=
  m.after.txSequence = m.before.txSequence + 1 ∧ ∃ e identity r,
    Sends m.before m.after e (.commandReply ⟨identity, .unpair, r⟩) ∧ r ≠ .rejected

/-- The law of the unpair replies of a run. -/
structure RepliesTrue (ms : List LinkMoment) : Prop where
  /-- After the reply no host is stored and the session is closed. -/
  unpaired : ∀ m ∈ ms, TellsUnpaired m → m.after.store.pairedHost = none ∧
    m.after.phase ≠ .kSessionOpen ∧ m.after.feed.sessionOpen = false
  /-- From then on only a touch opens a session, until there was one. -/
  touch : ∀ past m mid o rest, ms = past ++ m :: (mid ++ o :: rest) → TellsUnpaired m →
    (∀ n ∈ mid, n.action ≠ .confirmPairing true) → ∀ session host,
      Opens o.before o.action session host → o.action = .confirmPairing true

/-- The last command carried out. -/
def LastExecuted (past : List LinkMoment) (c : Cpp.CommandBody) : Prop :=
  ∃ before m since, past = before ++ m :: since ∧ ExecutesAt m.before m.action c ∧
    ∀ n ∈ since, ∀ c', ¬ExecutesAt n.before n.action c'

/-- When an unpair command is carried out the store clears the pairing; one that is a retry
by its identity finds the outcome of an unpair, or a rejection. -/
def ClearsPairing (past : List LinkMoment) (l : HostLink) (a : Action) : Prop :=
  (∀ c, ExecutesAt l a c → c.operation = 1 →
    l.store.succeeds l.store.operations = true ∨ l.store.pairedHost = none) ∧
  ∀ c, asked l.session a = some c → c.operation = 1 →
    l.cachedCommand = some c.commandIdentity → l.cachedResult ≠ 2 →
      ∃ c', LastExecuted past c' ∧ c'.operation = 1

/-- What a step sends besides replies to commands. -/
inductive Sent (l l' : HostLink) : Prop where
  | nothing (same : l'.txSequence = l.txSequence)
  | message (e : Rust.Envelope) (b : Rust.ControlBody) (sends : Sends l l' e b)
      (other : kindOf b ≠ .commandReply)

/-- A pairing that waits has a code of six digits. -/
def CodeFits (l : HostLink) : Prop :=
  l.phase = .kAwaitingConfirmation → 100000 ≤ l.pendingCode ∧ l.pendingCode ≤ 999999

theorem sendError_sent {l l' : HostLink} (code : LinkErrorCode) (h : l'.outgoing = l.outgoing) :
    Sent l (l'.sendError code) := by
  obtain ⟨f, hf, hqueue⟩ := sendError_sends l' code
  rw [h] at hqueue
  exact .message _ _ ⟨f, hf, hqueue⟩ (by simp [kindOf])

theorem helloReply_sent {l l' : HostLink} (h : l'.outgoing = l.outgoing) :
    Sent l (l'.send { type := .kHelloReply,
                      hello := some { supportedMajor := l'.diagnostics.supportedMajor,
                                      supportedMinor := l'.diagnostics.supportedMinor } }) := by
  obtain ⟨f, hf, hqueue⟩ := helloReply_sends l'
  rw [h] at hqueue
  exact .message _ _ ⟨f, hf, hqueue⟩ (by simp [kindOf])

theorem confirm_sent {l : HostLink} (hcode : CodeFits l) (accepted : Bool) :
    Sent l (l.confirmPairing accepted) := by
  rw [confirmPairing]
  by_cases hphase : l.phase = .kAwaitingConfirmation
  swap
  · rw [if_pos hphase]
    exact .nothing rfl
  rw [if_neg (not_not.mpr hphase)]
  by_cases haccepted : (!accepted) = true
  · rw [if_pos haccepted]
    exact sendError_sent _ rfl
  rw [if_neg haccepted, PairingStore.savePairedHost]
  dsimp only
  by_cases hsaved : (!l.store.succeeds l.store.operations) = true
  · rw [if_pos hsaved]
    exact sendError_sent _ rfl
  · rw [if_neg hsaved]
    exact .message _ _ (openSession_sends _ _ _ (hcode hphase)) (by simp [kindOf])

/-- A decoded Pair has a code of six digits. -/
theorem pair_code_of_decode {f : List UInt8} {d : Cpp.Decoded} {pair : Cpp.PairBody}
    (h : Cpp.decode f = .ok d) (hpair : d.envelope.pair = some pair) :
    100000 ≤ pair.matchingCode ∧ pair.matchingCode ≤ 999999 := by
  obtain ⟨m, hm, rfl⟩ := exists_image h
  cases m with
  | snapshot e s => cases hpair
  | control e b =>
    cases b with
    | pair b =>
      cases hpair
      exact pair_encodable hm
    | _ => cases hpair

theorem step_sent {l : HostLink} {a : Action} (hcode : CodeFits l)
    (hdecoded : ∀ now d, a = .frame now (.ok d) → ∃ f, Cpp.decode f = .ok d)
    (hother : ∀ now d, a = .frame now (.ok d) → d.envelope.type ≠ .kCommand) :
    Sent l (l.step a) := by
  cases a with
  | frame now result =>
    cases result with
    | error e =>
      rw [step, onFrame, onResult]
      split_ifs
      · exact sendError_sent _ rfl
      · exact .nothing rfl
    | ok d =>
      obtain ⟨f, hf⟩ := hdecoded now d rfl
      rw [step, onFrame]
      by_cases hsnapshot : d.envelope.type = .kSnapshot
      · rw [if_neg (not_not.mpr hsnapshot)]
        exact .nothing rfl
      rw [if_pos hsnapshot, onResult]
      by_cases hhello : d.envelope.type = .kHello
      · rw [if_pos hhello, onHello]
        cases d.envelope.hello with
        | none => exact .nothing rfl
        | some hello =>
          dsimp only
          split_ifs
          · exact sendError_sent _ rfl
          · cases hello.utcMs with
            | none => exact helloReply_sent rfl
            | some utcMs => exact helloReply_sent rfl
      rw [if_neg hhello]
      by_cases hpair : d.envelope.type = .kPair
      · rw [if_pos hpair, onPair]
        cases hbody : d.envelope.pair with
        | none => exact sendError_sent _ rfl
        | some pair =>
          dsimp only
          split_ifs
          · exact sendError_sent _ rfl
          · exact .message _ _ (openSession_sends _ _ _ (pair_code_of_decode hf hbody))
              (by simp [kindOf])
          · exact sendError_sent _ rfl
          · exact .nothing rfl
      · rw [if_neg hpair, if_neg (hother now d rfl)]
        exact .nothing rfl
  | expire now =>
    rw [step, expire]
    split_ifs
    · exact confirm_sent hcode false
    · exact .nothing rfl
  | confirmPairing accepted => exact confirm_sent hcode accepted
  | _ => exact .nothing rfl

/-- What an action keeps that neither opens a session nor carries out a command. -/
structure Unmoved (l l' : HostLink) : Prop where
  cachedCommand : l'.cachedCommand = l.cachedCommand
  cachedResult : l'.cachedResult = l.cachedResult
  pairedHost : l.store.pairedHost = none → l'.store.pairedHost = none
  code : CodeFits l → CodeFits l'

theorem Unmoved.refl (l : HostLink) : Unmoved l l := ⟨rfl, rfl, id, id⟩

theorem Unmoved.send {l l' : HostLink} {e : Cpp.Envelope} (h : Unmoved l l') :
    Unmoved l (l'.send e) :=
  ⟨(send_cachedCommand _ _).trans h.cachedCommand, (send_cachedResult _ _).trans h.cachedResult,
    fun hnone => by rw [send_store, h.pairedHost hnone], fun hcode => by
      obtain ⟨_, hsend⟩ := send_eq l' e
      rw [hsend]
      exact h.code hcode⟩

theorem Unmoved.sendError {l l' : HostLink} {code : LinkErrorCode} (h : Unmoved l l') :
    Unmoved l (l'.sendError code) := h.send

theorem Unmoved.decline {l l' : HostLink} (h : Unmoved l l') : Unmoved l l'.decline :=
  Unmoved.send ⟨h.cachedCommand, h.cachedResult, h.pairedHost, fun _ => nofun⟩

theorem confirm_unmoved {l : HostLink} (accepted : Bool)
    (hopens : accepted = true → l.phase = .kAwaitingConfirmation →
      l.store.succeeds l.store.operations = false) : Unmoved l (l.confirmPairing accepted) := by
  rw [confirmPairing]
  by_cases hphase : l.phase = .kAwaitingConfirmation
  swap
  · rw [if_pos hphase]
    exact Unmoved.refl l
  rw [if_neg (not_not.mpr hphase)]
  by_cases haccepted : (!accepted) = true
  · rw [if_pos haccepted]
    exact (Unmoved.refl l).decline
  have hfails := hopens (by simpa using haccepted) hphase
  rw [if_neg haccepted, PairingStore.savePairedHost, hfails]
  exact Unmoved.decline ⟨rfl, rfl, id, id⟩

theorem step_unmoved {l : HostLink} {a : Action}
    (hdecoded : ∀ now d, a = .frame now (.ok d) → ∃ f, Cpp.decode f = .ok d)
    (hopens : ∀ session host, ¬Opens l a session host) (hexecutes : ∀ c, ¬ExecutesAt l a c) :
    Unmoved l (l.step a) := by
  cases a with
  | frame now result =>
    cases result with
    | error e =>
      rw [step, onFrame, onResult]
      split_ifs
      · exact Unmoved.sendError ⟨rfl, rfl, id, fun _ h => absurd h (closeSession_notOpen _).2⟩
      · exact ⟨rfl, rfl, id, id⟩
    | ok d =>
      obtain ⟨f, hf⟩ := hdecoded now d rfl
      rw [step, onFrame]
      by_cases hsnapshot : d.envelope.type = .kSnapshot
      · rw [if_neg (not_not.mpr hsnapshot)]
        exact ⟨rfl, rfl, id, id⟩
      rw [if_pos hsnapshot, onResult]
      by_cases hhello : d.envelope.type = .kHello
      · rw [if_pos hhello, onHello]
        cases d.envelope.hello with
        | none => exact Unmoved.refl l
        | some hello =>
          dsimp only
          split_ifs
          · exact Unmoved.sendError ⟨rfl, rfl, id, fun _ => (by intro h; cases h)⟩
          · cases hello.utcMs with
            | none => exact Unmoved.send ⟨rfl, rfl, id, fun _ => (by intro h; cases h)⟩
            | some utcMs => exact Unmoved.send ⟨rfl, rfl, id, fun _ => (by intro h; cases h)⟩
      rw [if_neg hhello]
      by_cases hpair : d.envelope.type = .kPair
      · rw [if_pos hpair, onPair]
        cases hbody : d.envelope.pair with
        | none => exact (Unmoved.refl l).sendError
        | some pair =>
          dsimp only
          split_ifs with hbad hknown
          · exact (Unmoved.refl l).sendError
          · simp only [not_or] at hbad
            exact absurd ⟨pair, ⟨hpair, hbody, hbad.1, hbad.2.1, UInt32.not_lt.mp hbad.2.2,
              hknown.1, hknown.2⟩, rfl, rfl⟩ (hopens d.envelope.session pair.senderIdentity)
          · exact Unmoved.sendError ⟨rfl, rfl, id, id⟩
          · exact ⟨rfl, rfl, id, fun _ _ => pair_code_of_decode hf hbody⟩
      rw [if_neg hpair]
      by_cases hcommand : d.envelope.type = .kCommand
      · rw [if_pos hcommand]
        rcases onCommand_of_not_executes hcommand fun c hc => hexecutes c ⟨now, d, rfl, hc⟩ with
          hsame | ⟨c, -, -, -, hreply⟩
        · rw [hsame]
          exact ⟨rfl, rfl, id, id⟩
        · rw [hreply]
          exact (Unmoved.refl l).send
      · rw [if_neg hcommand]
        exact ⟨rfl, rfl, id, id⟩
  | expire now =>
    rw [step, expire]
    split_ifs
    · exact confirm_unmoved false (by intro h; cases h)
    · exact ⟨rfl, rfl, id, id⟩
  | confirmPairing accepted =>
    refine confirm_unmoved accepted fun haccepted hphase => ?_
    cases hsaved : l.store.succeeds l.store.operations with
    | false => rfl
    | true =>
      exact absurd ⟨haccepted, hphase, hsaved, rfl, rfl⟩ (hopens l.pendingSession l.pendingHost)
  | unpair =>
    refine ⟨rfl, rfl, fun h => ?_, fun _ h => absurd h (closeSession_notOpen _).2⟩
    change (if l.store.succeeds l.store.operations then none else l.store.pairedHost) = none
    rw [h, ite_self]
  | _ => exact ⟨rfl, rfl, id, id⟩

/-- A session that opens forgets the commands of the one before. -/
theorem step_opens {l : HostLink} {a : Action} {session host : Identity}
    (h : Opens l a session host) :
    (l.step a).cachedCommand = none ∧ (l.step a).phase = .kSessionOpen := by
  cases a with
  | frame now result =>
    cases result with
    | error e => exact h.elim
    | ok d =>
      obtain ⟨pair, ⟨htype, hpair, hidle, hincompatible, hcode, hhost, hnames⟩, -, -⟩ := h
      have hbad : ¬(l.phase = .kIdle ∨ l.phase = .kIncompatible ∨
          pair.matchingCode > kMaxMatchingCode) := by
        rw [not_or, not_or]
        exact ⟨hidle, hincompatible, UInt32.not_lt.mpr hcode⟩
      rw [step, onFrame, if_pos (by rw [htype]; decide), onResult, if_neg (by rw [htype]; decide),
        if_pos htype, onPair, hpair]
      dsimp only
      rw [if_neg hbad, if_pos ⟨hhost, hnames⟩]
      exact ⟨send_cachedCommand _ _, send_phase _ _⟩
  | confirmPairing accepted =>
    obtain ⟨haccepted, hphase, hsaved, -, -⟩ := h
    rw [step, confirmPairing, if_neg (not_not.mpr hphase), if_neg (by simp [haccepted]),
      PairingStore.savePairedHost, hsaved]
    dsimp only
    rw [if_neg (by simp)]
    exact ⟨send_cachedCommand _ _, send_phase _ _⟩
  | _ => exact h.elim

/-- An unpair command that is carried out. -/
theorem step_executes_unpair {l : HostLink} {a : Action} {c : Cpp.CommandBody}
    (h : ExecutesAt l a c) (hunpair : c.operation = 1) :
    (l.step a).store = l.store.clearPairedHost ∧ (l.step a).phase ≠ .kSessionOpen ∧
      (l.step a).phase ≠ .kAwaitingConfirmation := by
  obtain ⟨now, d, rfl, hexecutes⟩ := h
  have htype := hexecutes.1
  rw [step, onFrame, if_pos (by rw [htype]; decide), onResult, if_neg (by rw [htype]; decide),
    if_neg (by rw [htype]; decide), if_pos htype, onCommand_of_executes hexecutes, if_pos hunpair]
  exact ⟨rfl, closeSession_notOpen _⟩

theorem step_executes_phase {l : HostLink} {a : Action} {c : Cpp.CommandBody}
    (h : ExecutesAt l a c) : (l.step a).phase ≠ .kAwaitingConfirmation := by
  by_cases hunpair : c.operation = 1
  · exact (step_executes_unpair h hunpair).2.2
  obtain ⟨now, d, rfl, hexecutes⟩ := h
  have htype := hexecutes.1
  obtain ⟨resets, hresets⟩ := execute_eq c l
  rw [step, onFrame, if_pos (by rw [htype]; decide), onResult, if_neg (by rw [htype]; decide),
    if_neg (by rw [htype]; decide), if_pos htype, onCommand_of_executes hexecutes, if_neg hunpair,
    reply, send_phase, cache, hresets]
  change l.phase ≠ _
  rw [hexecutes.2.2.2.2]
  decide

theorem asked_of_executes {l : HostLink} {a : Action} {c : Cpp.CommandBody}
    (h : ExecutesAt l a c) : asked l.session a = some c ∧
      l.cachedCommand ≠ some c.commandIdentity ∧ l.phase = .kSessionOpen := by
  obtain ⟨now, d, rfl, htype, hcommand, hsession, hcached, hopen⟩ := h
  exact ⟨by rw [asked, if_pos ⟨htype, hsession⟩, hcommand], hcached, hopen⟩

theorem lastExecuted_concat {past : List LinkMoment} {m : LinkMoment} {c : Cpp.CommandBody}
    (h : LastExecuted (past ++ [m]) c) : ExecutesAt m.before m.action c ∨
      (∀ c', ¬ExecutesAt m.before m.action c') ∧ LastExecuted past c := by
  obtain ⟨before, n, since, heq, hn, hsince⟩ := h
  rcases List.eq_nil_or_concat' since with rfl | ⟨since, m', rfl⟩
  · obtain ⟨-, hlast⟩ := List.append_inj' heq rfl
    rw [List.singleton_inj.mp hlast]
    exact Or.inl hn
  · rw [← List.cons_append, ← List.append_assoc] at heq
    obtain ⟨rfl, hlast⟩ := List.append_inj' heq rfl
    rw [List.singleton_inj.mp hlast]
    exact Or.inr ⟨hsince m' (by simp), before, n, since, rfl, hn, fun k hk =>
      hsince k (by simp [hk])⟩

/-- What a run keeps: after an unpair that is still cached no host is stored and the session
is closed. -/
structure Tells (past : List LinkMoment) (l : HostLink) : Prop where
  code : CodeFits l
  coded : l.cachedCommand ≠ none → ∃ r : Rust.CommandResult, l.cachedResult = UInt8.ofNat r.code
  gone : ∀ c, LastExecuted past c → c.operation = 1 → l.cachedCommand ≠ none →
    l.store.pairedHost = none ∧ l.phase ≠ .kSessionOpen

theorem clearPairedHost_none {s : PairingStore}
    (h : s.succeeds s.operations = true ∨ s.pairedHost = none) :
    s.clearPairedHost.pairedHost = none := by
  rw [PairingStore.clearPairedHost]
  rcases h with h | h
  · rw [h, if_pos rfl]
  · rw [h, ite_self]

/-- A phase that is open was open, or the action opened it. -/
theorem phase_open {l : HostLink} {a : Action} (h : (l.step a).phase = .kSessionOpen) :
    l.phase = .kSessionOpen ∨ ∃ session host, Opens l a session host := by
  rcases step_effect l a with ⟨session, host, hopens, -⟩ | ⟨-, hnot, -⟩ |
    ⟨_, _, _, _, _, hphase, -⟩ | ⟨-, hphase, -⟩ | ⟨_, _, _, _, hafter⟩ | ⟨-, hsame⟩
  · exact Or.inr ⟨session, host, hopens⟩
  · exact absurd h hnot
  · cases hphase.symm.trans h
  · cases hphase.symm.trans h
  · rw [hafter] at h
    exact Or.inl h
  · exact Or.inl (hsame.phase.symm.trans h)

theorem tells_step {past : List LinkMoment} {l : HostLink} {a : Action} (h : Tells past l)
    (hdecoded : ∀ now d, a = .frame now (.ok d) → ∃ f, Cpp.decode f = .ok d)
    (hclears : ClearsPairing past l a) : Tells (past ++ [⟨l, a, l.step a⟩]) (l.step a) := by
  by_cases hopens : ∃ session host, Opens l a session host
  · obtain ⟨session, host, hopens⟩ := hopens
    obtain ⟨hnone, hopen⟩ := step_opens hopens
    refine ⟨fun hphase => ?_, fun hcached => absurd hnone hcached,
      fun c _ _ hcached => absurd hnone hcached⟩
    rw [hopen] at hphase
    cases hphase
  by_cases hexecutes : ∃ c, ExecutesAt l a c
  · obtain ⟨c, hc⟩ := hexecutes
    obtain ⟨hasked, hnew, hopen⟩ := asked_of_executes hc
    obtain ⟨now, d, rfl, hd⟩ := id hc
    obtain ⟨f, hf⟩ := hdecoded now d rfl
    obtain ⟨b, rfl⟩ := exists_command hf hd.1 hd.2.1
    obtain ⟨r, hcarried⟩ := step_new hopen hasked hnew
    refine ⟨fun hphase => absurd hphase (step_executes_phase hc),
      fun _ => ⟨again r, hcarried.cachedResult⟩, fun c hlast hunpair _ => ?_⟩
    · obtain hc' | ⟨hnone, -⟩ := lastExecuted_concat hlast
      · obtain ⟨hstore, hphase, -⟩ := step_executes_unpair hc' hunpair
        rw [hstore]
        exact ⟨clearPairedHost_none (hclears.1 c hc' hunpair), hphase⟩
      · exact absurd hc (hnone _)
  · rw [not_exists] at hexecutes
    have hopens' : ∀ session host, ¬Opens l a session host := fun session host h =>
      hopens ⟨session, host, h⟩
    have hunmoved := step_unmoved hdecoded hopens' hexecutes
    refine ⟨hunmoved.code h.code, ?_, fun c hlast hunpair hcached => ?_⟩
    · rw [hunmoved.cachedCommand, hunmoved.cachedResult]
      exact h.coded
    · obtain hc | ⟨-, hlast⟩ := lastExecuted_concat hlast
      · exact absurd hc (hexecutes c)
      · rw [hunmoved.cachedCommand] at hcached
        obtain ⟨hgone, hclosed⟩ := h.gone c hlast hunpair hcached
        exact ⟨hunmoved.pairedHost hgone, fun hphase => (phase_open hphase).elim hclosed hopens⟩

/-- A reply that tells it comes from an unpair that is carried out or was the last one to be. -/
theorem unpaired_of_tells {past : List LinkMoment} {l : HostLink} {a : Action}
    (h : Tells past l) (hdecoded : ∀ now d, a = .frame now (.ok d) → ∃ f, Cpp.decode f = .ok d)
    (hclears : ClearsPairing past l a) (htells : TellsUnpaired ⟨l, a, l.step a⟩) :
    (l.step a).store.pairedHost = none ∧ (l.step a).phase ≠ .kSessionOpen := by
  obtain ⟨hsequence, e, identity, r, hsends, hresult⟩ := htells
  change (l.step a).txSequence = l.txSequence + 1 at hsequence
  by_cases hcommand : ∃ now d, a = .frame now (.ok d) ∧ d.envelope.type = .kCommand
  swap
  · have hother : ∀ now d, a = .frame now (.ok d) → d.envelope.type ≠ .kCommand :=
      fun now d ha htype => hcommand ⟨now, d, ha, htype⟩
    rcases step_sent h.code hdecoded hother with hsame | ⟨_, b, hsent, hkind⟩
    · exact absurd (hsame.symm.trans hsequence) (ne_add_one _)
    · obtain ⟨-, rfl⟩ := hsent.unique hsends
      exact absurd rfl hkind
  obtain ⟨now, d, rfl, htype⟩ := hcommand
  obtain ⟨f, hf⟩ := hdecoded now d rfl
  by_cases hexecutes : ∃ c, Executes l d.envelope c
  · obtain ⟨c, hc⟩ := hexecutes
    have hat : ExecutesAt l (.frame now (.ok d)) c := ⟨now, d, rfl, hc⟩
    obtain ⟨hasked, hnew, hopen⟩ := asked_of_executes hat
    obtain ⟨b, rfl⟩ := exists_command hf htype hc.2.1
    obtain ⟨r', hcarried⟩ := step_new hopen hasked hnew
    obtain ⟨-, b', hb', hsent⟩ := hcarried.answers
    obtain ⟨-, hbody⟩ := hsent.unique hsends
    have hoperation : b'.operation = .unpair :=
      congrArg (·.operation) (Rust.ControlBody.commandReply.inj hbody)
    have hunpair : (ofCommand b).operation = 1 := by
      rw [hb', ofCommand, hoperation]
      rfl
    obtain ⟨hstore, hphase, -⟩ := step_executes_unpair hat hunpair
    rw [hstore]
    exact ⟨clearPairedHost_none (hclears.1 _ hat hunpair), hphase⟩
  have hstep : l.step (.frame now (.ok d)) = l.onCommand d.envelope := by
    rw [step, onFrame, if_pos (by rw [htype]; decide), onResult, if_neg (by rw [htype]; decide),
      if_neg (by rw [htype]; decide), if_pos htype]
  rw [hstep] at hsequence hsends ⊢
  rcases onCommand_of_not_executes htype (not_exists.mp hexecutes) with hsame |
    ⟨c, hc, hsession, hcached, hreply⟩
  · rw [hsame] at hsequence
    exact absurd hsequence (ne_add_one _)
  obtain ⟨b, rfl⟩ := exists_command hf htype hc
  obtain ⟨r', hr'⟩ := h.coded (by rw [hcached]; simp)
  rw [hr'] at hreply
  have hsent := reply_sends l b r'
  rw [← hreply] at hsent
  obtain ⟨-, hbody⟩ := hsent.unique hsends
  have hbody := Rust.ControlBody.commandReply.inj hbody
  have hoperation : b.operation = .unpair := congrArg (·.operation) hbody
  have hsame : r' = r := congrArg (·.result) hbody
  have hunpair : (ofCommand b).operation = 1 := by
    rw [ofCommand, hoperation]
    rfl
  have hasked : asked l.session (.frame now (.ok d)) = some (ofCommand b) := by
    rw [asked, if_pos ⟨htype, hsession⟩, hc]
  obtain ⟨c', hlast, hc'⟩ := hclears.2 _ hasked hunpair hcached (by
    rw [hr', hsame]
    cases r with
    | applied => decide
    | alreadyApplied => decide
    | rejected => exact absurd rfl hresult)
  obtain ⟨hgone, hclosed⟩ := h.gone c' hlast hc' (by rw [hcached]; simp)
  rw [hreply, reply, send_store, send_phase]
  exact ⟨hgone, hclosed⟩

/-- Without a touch nobody is paired again, and no session opens. -/
theorem stays_unpaired {l : HostLink} {a : Action}
    (hdecoded : ∀ now d, a = .frame now (.ok d) → ∃ f, Cpp.decode f = .ok d)
    (hnone : l.store.pairedHost = none) (ha : a ≠ .confirmPairing true) :
    (l.step a).store.pairedHost = none ∧ ∀ session host, ¬Opens l a session host := by
  have hopens : ∀ session host, ¬Opens l a session host := by
    intro session host h
    cases a with
    | frame now result =>
      cases result with
      | error e => exact h
      | ok d =>
        obtain ⟨pair, hpair, -, -⟩ := h
        cases hnone.symm.trans hpair.2.2.2.2.2.1
    | confirmPairing accepted => exact ha (by rw [h.1])
    | _ => exact h
  refine ⟨?_, hopens⟩
  by_cases hexecutes : ∃ c, ExecutesAt l a c
  · obtain ⟨c, hc⟩ := hexecutes
    by_cases hunpair : c.operation = 1
    · rw [(step_executes_unpair hc hunpair).1]
      exact clearPairedHost_none (Or.inr hnone)
    · obtain ⟨now, d, rfl, hd⟩ := hc
      obtain ⟨resets, hresets⟩ := execute_eq c l
      have htype := hd.1
      rw [step, onFrame, if_pos (by rw [htype]; decide), onResult, if_neg (by rw [htype]; decide),
        if_neg (by rw [htype]; decide), if_pos htype, onCommand_of_executes hd, if_neg hunpair,
        reply, send_store, cache, hresets]
      exact hnone
  · exact (step_unmoved hdecoded hopens (not_exists.mp hexecutes)).pairedHost hnone

theorem run_unpaired {l : HostLink} {as : List Action}
    (hdecoded : ∀ now d, .frame now (.ok d) ∈ as → ∃ f, Cpp.decode f = .ok d)
    (hnone : l.store.pairedHost = none) (has : .confirmPairing true ∉ as) :
    (as.foldl step l).store.pairedHost = none := by
  induction as generalizing l with
  | nil => exact hnone
  | cons a as ih =>
    rw [List.mem_cons, not_or] at has
    refine ih (fun now d h => hdecoded now d (List.mem_cons_of_mem a h)) ?_ has.2
    refine (stays_unpaired (fun now d h => hdecoded now d ?_) hnone fun h => has.1 h.symm).1
    rw [h]
    exact List.mem_cons_self

/-- The invariant at every moment of a run whose unpair commands clear the pairing. -/
theorem tells_run {store : PairingStore} {bootIdentity : UInt32} {calls : List Call}
    (hclears : ∀ past m rest, (HostLink.new store bootIdentity).run calls = past ++ m :: rest →
      ClearsPairing past m.before m.action)
    {past rest : List LinkMoment} {m : LinkMoment}
    (h : (HostLink.new store bootIdentity).run calls = past ++ m :: rest) :
    Tells past m.before := by
  obtain ⟨as, bs, has, rfl, hbefore, -, -⟩ := split_moments h
  have hstep : ∀ past l a, Tells past l →
      (ClearsPairing past l a ∧ ∀ now d, a = .frame now (.ok d) → ∃ f, Cpp.decode f = .ok d) →
      Tells (past ++ [⟨l, a, l.step a⟩]) (l.step a) := fun _ _ _ h ha => tells_step h ha.2 ha.1
  have hstart : Tells [] (HostLink.new store bootIdentity) :=
    ⟨nofun, fun h => absurd rfl h, fun _ _ _ h => absurd rfl h⟩
  rw [hbefore]
  refine history_of hstep hstart as fun past' m' rest' h' => ?_
  have hrun : (HostLink.new store bootIdentity).run calls =
      past' ++ m' :: (rest' ++ moments step (as.foldl step (HostLink.new store bootIdentity))
        (m.action :: bs)) := by
    rw [run, has, moments_append, h', List.append_assoc, List.cons_append]
  refine ⟨hclears _ _ _ hrun, fun now d ha => ?_⟩
  have haction : m'.action ∈ (HostLink.new store bootIdentity).runActions calls := by
    rw [← map_action_run, hrun]
    simp
  rw [ha] at haction
  exact frame_decoded haction

/-- **Unpair replies.** In every run whose unpair commands clear the pairing, and are
answered as retries of unpair commands only, a reply that says so is true, and no session
opens after it without a touch. -/
theorem unpair_replies_true (store : PairingStore) (bootIdentity : UInt32) (calls : List Call)
    (hclears : ∀ past m rest, (HostLink.new store bootIdentity).run calls = past ++ m :: rest →
      ClearsPairing past m.before m.action) :
    RepliesTrue ((HostLink.new store bootIdentity).run calls) := by
  have hdecoded : ∀ now d, .frame now (.ok d) ∈ (HostLink.new store bootIdentity).runActions calls →
      ∃ f, Cpp.decode f = .ok d := fun now d h => frame_decoded h
  have hmoment {past rest : List LinkMoment} {m : LinkMoment}
      (h : (HostLink.new store bootIdentity).run calls = past ++ m :: rest)
      (htells : TellsUnpaired m) : m.after.store.pairedHost = none ∧
        m.after.phase ≠ .kSessionOpen := by
    obtain ⟨as, bs, has, -, -, hafter, -⟩ := split_moments h
    have hm : m = ⟨m.before, m.action, step m.before m.action⟩ := by
      rw [← hafter]
    rw [hm] at htells
    rw [hafter]
    refine unpaired_of_tells (tells_run hclears h) (fun now d ha => hdecoded now d ?_)
      (hclears _ _ _ h) htells
    rw [← ha, has]
    simp
  refine ⟨fun m hm htells => ?_, fun past m mid o rest h htells hmid session host hopens => ?_⟩
  · obtain ⟨past, rest, h⟩ := List.append_of_mem hm
    obtain ⟨hgone, hclosed⟩ := hmoment h htells
    refine ⟨hgone, hclosed, ?_⟩
    cases hflag : m.after.feed.sessionOpen with
    | false => rfl
    | true => exact absurd ((keeps_run h).2.1.agree.mp hflag) hclosed
  · have hgone := (hmoment h htells).1
    obtain ⟨as, bs, has, -, -, -, hrest⟩ := split_moments h
    obtain ⟨cs, ds, hbs, hmid', hbefore, -, -⟩ := split_moments hrest.symm
    have hactions : mid.map Moment.action = cs := by
      rw [hmid', map_action_moments]
    have hmem : ∀ a ∈ cs ++ [o.action], a ∈ (HostLink.new store bootIdentity).runActions calls := by
      intro a ha
      rw [has, hbs]
      simp only [List.mem_append, List.mem_cons] at ha ⊢
      tauto
    have hnone : o.before.store.pairedHost = none := by
      rw [hbefore]
      refine run_unpaired (fun now d hd => hdecoded now d (hmem _ (by simp [hd]))) hgone
        fun ha => ?_
      rw [← hactions] at ha
      obtain ⟨n, hn, haction⟩ := List.mem_map.mp ha
      exact hmid n hn haction
    by_contra ha
    refine (stays_unpaired (fun now d hd => hdecoded now d (hmem _ ?_)) hnone ha).2 session host
      hopens
    rw [← hd]
    simp

/-- A Hello, a Pair of the stored host, an unpair command. -/
def unpairing : List Rust.Message :=
  [.control (sent .hello kZeroIdentity 1) (.hello ⟨1, 0, 0, 0, none, none⟩),
    .control (sent .pair kZeroIdentity 2) (.pair ⟨kZeroIdentity, kZeroIdentity, 123456⟩),
    .control (sent .command kZeroIdentity 3) (.command ⟨7, .unpair⟩)]

private theorem unpairing_frames :
    ∃ fs : List (List UInt8), fs.map Cpp.decode = (unpairing.map image).map .ok := by
  obtain ⟨f1, h1⟩ := exists_control (e := sent .hello kZeroIdentity 1)
    (b := .hello ⟨1, 0, 0, 0, none, none⟩) rfl (by decide +kernel)
  obtain ⟨f2, h2⟩ := exists_control (e := sent .pair kZeroIdentity 2)
    (b := .pair ⟨kZeroIdentity, kZeroIdentity, 123456⟩) rfl (by decide +kernel)
  obtain ⟨f3, h3⟩ := exists_control (e := sent .command kZeroIdentity 3)
    (b := .command ⟨7, .unpair⟩) rfl (by decide +kernel)
  refine ⟨[f1, f2, f3], ?_⟩
  rw [List.map_cons, List.map_cons, List.map_cons, h1, h2, h3]
  rfl

def unpairingActions : List Action :=
  (unpairing.map image).flatMap fun d => [.buffer {} 0, .frame 0 (.ok d)]

/-- A new link over a store that has a host. -/
def linkOver (succeeds : Bool) : HostLink :=
  HostLink.new ⟨kZeroIdentity, some kZeroIdentity, fun _ => succeeds, 0⟩ 0

/-- The moment of the unpair command. -/
def lastMoment (l : HostLink) : LinkMoment :=
  let s := unpairingActions.dropLast.foldl step l
  let a := Action.frame 0 (.ok (image (.control (sent .command kZeroIdentity 3)
    (.command ⟨7, .unpair⟩))))
  ⟨s, a, step s a⟩

private theorem unpairing_moments (l : HostLink) :
    moments step l unpairingActions =
      moments step l unpairingActions.dropLast ++ lastMoment l :: [] := by
  have hactions : unpairingActions = unpairingActions.dropLast ++ [(lastMoment l).action] := rfl
  rw [hactions, moments_append, ← hactions]
  rfl

private theorem lastMoment_tells (succeeds : Bool) :
    TellsUnpaired (lastMoment (linkOver succeeds)) := by
  refine ⟨?_, sent .commandReply kZeroIdentity 2, 7, .applied,
    ⟨(lastMoment (linkOver succeeds)).after.outgoing.getLastD [], ?_, ?_⟩, nofun⟩
  · cases succeeds <;> decide +kernel
  · cases succeeds <;> decide +kernel
  · cases succeeds <;> decide +kernel

/-- The pairing stays when the store does not clear it, and the reply says it is gone. -/
theorem unpair_replies_fail : ¬∀ (store : PairingStore) (bootIdentity : UInt32)
    (calls : List Call), RepliesTrue ((HostLink.new store bootIdentity).run calls) := by
  intro h
  obtain ⟨fs, hfs⟩ := unpairing_frames
  have htrue := h (linkOver false).store 0 (fs.map (.push 0))
  have hrun : (HostLink.new (linkOver false).store 0).run (fs.map (.push 0)) =
      moments step (linkOver false) unpairingActions := run_messages rfl 0 hfs
  rw [hrun, unpairing_moments] at htrue
  have hgone := (htrue.unpaired _ (by simp) (lastMoment_tells false)).1
  exact absurd hgone (by decide +kernel)

/-- Over a store that works the reply is true. -/
theorem unpair_replies_true_works :
    ∃ calls, lastMoment (linkOver true) ∈ (linkOver true).run calls ∧
    TellsUnpaired (lastMoment (linkOver true)) ∧ RepliesTrue ((linkOver true).run calls) := by
  obtain ⟨fs, hfs⟩ := unpairing_frames
  have hrun : (linkOver true).run (fs.map (.push 0)) =
      moments step (linkOver true) unpairingActions := run_messages rfl 0 hfs
  refine ⟨fs.map (.push 0), by rw [hrun, unpairing_moments]; simp, lastMoment_tells true, ?_⟩
  refine unpair_replies_true (linkOver true).store 0 (fs.map (.push 0)) fun past m rest h => ?_
  have hmem : m ∈ moments step (linkOver true) unpairingActions := by
    rw [← hrun]
    change m ∈ (HostLink.new (linkOver true).store 0).run (fs.map (.push 0))
    rw [h]
    simp
  have hstore : ∀ m ∈ moments step (linkOver true) unpairingActions,
      m.before.store.succeeds m.before.store.operations = true := by decide +kernel
  have hcache : ∀ m ∈ moments step (linkOver true) unpairingActions,
      m.before.cachedCommand = none := by decide +kernel
  refine ⟨fun _ _ _ => Or.inl (hstore m hmem), fun _ _ _ hcached _ => ?_⟩
  rw [hcache m hmem] at hcached
  cases hcached

end CydMonitor.Device
