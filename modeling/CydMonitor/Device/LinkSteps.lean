import CydMonitor.Device.LinkRun

/-!
# What one action does to the session

An action opens a session, ends it, leaves a pairing to be confirmed, passes a snapshot
to the gate, or leaves the session as it is. Every invariant of the link follows from
these five cases.
-/

namespace CydMonitor.Device

open Trace HostLink

/-- A command that is carried out: it is for this session, is no retry, and the session
is open. -/
def Executes (l : HostLink) (e : Cpp.Envelope) (c : Cpp.CommandBody) : Prop :=
  e.type = .kCommand ∧ e.command = some c ∧ e.session = l.session ∧
    l.cachedCommand ≠ some c.commandIdentity ∧ l.phase = .kSessionOpen

/-- A Pair that opens its session at once: from the stored host, for this device. -/
def PairOpens (l : HostLink) (e : Cpp.Envelope) (pair : Cpp.PairBody) : Prop :=
  e.type = .kPair ∧ e.pair = some pair ∧ l.phase ≠ .kIdle ∧ l.phase ≠ .kIncompatible ∧
    pair.matchingCode ≤ kMaxMatchingCode ∧ l.store.pairedHost = some pair.senderIdentity ∧
    (pair.intendedPeerIdentity = kZeroIdentity ∨
      pair.intendedPeerIdentity = l.store.deviceIdentity)

/-- A Pair that waits for the touch: nobody is paired, and it names no device. -/
def PairPends (l : HostLink) (e : Cpp.Envelope) (pair : Cpp.PairBody) : Prop :=
  e.type = .kPair ∧ e.pair = some pair ∧ l.phase ≠ .kIdle ∧ l.phase ≠ .kIncompatible ∧
    l.store.pairedHost = none ∧ pair.intendedPeerIdentity = kZeroIdentity

/-- The action opens a session with a host: a Pair, or the touch for a pending one. -/
def Opens (l : HostLink) (a : Action) (session host : Identity) : Prop :=
  match a with
  | .frame _ (.ok d) => ∃ pair, PairOpens l d.envelope pair ∧ session = d.envelope.session ∧
      host = pair.senderIdentity
  | .confirmPairing accepted => accepted = true ∧ l.phase = .kAwaitingConfirmation ∧
      l.store.succeeds l.store.operations = true ∧ session = l.pendingSession ∧
      host = l.pendingHost
  | _ => False

/-- The action ends the session: a Hello, an unsupported major, a local unpair, or an
unpair command that is carried out. -/
def Ends (l : HostLink) (a : Action) : Prop :=
  match a with
  | .frame _ (.ok d) => (d.envelope.type = .kHello ∧ d.envelope.hello.isSome) ∨
      ∃ c, Executes l d.envelope c ∧ c.operation = 1
  | .frame _ (.error e) => e = .kUnsupportedMajor
  | .unpair => True
  | _ => False

/-- The action neither ends a session nor opens one. -/
def Calm (l : HostLink) (a : Action) : Prop :=
  ¬Ends l a ∧ ∀ session host, ¬Opens l a session host

theorem calm_frame {l : HostLink} {now : UInt64} {d : Cpp.Decoded}
    (hello : d.envelope.type = .kHello → d.envelope.hello = none)
    (hunpair : ∀ c, Executes l d.envelope c → c.operation ≠ 1)
    (hpair : ∀ pair, ¬PairOpens l d.envelope pair) : Calm l (.frame now (.ok d)) := by
  refine ⟨?_, ?_⟩
  · rintro (⟨htype, hbody⟩ | ⟨c, hc, hone⟩)
    · rw [hello htype] at hbody
      cases hbody
    · exact hunpair c hc hone
  · rintro session host ⟨pair, hopens, -, -⟩
    exact hpair pair hopens

/-- The session as before. -/
structure SameSession (l l' : HostLink) : Prop where
  phase : l'.phase = l.phase
  sessionOpen : l'.feed.sessionOpen = l.feed.sessionOpen
  receiver : l'.feed.session = l.feed.session
  pairedHost : l'.store.pairedHost = l.store.pairedHost
  pendingSession : l'.pendingSession = l.pendingSession
  pendingHost : l'.pendingHost = l.pendingHost
  explicitSession : l'.feed.explicitSession = l.feed.explicitSession

theorem SameSession.refl (l : HostLink) : SameSession l l := ⟨rfl, rfl, rfl, rfl, rfl, rfl, rfl⟩

theorem SameSession.send (l : HostLink) (e : Cpp.Envelope) : SameSession l (l.send e) := by
  obtain ⟨_, h⟩ := send_eq l e
  rw [h]
  exact ⟨rfl, rfl, rfl, rfl, rfl, rfl, rfl⟩

/-- What an action does to the session. -/
inductive Effect (l : HostLink) (a : Action) (l' : HostLink) : Prop where
  | opened (session host : Identity) (opens : Opens l a session host)
      (phase : l'.phase = .kSessionOpen) (sessionOpen : l'.feed.sessionOpen = true)
      (receiver : l'.feed.session = .reset session) (pairedHost : l'.store.pairedHost = some host)
      (explicitSession : l'.feed.explicitSession = l.feed.explicitSession)
  | ended (ends : Ends l a) (notOpen : l'.phase ≠ .kSessionOpen)
      (notAwaiting : l'.phase ≠ .kAwaitingConfirmation) (sessionOpen : l'.feed.sessionOpen = false)
      (explicitSession : l'.feed.explicitSession = l.feed.explicitSession)
  | pended (now : UInt64) (d : Cpp.Decoded) (pair : Cpp.PairBody) (action : a = .frame now (.ok d))
      (pends : PairPends l d.envelope pair) (phase : l'.phase = .kAwaitingConfirmation)
      (sessionOpen : l'.feed.sessionOpen = l.feed.sessionOpen)
      (pairedHost : l'.store.pairedHost = none)
      (pendingSession : l'.pendingSession = d.envelope.session)
      (pendingHost : l'.pendingHost = pair.senderIdentity)
      (explicitSession : l'.feed.explicitSession = l.feed.explicitSession)
  | declined (awaited : l.phase = .kAwaitingConfirmation) (phase : l'.phase = .kNegotiated)
      (sessionOpen : l'.feed.sessionOpen = l.feed.sessionOpen)
      (explicitSession : l'.feed.explicitSession = l.feed.explicitSession)
  | snapshot (now : UInt64) (d : Cpp.Decoded) (action : a = .frame now (.ok d))
      (type : d.envelope.type = .kSnapshot)
      (after : l' = { l with feed := l.feed.onSnapshot now d })
  | kept (calm : Calm l a) (same : SameSession l l')

theorem closeSession_notOpen (l : HostLink) :
    l.closeSession.phase ≠ .kSessionOpen ∧ l.closeSession.phase ≠ .kAwaitingConfirmation := by
  rw [closeSession]
  dsimp only
  split_ifs with h
  · exact ⟨by decide, by decide⟩
  · exact not_or.mp h

private theorem effect_hello {now : UInt64} {d : Cpp.Decoded} {l : HostLink}
    (htype : d.envelope.type = .kHello) :
    Effect l (.frame now (.ok d)) (l.onHello now d.envelope) := by
  rw [onHello]
  cases hhello : d.envelope.hello with
  | none =>
    refine .kept (calm_frame (fun _ => hhello) (fun c hc => ?_) fun pair hpair => ?_)
      (SameSession.refl l)
    · exact absurd (htype.symm.trans hc.1) (by decide)
    · exact absurd (htype.symm.trans hpair.1) (by decide)
  | some hello =>
    have hends : Ends l (.frame now (.ok d)) := Or.inl ⟨htype, by rw [hhello]; rfl⟩
    dsimp only
    split_ifs
    · exact .ended hends (by simp [sendError]) (by simp [sendError])
        (by simp [sendError, closeSession, HostFeed.endSession])
        (by simp [sendError, closeSession, HostFeed.endSession])
    · cases hello.utcMs with
      | none =>
        exact .ended hends (by simp) (by simp) (by simp [closeSession, HostFeed.endSession])
          (by simp [closeSession, HostFeed.endSession])
      | some utcMs =>
        exact .ended hends (by simp) (by simp)
          (by simp [closeSession, HostFeed.endSession, HostFeed.applyHostUtc])
          (by simp [closeSession, HostFeed.endSession, HostFeed.applyHostUtc])

private theorem effect_openSession {l : HostLink} {a : Action} {session host : Identity}
    {code : UInt32} (h : Opens l a session host) {store : PairingStore}
    (hstore : store.pairedHost = some host) :
    Effect l a (openSession session host code { l with store }) := by
  rw [openSession]
  exact .opened session host h (by simp) (by simp [HostFeed.startSession])
    (by simp [HostFeed.startSession]) (by simpa using hstore) (by simp [HostFeed.startSession])

private theorem effect_pair {now : UInt64} {d : Cpp.Decoded} {l : HostLink}
    (htype : d.envelope.type = .kPair) :
    Effect l (.frame now (.ok d)) (l.onPair now d.envelope) := by
  have hcalm (h : ∀ pair, ¬PairOpens l d.envelope pair) : Calm l (.frame now (.ok d)) :=
    calm_frame (fun hhello => absurd (htype.symm.trans hhello) (by decide))
      (fun c hc => absurd (htype.symm.trans hc.1) (by decide)) h
  rw [onPair]
  cases hpair : d.envelope.pair with
  | none =>
    refine .kept (hcalm ?_) (.send l _)
    rintro pair ⟨-, hsome, -⟩
    rw [hpair] at hsome
    cases hsome
  | some pair =>
    have hcalm' (h : ¬PairOpens l d.envelope pair) : Calm l (.frame now (.ok d)) := by
      refine hcalm fun pair' hopens => h ?_
      obtain rfl : pair = pair' := Option.some.inj (hpair.symm.trans hopens.2.1)
      exact hopens
    dsimp only
    by_cases hrefused : l.phase = .kIdle ∨ l.phase = .kIncompatible ∨
        pair.matchingCode > kMaxMatchingCode
    · rw [if_pos hrefused]
      refine .kept (hcalm' ?_) (.send l _)
      rintro ⟨-, -, hidle, hincompatible, hcode, -, -⟩
      rcases hrefused with h | h | h
      · exact hidle h
      · exact hincompatible h
      · exact UInt32.not_lt.mpr hcode h
    rw [if_neg hrefused]
    obtain ⟨hidle, hincompatible, hcode⟩ :
        l.phase ≠ .kIdle ∧ l.phase ≠ .kIncompatible ∧ pair.matchingCode ≤ kMaxMatchingCode := by
      rw [not_or, not_or, gt_iff_lt, UInt32.not_lt] at hrefused
      exact hrefused
    by_cases hopens : l.store.pairedHost = some pair.senderIdentity ∧
        (pair.intendedPeerIdentity = kZeroIdentity ∨
          pair.intendedPeerIdentity = l.store.deviceIdentity)
    · rw [if_pos hopens]
      have h : Opens l (.frame now (.ok d)) d.envelope.session pair.senderIdentity :=
        ⟨pair, ⟨htype, hpair, hidle, hincompatible, hcode, hopens.1, hopens.2⟩, rfl, rfl⟩
      exact effect_openSession h hopens.1
    rw [if_neg hopens]
    by_cases hother : l.store.pairedHost.isSome ∨ pair.intendedPeerIdentity ≠ kZeroIdentity
    · rw [if_pos hother]
      obtain ⟨_, hsend⟩ := send_eq
        { l with diagnostics := { l.diagnostics with fault := .kNotPairedWithHost } }
        { type := .kError, body := [LinkErrorCode.kNotPairedWithYou.code] }
      rw [sendError, hsend]
      exact .kept (hcalm' fun h => hopens h.2.2.2.2.2) ⟨rfl, rfl, rfl, rfl, rfl, rfl, rfl⟩
    · rw [if_neg hother]
      rw [not_or, Option.not_isSome_iff_eq_none, not_not] at hother
      exact .pended now d pair rfl ⟨htype, hpair, hidle, hincompatible, hother.1, hother.2⟩
        rfl rfl hother.1 rfl rfl rfl

private theorem effect_decline {l : HostLink} {a : Action} (store : PairingStore)
    (hphase : l.phase = .kAwaitingConfirmation) : Effect l a (decline { l with store }) :=
  .declined hphase (by simp [decline, sendError]) (by simp [decline, sendError])
    (by simp [decline, sendError])

private theorem effect_confirm {l : HostLink} {a : Action} (accepted : Bool)
    (ha : accepted = true → a = .confirmPairing true)
    (hcalm : l.phase ≠ .kAwaitingConfirmation → Calm l a) :
    Effect l a (l.confirmPairing accepted) := by
  rw [confirmPairing]
  by_cases hphase : l.phase = .kAwaitingConfirmation
  swap
  · rw [if_pos hphase]
    exact .kept (hcalm hphase) (SameSession.refl l)
  rw [if_neg (not_not.mpr hphase)]
  by_cases haccepted : (!accepted) = true
  · rw [if_pos haccepted]
    exact effect_decline l.store hphase
  have hyes : accepted = true := by simpa using haccepted
  rw [if_neg haccepted, PairingStore.savePairedHost]
  dsimp only
  by_cases hok : l.store.succeeds l.store.operations = true
  · have h : Opens l a l.pendingSession l.pendingHost := by
      rw [ha hyes]
      exact ⟨rfl, hphase, hok, rfl, rfl⟩
    rw [if_neg (by simp [hok])]
    exact effect_openSession h (if_pos hok)
  · rw [if_pos (by simpa using hok)]
    exact effect_decline _ hphase

theorem execute_unpair {c : Cpp.CommandBody} (h : c.operation = 1) (l : HostLink) :
    l.execute c = (if l.store.pairedHost.isSome then 0 else 1, true, l) := by
  rw [execute, if_pos h]

theorem execute_reset {c : Cpp.CommandBody} (h : c.operation = 2) (l : HostLink) :
    l.execute c = (if l.resetCalibration.1 then 0 else 2, false, l.resetCalibration.2) := by
  rw [execute, if_neg (by rw [h]; decide), if_pos h]

theorem execute_other {c : Cpp.CommandBody} (h1 : c.operation ≠ 1) (h2 : c.operation ≠ 2)
    (l : HostLink) : l.execute c = (2, false, l) := by
  rw [execute, if_neg h1, if_neg h2]

theorem resetCalibration_none {l : HostLink} (h : l.calibrationReset = none) :
    l.resetCalibration = (false, l) := by
  rw [resetCalibration.eq_def, h]

theorem resetCalibration_some {l : HostLink} {handler : ℕ → Bool}
    (h : l.calibrationReset = some handler) :
    l.resetCalibration = (handler l.resets, { l with resets := l.resets + 1 }) := by
  rw [resetCalibration.eq_def]
  split
  · next hnone => cases h.symm.trans hnone
  · next handler' hsome => rw [Option.some.inj (h.symm.trans hsome)]

/-- What carrying a command out changes: the calls of the handler. -/
theorem execute_eq (c : Cpp.CommandBody) (l : HostLink) :
    ∃ resets, (l.execute c).2.2 = { l with resets } := by
  by_cases h1 : c.operation = 1
  · exact ⟨l.resets, by rw [execute_unpair h1]⟩
  by_cases h2 : c.operation = 2
  · rw [execute_reset h2]
    rcases Option.eq_none_or_eq_some l.calibrationReset with hnone | ⟨handler, hsome⟩
    · exact ⟨l.resets, congrArg (·.2) (resetCalibration_none hnone)⟩
    · exact ⟨l.resets + 1, congrArg (·.2) (resetCalibration_some hsome)⟩
  · exact ⟨l.resets, by rw [execute_other h1 h2]⟩

/-- Only an unpair ends the session. -/
theorem execute_closeAfter (c : Cpp.CommandBody) (l : HostLink) :
    (l.execute c).2.1 = decide (c.operation = 1) := by
  by_cases h1 : c.operation = 1
  · simp [execute_unpair h1, h1]
  by_cases h2 : c.operation = 2
  · simp [execute_reset h2, h1]
  · simp [execute_other h1 h2, h1]

theorem onCommand_of_executes {l : HostLink} {e : Cpp.Envelope} {c : Cpp.CommandBody}
    (h : Executes l e c) : l.onCommand e =
      if c.operation = 1 then
        closeSession { reply c (l.execute c).1 ((l.execute c).2.2.cache c (l.execute c).1) with
          store := l.store.clearPairedHost }
      else reply c (l.execute c).1 ((l.execute c).2.2.cache c (l.execute c).1) := by
  obtain ⟨-, hcommand, hsession, hnew, hopen⟩ := h
  obtain ⟨resets, hresets⟩ := execute_eq c l
  have hstore : (reply c (l.execute c).1 ((l.execute c).2.2.cache c (l.execute c).1)).store =
      l.store := by
    rw [reply, send_store, cache, hresets]
  rw [onCommand, hcommand]
  dsimp only
  rw [if_neg (not_not.mpr hsession), if_neg hnew, if_neg (not_not.mpr hopen), hstore,
    execute_closeAfter]
  simp only [decide_eq_true_eq]

theorem onCommand_of_not_executes {l : HostLink} {e : Cpp.Envelope} (htype : e.type = .kCommand)
    (h : ∀ c, ¬Executes l e c) : l.onCommand e = l ∨ ∃ c, e.command = some c ∧
      e.session = l.session ∧ l.cachedCommand = some c.commandIdentity ∧
      l.onCommand e = l.reply c l.cachedResult := by
  rw [onCommand]
  cases hcommand : e.command with
  | none => exact Or.inl rfl
  | some c =>
    dsimp only
    by_cases hsession : e.session = l.session
    swap
    · rw [if_pos hsession]
      exact Or.inl rfl
    rw [if_neg (not_not.mpr hsession)]
    by_cases hcached : l.cachedCommand = some c.commandIdentity
    · rw [if_pos hcached]
      exact Or.inr ⟨c, rfl, hsession, hcached, rfl⟩
    rw [if_neg hcached]
    by_cases hopen : l.phase = .kSessionOpen
    · exact absurd ⟨htype, hcommand, hsession, hcached, hopen⟩ (h c)
    · rw [if_pos hopen]
      exact Or.inl rfl

private theorem effect_command {now : UInt64} {d : Cpp.Decoded} {l : HostLink}
    (htype : d.envelope.type = .kCommand) :
    Effect l (.frame now (.ok d)) (l.onCommand d.envelope) := by
  have hcalm (h : ∀ c, Executes l d.envelope c → c.operation ≠ 1) : Calm l (.frame now (.ok d)) :=
    calm_frame (fun hhello => absurd (htype.symm.trans hhello) (by decide)) h
      fun pair hpair => absurd (htype.symm.trans hpair.1) (by decide)
  by_cases h : ∃ c, Executes l d.envelope c
  · obtain ⟨c, hc⟩ := h
    obtain ⟨resets, hresets⟩ := execute_eq c l
    rw [onCommand_of_executes hc]
    by_cases hunpair : c.operation = 1
    · rw [if_pos hunpair]
      obtain ⟨hopen, hawaiting⟩ := closeSession_notOpen
        { reply c (l.execute c).1 ((l.execute c).2.2.cache c (l.execute c).1) with
          store := l.store.clearPairedHost }
      refine .ended (Or.inr ⟨c, hc, hunpair⟩) hopen hawaiting rfl ?_
      rw [closeSession, HostFeed.endSession, reply, send_feed, cache, hresets]
    · rw [if_neg hunpair, hresets]
      obtain ⟨_, hsend⟩ := send_eq (cache c (l.execute c).1 { l with resets })
        { type := .kCommandReply, session := l.session,
          command := some { commandIdentity := c.commandIdentity, operation := c.operation,
                            result := some (l.execute c).1 } }
      rw [reply]
      refine .kept (hcalm fun c' hc' => ?_) ?_
      · obtain rfl : c = c' := Option.some.inj (hc.2.1.symm.trans hc'.2.1)
        exact hunpair
      rw [show (cache c (l.execute c).1 { l with resets }).session = l.session from rfl, hsend]
      exact ⟨rfl, rfl, rfl, rfl, rfl, rfl, rfl⟩
  · rw [not_exists] at h
    have hnone := hcalm fun c hc => absurd hc (h c)
    rcases onCommand_of_not_executes htype h with hsame | ⟨c, -, -, -, hreply⟩
    · rw [hsame]
      exact .kept hnone (SameSession.refl l)
    · rw [hreply]
      exact .kept hnone (.send l _)

private theorem effect_error {now : UInt64} {error : Cpp.Error} {l : HostLink} :
    Effect l (.frame now (.error error))
      (onResult now (.error error) { l with feed := l.feed.onError error }) := by
  rw [onResult]
  by_cases hmajor : error = .kUnsupportedMajor
  · rw [if_pos hmajor]
    exact .ended hmajor (by simp [sendError, closeSession]) (by simp [sendError, closeSession])
      (by simp [sendError, closeSession, HostFeed.endSession])
      (by simp [sendError, closeSession, HostFeed.endSession, HostFeed.onError, HostFeed.reject,
        hmajor])
  · rw [if_neg hmajor, HostFeed.onError, if_neg hmajor]
    exact .kept ⟨hmajor, fun _ _ => id⟩ ⟨rfl, rfl, rfl, rfl, rfl, rfl, rfl⟩

/-- What a step does to the session. -/
theorem step_effect (l : HostLink) (a : Action) : Effect l a (l.step a) := by
  cases a with
  | frame now result =>
    cases result with
    | error error => exact effect_error
    | ok d =>
      rw [step, onFrame]
      by_cases hsnapshot : d.envelope.type = .kSnapshot
      · rw [if_neg (not_not.mpr hsnapshot)]
        exact .snapshot now d rfl hsnapshot rfl
      rw [if_pos hsnapshot, onResult]
      by_cases hhello : d.envelope.type = .kHello
      · rw [if_pos hhello]
        exact effect_hello hhello
      rw [if_neg hhello]
      by_cases hpair : d.envelope.type = .kPair
      · rw [if_pos hpair]
        exact effect_pair hpair
      rw [if_neg hpair]
      by_cases hcommand : d.envelope.type = .kCommand
      · rw [if_pos hcommand]
        exact effect_command hcommand
      · rw [if_neg hcommand]
        exact .kept (calm_frame (fun h => absurd h hhello) (fun c hc => absurd hc.1 hcommand)
          fun pair h => hpair h.1) (SameSession.refl l)
  | buffer stream lastPushMs =>
    exact .kept ⟨id, fun _ _ => id⟩ ⟨rfl, rfl, rfl, rfl, rfl, rfl, rfl⟩
  | advance now =>
    exact .kept ⟨id, fun _ _ => id⟩ ⟨rfl, rfl, rfl, rfl, rfl, rfl, rfl⟩
  | expire now =>
    rw [step, expire]
    split_ifs
    · exact effect_confirm false nofun fun _ => ⟨id, fun _ _ => id⟩
    · exact .kept ⟨id, fun _ _ => id⟩ (SameSession.refl l)
  | confirmPairing accepted =>
    exact effect_confirm accepted (fun h => by rw [h]) fun hphase =>
      ⟨id, fun _ _ h => hphase h.2.1⟩
  | unpair =>
    obtain ⟨hopen, hawaiting⟩ := closeSession_notOpen { l with store := l.store.clearPairedHost }
    exact .ended trivial hopen hawaiting rfl rfl
  | takeOutgoing =>
    exact .kept ⟨id, fun _ _ => id⟩ ⟨rfl, rfl, rfl, rfl, rfl, rfl, rfl⟩
  | setCalibrationResetHandler handler =>
    exact .kept ⟨id, fun _ _ => id⟩ ⟨rfl, rfl, rfl, rfl, rfl, rfl, rfl⟩

/-- What handling a frame makes of the feed. -/
inductive FeedEffect (l : HostLink) (now : UInt64) (result : Result) (feed : HostFeed) : Prop where
  | kept (same : feed = l.feed)
  | started (session : Identity) (after : feed = l.feed.startSession session)
  | closed (after : feed = l.feed.endSession)
  | anchored (d : Cpp.Decoded) (hello : Cpp.HelloBody) (utcMs : UInt64) (frame : result = .ok d)
      (type : d.envelope.type = .kHello) (body : d.envelope.hello = some hello)
      (major : hello.supportedMajor = l.diagnostics.supportedMajor) (utc : hello.utcMs = some utcMs)
      (after : feed = l.feed.endSession.applyHostUtc now utcMs d.envelope.localOffsetMinutes)
  | failed (error : Cpp.Error) (frame : result = .error error) (other : error ≠ .kUnsupportedMajor)
      (after : feed = l.feed.reject error)
  | incompatible (frame : result = .error .kUnsupportedMajor)
      (after : feed = (l.feed.onError .kUnsupportedMajor).endSession)
  | snapshot (d : Cpp.Decoded) (frame : result = .ok d) (type : d.envelope.type = .kSnapshot)
      (after : feed = l.feed.onSnapshot now d)

theorem onHello_feed {l : HostLink} {now : UInt64} {d : Cpp.Decoded}
    (htype : d.envelope.type = .kHello) :
    FeedEffect l now (.ok d) (l.onHello now d.envelope).feed := by
  rw [onHello]
  cases hhello : d.envelope.hello with
  | none => exact .kept rfl
  | some hello =>
    dsimp only
    by_cases hmajor : hello.supportedMajor = l.diagnostics.supportedMajor
    swap
    · exact .closed (by simp [closeSession, hmajor, sendError])
    rw [if_neg (by simpa [closeSession] using hmajor), send_feed]
    cases hutc : hello.utcMs with
    | none => exact .closed rfl
    | some utcMs => exact .anchored d hello utcMs rfl htype hhello hmajor hutc rfl

theorem onPair_feed (l : HostLink) (now : UInt64) (result : Result) (e : Cpp.Envelope) :
    FeedEffect l now result (l.onPair now e).feed := by
  rw [onPair]
  cases e.pair with
  | none => exact .kept (send_feed _ _)
  | some pair =>
    dsimp only
    split_ifs
    · exact .kept (send_feed _ _)
    · exact .started e.session (send_feed _ _)
    · exact .kept (send_feed _ _)
    · exact .kept rfl

theorem onCommand_feed (l : HostLink) (now : UInt64) (result : Result) {e : Cpp.Envelope}
    (htype : e.type = .kCommand) : FeedEffect l now result (l.onCommand e).feed := by
  by_cases h : ∃ c, Executes l e c
  · obtain ⟨c, hc⟩ := h
    obtain ⟨resets, hresets⟩ := execute_eq c l
    have hfeed : (reply c (l.execute c).1 ((l.execute c).2.2.cache c (l.execute c).1)).feed =
        l.feed := by
      rw [reply, send_feed, cache, hresets]
    rw [onCommand_of_executes hc]
    split_ifs
    · exact .closed (by rw [closeSession, hfeed])
    · exact .kept hfeed
  · rw [not_exists] at h
    rcases onCommand_of_not_executes htype h with hsame | ⟨c, -, -, -, hreply⟩
    · exact .kept (by rw [hsame])
    · exact .kept (by rw [hreply, reply, send_feed])

theorem onFrame_feed (l : HostLink) (now : UInt64) (result : Result) :
    FeedEffect l now result (l.onFrame now result).feed := by
  cases result with
  | error error =>
    rw [onFrame, onResult]
    by_cases hmajor : error = .kUnsupportedMajor
    · subst hmajor
      exact .incompatible rfl (by simp [closeSession, sendError])
    · rw [if_neg hmajor]
      exact .failed error rfl hmajor (by rw [HostFeed.onError, if_neg hmajor])
  | ok d =>
    rw [onFrame]
    by_cases hsnapshot : d.envelope.type = .kSnapshot
    · rw [if_neg (not_not.mpr hsnapshot)]
      exact .snapshot d rfl hsnapshot rfl
    rw [if_pos hsnapshot, onResult]
    by_cases hhello : d.envelope.type = .kHello
    · rw [if_pos hhello]
      exact onHello_feed hhello
    rw [if_neg hhello]
    by_cases hpair : d.envelope.type = .kPair
    · rw [if_pos hpair]
      exact onPair_feed _ _ _ _
    rw [if_neg hpair]
    by_cases hcommand : d.envelope.type = .kCommand
    · rw [if_pos hcommand]
      exact onCommand_feed _ _ _ hcommand
    · rw [if_neg hcommand]
      exact .kept rfl

theorem onSnapshot_stream (feed : HostFeed) (now : UInt64) (d : Cpp.Decoded) :
    (feed.onSnapshot now d).stream = feed.stream ∧
      (feed.onSnapshot now d).lastPushMs = feed.lastPushMs := by
  rw [HostFeed.onSnapshot]
  split_ifs
  · exact ⟨rfl, rfl⟩
  · dsimp only
    split
    · exact ⟨rfl, rfl⟩
    · exact ⟨rfl, rfl⟩

/-- The handlers leave the stream alone. -/
theorem onFrame_stream (l : HostLink) (now : UInt64) (result : Result) :
    (l.onFrame now result).feed.stream = l.feed.stream ∧
      (l.onFrame now result).feed.lastPushMs = l.feed.lastPushMs := by
  rcases onFrame_feed l now result with h | ⟨_, h⟩ | h | ⟨_, _, _, _, _, _, _, _, h⟩ |
    ⟨_, _, _, h⟩ |
    ⟨_, h⟩ | ⟨d, _, _, h⟩
  · rw [h]; exact ⟨rfl, rfl⟩
  · rw [h]; exact ⟨rfl, rfl⟩
  · rw [h]; exact ⟨rfl, rfl⟩
  · rw [h]; exact ⟨rfl, rfl⟩
  · rw [h]; exact ⟨rfl, rfl⟩
  · rw [h]; exact ⟨rfl, rfl⟩
  · rw [h]; exact onSnapshot_stream _ _ _

private theorem foldl_stream (now : UInt64) (results : List Result) (l : HostLink) :
    (results.foldl (fun l result => l.onFrame now result) l).feed.stream = l.feed.stream ∧
      (results.foldl (fun l result => l.onFrame now result) l).feed.lastPushMs =
        l.feed.lastPushMs := by
  induction results generalizing l with
  | nil => exact ⟨rfl, rfl⟩
  | cons result results ih =>
    obtain ⟨hstream, hpush⟩ := onFrame_stream l now result
    obtain ⟨ihstream, ihpush⟩ := ih (l.onFrame now result)
    exact ⟨ihstream.trans hstream, ihpush.trans hpush⟩

theorem drain_eq (now : UInt64) (l : HostLink) :
    l.drain now = (drainActions now l.feed.lastPushMs l.feed.stream).foldl step l := by
  rw [drain, drainActions, List.foldl_cons, List.foldl_map]
  rfl

theorem drain_stream (now : UInt64) (l : HostLink) :
    (l.drain now).feed.stream = (HostFeed.drain l.feed.stream).2 ∧
      (l.drain now).feed.lastPushMs = l.feed.lastPushMs :=
  foldl_stream now _ _

private theorem dropPartial_eq (now : UInt64) (rounds : ℕ) (l : HostLink) :
    l.dropPartial now rounds =
      (partialActions now l.feed.lastPushMs rounds l.feed.stream).foldl step l := by
  induction rounds generalizing l with
  | zero => rfl
  | succ rounds ih =>
    rw [dropPartial, partialActions]
    split_ifs
    · obtain ⟨hstream, hpush⟩ := drain_stream now
        { l with feed := { l.feed with stream := l.feed.stream.dropLeadingByte } }
      rw [ih, hstream, hpush, List.foldl_append, drain_eq]
      rfl
    · rfl

/-- A call is its actions. -/
theorem call_eq (l : HostLink) (c : Call) : l.call c = (l.actions c).foldl step l := by
  cases c with
  | push now bytes =>
    rw [call, push, drain_eq]
    rfl
  | tick now =>
    rw [call, tick, actions, List.foldl_append, List.foldl_cons, dropPartial_eq]
    rfl
  | confirmPairing accepted => rfl
  | unpair => rfl
  | takeOutgoing => rfl
  | setCalibrationResetHandler handler => rfl

end CydMonitor.Device
