import CydMonitor.Session.Joint

/-!
# What the device puts on the line

Every frame it queues is a message for the Host, and a Pair among them answers the Pair that
opened its session.
-/

namespace CydMonitor.Session

open Transport Device Trace Codec HostLink

/-- The action opens a session, asked for with this code. -/
def OpensWith (l : HostLink) (a : Action) (session host : Identity) (code : UInt32) : Prop :=
  match a with
  | .frame _ (.ok d) => ∃ pair, PairOpens l d.envelope pair ∧ session = d.envelope.session ∧
      host = pair.senderIdentity ∧ code = pair.matchingCode
  | .confirmPairing accepted => accepted = true ∧ l.phase = .kAwaitingConfirmation ∧
      l.store.succeeds l.store.operations = true ∧ session = l.pendingSession ∧
      host = l.pendingHost ∧ code = l.pendingCode
  | _ => False

theorem OpensWith.opens {l : HostLink} {a : Action} {session host : Identity} {code : UInt32}
    (h : OpensWith l a session host code) : Opens l a session host := by
  cases a with
  | frame now result =>
    cases result with
    | error e => exact h
    | ok d =>
      obtain ⟨pair, hpair, hsession, hhost, -⟩ := h
      exact ⟨pair, hpair, hsession, hhost⟩
  | confirmPairing accepted =>
    obtain ⟨haccepted, hphase, hsaved, hsession, hhost, -⟩ := h
    exact ⟨haccepted, hphase, hsaved, hsession, hhost⟩
  | _ => exact h

/-- What is new in the queue after an action. -/
def Says (l : HostLink) (a : Action) (l' : HostLink) : Prop :=
  ∀ f ∈ l'.outgoing, f ∈ l.outgoing ∨ ∃ e b, Rust.decode f = .ok (.control e b) ∧
    ∀ p, b = .pair p → OpensWith l a e.session p.intendedPeerIdentity p.matchingCode

theorem Says.same {l l' : HostLink} {a : Action} (h : l'.outgoing = l.outgoing) : Says l a l' :=
  fun _ hf => Or.inl (h ▸ hf)

theorem mem_enqueue {outgoing : List (List UInt8)} {f g : List UInt8}
    (h : f ∈ enqueue outgoing g) : f ∈ outgoing ∨ f = g := by
  rw [enqueue] at h
  rcases List.mem_append.mp h with h | h
  · split_ifs at h
    · exact Or.inl (List.mem_of_mem_tail h)
    · exact Or.inl h
  · exact Or.inr (List.mem_singleton.mp h)

theorem Says.sends {l l' : HostLink} {a : Action} {e : Rust.Envelope} {b : Rust.ControlBody}
    (h : Sends l l' e b)
    (hb : ∀ p, b = .pair p → OpensWith l a e.session p.intendedPeerIdentity p.matchingCode) :
    Says l a l' := by
  obtain ⟨g, hg, hqueue⟩ := h
  intro f hf
  rw [hqueue] at hf
  rcases mem_enqueue hf with hf | rfl
  · exact Or.inl hf
  · exact Or.inr ⟨e, b, hg, hb⟩

theorem Says.error {l l' : HostLink} {a : Action} (code : LinkErrorCode)
    (h : l'.outgoing = l.outgoing) : Says l a (l'.sendError code) := by
  obtain ⟨f, hf, hqueue⟩ := sendError_sends l' code
  rw [h] at hqueue
  exact Says.sends ⟨f, hf, hqueue⟩ fun p hp => by cases hp

theorem Says.helloReply {l l' : HostLink} {a : Action} (h : l'.outgoing = l.outgoing) :
    Says l a (l'.send { type := .kHelloReply,
                        hello := some { supportedMajor := l'.diagnostics.supportedMajor,
                                        supportedMinor := l'.diagnostics.supportedMinor } }) := by
  obtain ⟨f, hf, hqueue⟩ := helloReply_sends l'
  rw [h] at hqueue
  exact Says.sends ⟨f, hf, hqueue⟩ fun p hp => by cases hp

/-- What an invariant of the link has to say about its answers: a pairing that waits has a code
of six digits, and a cached command a result. -/
structure Answering (l : HostLink) : Prop where
  code : CodeFits l
  coded : l.cachedCommand ≠ none → ∃ r : Rust.CommandResult, l.cachedResult = UInt8.ofNat r.code

theorem answering_new (store : PairingStore) (bootIdentity : UInt32) :
    Answering (.new store bootIdentity) :=
  ⟨fun hphase => LinkPhase.noConfusion hphase, fun hcached => absurd rfl hcached⟩

theorem Answering.step {l : HostLink} {a : Action} (h : Answering l)
    (hdecoded : ∀ now d, a = .frame now (.ok d) → ∃ f, Cpp.decode f = .ok d) :
    Answering (l.step a) := by
  by_cases hopens : ∃ session host, Opens l a session host
  · obtain ⟨session, host, hopens⟩ := hopens
    obtain ⟨hnone, hopen⟩ := step_opens hopens
    refine ⟨fun hphase => ?_, fun hcached => absurd hnone hcached⟩
    rw [hopen] at hphase
    cases hphase
  by_cases hexecutes : ∃ c, ExecutesAt l a c
  · obtain ⟨c, hc⟩ := hexecutes
    obtain ⟨hasked, hnew, hopen⟩ := asked_of_executes hc
    obtain ⟨now, d, rfl, hd⟩ := id hc
    obtain ⟨f, hf⟩ := hdecoded now d rfl
    obtain ⟨b, rfl⟩ := exists_command hf hd.1 hd.2.1
    obtain ⟨r, hcarried⟩ := step_new hopen hasked hnew
    exact ⟨fun hphase => absurd hphase (step_executes_phase hc),
      fun _ => ⟨again r, hcarried.cachedResult⟩⟩
  · have hunmoved := step_unmoved hdecoded (fun session host ho => hopens ⟨session, host, ho⟩)
      (not_exists.mp hexecutes)
    refine ⟨hunmoved.code h.code, ?_⟩
    rw [hunmoved.cachedCommand, hunmoved.cachedResult]
    exact h.coded

/-- The touch says no, or opens the session that waits. -/
private theorem confirm_says {l : HostLink} (hcode : CodeFits l) {a : Action} (accepted : Bool)
    (ha : accepted = true → a = .confirmPairing accepted) :
    Says l a (l.confirmPairing accepted) := by
  rw [confirmPairing]
  by_cases hphase : l.phase = .kAwaitingConfirmation
  swap
  · rw [if_pos hphase]
    exact .same rfl
  rw [if_neg (not_not.mpr hphase)]
  cases accepted with
  | false =>
    rw [if_pos (by decide), decline]
    exact .error _ rfl
  | true =>
    rw [if_neg (by decide), PairingStore.savePairedHost]
    dsimp only
    cases hsaved : l.store.succeeds l.store.operations with
    | false =>
      rw [if_pos (by decide), decline]
      exact .error _ rfl
    | true =>
      rw [if_neg (by decide)]
      refine .sends (openSession_sends _ _ _ (hcode hphase)) fun p hp => ?_
      cases hp
      rw [ha rfl]
      exact ⟨rfl, hphase, hsaved, rfl, rfl, rfl⟩

private theorem command_says {l : HostLink} (h : Answering l) {now : UInt64} {d : Cpp.Decoded}
    {f : List UInt8} (hf : Cpp.decode f = .ok d) (htype : d.envelope.type = .kCommand) :
    Says l (.frame now (.ok d)) (l.step (.frame now (.ok d))) := by
  by_cases hexecutes : ∃ c, ExecutesAt l (.frame now (.ok d)) c
  · obtain ⟨c, hc⟩ := hexecutes
    obtain ⟨hasked, hnew, hopen⟩ := asked_of_executes hc
    obtain ⟨now', d', heq, hd⟩ := id hc
    cases heq
    obtain ⟨b, rfl⟩ := exists_command hf hd.1 hd.2.1
    obtain ⟨r, hcarried⟩ := step_new hopen hasked hnew
    obtain ⟨-, _, -, hsends⟩ := hcarried.answers
    exact .sends hsends fun p hp => by cases hp
  have hstep : l.step (.frame now (.ok d)) = l.onCommand d.envelope := by
    rw [step, onFrame, if_pos (by rw [htype]; decide), onResult, if_neg (by rw [htype]; decide),
      if_neg (by rw [htype]; decide), if_pos htype]
  rcases onCommand_of_not_executes htype fun c hc => hexecutes ⟨c, now, d, rfl, hc⟩ with
    hsame | ⟨c, hcommand, -, hcached, hreply⟩
  · rw [hstep, hsame]
    exact .same rfl
  · obtain ⟨b, rfl⟩ := exists_command hf htype hcommand
    obtain ⟨r, hr⟩ := h.coded (by rw [hcached]; simp)
    rw [hstep, hreply, hr]
    exact .sends (reply_sends l b r) fun p hp => by cases hp

theorem step_said {l : HostLink} {a : Action} (h : Answering l)
    (hdecoded : ∀ now d, a = .frame now (.ok d) → ∃ f, Cpp.decode f = .ok d) :
    Says l a (l.step a) := by
  cases a with
  | frame now result =>
    cases result with
    | error e =>
      rw [step, onFrame, onResult]
      split_ifs
      · exact .error _ rfl
      · exact .same rfl
    | ok d =>
      obtain ⟨f, hf⟩ := hdecoded now d rfl
      by_cases hcommand : d.envelope.type = .kCommand
      · exact command_says h hf hcommand
      rw [step, onFrame]
      by_cases hsnapshot : d.envelope.type = .kSnapshot
      · rw [if_neg (not_not.mpr hsnapshot)]
        exact .same rfl
      rw [if_pos hsnapshot, onResult]
      by_cases hhello : d.envelope.type = .kHello
      · rw [if_pos hhello, onHello]
        cases d.envelope.hello with
        | none => exact .same rfl
        | some hello =>
          dsimp only
          split_ifs
          · exact .error _ rfl
          · cases hello.utcMs with
            | none => exact .helloReply rfl
            | some utcMs => exact .helloReply rfl
      rw [if_neg hhello]
      by_cases hpair : d.envelope.type = .kPair
      · rw [if_pos hpair, onPair]
        cases hbody : d.envelope.pair with
        | none => exact .error _ rfl
        | some pair =>
          dsimp only
          split_ifs with hbad hknown
          · exact .error _ rfl
          · simp only [not_or] at hbad
            refine .sends (openSession_sends _ _ _ (pair_code_of_decode hf hbody)) fun p hp => ?_
            cases hp
            exact ⟨pair, ⟨hpair, hbody, hbad.1, hbad.2.1, UInt32.not_lt.mp hbad.2.2, hknown.1,
              hknown.2⟩, rfl, rfl, rfl⟩
          · exact .error _ rfl
          · exact .same rfl
      · rw [if_neg hpair, if_neg hcommand]
        exact .same rfl
  | expire now =>
    rw [step, expire]
    split_ifs
    · exact confirm_says h.code false fun haccepted => by cases haccepted
    · exact .same rfl
  | confirmPairing accepted => exact confirm_says h.code accepted fun _ => rfl
  | takeOutgoing => exact fun f hf => absurd hf List.not_mem_nil
  | _ => exact .same rfl

end CydMonitor.Session
