import CydMonitor.Device.Delivery

/-!
# Who may change the Host's state

The phases of the link, the gate of the feed and the receiver's session agree along
every run, and only a snapshot of the session in force changes a metric.
-/

namespace CydMonitor.Device

open Trace HostLink Framing Codec

abbrev LinkMoment := Moment HostLink Action

/-- The snapshot passed the gate. -/
def Applies (m : LinkMoment) (d : Cpp.Decoded) : Prop :=
  ∃ now, m.action = .frame now (.ok d) ∧ d.envelope.type = .kSnapshot ∧
    m.after.feed.stats.applied = m.before.feed.stats.applied + 1

/-- Nothing ended the session or opened another one. An unpair command counts when
`counts` says so. -/
structure Untouched (counts : HostLink → Cpp.Envelope → Cpp.CommandBody → Prop)
    (m : LinkMoment) : Prop where
  hello : ∀ now d, m.action = .frame now (.ok d) → d.envelope.type ≠ .kHello
  major : ∀ now, m.action ≠ .frame now (.error .kUnsupportedMajor)
  unpair : m.action ≠ .unpair
  command : ∀ now d c, m.action = .frame now (.ok d) → counts m.before d.envelope c →
    c.operation ≠ 1
  opens : ∀ session host, ¬Opens m.before m.action session host

/-- A Pair with this session and sender was received. -/
def Paired (past : List LinkMoment) (session host : Identity) : Prop :=
  ∃ m ∈ past, ∃ now d pair, m.action = .frame now (.ok d) ∧ d.envelope.type = .kPair ∧
    d.envelope.pair = some pair ∧ d.envelope.session = session ∧ pair.senderIdentity = host

/-- The session in force: the last one opened, by a Pair of the host that was then the
stored one, with nothing since that ended it, and its snapshots so far. -/
def InForce (counts : HostLink → Cpp.Envelope → Cpp.CommandBody → Prop) (past : List LinkMoment)
    (session : Identity) (sequences : UInt32 → Prop) : Prop :=
  ∃ before o since host, past = before ++ o :: since ∧ Opens o.before o.action session host ∧
    o.after.store.pairedHost = some host ∧ Paired (before ++ [o]) session host ∧
    (∀ m ∈ since, Untouched counts m) ∧
    ∀ m ∈ since, ∀ d, Applies m d → sequences d.envelope.sequence

/-- The law of the Host's state along a run. -/
structure Authorized (counts : HostLink → Cpp.Envelope → Cpp.CommandBody → Prop)
    (ms : List LinkMoment) : Prop where
  /-- The feed's flag and the link's phase agree. -/
  agree : ∀ m ∈ ms, (m.before.feed.sessionOpen = true ↔ m.before.phase = .kSessionOpen) ∧
    (m.after.feed.sessionOpen = true ↔ m.after.phase = .kSessionOpen)
  /-- A frame that changes the state is a snapshot of the session in force with a sequence
  above all applied ones, an unsupported major, or a compatible Hello with its time. -/
  changes : ∀ past m rest now result, ms = past ++ m :: rest → m.action = .frame now result →
    m.after.feed.reducer ≠ m.before.feed.reducer →
    (∃ d, result = .ok d ∧ d.envelope.type = .kSnapshot ∧
      InForce counts past d.envelope.session (· < d.envelope.sequence)) ∨
    (result = .error .kUnsupportedMajor ∧
      m.after.feed.reducer = m.before.feed.reducer.markIncompatible) ∨
    ∃ d hello utcMs, result = .ok d ∧ d.envelope.type = .kHello ∧ d.envelope.hello = some hello ∧
      hello.supportedMajor = m.before.diagnostics.supportedMajor ∧ hello.utcMs = some utcMs ∧
      m.after.feed.reducer =
        m.before.feed.reducer.setUtcAnchor utcMs now d.envelope.localOffsetMinutes

/-- What a snapshot does to the feed of an open session. -/
theorem onSnapshot_cases {feed : HostFeed} (now : UInt64) (d : Cpp.Decoded)
    (hexplicit : feed.explicitSession = true)
    (hactive : feed.sessionOpen = true → feed.session.active = true) :
    ((feed.onSnapshot now d).reducer = feed.reducer ∧
      (feed.onSnapshot now d).session = feed.session ∧
      (feed.onSnapshot now d).stats.applied = feed.stats.applied) ∨
    (feed.sessionOpen = true ∧ d.envelope.session = feed.session.session ∧
      feed.session.lastSequence < d.envelope.sequence ∧
      (feed.onSnapshot now d).session =
        { feed.session with lastSequence := d.envelope.sequence }) := by
  rw [HostFeed.onSnapshot]
  by_cases hclosed : feed.explicitSession = true ∧ (!feed.sessionOpen) = true
  · rw [if_pos hclosed]
    exact Or.inl ⟨rfl, rfl, rfl⟩
  have hopen : feed.sessionOpen = true := by simpa [hexplicit] using hclosed
  have hgate : feed.session.accept d = if d.envelope.session ≠ feed.session.session then
      (some .kWrongSession, feed.session)
      else if d.envelope.sequence ≤ feed.session.lastSequence then
        (some .kStaleSequence, feed.session)
      else (none, { feed.session with lastSequence := d.envelope.sequence }) := by
    rw [Cpp.SessionReceiver.accept, if_pos (hactive hopen)]
  rw [if_neg hclosed, hgate]
  by_cases hsession : d.envelope.session = feed.session.session
  swap
  · rw [if_pos hsession]
    exact Or.inl ⟨rfl, rfl, rfl⟩
  rw [if_neg (not_not.mpr hsession)]
  by_cases hsequence : d.envelope.sequence ≤ feed.session.lastSequence
  · rw [if_pos hsequence]
    exact Or.inl ⟨rfl, rfl, rfl⟩
  · rw [if_neg hsequence]
    exact Or.inr ⟨hopen, hsession, UInt32.not_le.mp hsequence, rfl⟩

theorem onSnapshot_flags (feed : HostFeed) (now : UInt64) (d : Cpp.Decoded) :
    (feed.onSnapshot now d).sessionOpen = feed.sessionOpen ∧
      (feed.onSnapshot now d).explicitSession = feed.explicitSession := by
  rw [HostFeed.onSnapshot]
  split_ifs
  · exact ⟨rfl, rfl⟩
  · dsimp only
    split
    · exact ⟨rfl, rfl⟩
    · exact ⟨rfl, rfl⟩

/-- Every Hello has its body. -/
def WellFormed (a : Action) : Prop :=
  ∀ now d, a = .frame now (.ok d) → d.envelope.type = .kHello → d.envelope.hello.isSome

/-- What a run keeps of its past and its state. -/
structure Keeps (past : List LinkMoment) (l : HostLink) : Prop where
  explicitSession : l.feed.explicitSession = true
  agree : l.feed.sessionOpen = true ↔ l.phase = .kSessionOpen
  paired : l.phase = .kSessionOpen → l.store.pairedHost ≠ none
  active : l.phase = .kSessionOpen → l.feed.session.active = true
  pending : l.phase = .kAwaitingConfirmation → Paired past l.pendingSession l.pendingHost
  inForce : l.phase = .kSessionOpen → InForce Executes past l.feed.session.session
    (· ≤ l.feed.session.lastSequence)

theorem keeps_new (store : PairingStore) (bootIdentity : UInt32) :
    Keeps [] (HostLink.new store bootIdentity) :=
  ⟨rfl, ⟨nofun, nofun⟩, nofun, nofun, nofun, nofun⟩

theorem Paired.append {past : List LinkMoment} {session host : Identity}
    (h : Paired past session host) (more : List LinkMoment) :
    Paired (past ++ more) session host := by
  obtain ⟨m, hm, hpair⟩ := h
  exact ⟨m, List.mem_append_left _ hm, hpair⟩

/-- The session stays in force over a moment that leaves it untouched. -/
theorem InForce.snoc {counts : HostLink → Cpp.Envelope → Cpp.CommandBody → Prop}
    {past : List LinkMoment} {session : Identity} {sequences sequences' : UInt32 → Prop}
    (h : InForce counts past session sequences) {m : LinkMoment} (hm : Untouched counts m)
    (hle : ∀ n, sequences n → sequences' n)
    (happlied : ∀ d, Applies m d → sequences' d.envelope.sequence) :
    InForce counts (past ++ [m]) session sequences' := by
  obtain ⟨before, o, since, host, rfl, hopens, hhost, hpair, hsince, hseq⟩ := h
  refine ⟨before, o, since ++ [m], host, by simp, hopens, hhost, hpair, fun n hn => ?_,
    fun n hn d hd => ?_⟩
  · rcases List.mem_append.mp hn with hn | hn
    · exact hsince n hn
    · rw [List.mem_singleton.mp hn]
      exact hm
  · rcases List.mem_append.mp hn with hn | hn
    · exact hle _ (hseq n hn d hd)
    · rw [List.mem_singleton.mp hn] at hd
      exact happlied d hd

/-- A calm moment leaves the session untouched. -/
theorem untouched_of_calm {l : HostLink} {a : Action} {l' : HostLink} (h : Calm l a)
    (hformed : WellFormed a) : Untouched Executes ⟨l, a, l'⟩ := by
  refine ⟨fun now d ha htype => h.1 ?_, fun now ha => h.1 ?_, fun ha => h.1 ?_,
    fun now d c ha hc hone => h.1 ?_, h.2⟩
  · change a = _ at ha
    subst ha
    exact Or.inl ⟨htype, hformed now d rfl htype⟩
  · change a = _ at ha
    subst ha
    rfl
  · change a = _ at ha
    subst ha
    trivial
  · change a = _ at ha
    subst ha
    exact Or.inr ⟨c, hc, hone⟩

/-- A session opens with a Pair of its own behind it. -/
private theorem paired_of_opens {past : List LinkMoment} {l l' : HostLink} {a : Action}
    {session host : Identity} (h : Opens l a session host) (hl : Keeps past l) :
    Paired (past ++ [⟨l, a, l'⟩]) session host := by
  cases a with
  | frame now result =>
    cases result with
    | error e => exact h.elim
    | ok d =>
      obtain ⟨pair, hopens, rfl, rfl⟩ := h
      exact ⟨_, List.mem_append_right _ (List.mem_singleton_self _), now, d, pair, rfl, hopens.1,
        hopens.2.1, rfl, rfl⟩
  | confirmPairing accepted =>
    obtain ⟨-, hphase, -, rfl, rfl⟩ := h
    exact (hl.pending hphase).append _
  | _ => exact h.elim

theorem ne_add_one (n : UInt32) : n ≠ n + 1 := by
  intro h
  simp at h

/-- An applied snapshot is for the receiver's session and becomes its last sequence. -/
theorem applied_receiver {past : List LinkMoment} {l : HostLink} {a : Action} {d : Cpp.Decoded}
    (hl : Keeps past l) (h : Applies ⟨l, a, l.step a⟩ d) :
    d.envelope.session = l.feed.session.session ∧
      l.feed.session.lastSequence < d.envelope.sequence ∧
      (l.step a).feed.session = { l.feed.session with lastSequence := d.envelope.sequence } := by
  obtain ⟨now, ha, htype, happlied⟩ := h
  change a = _ at ha
  subst ha
  have hstep : (l.step (.frame now (.ok d))).feed = l.feed.onSnapshot now d := by
    rw [step, onFrame, if_neg (not_not.mpr htype)]
  change (l.step (.frame now (.ok d))).feed.stats.applied = l.feed.stats.applied + 1 at happlied
  rw [hstep] at happlied ⊢
  rcases onSnapshot_cases now d hl.explicitSession fun h => hl.active (hl.agree.mp h) with
    ⟨-, -, hsame⟩ | ⟨-, hsession, hlt, hreceiver⟩
  · exact absurd (hsame.symm.trans happlied) (ne_add_one _)
  · exact ⟨hsession, hlt, hreceiver⟩

theorem keeps_step {past : List LinkMoment} {l : HostLink} {a : Action} (hl : Keeps past l)
    (hformed : WellFormed a) : Keeps (past ++ [⟨l, a, l.step a⟩]) (l.step a) := by
  rcases step_effect l a with ⟨session, host, hopens, hphase, hflag, hreceiver, hhost, hexplicit⟩ |
    ⟨-, hnot, hwait, hflag, hexplicit⟩ |
    ⟨now, d, pair, rfl, hpends, hphase, hflag, hhost, hsession, hsender, hexplicit⟩ |
    ⟨hawaited, hphase, hflag, hexplicit⟩ | ⟨now, d, rfl, htype, hafter⟩ | ⟨hcalm, hsame⟩
  · refine ⟨hexplicit.trans hl.explicitSession, by simp [hphase, hflag], fun _ => by simp [hhost],
      fun _ => by rw [hreceiver]; rfl, by simp [hphase], fun _ => ?_⟩
    rw [hreceiver]
    exact ⟨past, _, [], host, rfl, hopens, hhost, paired_of_opens hopens hl, by simp, by simp⟩
  · exact ⟨hexplicit.trans hl.explicitSession, by simp [hnot, hflag], fun h => absurd h hnot,
      fun h => absurd h hnot, fun h => absurd h hwait, fun h => absurd h hnot⟩
  · have hclosed : l.phase ≠ .kSessionOpen := fun h => hl.paired h hpends.2.2.2.2.1
    have hflag' : l.feed.sessionOpen ≠ true := fun h => hclosed (hl.agree.mp h)
    refine ⟨hexplicit.trans hl.explicitSession, by simp [hphase, hflag, hflag'], by simp [hphase],
      by simp [hphase], fun _ => ?_, by simp [hphase]⟩
    rw [hsession, hsender]
    exact ⟨_, List.mem_append_right _ (List.mem_singleton_self _), now, d, pair, rfl, hpends.1,
      hpends.2.1, rfl, rfl⟩
  · have hflag' : l.feed.sessionOpen ≠ true := fun h => by
      have hopen := hl.agree.mp h
      rw [hawaited] at hopen
      cases hopen
    exact ⟨hexplicit.trans hl.explicitSession, by simp [hphase, hflag, hflag'], by simp [hphase],
      by simp [hphase], by simp [hphase], by simp [hphase]⟩
  · have hcalm : Calm l (.frame now (.ok d)) :=
      calm_frame (fun h => absurd (htype.symm.trans h) (by decide))
        (fun c hc => absurd (htype.symm.trans hc.1) (by decide))
        fun pair h => absurd (htype.symm.trans h.1) (by decide)
    have huntouched : Untouched Executes ⟨l, _, l.step (.frame now (.ok d))⟩ :=
      untouched_of_calm hcalm hformed
    have happlied (d' : Cpp.Decoded)
        (h : Applies ⟨l, .frame now (.ok d), l.step (.frame now (.ok d))⟩ d') :
        d'.envelope.sequence ≤ (l.step (.frame now (.ok d))).feed.session.lastSequence := by
      rw [(applied_receiver hl h).2.2]
      exact UInt32.le_refl _
    obtain ⟨hflag, hexplicit⟩ := onSnapshot_flags l.feed now d
    rw [hafter] at happlied huntouched ⊢
    refine ⟨hexplicit.trans hl.explicitSession, ?_, hl.paired, fun h => ?_,
      fun h => (hl.pending h).append _, fun h => ?_⟩
    · change (l.feed.onSnapshot now d).sessionOpen = true ↔ _
      rw [hflag]
      exact hl.agree
    · rcases onSnapshot_cases now d hl.explicitSession fun h => hl.active (hl.agree.mp h) with
        ⟨-, hreceiver, -⟩ | ⟨-, -, -, hreceiver⟩
      · exact (congrArg _ hreceiver).trans (hl.active h)
      · exact (congrArg _ hreceiver).trans (hl.active h)
    · have hsession : (l.feed.onSnapshot now d).session.session = l.feed.session.session ∧
          l.feed.session.lastSequence ≤ (l.feed.onSnapshot now d).session.lastSequence := by
        rcases onSnapshot_cases now d hl.explicitSession fun h => hl.active (hl.agree.mp h) with
          ⟨-, hreceiver, -⟩ | ⟨-, -, hlt, hreceiver⟩
        · rw [hreceiver]
          exact ⟨rfl, UInt32.le_refl _⟩
        · rw [hreceiver]
          exact ⟨rfl, UInt32.le_of_lt hlt⟩
      have hforce := hl.inForce h
      rw [← hsession.1] at hforce
      exact hforce.snoc huntouched (fun n hn => UInt32.le_trans hn hsession.2) happlied
  · have huntouched : Untouched Executes ⟨l, a, l.step a⟩ := untouched_of_calm hcalm hformed
    refine ⟨hsame.explicitSession.trans hl.explicitSession, ?_, ?_, ?_, ?_, ?_⟩
    · rw [hsame.sessionOpen, hsame.phase]
      exact hl.agree
    · rw [hsame.phase, hsame.pairedHost]
      exact hl.paired
    · rw [hsame.phase, hsame.receiver]
      exact hl.active
    · rw [hsame.phase, hsame.pendingSession, hsame.pendingHost]
      exact fun h => (hl.pending h).append _
    · rw [hsame.phase]
      intro h
      have hforce := hl.inForce h
      rw [← hsame.receiver] at hforce
      refine hforce.snoc huntouched (fun _ hn => hn) fun d hd => ?_
      rw [(applied_receiver hl hd).2.2]
      exact UInt32.le_refl _

/-- The results of a drain are decoded frames. -/
theorem drain_decoded (stream : Cpp.FrameStream) {result : Result}
    (h : result ∈ (HostFeed.drain stream).1) : ∃ f, Cpp.decode f = result :=
  Codec.deviceFramer_follows.mem_drain h

/-- The device's decoder returns no Hello without its body. -/
theorem hello_of_decode {f : List UInt8} {d : Cpp.Decoded} (h : Cpp.decode f = .ok d)
    (htype : d.envelope.type = .kHello) : d.envelope.hello.isSome := by
  obtain ⟨m, hm, rfl⟩ := Codec.exists_image h
  cases m with
  | snapshot e s =>
    have hkind := Codec.snapshot_kind hm
    have htype' : Codec.typeOf e.kind = .kHello := htype
    rw [hkind] at htype'
    exact absurd htype' (by decide)
  | control e b =>
    have hkind := Codec.control_kind hm
    have htype' : Codec.typeOf e.kind = Codec.typeOf .hello := by cases b <;> exact htype
    have hhello := hkind.symm.trans (Codec.typeOf_injective htype')
    cases b <;> cases hhello
    rfl

/-- Frames in the actions of a call are decoded frames. -/
theorem frame_decoded {l : HostLink} {calls : List Call} {now : UInt64} {result : Result}
    (h : .frame now result ∈ l.runActions calls) : ∃ f, Cpp.decode f = result := by
  have hdrain {now' lastPushMs : UInt64} {stream : Cpp.FrameStream}
      (h : .frame now result ∈ drainActions now' lastPushMs stream) :
      ∃ f, Cpp.decode f = result := by
    rcases List.mem_cons.mp h with h | h
    · cases h
    · obtain ⟨r, hr, heq⟩ := List.mem_map.mp h
      cases heq
      exact drain_decoded stream hr
  have hpartial {now' lastPushMs : UInt64} {rounds : ℕ} {stream : Cpp.FrameStream}
      (h : .frame now result ∈ partialActions now' lastPushMs rounds stream) :
      ∃ f, Cpp.decode f = result := by
    induction rounds generalizing stream with
    | zero => cases h
    | succ rounds ih =>
      rw [partialActions] at h
      split_ifs at h
      · rcases List.mem_append.mp h with h | h
        · exact hdrain h
        · exact ih h
      · cases h
  induction calls generalizing l with
  | nil => cases h
  | cons c calls ih =>
    rcases List.mem_append.mp h with h | h
    · cases c with
      | push now' bytes => exact hdrain h
      | tick now' =>
        rcases List.mem_append.mp h with h | h
        · rcases List.mem_cons.mp h with h | h
          · cases h
          · exact hpartial h
        · simp at h
      | _ => simp [actions] at h
    · exact ih h

theorem wellFormed_run {l : HostLink} {calls : List Call} {a : Action}
    (h : a ∈ l.runActions calls) : WellFormed a := by
  rintro now d rfl htype
  obtain ⟨f, hf⟩ := frame_decoded h
  exact hello_of_decode hf htype

/-- The invariant at every moment of a run of calls. -/
theorem keeps_run {store : PairingStore} {bootIdentity : UInt32} {calls : List Call}
    {past rest : List LinkMoment} {m : LinkMoment}
    (h : (HostLink.new store bootIdentity).run calls = past ++ m :: rest) :
    Keeps past m.before ∧ Keeps (past ++ [m]) m.after ∧ WellFormed m.action := by
  obtain ⟨as, bs, has, rfl, hbefore, hafter, -⟩ := split_moments h
  have hformed : ∀ a ∈ as ++ m.action :: bs, WellFormed a := fun a ha =>
    wellFormed_run (has ▸ ha)
  have hkeeps : Keeps (moments step (HostLink.new store bootIdentity) as) m.before := by
    rw [hbefore]
    have hstep : ∀ past l a, Keeps past l → WellFormed a →
        Keeps (past ++ [⟨l, a, l.step a⟩]) (l.step a) := fun _ _ _ hl ha => keeps_step hl ha
    refine history_of hstep (keeps_new store bootIdentity) as fun past' m' rest' h' => ?_
    have hmem : m'.action ∈ as := by
      have hactions : (moments step (HostLink.new store bootIdentity) as).map Moment.action = as :=
        map_action_moments _ as
      rw [← hactions, h']
      simp
    exact hformed _ (List.mem_append_left _ hmem)
  have hlast := hformed m.action (by simp)
  refine ⟨hkeeps, ?_, hlast⟩
  have hnext := keeps_step hkeeps hlast
  rw [← hafter] at hnext
  exact hnext

/-- **Authorization.** In every run of the link the flag and the phase agree, and a frame
changes the Host's state only as a snapshot of the session in force, as an unsupported
major, or as a compatible Hello with its time. -/
theorem session_authorization (store : PairingStore) (bootIdentity : UInt32)
    (calls : List Call) : Authorized Executes ((HostLink.new store bootIdentity).run calls) := by
  refine ⟨fun m hm => ?_, fun past m rest now result h ha hchange => ?_⟩
  · obtain ⟨past, rest, h⟩ := List.append_of_mem hm
    obtain ⟨hbefore, hafter, -⟩ := keeps_run h
    exact ⟨hbefore.agree, hafter.agree⟩
  · obtain ⟨hl, -, -⟩ := keeps_run h
    have hafter : m.after.feed = (m.before.onFrame now result).feed := by
      rw [(split_moments h).choose_spec.choose_spec.2.2.2.1, ha]
      rfl
    rw [hafter] at hchange ⊢
    rcases onFrame_feed m.before now result with hsame | ⟨_, hsame⟩ | hsame |
      ⟨d, hello, utcMs, hframe, htype, hbody, hmajor, hutc, hfeed⟩ | ⟨_, _, _, hsame⟩ |
      ⟨hframe, hfeed⟩ | ⟨d, hframe, htype, hfeed⟩
    · exact absurd (by rw [hsame]) hchange
    · exact absurd (by rw [hsame]; rfl) hchange
    · exact absurd (by rw [hsame]; rfl) hchange
    · exact Or.inr
        (Or.inr ⟨d, hello, utcMs, hframe, htype, hbody, hmajor, hutc, by rw [hfeed]; rfl⟩)
    · exact absurd (by rw [hsame]; rfl) hchange
    · exact Or.inr (Or.inl ⟨hframe, by rw [hfeed]; rfl⟩)
    · rw [hfeed] at hchange
      rcases onSnapshot_cases now d hl.explicitSession fun h => hl.active (hl.agree.mp h) with
        ⟨hsame, -, -⟩ | ⟨hopen, hsession, hlt, -⟩
      · exact absurd hsame hchange
      · refine Or.inl ⟨d, hframe, htype, ?_⟩
        rw [hsession]
        obtain ⟨before, o, since, host, rfl, hopens, hhost, hpair, hsince, hseq⟩ :=
          hl.inForce (hl.agree.mp hopen)
        exact ⟨before, o, since, host, rfl, hopens, hhost, hpair, hsince, fun n hn d' hd' =>
          UInt32.lt_of_le_of_lt (hseq n hn d' hd') hlt⟩

/-- What touches the session last, before something that opens none, leaves none in force. -/
theorem not_inForce {counts : HostLink → Cpp.Envelope → Cpp.CommandBody → Prop}
    {past : List LinkMoment} {m n : LinkMoment} (hm : ¬Untouched counts m)
    (hopens : ∀ session host, ¬Opens m.before m.action session host)
    (hopens' : ∀ session host, ¬Opens n.before n.action session host) {session : Identity}
    {sequences : UInt32 → Prop} : ¬InForce counts (past ++ [m] ++ [n]) session sequences := by
  rintro ⟨before, o, since, host, hpast, ho, -, -, huntouched, -⟩
  rcases List.eq_nil_or_concat since with rfl | ⟨since, n', rfl⟩
  · obtain ⟨-, hlast⟩ := List.append_inj' hpast rfl
    obtain ⟨rfl, -⟩ := List.cons.inj hlast
    exact hopens' _ _ ho
  rw [List.concat_eq_append, ← List.cons_append, ← List.append_assoc] at hpast
  obtain ⟨hpast, -⟩ := List.append_inj' hpast rfl
  rcases List.eq_nil_or_concat since with rfl | ⟨since, m', rfl⟩
  · obtain ⟨-, hlast⟩ := List.append_inj' hpast rfl
    obtain ⟨rfl, -⟩ := List.cons.inj hlast
    exact hopens _ _ ho
  rw [List.concat_eq_append, ← List.cons_append, ← List.append_assoc] at hpast
  obtain ⟨-, hlast⟩ := List.append_inj' hpast rfl
  obtain ⟨rfl, -⟩ := List.cons.inj hlast
  exact hm (huntouched m (by simp))

/-- A session, an unpair command with the identity of a calibration reset, a snapshot. -/
private def retriedUnpair : List Rust.Message :=
  let e (kind : Rust.MessageType) (sequence : UInt32) : Rust.Envelope :=
    ⟨1, 0, kind, Octets.zero 16, sequence, none, none, none⟩
  [.control (e .hello 1) (.hello ⟨1, 0, 0, 0, none, none⟩),
    .control (e .pair 2) (.pair ⟨kZeroIdentity, kZeroIdentity, 123456⟩),
    .control (e .command 3) (.command ⟨7, .calibrationReset⟩),
    .control (e .command 4) (.command ⟨7, .unpair⟩),
    .snapshot (e .snapshot 5) ⟨⟨.available, 500, 0, .fresh, 1⟩, none, none, none, none, none⟩]

private def pairedLink : HostLink :=
  HostLink.new ⟨kZeroIdentity, some kZeroIdentity, fun _ => true, 0⟩ 0

private theorem retriedUnpair_frames :
    ∃ fs : List (List UInt8), fs.map Cpp.decode = (retriedUnpair.map image).map .ok := by
  obtain ⟨f1, h1⟩ := exists_control (e := ⟨1, 0, .hello, Octets.zero 16, 1, none, none, none⟩)
    (b := .hello ⟨1, 0, 0, 0, none, none⟩) rfl (by decide +kernel)
  obtain ⟨f2, h2⟩ := exists_control (e := ⟨1, 0, .pair, Octets.zero 16, 2, none, none, none⟩)
    (b := .pair ⟨kZeroIdentity, kZeroIdentity, 123456⟩) rfl (by decide +kernel)
  obtain ⟨f3, h3⟩ := exists_control (e := ⟨1, 0, .command, Octets.zero 16, 3, none, none, none⟩)
    (b := .command ⟨7, .calibrationReset⟩) rfl (by decide +kernel)
  obtain ⟨f4, h4⟩ := exists_control (e := ⟨1, 0, .command, Octets.zero 16, 4, none, none, none⟩)
    (b := .command ⟨7, .unpair⟩) rfl (by decide +kernel)
  obtain ⟨f5, h5⟩ := exists_snapshot (e := ⟨1, 0, .snapshot, Octets.zero 16, 5, none, none, none⟩)
    (s := ⟨⟨.available, 500, 0, .fresh, 1⟩, none, none, none, none, none⟩) rfl rfl (by decide)
    (by decide +kernel)
  refine ⟨[f1, f2, f3, f4, f5], ?_⟩
  rw [List.map_cons, List.map_cons, List.map_cons, List.map_cons, List.map_cons, h1, h2, h3, h4, h5]
  rfl

private def retriedUnpairActions : List Action :=
  (retriedUnpair.map image).flatMap fun d => [.buffer {} 0, .frame 0 (.ok d)]

private theorem retriedUnpair_applies :
    (retriedUnpairActions.foldl step pairedLink).feed.reducer ≠
      (retriedUnpairActions.dropLast.foldl step pairedLink).feed.reducer := fun hsame =>
  absurd (congrArg (·.cpu.valuePerMille) hsame) (by decide +kernel)

private theorem moments_last (l : HostLink) (as : List Action) (a b c : Action) :
    let s := as.foldl step l
    moments step l (as ++ [a, b, c]) = (moments step l as ++ [⟨s, a, step s a⟩] ++
      [⟨step s a, b, step (step s a) b⟩]) ++
        ⟨step (step s a) b, c, step (step (step s a) b) c⟩ :: [] := by
  simp [moments_append, moments]

/-- An unpair command that is a retry by its identity is answered and not carried out: the
session goes on. -/
theorem session_authorization_retry : ¬∀ (store : PairingStore) (bootIdentity : UInt32)
    (calls : List Call), Authorized (fun _ e c => e.type = .kCommand ∧ e.command = some c)
      ((HostLink.new store bootIdentity).run calls) := by
  intro h
  obtain ⟨fs, hfs⟩ := retriedUnpair_frames
  have hauthorized := h pairedLink.store 0 (fs.map (.push 0))
  obtain ⟨start, unpair, snapshot, hactions, hunpair, hbody, hsnapshot⟩ : ∃ start unpair snapshot,
      retriedUnpairActions = start ++ [.frame 0 (.ok unpair), .buffer {} 0,
        .frame 0 (.ok snapshot)] ∧ unpair.envelope.type = .kCommand ∧
      unpair.envelope.command = some ⟨7, 1, none⟩ ∧ snapshot.envelope.type = .kSnapshot :=
    ⟨retriedUnpairActions.take 7, image (.control
      ⟨1, 0, .command, Octets.zero 16, 4, none, none, none⟩ (.command ⟨7, .unpair⟩)),
      image (.snapshot ⟨1, 0, .snapshot, Octets.zero 16, 5, none, none, none⟩
        ⟨⟨.available, 500, 0, .fresh, 1⟩, none, none, none, none, none⟩), rfl, rfl, rfl, rfl⟩
  have hchange := retriedUnpair_applies
  have hrun : (HostLink.new pairedLink.store 0).run (fs.map (.push 0)) =
      moments step pairedLink retriedUnpairActions := run_messages rfl 0 hfs
  rw [hrun, hactions, moments_last] at hauthorized
  rw [hactions, List.dropLast_append_of_ne_nil (by simp), List.foldl_append,
    List.foldl_append] at hchange
  rcases hauthorized.changes _ _ [] 0 _ rfl rfl hchange with ⟨_, -, -, hforce⟩ |
    ⟨herror, -⟩ | ⟨d, _, _, hd, htype, -⟩
  · refine not_inForce (fun huntouched => ?_) ?_ ?_ hforce
    · exact huntouched.command 0 _ _ rfl ⟨hunpair, hbody⟩ rfl
    · rintro session host ⟨pair, hpair, -⟩
      cases hunpair.symm.trans hpair.1
    · exact fun _ _ => id
  · cases herror
  · cases hd
    cases hsnapshot.symm.trans htype

end CydMonitor.Device
