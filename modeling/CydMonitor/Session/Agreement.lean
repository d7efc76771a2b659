import CydMonitor.Session.Steps

/-!
# The two ends agree

A live client has its session from the device: the device opened it, for this Host, and the
code that the Host chose is the one that it was opened with.
-/

namespace CydMonitor.Session

open Transport Device Trace Codec HostLink

/-- The device opens a session here: at once for a Pair of the host that it stores, or because
the code on its screen is confirmed. From here on its gate admits the session. -/
def OpensAt (m : Moment Joint Event) (session host : Identity) (code : UInt32) : Prop :=
  (m.after.device.phase = .kSessionOpen ∧ m.after.device.feed.session = .reset session ∧
    m.after.device.store.pairedHost = some host) ∧
  ((∃ now frame d pair, m.action = .deviceReads now frame ∧ Cpp.decode frame = .ok d ∧
      PairOpens m.before.device d.envelope pair ∧ d.envelope.session = session ∧
      pair.senderIdentity = host ∧ pair.matchingCode = code) ∨
    (m.action = .confirmPairing true ∧ m.before.device.phase = .kAwaitingConfirmation ∧
      m.before.device.pendingSession = session ∧ m.before.device.pendingHost = host ∧
      m.before.device.pendingCode = code))

/-- The envelope of a client's next snapshot. -/
def nextEnvelope (c : HostClient) (utcMs : Option UInt64) : Rust.Envelope :=
  { HostClient.envelope .snapshot c.session (c.sequence + 1) c with utcMs }

/-- What the Host may write at an event. -/
inductive Writes (j : Joint) : Event → Rust.Message → Prop where
  | hello (utcMs : Option UInt64) (e : Rust.Envelope) (b : Rust.HelloBody) :
      Writes j (.start utcMs) (.control e (.hello b))
  | pair (frame : List UInt8) (e : Rust.Envelope) (p : Rust.PairBody)
      (phase : j.client.phase = .helloSent)
      (after : (j.step (.hostReads frame)).client.phase = .pairSent)
      (session : e.session = j.client.session) :
      Writes j (.hostReads frame) (.control e (.pair p))
  | snapshot (s : Rust.Snapshot) (utcMs : Option UInt64) (phase : j.client.phase = .live) :
      Writes j (.snapshot s utcMs) (.snapshot (nextEnvelope j.client utcMs) s)
  | command (operation : Rust.CommandOperation) (e : Rust.Envelope) (b : Rust.CommandBody) :
      Writes j (.command operation) (.control e (.command b))
  | retryCommand (identity : UInt32) (operation : Rust.CommandOperation) (e : Rust.Envelope)
      (b : Rust.CommandBody) :
      Writes j (.retryCommand identity operation) (.control e (.command b))

/-- What an event leaves under way to the device. -/
def Joint.left (j : Joint) : Event → List (List UInt8)
  | .deviceReads _ frame => j.toDevice.erase frame
  | _ => j.toDevice

theorem toList_toOption {α ε : Type} {r : Except ε α} {P : α → Prop}
    (h : ∀ a, r = .ok a → P a) : r.toOption.toList.length ≤ 1 ∧ ∀ a ∈ r.toOption.toList, P a := by
  cases r with
  | error e => simp [Except.toOption]
  | ok a => simpa [Except.toOption] using h a rfl

private theorem retry_written (c : HostClient) (identity : UInt32)
    (operation : Rust.CommandOperation) :
    (c.retryCommand identity operation).1.toList.length ≤ 1 ∧
      ∀ f ∈ (c.retryCommand identity operation).1.toList, ∃ e b,
        Rust.decode f = .ok (.control e (.command b)) := by
  rw [HostClient.retryCommand]
  split_ifs
  · simp
  · exact toList_toOption fun f hf => ⟨_, _, decode_of_encodeControl rfl hf⟩

/-- At most one frame is written at an event. -/
theorem exists_written {j : Joint} {e : Event} (h : j.Allowed e)
    (hempty : j.client.stream.buffer = [])
    (htoHost : ∀ f ∈ j.toHost, ∃ m, Rust.decode f = .ok m) :
    ∃ frames : List (List UInt8), (j.step e).toDevice = j.left e ++ frames ∧ frames.length ≤ 1 ∧
      ∀ f ∈ frames, ∃ m, Rust.decode f = .ok m ∧ Writes j e m := by
  cases e with
  | start utcMs =>
    exact ⟨_, rfl, toList_toOption fun f hf => ⟨_, decode_of_encodeControl rfl hf, .hello ..⟩⟩
  | snapshot s utcMs =>
    refine ⟨_, rfl, ?_⟩
    rw [HostClient.snapshot]
    split_ifs with hphase
    · simp
    · exact toList_toOption fun f hf => ⟨_, decode_of_encodeGroups rfl rfl h hf,
        .snapshot s utcMs (not_not.mp hphase)⟩
  | command operation =>
    refine ⟨_, rfl, ?_⟩
    obtain ⟨hlength, hall⟩ := retry_written
      { j.client with nextCommand := j.client.nextCommand + 1 }
      j.client.nextCommand operation
    simp only [HostClient.command, Option.map_map, Function.comp_def, Option.map_id']
    refine ⟨hlength, fun f hf => ?_⟩
    obtain ⟨e, b, hb⟩ := hall f hf
    exact ⟨_, hb, .command ..⟩
  | retryCommand identity operation =>
    refine ⟨_, rfl, ?_⟩
    obtain ⟨hlength, hall⟩ := retry_written j.client identity operation
    refine ⟨hlength, fun f hf => ?_⟩
    obtain ⟨e, b, hb⟩ := hall f hf
    exact ⟨_, hb, .retryCommand ..⟩
  | hostReads frame =>
    obtain ⟨m, hm⟩ := htoHost frame h
    have hreceive := receive_frame hempty hm
    refine ⟨_, rfl, ?_⟩
    rw [hreceive]
    have hhandled := handled_handle j.client m
    have hphase : (j.step (.hostReads frame)).client.phase =
        (HostClient.handle (j.client, {}) m).1.phase := by
      rw [← hreceive]
      rfl
    generalize HostClient.handle (j.client, {}) m = r at *
    obtain ⟨c, out⟩ := r
    dsimp only at *
    generalize out.frames = frames at hhandled
    cases hhandled with
    | pairs frame hsent hencoded =>
      refine ⟨le_refl _, fun f hf => ?_⟩
      rw [List.mem_singleton.mp hf]
      exact ⟨_, decode_of_encodeControl rfl hencoded, .pair _ _ _ hsent hphase rfl⟩
    | _ => simp
  | deviceReads now frame => exact ⟨[], (List.append_nil _).symm, by simp⟩
  | _ => exact ⟨[], (List.append_nil _).symm, by simp⟩

/-- What opening a session leaves behind. -/
theorem step_opened {l : HostLink} {a : Action} {session host : Identity}
    (h : Opens l a session host) :
    (l.step a).phase = .kSessionOpen ∧ (l.step a).feed.session = .reset session ∧
      (l.step a).store.pairedHost = some host := by
  cases a with
  | frame now result =>
    cases result with
    | error e => exact h.elim
    | ok d =>
      obtain ⟨pair, ⟨htype, hpair, hidle, hincompatible, hcode, hhost, hnames⟩, rfl, rfl⟩ := h
      have hbad : ¬(l.phase = .kIdle ∨ l.phase = .kIncompatible ∨
          pair.matchingCode > kMaxMatchingCode) := by
        rw [not_or, not_or]
        exact ⟨hidle, hincompatible, UInt32.not_lt.mpr hcode⟩
      rw [step, onFrame, if_pos (by rw [htype]; decide), onResult, if_neg (by rw [htype]; decide),
        if_pos htype, onPair, hpair]
      dsimp only
      rw [if_neg hbad, if_pos ⟨hhost, hnames⟩, openSession]
      exact ⟨send_phase _ _, congrArg HostFeed.session (send_feed _ _),
        (congrArg PairingStore.pairedHost (send_store _ _)).trans hhost⟩
  | confirmPairing accepted =>
    obtain ⟨haccepted, hphase, hsaved, rfl, rfl⟩ := h
    rw [step, confirmPairing, if_neg (not_not.mpr hphase), if_neg (by simp [haccepted]),
      PairingStore.savePairedHost, hsaved]
    dsimp only
    rw [if_neg (by simp), openSession]
    exact ⟨send_phase _ _, congrArg HostFeed.session (send_feed _ _),
      congrArg PairingStore.pairedHost (send_store _ _)⟩
  | _ => exact h.elim

/-- A new frame of the device that the Host reads as a Pair comes from an opening. -/
theorem says_event {j : Joint} {e : Event} (h : Does j e (j.actions e))
    (hanswering : Answering j.device) {f : List UInt8}
    (hf : f ∈ (j.step e).toHost ++ (j.step e).device.outgoing) :
    f ∈ j.toHost ++ j.device.outgoing ∨ ∃ env b, Rust.decode f = .ok (.control env b) ∧
      ∀ p, b = .pair p →
        OpensAt ⟨j, e, j.step e⟩ env.session p.intendedPeerIdentity p.matchingCode := by
  have hdecoded : ∀ a ∈ j.actions e, ∀ now d, a = .frame now (.ok d) → ∃ f, Cpp.decode f = .ok d :=
    fun a ha => h.decoded ha
  have hquiet (l : HostLink) {a : Action} (ha : Answering l) (hm : a ∈ j.actions e)
      (hnone : ∀ session host code, ¬OpensWith l a session host code)
      (hout : f ∈ (l.step a).outgoing) : f ∈ l.outgoing ∨ ∃ env b,
        Rust.decode f = .ok (.control env b) ∧ ∀ p, b = .pair p →
          OpensAt ⟨j, e, j.step e⟩ env.session p.intendedPeerIdentity p.matchingCode := by
    refine (step_said ha (hdecoded a hm) f hout).imp_right ?_
    rintro ⟨env, b, hb, hpair⟩
    exact ⟨env, b, hb, fun p hp => absurd (hpair p hp) (hnone _ _ _)⟩
  by_cases htake : e = .takeOutgoing
  · subst htake
    left
    have hout : (j.step .takeOutgoing).device.outgoing = [] := rfl
    rw [hout, List.append_nil] at hf
    exact hf
  by_cases hrestart : ∃ bootIdentity, e = .restart bootIdentity
  · obtain ⟨bootIdentity, rfl⟩ := hrestart
    left
    have hout : (j.step (.restart bootIdentity)).device.outgoing = [] := rfl
    rw [hout, List.append_nil] at hf
    exact List.mem_append_left _ hf
  have hfound : j.found e = j.device := by
    cases e with
    | restart bootIdentity => exact absurd ⟨_, rfl⟩ hrestart
    | _ => rfl
  rcases List.mem_append.mp hf with hf | hf
  · left
    refine List.mem_append_left _ ?_
    cases e with
    | hostReads frame => exact List.mem_of_mem_erase hf
    | takeOutgoing => exact absurd rfl htake
    | _ => exact hf
  have hdevice := step_device j e
  rw [hfound] at hdevice
  rw [hdevice] at hf
  suffices hsay : f ∈ j.device.outgoing ∨ ∃ env b, Rust.decode f = .ok (.control env b) ∧
      ∀ p, b = .pair p →
        OpensAt ⟨j, e, j.step e⟩ env.session p.intendedPeerIdentity p.matchingCode from
    hsay.imp_left (List.mem_append_right _)
  generalize hactions : j.actions e = as at h
  rw [hactions] at hf hdevice
  cases h with
  | nothing => exact Or.inl hf
  | reads now frame d hevent hd =>
    have hreads : ∀ now' d', Action.frame now (.ok d) = .frame now' (.ok d') →
        ∃ f, Cpp.decode f = .ok d' := fun now' d' heq => by
      cases heq
      exact ⟨frame, hd⟩
    have hbuffered : Answering (j.device.step (.buffer j.device.feed.stream now)) :=
      ⟨hanswering.code, hanswering.coded⟩
    refine (step_said hbuffered hreads f hf).imp_right ?_
    rintro ⟨env, b, hb, hpair⟩
    refine ⟨env, b, hb, fun p hp => ⟨?_, Or.inl ?_⟩⟩
    · change (j.step e).device.phase = _ ∧ (j.step e).device.feed.session = _ ∧
        (j.step e).device.store.pairedHost = _
      rw [hdevice]
      exact step_opened (hpair p hp).opens
    · obtain ⟨pair, hopens, hsession, hhost, hcode⟩ := hpair p hp
      exact ⟨now, frame, d, pair, hevent, hd, hopens, hsession.symm, hhost.symm, hcode.symm⟩
  | ticks now hevent =>
    have hexpire := hquiet (j.device.step (.advance now)) ⟨hanswering.code, hanswering.coded⟩
      (a := .expire now) (by rw [hactions]; simp) (fun _ _ _ => id) hf
    exact hexpire
  | confirms accepted hevent =>
    refine (step_said (a := .confirmPairing accepted) hanswering (fun now d ha => by cases ha) f
      hf).imp_right ?_
    rintro ⟨env, b, hb, hpair⟩
    refine ⟨env, b, hb, fun p hp => ⟨?_, Or.inr ?_⟩⟩
    · change (j.step e).device.phase = _ ∧ (j.step e).device.feed.session = _ ∧
        (j.step e).device.store.pairedHost = _
      rw [hdevice]
      exact step_opened (hpair p hp).opens
    · obtain ⟨haccepted, hphase, -, hsession, hhost, hcode⟩ := hpair p hp
      exact ⟨by rw [hevent, haccepted], hphase, hsession.symm, hhost.symm, hcode.symm⟩
  | unpairs =>
    exact hquiet j.device hanswering (a := .unpair) (by rw [hactions]; simp) (fun _ _ _ => id) hf
  | handles handler =>
    exact hquiet j.device hanswering (a := .setCalibrationResetHandler handler)
      (by rw [hactions]; simp) (fun _ _ _ => id) hf
  | takes hevent => exact absurd hevent htake

/-- What a run keeps of the line and its ends. -/
structure Agrees (past : List (Moment Joint Event)) (j : Joint) : Prop where
  hostIdle : j.client.stream.buffer = []
  deviceIdle : j.device.feed.stream.buffer = []
  answering : Answering j.device
  toDevice : ∀ f ∈ j.toDevice, ∃ m, Rust.decode f = .ok m
  toHost : ∀ f ∈ j.toHost ++ j.device.outgoing, ∃ e b, Rust.decode f = .ok (.control e b) ∧
    ∀ p, b = .pair p → ∃ m ∈ past, OpensAt m e.session p.intendedPeerIdentity p.matchingCode
  live : j.client.phase = .live → ∃ m ∈ past,
    OpensAt m j.client.session j.client.host j.client.code

theorem Agrees.does {past : List (Moment Joint Event)} {j : Joint} (h : Agrees past j) {e : Event}
    (hallowed : j.Allowed e) : Does j e (j.actions e) := by
  refine does_actions h.deviceIdle (fun f hf => ?_) hallowed
  obtain ⟨m, hm⟩ := h.toDevice f hf
  exact ⟨_, decode_image hm⟩

theorem Agrees.reads {past : List (Moment Joint Event)} {j : Joint} (h : Agrees past j)
    {frame : List UInt8} (hframe : frame ∈ j.toHost) :
    ∃ e b, Rust.decode frame = .ok (.control e b) ∧
      (j.client.receive frame) = HostClient.handle (j.client, {}) (.control e b) ∧
      ∀ p, b = .pair p → ∃ m ∈ past, OpensAt m e.session p.intendedPeerIdentity p.matchingCode := by
  obtain ⟨e, b, hb, hpair⟩ := h.toHost frame (List.mem_append_left _ hframe)
  exact ⟨e, b, hb, receive_frame h.hostIdle hb, hpair⟩

/-- A read of the Host as one message. -/
theorem Agrees.handles {past : List (Moment Joint Event)} {j : Joint} (h : Agrees past j)
    {frame : List UInt8} (hframe : frame ∈ j.toHost) :
    ∃ m frames, Handled j.client m (j.step (.hostReads frame)).client frames := by
  obtain ⟨e, b, -, hreceive, -⟩ := h.reads hframe
  have hhandled := handled_handle j.client (.control e b)
  rw [← hreceive] at hhandled
  exact ⟨_, _, hhandled⟩

theorem agrees_step {past : List (Moment Joint Event)} {j : Joint} {e : Event} (h : Agrees past j)
    (hallowed : j.Allowed e) : Agrees (past ++ [⟨j, e, j.step e⟩]) (j.step e) := by
  have hdoes := h.does hallowed
  have hold {session host : Identity} {code : UInt32}
      (hpast : ∃ m ∈ past, OpensAt m session host code) :
      ∃ m ∈ past ++ [⟨j, e, j.step e⟩], OpensAt m session host code := by
    obtain ⟨m, hm, hopens⟩ := hpast
    exact ⟨m, List.mem_append_left _ hm, hopens⟩
  refine ⟨?_, hdoes.stream h.deviceIdle,
    hdoes.keeps (fun l a hl hdecoded => hl.step hdecoded) h.answering fun b => answering_new _ b,
    fun f hf => ?_,
    fun f hf => ?_, fun hlive => ?_⟩
  · rcases step_client j e with hsteady | ⟨_, _, _, rfl⟩ | ⟨_, rfl⟩ | ⟨frame, rfl⟩
    · rw [hsteady.stream]
      exact h.hostIdle
    · rfl
    · exact h.hostIdle
    · obtain ⟨env, b, -, hreceive, -⟩ := h.reads hallowed
      change (j.client.receive frame).1.stream.buffer = []
      rw [hreceive, (handled_handle j.client (.control env b)).stream]
      exact h.hostIdle
  · obtain ⟨frames, hframes, -, hwrites⟩ := exists_written hallowed h.hostIdle fun f hf => by
      obtain ⟨env, b, hb, -⟩ := h.toHost f (List.mem_append_left _ hf)
      exact ⟨_, hb⟩
    rw [hframes] at hf
    rcases List.mem_append.mp hf with hf | hf
    · refine h.toDevice f ?_
      cases e with
      | deviceReads now frame => exact List.mem_of_mem_erase hf
      | _ => exact hf
    · obtain ⟨m, hm, -⟩ := hwrites f hf
      exact ⟨m, hm⟩
  · rcases says_event hdoes h.answering hf with hf | ⟨env, b, hb, hpair⟩
    · obtain ⟨env, b, hb, hpair⟩ := h.toHost f hf
      exact ⟨env, b, hb, fun p hp => hold (hpair p hp)⟩
    · exact ⟨env, b, hb, fun p hp => ⟨_, List.mem_append_right _ (List.mem_singleton_self _),
        hpair p hp⟩⟩
  · rcases step_client j e with hsteady | ⟨_, _, _, rfl⟩ | ⟨_, rfl⟩ | ⟨frame, rfl⟩
    · rw [hsteady.phase] at hlive
      rw [hsteady.session, hsteady.host, hsteady.code]
      exact hold (h.live hlive)
    · cases hlive
    · cases hlive
    · obtain ⟨env, b, -, hreceive, hpair⟩ := h.reads hallowed
      have hhandled := handled_handle j.client (.control env b)
      change (j.client.receive frame).1.phase = .live at hlive
      change ∃ m ∈ _, OpensAt m (j.client.receive frame).1.session
        (j.client.receive frame).1.host (j.client.receive frame).1.code
      rw [hreceive] at hlive ⊢
      obtain ⟨hsession, hhost, hcode⟩ := hhandled.identity
      rw [hsession, hhost, hcode]
      generalize (HostClient.handle (j.client, {}) (.control env b)).1 = c at hhandled hlive
      generalize (HostClient.handle (j.client, {}) (.control env b)).2.frames = frames at hhandled
      cases hhandled with
      | same => exact hold (h.live hlive)
      | pairs frame hsent hencoded => cases hlive
      | unpaired hsent =>
        have hcontra := hsent.symm.trans hlive
        cases hcontra
      | lives e' p hsent hmessage hs hh hc =>
        cases hmessage
        rw [← hs, ← hh, ← hc]
        exact hold (hpair p rfl)
      | refused refusal hsent => cases hlive

theorem agrees_boot (host : Identity) (knownDevice : Option Identity) (code : UInt32)
    (session : Identity) (store : PairingStore) (bootIdentity : UInt32) :
    Agrees [] (.boot (.new host knownDevice code session) store bootIdentity) := by
  exact ⟨rfl, rfl, answering_new store bootIdentity, fun f hf => absurd hf List.not_mem_nil,
    fun f hf => absurd hf List.not_mem_nil, fun hlive => by cases hlive⟩

theorem agrees_run {host : Identity} {knownDevice : Option Identity} {code : UInt32}
    {session : Identity} {store : PairingStore} {bootIdentity : UInt32} {events : List Event}
    (h : (Joint.boot (.new host knownDevice code session) store bootIdentity).Lawful events) :
    let j := Joint.boot (.new host knownDevice code session) store bootIdentity
    Agrees (j.run events) (j.after events) :=
  h.history (fun _ _ _ hpast hallowed _ => agrees_step hpast hallowed)
    (agrees_boot host knownDevice code session store bootIdentity)

/-- **Agreement.** Whatever the line loses, delays or reorders, a client that is live has a
session that the device opened: for the Host that it stores from then on, and with the code
that the Host chose. -/
theorem live_client_agrees (host : Identity) (knownDevice : Option Identity) (code : UInt32)
    (session : Identity) (store : PairingStore) (bootIdentity : UInt32) (events : List Event)
    (h : (Joint.boot (.new host knownDevice code session) store bootIdentity).Lawful events) :
    let j := Joint.boot (.new host knownDevice code session) store bootIdentity
    let c := (j.after events).client
    c.phase = .live → ∃ m ∈ j.run events, OpensAt m c.session c.host c.code := by
  intro j c hlive
  exact (agrees_run h).live hlive

section Sample

/-- Events chosen one after another, each from what is under way by then. -/
def scripted : List (Joint → Event) → Joint → List Event
  | [], _ => []
  | choose :: script, j => choose j :: scripted script (j.step (choose j))

def sampleHost : Identity := ⟨List.replicate 16 1, rfl⟩

def sampleSession : Identity := ⟨List.replicate 16 2, rfl⟩

/-- A device that stores the Host already. -/
def sampleStore : PairingStore :=
  { deviceIdentity := ⟨List.replicate 16 3, rfl⟩, pairedHost := some sampleHost,
    succeeds := fun _ => true }

abbrev sampleJoint : Joint := .boot (.new sampleHost none 123456 sampleSession) sampleStore 7

def handshake : List (Joint → Event) :=
  [fun _ => .start none, fun j => .deviceReads 10 (j.toDevice.headD []), fun _ => .takeOutgoing,
    fun j => .hostReads (j.toHost.headD []), fun j => .deviceReads 20 (j.toDevice.headD []),
    fun _ => .takeOutgoing, fun j => .hostReads (j.toHost.headD [])]

theorem live_client_agrees_handshake :
    let c := (sampleJoint.after (scripted handshake sampleJoint)).client
    ∃ m ∈ sampleJoint.run (scripted handshake sampleJoint), OpensAt m c.session c.host c.code := by
  have hlawful : sampleJoint.Lawful (scripted handshake sampleJoint) := by decide +kernel
  have hlive : (sampleJoint.after (scripted handshake sampleJoint)).client.phase = .live := by
    decide +kernel
  generalize scripted handshake sampleJoint = events at *
  exact live_client_agrees sampleHost none 123456 sampleSession sampleStore 7 events hlawful hlive

end Sample

end CydMonitor.Session
