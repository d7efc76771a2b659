import CydMonitor.Device.IdleDrain
import CydMonitor.Session.Sending

/-!
# What an event does at either end

A read of the Host is one message, and what the device does at an event is one or two actions
of its link.
-/

namespace CydMonitor.Session

open Transport Device Trace Codec HostLink Framing

/-- What a message makes of a client, and the frames the client writes. -/
inductive Handled (c : HostClient) (m : Rust.Message) : HostClient → List (List UInt8) → Prop where
  | same : Handled c m c []
  | pairs (frame : List UInt8) (phase : c.phase = .helloSent)
      (encoded : Rust.encodeControl (HostClient.envelope .pair c.session 2 { c with minor := 0 })
        (.pair { pairingIdentity := c.host, intendedPeerIdentity := c.knownDevice.getD zero,
                 matchingCode := c.code }) = .ok frame) :
      Handled c m { c with minor := 0, phase := .pairSent } [frame]
  | unpaired (phase : c.phase = .helloSent) : Handled c m { c with minor := 0 } []
  | lives (e : Rust.Envelope) (p : Rust.PairBody) (phase : c.phase = .pairSent)
      (message : m = .control e (.pair p)) (session : e.session = c.session)
      (host : p.intendedPeerIdentity = c.host) (code : p.matchingCode = c.code) :
      Handled c m { c with phase := .live, sequence := 0 } []
  | refused (refusal : Refusal) (phase : c.phase = .helloSent ∨ c.phase = .pairSent) :
      Handled c m { c with phase := .refused refusal } []

theorem handled_handle (c : HostClient) (m : Rust.Message) :
    Handled c m (HostClient.handle (c, {}) m).1 (HostClient.handle (c, {}) m).2.frames := by
  cases m with
  | snapshot e s => exact .same
  | control e b =>
    unfold HostClient.handle
    dsimp only
    split
    · next hphase =>
      split
      · next hframe => exact .pairs _ hphase hframe
      · exact .unpaired hphase
    · next hphase =>
      split_ifs with h
      · exact .lives e _ hphase rfl h.1 h.2.1 h.2.2
      · exact .same
    · next hphase => exact .refused _ (Or.inl hphase)
    · next hphase => exact .refused _ (Or.inr hphase)
    · split_ifs
      · exact .same
      · exact .same
    · exact .same

theorem Handled.stream {c c' : HostClient} {m : Rust.Message} {frames : List (List UInt8)}
    (h : Handled c m c' frames) : c'.stream = c.stream := by
  cases h <;> rfl

theorem Handled.identity {c c' : HostClient} {m : Rust.Message} {frames : List (List UInt8)}
    (h : Handled c m c' frames) :
    c'.session = c.session ∧ c'.host = c.host ∧ c'.code = c.code := by
  cases h <;> exact ⟨rfl, rfl, rfl⟩

/-- A live client stays live over a read. -/
theorem Handled.live {c c' : HostClient} {m : Rust.Message} {frames : List (List UInt8)}
    (h : Handled c m c' frames) (hlive : c.phase = .live) : c'.phase = .live := by
  cases h with
  | same => exact hlive
  | pairs frame hsent => cases hsent.symm.trans hlive
  | unpaired hsent => cases hsent.symm.trans hlive
  | lives => rfl
  | refused refusal hphase =>
    rcases hphase with hsent | hsent
    · cases hsent.symm.trans hlive
    · cases hsent.symm.trans hlive

/-- A read leaves the number of the last snapshot, or sets it back before the first one. -/
theorem Handled.sequence {c c' : HostClient} {m : Rust.Message} {frames : List (List UInt8)}
    (h : Handled c m c' frames) : c.sequence ≤ c'.sequence ∧
        c'.sequence.toNat ≤ c.sequence.toNat + 1 ∨ c.phase ≠ .live ∧ c'.sequence = 0 := by
  cases h with
  | lives e p hsent =>
    refine Or.inr ⟨fun hlive => ?_, rfl⟩
    cases hsent.symm.trans hlive
  | _ => exact Or.inl ⟨UInt32.le_refl _, Nat.le_succ _⟩

/-- A client that has not sent its Pair after a read had not sent it before. -/
theorem Handled.unpaired_phase {c c' : HostClient} {m : Rust.Message}
    {frames : List (List UInt8)} (h : Handled c m c' frames)
    (hphase : c'.phase = .idle ∨ c'.phase = .helloSent) : c'.phase = c.phase := by
  cases h with
  | same => rfl
  | unpaired => rfl
  | pairs => rcases hphase with hphase | hphase <;> cases hphase
  | lives => rcases hphase with hphase | hphase <;> cases hphase
  | refused => rcases hphase with hphase | hphase <;> cases hphase

/-- What the calls of a paired client, and the device, leave of it. -/
structure Steady (c c' : HostClient) : Prop where
  stream : c'.stream = c.stream
  phase : c'.phase = c.phase
  session : c'.session = c.session
  host : c'.host = c.host
  code : c'.code = c.code
  sequence : c'.sequence = c.sequence ∨ c.phase = .live ∧ c'.sequence = c.sequence + 1

theorem steady_retryCommand (c : HostClient) (identity : UInt32)
    (operation : Rust.CommandOperation) : Steady c (c.retryCommand identity operation).2 := by
  rw [HostClient.retryCommand]
  split_ifs with hphase
  · exact ⟨rfl, rfl, rfl, rfl, rfl, Or.inl rfl⟩
  · exact ⟨rfl, rfl, rfl, rfl, rfl, Or.inr ⟨not_not.mp hphase, rfl⟩⟩

/-- Only a new client, its start and a read change what a client is. -/
theorem step_client (j : Joint) (e : Event) :
    Steady j.client (j.step e).client ∨
      (∃ knownDevice code session, e = .connect knownDevice code session) ∨
      (∃ utcMs, e = .start utcMs) ∨ ∃ frame, e = .hostReads frame := by
  cases e with
  | connect knownDevice code session => exact Or.inr (Or.inl ⟨_, _, _, rfl⟩)
  | start utcMs => exact Or.inr (Or.inr (Or.inl ⟨_, rfl⟩))
  | hostReads frame => exact Or.inr (Or.inr (Or.inr ⟨_, rfl⟩))
  | snapshot s utcMs =>
    left
    change Steady j.client (j.client.snapshot s utcMs).2
    rw [HostClient.snapshot]
    split_ifs with hphase
    · exact ⟨rfl, rfl, rfl, rfl, rfl, Or.inl rfl⟩
    · exact ⟨rfl, rfl, rfl, rfl, rfl, Or.inr ⟨not_not.mp hphase, rfl⟩⟩
  | command operation =>
    have h := steady_retryCommand { j.client with nextCommand := j.client.nextCommand + 1 }
      j.client.nextCommand operation
    exact Or.inl ⟨h.stream, h.phase, h.session, h.host, h.code, h.sequence⟩
  | retryCommand identity operation =>
    exact Or.inl (steady_retryCommand j.client identity operation)
  | _ => exact Or.inl ⟨rfl, rfl, rfl, rfl, rfl, Or.inl rfl⟩

theorem intact_of_hostDecode {f : List UInt8} {m : Rust.Message} (h : Rust.decode f = .ok m) :
    IntactFrame f :=
  intact_of_decode (decode_image h)

/-- A read of one whole frame is its message, handled. -/
theorem receive_frame {c : HostClient} (hempty : c.stream.buffer = []) {f : List UInt8}
    {m : Rust.Message} (h : Rust.decode f = .ok m) :
    c.receive f = HostClient.handle (c, {}) m := by
  have hpush : c.stream.push f = ⟨f, c.stream.droppedBytes⟩ := by
    rw [Rust.FrameStream.push, hempty, List.nil_append]
  obtain ⟨gs, n, hout, hskip, hgreedy⟩ := hostFramer_follows.drain_scan
    (s := ⟨f, c.stream.droppedBytes⟩) (Nat.lt_succ_self _)
  have hsteps : Greedy frameRule f [f] 0 [] := by
    have hintact : ∀ part ∈ [(([] : List UInt8), f)], IntactFrame part.2 := by
      simpa using intact_of_hostDecode h
    have hlog : ∀ part ∈ [(([] : List UInt8), f)], ∀ b ∈ part.1, 8 ≤ b.toNat := by simp
    have hframes := steps_frames hlog hintact []
    exact ⟨by simpa using hframes, rfl⟩
  obtain ⟨rfl, rfl, hrest⟩ := hgreedy.unique hsteps
  have hstream : (hostFramer.drain (f.length + 1) ⟨f, c.stream.droppedBytes⟩).2 = c.stream := by
    have hsame : ∀ s t : Rust.FrameStream, s.buffer = t.buffer → s.droppedBytes = t.droppedBytes →
        s = t := by
      intro s t hb hd
      cases s
      cases t
      cases hb
      cases hd
      rfl
    exact hsame _ _ (hrest.trans hempty.symm) (by simpa using hskip)
  have hout' : (hostFramer.drain (f.length + 1) ⟨f, c.stream.droppedBytes⟩).1 = [f] := by
    simpa using hout
  rw [HostClient.receive, HostClient.messages, hpush]
  dsimp only
  rw [hout', hstream]
  simp [h, Except.toOption]

/-- The device an event finds. -/
def Joint.found (j : Joint) : Event → HostLink
  | .restart bootIdentity => .new j.device.store bootIdentity
  | _ => j.device

/-- What the device does at an event. -/
def Joint.actions (j : Joint) : Event → List Action
  | .deviceReads now frame => j.device.actions (.push now frame)
  | .tick now => j.device.actions (.tick now)
  | .confirmPairing accepted => [.confirmPairing accepted]
  | .unpair => [.unpair]
  | .setCalibrationResetHandler handler => [.setCalibrationResetHandler handler]
  | .takeOutgoing => [.takeOutgoing]
  | _ => []

theorem step_device (j : Joint) (e : Event) :
    (j.step e).device = (j.actions e).foldl HostLink.step (j.found e) := by
  cases e with
  | deviceReads now frame => exact call_eq j.device (.push now frame)
  | tick now => exact call_eq j.device (.tick now)
  | _ => rfl

/-- The shapes of what the device does at an event. -/
inductive Does (j : Joint) (e : Event) : List Action → Prop where
  | nothing : Does j e []
  | reads (now : UInt64) (frame : List UInt8) (d : Cpp.Decoded) (event : e = .deviceReads now frame)
      (decoded : Cpp.decode frame = .ok d) :
      Does j e [.buffer j.device.feed.stream now, .frame now (.ok d)]
  | ticks (now : UInt64) (event : e = .tick now) : Does j e [.advance now, .expire now]
  | confirms (accepted : Bool) (event : e = .confirmPairing accepted) :
      Does j e [.confirmPairing accepted]
  | unpairs : Does j e [.unpair]
  | handles (handler : ℕ → Bool) : Does j e [.setCalibrationResetHandler handler]
  | takes (event : e = .takeOutgoing) : Does j e [.takeOutgoing]

theorem does_actions {j : Joint} {e : Event} (hempty : j.device.feed.stream.buffer = [])
    (hdecoded : ∀ f ∈ j.toDevice, ∃ d, Cpp.decode f = .ok d) (h : j.Allowed e) :
    Does j e (j.actions e) := by
  cases e with
  | deviceReads now frame =>
    obtain ⟨d, hd⟩ := hdecoded frame h
    have hintact : ∀ f ∈ [frame], IntactFrame f := by simpa using intact_of_decode hd
    have hactions := runActions_frames hempty now hintact
    simp only [List.map_cons, List.map_nil, runActions, List.append_nil, List.flatMap_cons,
      List.flatMap_nil, hd] at hactions
    rw [Joint.actions, hactions]
    exact .reads now frame d rfl hd
  | tick now =>
    have hactions : j.device.actions (.tick now) = [.advance now, .expire now] := by
      rw [HostLink.actions, hempty]
      rfl
    rw [Joint.actions, hactions]
    exact .ticks now rfl
  | confirmPairing accepted => exact .confirms accepted rfl
  | unpair => exact .unpairs
  | setCalibrationResetHandler handler => exact .handles handler
  | takeOutgoing => exact .takes rfl
  | _ => exact .nothing

/-- The frames among the actions of an event are decoded. -/
theorem Does.decoded {j : Joint} {e : Event} {as : List Action} (h : Does j e as) {a : Action}
    (ha : a ∈ as) : ∀ now d, a = .frame now (.ok d) → ∃ f, Cpp.decode f = .ok d := by
  rintro now d rfl
  cases h <;> simp at ha
  next frame _ _ hdecoded => exact ⟨frame, ha.2 ▸ hdecoded⟩

theorem found_keeps {I : HostLink → Prop} (j : Joint) (e : Event) (hj : I j.device)
    (hnew : ∀ bootIdentity, I (.new j.device.store bootIdentity)) : I (j.found e) := by
  cases e with
  | restart bootIdentity => exact hnew bootIdentity
  | _ => exact hj

/-- What every action of an event keeps. -/
theorem Does.keeps {I : HostLink → Prop} {j : Joint} {e : Event} (h : Does j e (j.actions e))
    (hstep : ∀ l a, I l → (∀ now d, a = .frame now (.ok d) → ∃ f, Cpp.decode f = .ok d) →
      I (l.step a)) (hj : I j.device)
    (hnew : ∀ bootIdentity, I (.new j.device.store bootIdentity)) : I (j.step e).device := by
  rw [step_device]
  have hdecoded : ∀ a ∈ j.actions e, ∀ now d, a = .frame now (.ok d) → ∃ f, Cpp.decode f = .ok d :=
    fun a ha => h.decoded ha
  have hfound := found_keeps j e hj hnew
  generalize j.found e = l at hfound
  generalize j.actions e = as at hdecoded
  induction as generalizing l with
  | nil => exact hfound
  | cons a as ih =>
    exact ih _ (hstep l a hfound (hdecoded a List.mem_cons_self)) fun b hb =>
      hdecoded b (List.mem_cons_of_mem a hb)

/-- The stream stays empty. -/
theorem Does.stream {j : Joint} {e : Event} (h : Does j e (j.actions e))
    (hempty : j.device.feed.stream.buffer = []) :
    (j.step e).device.feed.stream.buffer = [] := by
  rw [step_device]
  have hfound := found_keeps (I := fun l => l.feed.stream.buffer = []) j e hempty fun _ => rfl
  generalize j.found e = l at hfound
  generalize j.actions e = as at h
  cases h with
  | nothing => exact hfound
  | reads now frame d => exact (congrArg _ (onFrame_stream _ now (.ok d)).1).trans hempty
  | ticks now =>
    have hexpire := expire_feed now (l.step (.advance now))
    exact (congrArg (fun feed => feed.stream.buffer) hexpire).trans hfound
  | confirms accepted => exact (congrArg _ (confirmPairing_stream accepted l)).trans hfound
  | unpairs => exact hfound
  | handles handler => exact hfound
  | takes => exact hfound

end CydMonitor.Session
