import CydMonitor.Codec.ControlFrames
import CydMonitor.Codec.SnapshotRoundTrip
import CydMonitor.Device.LinkSteps

/-!
# Frames delivered and sent

When the bytes pushed are whole frames and none is partly received, the link handles
exactly these frames. What the link sends is a frame that the Host decodes.
-/

namespace CydMonitor.Device

open Codec Framing HostLink

/-- A frame with a message is intact. -/
theorem intact_of_decode {f : List UInt8} {d : Cpp.Decoded} (h : Cpp.decode f = .ok d) :
    IntactFrame f := by
  obtain ⟨m, hm, -⟩ := exists_image h
  rw [hostDecode_eq] at hm
  cases hc : Rust.framePayload f with
  | error e =>
    rw [hc] at hm
    cases hm
  | ok c =>
    obtain ⟨hf, hmin, hmax⟩ := framePayload_eq_ok.mp hc
    exact ⟨c, hf, by omega, by omega⟩

/-- Whatever the Host's encoder accepts arrives as the device's image of it. -/
theorem exists_control {e : Rust.Envelope} {b : Rust.ControlBody} (hmajor : e.major = 1)
    (h : (Rust.encodeControl e b).isOk = true) :
    ∃ f, Cpp.decode f = .ok (image (.control e b)) := by
  cases hf : Rust.encodeControl e b with
  | error error =>
    rw [hf] at h
    cases h
  | ok f => exact ⟨f, decode_image (decode_of_encodeControl hmajor hf)⟩

theorem exists_snapshot {e : Rust.Envelope} {s : Rust.Snapshot} (hmajor : e.major = 1)
    (hkind : e.kind = .snapshot) (hcpu : s.cpu.utilizationPerMille ≤ 1000)
    (h : (Rust.encodeGroups e s).isOk = true) :
    ∃ f, Cpp.decode f = .ok (image (.snapshot e s)) := by
  cases hf : Rust.encodeGroups e s with
  | error error =>
    rw [hf] at h
    cases h
  | ok f => exact ⟨f, decode_image (decode_of_encodeGroups hmajor hkind hcpu hf)⟩

/-- A drain of whole frames returns them all and leaves nothing. -/
theorem drain_frames {fs : List (List UInt8)} (h : ∀ f ∈ fs, IntactFrame f) (droppedBytes : ℕ) :
    HostFeed.drain ⟨fs.flatten, droppedBytes⟩ = (fs.map Cpp.decode, ⟨[], droppedBytes⟩) := by
  obtain ⟨gs, n, hout, hskip, hgreedy⟩ := deviceFramer_follows.drain_scan
    (s := ⟨fs.flatten, droppedBytes⟩) (Nat.lt_succ_self _)
  have hsteps : Greedy frameRule fs.flatten fs 0 [] := by
    have hlog : ∀ p ∈ fs.map fun f => (([] : List UInt8), f), ∀ b ∈ p.1, 8 ≤ b.toNat := by simp
    have hframes := steps_frames hlog (by simpa using h) []
    have hflat : ((fs.map fun f => (([] : List UInt8), f)).flatMap fun p => p.1 ++ p.2) =
        fs.flatten := by
      simp [List.flatMap_map, List.flatMap_id']
    have hsum : ((fs.map fun f => (([] : List UInt8), f)).map fun p => p.1.length).sum = 0 := by
      apply List.sum_eq_zero
      simp
    have hsnd : (fs.map fun f => (([] : List UInt8), f)).map Prod.snd = fs := by
      simp [Function.comp_def]
    rw [hflat, hsum, hsnd, List.append_nil] at hframes
    exact ⟨hframes, rfl⟩
  obtain ⟨rfl, rfl, hrest⟩ := hgreedy.unique hsteps
  change (HostFeed.drain ⟨gs.flatten, droppedBytes⟩).1 = gs.map Cpp.decode at hout
  change (HostFeed.drain ⟨gs.flatten, droppedBytes⟩).2.droppedBytes = droppedBytes at hskip
  change (HostFeed.drain ⟨gs.flatten, droppedBytes⟩).2.buffer = [] at hrest
  have hstream : (HostFeed.drain ⟨gs.flatten, droppedBytes⟩).2 =
      ⟨(HostFeed.drain ⟨gs.flatten, droppedBytes⟩).2.buffer,
        (HostFeed.drain ⟨gs.flatten, droppedBytes⟩).2.droppedBytes⟩ := rfl
  rw [hrest, hskip] at hstream
  exact Prod.ext hout hstream

/-- The actions of pushes of one frame each. -/
theorem runActions_frames {l : HostLink} (hempty : l.feed.stream.buffer = []) (now : UInt64)
    {fs : List (List UInt8)} (h : ∀ f ∈ fs, IntactFrame f) :
    l.runActions (fs.map (.push now)) = fs.flatMap fun f =>
      [.buffer l.feed.stream now, .frame now (Cpp.decode f)] := by
  induction fs generalizing l with
  | nil => rfl
  | cons f fs ih =>
    have hf : ∀ g ∈ [f], IntactFrame g := fun g hg => h g (by simp_all)
    have hstream : (⟨[], l.feed.stream.droppedBytes⟩ : Cpp.FrameStream) = l.feed.stream := by
      rw [← hempty]
    have hactions : l.actions (.push now f) =
        [.buffer l.feed.stream now, .frame now (Cpp.decode f)] := by
      have hpush : l.feed.stream.push f = ⟨[f].flatten, l.feed.stream.droppedBytes⟩ := by
        rw [Cpp.FrameStream.push, hempty]
        simp
      rw [actions, drainActions, hpush, drain_frames hf, hstream]
      rfl
    have hafter : (l.call (.push now f)).feed.stream = l.feed.stream := by
      rw [call_eq, hactions]
      exact (onFrame_stream _ now (Cpp.decode f)).1
    rw [List.map_cons, runActions, ih (by rw [hafter, hempty]) fun g hg => h g (by simp [hg]),
      hactions, hafter]
    rfl

/-- The run of pushes of one frame each, with their messages. -/
theorem run_messages {l : HostLink} (hempty : l.feed.stream.buffer = []) (now : UInt64)
    {fs : List (List UInt8)} {ds : List Cpp.Decoded} (h : fs.map Cpp.decode = ds.map .ok) :
    l.run (fs.map (.push now)) = Trace.moments step l (ds.flatMap fun d =>
      [.buffer l.feed.stream now, .frame now (.ok d)]) := by
  have hintact : ∀ f ∈ fs, IntactFrame f := fun f hf => by
    have hmem : Cpp.decode f ∈ ds.map .ok := h ▸ List.mem_map_of_mem hf
    obtain ⟨d, -, hd⟩ := List.mem_map.mp hmem
    exact intact_of_decode hd.symm
  have hactions : (fs.flatMap fun f => [.buffer l.feed.stream now, .frame now (Cpp.decode f)]) =
      (fs.map Cpp.decode).flatMap fun r => [Action.buffer l.feed.stream now, .frame now r] := by
    rw [List.flatMap_map]
  rw [run, runActions_frames hempty now hintact, hactions, h, List.flatMap_map]

/-- The queue holds one more frame, which the Host reads as this message. -/
def Sends (l l' : HostLink) (e : Rust.Envelope) (b : Rust.ControlBody) : Prop :=
  ∃ f, Rust.decode f = .ok (.control e b) ∧ l'.outgoing = enqueue l.outgoing f

theorem send_control (l : HostLink) {e : Rust.Envelope} {b : Rust.ControlBody}
    (hmajor : e.major = 1) (hkind : e.kind = kindOf b) (hb : Encodable b)
    (hoffset : e.localOffsetMinutes = none) :
    Sends l (l.send (withBody (ofEnvelope e) b)) { e with sequence := l.txSequence + 1 } b := by
  obtain ⟨f, hhost, hdevice⟩ := exists_controlFrame
    (e := { e with sequence := l.txSequence + 1 }) hkind hb (by simp [hoffset])
  have hsame : { withBody (ofEnvelope e) b with sequence := l.txSequence + 1 } =
      withBody (ofEnvelope { e with sequence := l.txSequence + 1 }) b := by
    cases b <;> rfl
  refine ⟨f, decode_of_encodeControl (e := { e with sequence := l.txSequence + 1 }) hmajor hhost,
    ?_⟩
  rw [send, hsame, hdevice]

/-- The envelope of what the link sends. -/
def sent (kind : Rust.MessageType) (session : Identity) (sequence : UInt32) : Rust.Envelope :=
  ⟨1, 0, kind, session, sequence, none, none, none⟩

theorem sendError_sends (l : HostLink) (code : LinkErrorCode) :
    Sends l (l.sendError code) (sent .error kZeroIdentity (l.txSequence + 1))
      (.error [code.code]) :=
  send_control l (e := sent .error kZeroIdentity 0) (b := .error [code.code]) rfl rfl
    (Nat.le_of_ble_eq_true rfl) rfl

theorem reply_sends (l : HostLink) (c : Rust.CommandBody) (r : Rust.CommandResult) :
    Sends l (l.reply (ofCommand c) (UInt8.ofNat r.code))
      (sent .commandReply l.session (l.txSequence + 1))
      (.commandReply ⟨c.commandIdentity, c.operation, r⟩) :=
  send_control l (e := sent .commandReply l.session 0)
    (b := .commandReply ⟨c.commandIdentity, c.operation, r⟩) rfl rfl trivial rfl

theorem helloReply_sends (l : HostLink) :
    Sends l (l.send { type := .kHelloReply,
                      hello := some { supportedMajor := l.diagnostics.supportedMajor,
                                      supportedMinor := l.diagnostics.supportedMinor } })
      (sent .helloReply kZeroIdentity (l.txSequence + 1))
      (.helloReply ⟨l.diagnostics.supportedMajor, l.diagnostics.supportedMinor, 0, 0,
        none, none⟩) :=
  send_control l (e := sent .helloReply kZeroIdentity 0)
    (b := .helloReply ⟨l.diagnostics.supportedMajor, l.diagnostics.supportedMinor, 0, 0,
      none, none⟩)
    rfl rfl trivial rfl

/-- A session that opens is told to the Host when its code has six digits. -/
theorem openSession_sends (l : HostLink) (session host : Identity) {code : UInt32}
    (hcode : 100000 ≤ code ∧ code ≤ 999999) :
    Sends l (l.openSession session host code) (sent .pair session 1)
      (.pair ⟨l.store.deviceIdentity, host, code⟩) := by
  have hsends := send_control (l := { l with
      session, host, cachedCommand := none, txSequence := 0, feed := l.feed.startSession session,
      phase := .kSessionOpen, diagnostics := { l.diagnostics with fault := .kNone } })
    (e := sent .pair session 0) (b := .pair ⟨l.store.deviceIdentity, host, code⟩) rfl rfl hcode rfl
  exact hsends

/-- A step sends one message at most. -/
theorem Sends.unique {l l' : HostLink} {e e' : Rust.Envelope} {b b' : Rust.ControlBody}
    (h : Sends l l' e b) (h' : Sends l l' e' b') : e = e' ∧ b = b' := by
  obtain ⟨f, hf, hqueue⟩ := h
  obtain ⟨f', hf', hqueue'⟩ := h'
  obtain ⟨-, hlast⟩ := List.append_inj' (hqueue.symm.trans hqueue') rfl
  rw [List.singleton_inj] at hlast
  rw [hlast, hf'] at hf
  cases hf
  exact ⟨rfl, rfl⟩

end CydMonitor.Device
