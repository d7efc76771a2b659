import CydMonitor.Device.Unpairing
import CydMonitor.Transport.Client

/-!
# A Host and a device on one line

The clients of a Host's connections (`host/transport/src/client.rs`), the device's link
(`firmware/domain/src/host_link.cpp`) and the frames between them. The line hands over whole
frames, each at most once, in any order, and may lose any of them.
-/

namespace CydMonitor.Session

open Transport Device Trace Codec

/-- The two ends, and what is under way. -/
structure Joint where
  client : HostClient
  device : HostLink
  toDevice : List (List UInt8) := []
  toHost : List (List UInt8) := []
  /-- The sessions of the clients so far. -/
  sessions : List Identity := []

inductive Event where
  /-- `Link::connect_with`: a new client of the same Host. -/
  | connect (knownDevice : Option Identity) (code : UInt32) (session : Identity)
  | start (utcMs : Option UInt64)
  | setLocalOffsetMinutes (offset : Option ℤ)
  | snapshot (snapshot : Rust.Snapshot) (utcMs : Option UInt64)
  | command (operation : Rust.CommandOperation)
  | retryCommand (identity : UInt32) (operation : Rust.CommandOperation)
  | hostReads (frame : List UInt8)
  | deviceReads (now : UInt64) (frame : List UInt8)
  | tick (now : UInt64)
  | confirmPairing (accepted : Bool)
  | unpair
  | setCalibrationResetHandler (handler : ℕ → Bool)
  /-- What the device has queued goes on the line. -/
  | takeOutgoing
  /-- The device starts again, with its pairing. -/
  | restart (bootIdentity : UInt32)

namespace Joint

/-- The client after a call, and the frame it wrote, if any. -/
def writes (j : Joint) (r : Option (List UInt8) × HostClient) : Joint :=
  { j with client := r.2, toDevice := j.toDevice ++ r.1.toList }

def calls (j : Joint) (c : Device.Call) : Joint := { j with device := j.device.call c }

def step (j : Joint) : Event → Joint
  | .connect knownDevice code session =>
    { j with
      client := .new j.client.host knownDevice code session
      sessions := session :: j.sessions }
  | .start utcMs => j.writes ((j.client.start utcMs).1.toOption, (j.client.start utcMs).2)
  | .setLocalOffsetMinutes offset => { j with client := j.client.setLocalOffsetMinutes offset }
  | .snapshot snapshot utcMs => j.writes (j.client.snapshot snapshot utcMs)
  | .command operation =>
    j.writes ((j.client.command operation).1.map Prod.snd, (j.client.command operation).2)
  | .retryCommand identity operation => j.writes (j.client.retryCommand identity operation)
  | .hostReads frame =>
    { j with
      client := (j.client.receive frame).1
      toHost := j.toHost.erase frame
      toDevice := j.toDevice ++ (j.client.receive frame).2.frames }
  | .deviceReads now frame =>
    { j.calls (.push now frame) with toDevice := j.toDevice.erase frame }
  | .tick now => j.calls (.tick now)
  | .confirmPairing accepted => j.calls (.confirmPairing accepted)
  | .unpair => j.calls .unpair
  | .setCalibrationResetHandler handler => j.calls (.setCalibrationResetHandler handler)
  | .takeOutgoing =>
    { j.calls .takeOutgoing with toHost := j.toHost ++ j.device.takeOutgoing.1 }
  | .restart bootIdentity => { j with device := .new j.device.store bootIdentity }

/-- A connection draws a session that no client had; `connect_with` starts until it is answered;
the collectors keep the CPU share below the whole; and the line hands over what is on it. -/
def Allowed (j : Joint) : Event → Prop
  | .connect _ _ session => session ∉ j.sessions
  | .start _ => j.client.phase = .idle ∨ j.client.phase = .helloSent
  | .snapshot snapshot _ => snapshot.cpu.utilizationPerMille ≤ 1000
  | .hostReads frame => frame ∈ j.toHost
  | .deviceReads _ frame => frame ∈ j.toDevice
  | _ => True

instance (j : Joint) : (e : Event) → Decidable (j.Allowed e)
  | .connect _ _ session => inferInstanceAs (Decidable (session ∉ j.sessions))
  | .start _ => inferInstanceAs (Decidable (j.client.phase = .idle ∨ j.client.phase = .helloSent))
  | .snapshot s _ => inferInstanceAs (Decidable (s.cpu.utilizationPerMille ≤ 1000))
  | .hostReads frame => inferInstanceAs (Decidable (frame ∈ j.toHost))
  | .deviceReads _ frame => inferInstanceAs (Decidable (frame ∈ j.toDevice))
  | .setLocalOffsetMinutes _ | .command _ | .retryCommand _ _ | .tick _ | .confirmPairing _
  | .unpair | .setCalibrationResetHandler _ | .takeOutgoing | .restart _ => .isTrue trivial

/-- A run in which every event is allowed where it stands. -/
def Lawful (j : Joint) : List Event → Prop
  | [] => True
  | e :: events => j.Allowed e ∧ (j.step e).Lawful events

instance decidableLawful : (events : List Event) → (j : Joint) → Decidable (j.Lawful events)
  | [], _ => .isTrue trivial
  | e :: events, j =>
    have := decidableLawful events (j.step e)
    inferInstanceAs (Decidable (j.Allowed e ∧ (j.step e).Lawful events))

/-- A Host's first connection, to a device that has just booted. -/
def boot (client : HostClient) (store : PairingStore) (bootIdentity : UInt32) : Joint :=
  { client, device := .new store bootIdentity, sessions := [client.session] }

abbrev run (j : Joint) (events : List Event) : List (Moment Joint Event) :=
  moments step j events

/-- The state that a run leads to. -/
def after (j : Joint) (events : List Event) : Joint := events.foldl step j

theorem Lawful.allowed {j : Joint} {events : List Event} (h : j.Lawful events)
    {past rest : List (Moment Joint Event)} {m : Moment Joint Event}
    (hm : j.run events = past ++ m :: rest) : m.before.Allowed m.action := by
  induction events generalizing j past with
  | nil => cases past <;> cases hm
  | cons e events ih =>
    obtain ⟨hfirst, hrest⟩ := h
    cases past with
    | nil =>
      obtain ⟨rfl, -⟩ := List.cons.inj hm
      exact hfirst
    | cons p past => exact ih hrest (List.cons.inj hm).2

/-- What allowed steps keep, of the past and of the state, holds at the end of a lawful run. -/
theorem Lawful.history {J : List (Moment Joint Event) → Joint → Prop} {j : Joint}
    {events : List Event} (h : j.Lawful events)
    (hstep : ∀ past j e, J past j → j.Allowed e → past.length < events.length →
      J (past ++ [⟨j, e, j.step e⟩]) (j.step e))
    (hj : J [] j) : J (j.run events) (j.after events) := by
  have hallowed (past : List (Moment Joint Event)) (j : Joint) (e : Event) (hpast : J past j)
      (h : j.Allowed e ∧ past.length < events.length) : J (past ++ [⟨j, e, j.step e⟩]) (j.step e) :=
    hstep past j e hpast h.1 h.2
  refine history_of hallowed hj events ?_
  intro past m rest hm
  refine ⟨h.allowed hm, ?_⟩
  have hlength := congrArg List.length hm
  rw [length_moments, List.length_append, List.length_cons] at hlength
  omega

end Joint

end CydMonitor.Session
