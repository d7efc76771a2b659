import CydMonitor.Lib.Scan
import CydMonitor.Wifi.Context
import Mathlib.Data.List.Induction

/-!
# What the daemon reports of an association (`ContextTracker`)

`host/metrics/src/wifi_context.rs`. The clock is a natural number of milliseconds.
-/

namespace CydMonitor.Wifi

open Scan

def contextSilenceLimitMs : ℕ := 15000

def AssociationContext.unavailable (availability : ContextAvailability) : AssociationContext :=
  { availability, band := none, channel := none, ssid := none, bssid := none }

structure ContextReading where
  context : AssociationContext
  ageMs : UInt32
  deriving DecidableEq

def availabilityFor : PermissionStatus → ContextAvailability
  | .notRequested => .permissionNotRequested
  | .denied => .denied
  | .restricted => .restricted
  | .granted => .authorizedUnavailable
  | .unsupported => .unsupported
  | .error => .error

/-- A retained context after a permission message. -/
def AssociationContext.revise (context : AssociationContext) (status : PermissionStatus) :
    AssociationContext :=
  if status = .granted ∧ context.availability = .available then context
  else { context with availability := availabilityFor status, ssid := none, bssid := none }

/-- A retained context, when it came, and its age then. -/
structure ContextSample where
  context : AssociationContext
  receivedMs : ℕ
  ageMs : UInt32
  deriving DecidableEq

/-- The sample's age at a time, its age on arrival included. -/
def ContextSample.age (s : ContextSample) (nowMs : ℕ) : ℕ := nowMs - s.receivedMs + s.ageMs.toNat

structure ContextTracker where
  permission : Option PermissionStatus
  connected : Bool
  sample : Option ContextSample
  deriving DecidableEq

namespace ContextTracker

def init : ContextTracker := { permission := none, connected := false, sample := none }

def onConnected (t : ContextTracker) : ContextTracker := { t with connected := true }

def onDisconnected (t : ContextTracker) : ContextTracker := { t with connected := false }

def onPermission (t : ContextTracker) (status : PermissionStatus) : ContextTracker :=
  { t with
    permission := some status
    sample := t.sample.map fun s => { s with context := s.context.revise status } }

def onContext (t : ContextTracker) (context : AssociationContext) (ageMs : UInt32) (nowMs : ℕ) :
    ContextTracker :=
  { t with sample := some { context, receivedMs := nowMs, ageMs } }

/-- Why a context that is too old is gone. -/
def expired (t : ContextTracker) : ContextAvailability :=
  match t.permission with
  | some .notRequested => availabilityFor .notRequested
  | some .denied => availabilityFor .denied
  | some .restricted => availabilityFor .restricted
  | some .unsupported => availabilityFor .unsupported
  | _ => .error

/-- What is reported without any context. -/
def absent (t : ContextTracker) : ContextAvailability :=
  match t.permission, t.connected with
  | none, _ => .permissionNotRequested
  | some status, true => availabilityFor status
  | some .granted, false => .error
  | some status, false => availabilityFor status

def reading (t : ContextTracker) (nowMs : ℕ) : ContextReading :=
  match t.sample with
  | some s =>
    if s.age nowMs < contextSilenceLimitMs then
      { context := s.context, ageMs := UInt32.ofNat (s.age nowMs) }
    else { context := .unavailable t.expired, ageMs := 0 }
  | none => { context := .unavailable t.absent, ageMs := 0 }

end ContextTracker

/-- A call of the socket server. -/
inductive TrackerCall where
  | connected | disconnected
  | permission (status : PermissionStatus)
  | context (context : AssociationContext) (ageMs : UInt32) (nowMs : ℕ)
  deriving DecidableEq

namespace TrackerCall

def apply (t : ContextTracker) : TrackerCall → ContextTracker
  | .connected => t.onConnected
  | .disconnected => t.onDisconnected
  | .permission status => t.onPermission status
  | .context c ageMs nowMs => t.onContext c ageMs nowMs

def replay (calls : List TrackerCall) : ContextTracker := calls.foldl apply .init

theorem replay_concat (calls : List TrackerCall) (call : TrackerCall) :
    replay (calls ++ [call]) = apply (replay calls) call :=
  List.foldl_concat ..

/-- A context that the parser can yield. -/
def Yielded : TrackerCall → Prop
  | .context c ageMs _ => ∃ line seq tMs, parseProviderMessage line = .ok (.context seq tMs ageMs c)
  | .connected | .disconnected | .permission _ => True

def IsContext : TrackerCall → Prop
  | .context .. => True
  | .connected | .disconnected | .permission _ => False

/-- A call that leaves an identity alone. -/
def Granting : TrackerCall → Prop
  | .permission status => status = .granted
  | .context .. => False
  | .connected | .disconnected => True

end TrackerCall

open TrackerCall

private theorem identity_of_context {f : Fields} {seq tMs : ℕ} {ageMs : UInt32}
    {c : AssociationContext} (h : parseContext f = .ok (.context seq tMs ageMs c))
    (hc : c.ssid.isSome ∨ c.bssid.isSome) : c.availability = .available := by
  obtain ⟨name, -, h⟩ := except_bind_eq_ok.mp h
  cases hname : fromName ContextAvailability.names name with
  | none =>
    rw [hname] at h
    cases h
  | some availability =>
    rw [hname] at h
    obtain ⟨band, -, h⟩ := except_bind_eq_ok.mp h
    obtain ⟨channel, -, h⟩ := except_bind_eq_ok.mp h
    obtain ⟨ssidHex, -, h⟩ := except_bind_eq_ok.mp h
    obtain ⟨ssid, -, h⟩ := except_bind_eq_ok.mp h
    obtain ⟨mac, -, h⟩ := except_bind_eq_ok.mp h
    obtain ⟨bssid, -, h⟩ := except_bind_eq_ok.mp h
    split_ifs at h with hguard
    obtain ⟨_, -, h⟩ := except_bind_eq_ok.mp h
    obtain ⟨_, -, h⟩ := except_bind_eq_ok.mp h
    obtain ⟨_, -, h⟩ := except_bind_eq_ok.mp h
    cases h
    by_contra havailable
    exact hguard ⟨hc, havailable⟩

private theorem identity_of_fields {f : Fields} {seq tMs : ℕ} {ageMs : UInt32}
    {c : AssociationContext} (h : parseFields f = .ok (.context seq tMs ageMs c))
    (hc : c.ssid.isSome ∨ c.bssid.isSome) : c.availability = .available := by
  obtain ⟨_, -, h⟩ := except_bind_eq_ok.mp h
  obtain ⟨kind, -, h⟩ := except_bind_eq_ok.mp h
  split_ifs at h
  · obtain ⟨_, -, h⟩ := except_bind_eq_ok.mp h
    obtain ⟨_, -, h⟩ := except_bind_eq_ok.mp h
    obtain ⟨_, -, h⟩ := except_bind_eq_ok.mp h
    obtain ⟨_, -, h⟩ := except_bind_eq_ok.mp h
    cases h
  · obtain ⟨_, -, h⟩ := except_bind_eq_ok.mp h
    obtain ⟨name, -, h⟩ := except_bind_eq_ok.mp h
    cases hname : fromName PermissionStatus.names name with
    | none =>
      rw [hname] at h
      cases h
    | some status =>
      rw [hname] at h
      cases h
  · exact identity_of_context h hc

/-- The parser yields an identity with an available association only. -/
theorem identity_of_parse {line : List UInt8} {seq tMs : ℕ} {ageMs : UInt32}
    {c : AssociationContext}
    (h : parseProviderMessage line = .ok (.context seq tMs ageMs c))
    (hc : c.ssid.isSome ∨ c.bssid.isSome) : c.availability = .available := by
  rw [parseProviderMessage] at h
  split at h
  · cases h
  · exact identity_of_fields h hc

/-- What is left of a context after the calls since. -/
structure Kept (c : AssociationContext) (since : List TrackerCall) (c' : AssociationContext) :
    Prop where
  whole : (c'.ssid.isSome ∨ c'.bssid.isSome) → c' = c ∧ ∀ call ∈ since, call.Granting
  band : c'.band = c.band
  channel : c'.channel = c.channel

private theorem Kept.snoc {c c' : AssociationContext} {since : List TrackerCall}
    (h : Kept c since c') {call : TrackerCall} (hcall : call.Granting) :
    Kept c (since ++ [call]) c' := by
  refine ⟨fun hsome => ?_, h.band, h.channel⟩
  obtain ⟨hc, hsince⟩ := h.whole hsome
  refine ⟨hc, fun d hd => ?_⟩
  rcases List.mem_append.mp hd with hd | hd
  · exact hsince d hd
  · rwa [List.mem_singleton.mp hd]

private theorem Kept.revise {c c' : AssociationContext} {since : List TrackerCall}
    (h : Kept c since c') (status : PermissionStatus) :
    Kept c (since ++ [.permission status]) (c'.revise status) := by
  rw [AssociationContext.revise]
  split_ifs with hkeep
  · exact h.snoc hkeep.1
  · exact ⟨fun hsome => by simp at hsome, h.band, h.channel⟩

/-- The sample is what is left of the last context. -/
theorem sample_of_replay {calls : List TrackerCall} {s : ContextSample}
    (h : (replay calls).sample = some s) :
    ∃ before c since, calls = before ++ .context c s.ageMs s.receivedMs :: since ∧
      (∀ call ∈ since, ¬ call.IsContext) ∧ Kept c since s.context := by
  induction calls using List.reverseRecOn generalizing s with
  | nil => cases h
  | append_singleton calls call ih =>
    rw [replay_concat] at h
    have hsnoc {s' : ContextSample} (hs' : (replay calls).sample = some s')
        (hage : s'.ageMs = s.ageMs ∧ s'.receivedMs = s.receivedMs) (hcall : ¬ call.IsContext)
        (hkept : ∀ c since, Kept c since s'.context → Kept c (since ++ [call]) s.context) :
        ∃ before c since, calls ++ [call] = before ++ .context c s.ageMs s.receivedMs :: since ∧
          (∀ call ∈ since, ¬ call.IsContext) ∧ Kept c since s.context := by
      obtain ⟨before, c, since, hcalls, hsince, hold⟩ := ih hs'
      refine ⟨before, c, since ++ [call], ?_, fun d hd => ?_, hkept c since hold⟩
      · rw [hcalls, hage.1, hage.2, List.append_assoc]
        rfl
      · rcases List.mem_append.mp hd with hd | hd
        · exact hsince d hd
        · rwa [List.mem_singleton.mp hd]
    cases call with
    | connected => exact hsnoc h ⟨rfl, rfl⟩ id fun c since hc => hc.snoc trivial
    | disconnected => exact hsnoc h ⟨rfl, rfl⟩ id fun c since hc => hc.snoc trivial
    | permission status =>
      obtain ⟨s', hs', rfl⟩ := Option.map_eq_some_iff.mp h
      exact hsnoc hs' ⟨rfl, rfl⟩ id fun c since hc => hc.revise status
    | context c ageMs nowMs =>
      obtain rfl := Option.some.inj h
      exact ⟨calls, c, [], rfl, by simp, ⟨fun _ => ⟨rfl, by simp⟩, rfl, rfl⟩⟩

/-- The last context stays until another one comes. -/
theorem replay_since {calls before since : List TrackerCall} {c : AssociationContext}
    {ageMs : UInt32} {receivedMs : ℕ}
    (hcalls : calls = before ++ .context c ageMs receivedMs :: since)
    (hsince : ∀ call ∈ since, ¬ call.IsContext) :
    ∃ c', (replay calls).sample = some { context := c', receivedMs, ageMs } := by
  induction since using List.reverseRecOn generalizing calls with
  | nil =>
    rw [hcalls, replay_concat]
    exact ⟨c, rfl⟩
  | append_singleton since call ih =>
    obtain ⟨c', hc'⟩ := ih rfl fun d hd => hsince d (List.mem_append_left _ hd)
    have hlast : calls = (before ++ .context c ageMs receivedMs :: since) ++ [call] := by
      rw [hcalls, List.append_assoc]
      rfl
    rw [hlast, replay_concat]
    cases call with
    | connected => exact ⟨c', hc'⟩
    | disconnected => exact ⟨c', hc'⟩
    | permission status =>
      exact ⟨c'.revise status, by simp [apply, ContextTracker.onPermission, hc']⟩
    | context d age now => exact (hsince (.context d age now) (by simp) trivial).elim

end CydMonitor.Wifi
