import CydMonitor.Metrics.Network

/-!
# The identity of the association

What the tracker and the WiFi half report of a history of calls. An identity is the one of the
last context, with its age, while no permission but a granted one came after it. A context that
is too old is not reported at all.
-/

namespace CydMonitor.Metrics

open Wifi TrackerCall
open Text (utf8)

/-- The calls back an identity: it is the last context's, and the age is the context's own. -/
def Backed (calls : List TrackerCall) (nowMs : ℕ) (c : AssociationContext) (ageMs : UInt32) :
    Prop :=
  c.availability = .available ∧
    ∃ before age receivedMs since, calls = before ++ .context c age receivedMs :: since ∧
      (∀ call ∈ since, call.Granting) ∧
      ageMs.toNat = nowMs - receivedMs + age.toNat ∧
      nowMs - receivedMs + age.toNat < contextSilenceLimitMs

def HasIdentity (c : AssociationContext) : Prop := c.ssid.isSome ∨ c.bssid.isSome

/-- Nothing of an association. -/
structure BlankContext (c : AssociationContext) : Prop where
  band : c.band = none
  channel : c.channel = none
  ssid : c.ssid = none
  bssid : c.bssid = none

/-- Nothing of an association on the wire. -/
structure BlankHalf (half : WifiHalf) : Prop where
  coverage : half.coverage = .unknown
  channel : half.channel = 0
  ssid : half.ssid = []
  bssid : half.bssid = none

theorem blank_unavailable (availability : ContextAvailability) :
    BlankContext (.unavailable availability) :=
  ⟨rfl, rfl, rfl, rfl⟩

/-- A blank context makes a blank half. -/
theorem BlankContext.wifi {reading : ContextReading} (h : BlankContext reading.context)
    (view : Option SystemView) : BlankHalf (wifi view reading) := by
  obtain ⟨hband, hchannel, hssid, hbssid⟩ := h
  by_cases hactive : (!(view.elim [] (·.interfaces)).any isActiveWifi) = true
  · rw [Metrics.wifi, if_pos hactive]
    exact ⟨rfl, rfl, rfl, rfl⟩
  · rw [Metrics.wifi, if_neg hactive, hband, hchannel, hssid, hbssid]
    exact ⟨rfl, rfl, by simp, by simp⟩

private theorem reading_young {t : ContextTracker} {s : ContextSample} {nowMs : ℕ}
    (hs : t.sample = some s) (hage : s.age nowMs < contextSilenceLimitMs) :
    t.reading nowMs = { context := s.context, ageMs := UInt32.ofNat (s.age nowMs) } := by
  rw [ContextTracker.reading, hs]
  exact if_pos hage

private theorem reading_old {t : ContextTracker} {s : ContextSample} {nowMs : ℕ}
    (hs : t.sample = some s) (hage : ¬ s.age nowMs < contextSilenceLimitMs) :
    t.reading nowMs = { context := .unavailable t.expired, ageMs := 0 } := by
  rw [ContextTracker.reading, hs]
  exact if_neg hage

/-- What the tracker holds for an identity it reports. -/
theorem sample_of_identity {t : ContextTracker} {nowMs : ℕ}
    (h : HasIdentity (t.reading nowMs).context) :
    ∃ s, t.sample = some s ∧ s.age nowMs < contextSilenceLimitMs ∧
      t.reading nowMs = { context := s.context, ageMs := UInt32.ofNat (s.age nowMs) } := by
  cases hs : t.sample with
  | none =>
    rw [ContextTracker.reading, hs] at h
    simp [HasIdentity, AssociationContext.unavailable] at h
  | some s =>
    by_cases hage : s.age nowMs < contextSilenceLimitMs
    · exact ⟨s, rfl, hage, reading_young hs hage⟩
    · rw [reading_old hs hage] at h
      simp [HasIdentity, AssociationContext.unavailable] at h

/-- An identity is reported only as the calls back it. -/
theorem backed_of_identity {calls : List TrackerCall} (hcalls : ∀ call ∈ calls, call.Yielded)
    {nowMs : ℕ} (h : HasIdentity ((replay calls).reading nowMs).context) :
    Backed calls nowMs ((replay calls).reading nowMs).context
      ((replay calls).reading nowMs).ageMs := by
  obtain ⟨s, hs, hage, hreading⟩ := sample_of_identity h
  rw [hreading] at h ⊢
  obtain ⟨before, c, since, hsplit, -, hkept⟩ := sample_of_replay hs
  obtain ⟨hc, hsince⟩ := hkept.whole h
  obtain ⟨line, seq, tMs, hline⟩ := hcalls (.context c s.ageMs s.receivedMs) (by simp [hsplit])
  rw [hc] at h ⊢
  refine ⟨identity_of_parse hline h, before, s.ageMs, s.receivedMs, since, hsplit, hsince, ?_, hage⟩
  exact UInt32.toNat_ofNat_of_lt' (Nat.lt_trans hage (by decide))

/-- A context that is too old is not reported, nor is it later. -/
theorem blank_of_old {before since : List TrackerCall} {c : AssociationContext} {age : UInt32}
    {receivedMs nowMs : ℕ} (hsince : ∀ call ∈ since, ¬ call.IsContext)
    (hold : contextSilenceLimitMs ≤ nowMs - receivedMs + age.toNat) :
    BlankContext
      ((replay (before ++ .context c age receivedMs :: since)).reading nowMs).context := by
  obtain ⟨c', hc'⟩ := replay_since rfl hsince
  rw [reading_old hc' (Nat.not_lt.mpr hold)]
  exact blank_unavailable _

/-- What the WiFi half takes over from an identity. -/
theorem identity_of_half {view : Option SystemView} {reading : ContextReading}
    (h : (wifi view reading).ssid ≠ [] ∨ (wifi view reading).bssid.isSome) :
    HasIdentity reading.context ∧
      (wifi view reading).availability = reading.context.availability ∧
      (wifi view reading).ageMs = reading.ageMs ∧
      (wifi view reading).ssid = reading.context.ssid.getD [] ∧
      (wifi view reading).bssid = reading.context.bssid := by
  by_cases hactive : (!(view.elim [] (·.interfaces)).any isActiveWifi) = true
  · rw [wifi, if_pos hactive] at h
    simp at h
  · by_cases havailable : reading.context.availability = .available
    · rw [wifi, if_neg hactive] at h ⊢
      simp only [havailable, if_true] at h ⊢
      refine ⟨?_, trivial, trivial, trivial, trivial⟩
      rcases h with h | h
      · left
        cases hssid : reading.context.ssid with
        | none => simp [hssid] at h
        | some ssid => rfl
      · exact .inr h
    · rw [wifi, if_neg hactive] at h
      simp [havailable] at h

/-- The WiFi half after the calls. -/
def reported (calls : List TrackerCall) (view : Option SystemView) (nowMs : ℕ) : WifiHalf :=
  wifi view ((replay calls).reading nowMs)

/-- Privacy and age of the association, in the tracker's reading and in the WiFi half. -/
theorem association_backed (calls : List TrackerCall) (hcalls : ∀ call ∈ calls, call.Yielded)
    (view : Option SystemView) (nowMs : ℕ) :
    (HasIdentity ((replay calls).reading nowMs).context →
      Backed calls nowMs ((replay calls).reading nowMs).context
        ((replay calls).reading nowMs).ageMs) ∧
    ((reported calls view nowMs).ssid ≠ [] ∨ (reported calls view nowMs).bssid.isSome →
      (reported calls view nowMs).availability = .available ∧
      ∃ c, Backed calls nowMs c (reported calls view nowMs).ageMs ∧
        (reported calls view nowMs).ssid = c.ssid.getD [] ∧
        (reported calls view nowMs).bssid = c.bssid) ∧
    ∀ before c age receivedMs since, calls = before ++ .context c age receivedMs :: since →
      (∀ call ∈ since, ¬ call.IsContext) →
      contextSilenceLimitMs ≤ nowMs - receivedMs + age.toNat →
      ∀ later, (∀ call ∈ later, ¬ call.IsContext) → ∀ laterMs, nowMs ≤ laterMs →
        BlankContext ((replay (calls ++ later)).reading laterMs).context ∧
        BlankHalf (reported (calls ++ later) view laterMs) := by
  refine ⟨backed_of_identity hcalls, fun h => ?_, ?_⟩
  · obtain ⟨hidentity, havailability, hage, hssid, hbssid⟩ := identity_of_half h
    have hbacked := backed_of_identity hcalls hidentity
    refine ⟨havailability.trans hbacked.1, _, ?_, hssid, hbssid⟩
    rw [reported, hage]
    exact hbacked
  · intro before c age receivedMs since hsplit hsince hold later hlater laterMs hlaterMs
    have hblank : BlankContext ((replay (calls ++ later)).reading laterMs).context := by
      rw [hsplit, List.append_assoc]
      have hboth : ∀ call ∈ since ++ later, ¬ call.IsContext := fun call hcall =>
        (List.mem_append.mp hcall).elim (hsince call) (hlater call)
      exact blank_of_old hboth (by omega)
    exact ⟨hblank, hblank.wifi view⟩

private def officeLine : List Char :=
  ("\x7b\"v\":1,\"type\":\"context\",\"seq\":2,\"t_ms\":900,\"age_ms\":40," ++
    "\"availability\":\"available\",\"band\":\"2.4\",\"channel\":6," ++
    "\"ssid_hex\":\"4359\",\"bssid\":null\x7d").toList

private def officeContext : AssociationContext :=
  { availability := .available, band := some .ghz2_4, channel := some 6, ssid := some [0x43, 0x59],
    bssid := none }

private def parses (line : List Char) (m : ProviderMessage) : Bool :=
  decide ((utf8 line).length ≤ kMaxLineBytes) &&
    match object (utf8 line) with
    | some (fields, []) =>
      match parseFields fields with
      | .ok m' => m == m'
      | .error _ => false
    | _ => false

private theorem parseProviderMessage_of_parses {line : List Char} {m : ProviderMessage}
    (h : parses line m = true) : parseProviderMessage (utf8 line) = .ok m := by
  rw [parses, Bool.and_eq_true, decide_eq_true_eq] at h
  obtain ⟨hlength, hmatch⟩ := h
  rw [parseProviderMessage, parseFlatObject, if_neg (Nat.not_lt.mpr hlength), fromUtf8_utf8]
  split at hmatch
  case h_1 fields hobject =>
    rw [hobject]
    cases hfields : parseFields fields with
    | error e => simp [hfields] at hmatch
    | ok m' =>
      simp only [hfields, beq_iff_eq] at hmatch
      rw [hmatch]
      exact hfields
  case h_2 => simp at hmatch

private def officeCalls : List TrackerCall :=
  [.connected, .permission .granted, .context officeContext 40 1000, .disconnected]

/-- An identity a second after it came. -/
theorem association_backed_office :
    ((replay officeCalls).reading 2000).context = officeContext ∧
      Backed officeCalls 2000 officeContext 1040 := by
  have hyielded : ∀ call ∈ officeCalls, call.Yielded := by
    intro call hcall
    simp only [officeCalls, List.mem_cons, List.not_mem_nil, or_false] at hcall
    rcases hcall with rfl | rfl | rfl | rfl
    · trivial
    · trivial
    · exact ⟨utf8 officeLine, 2, 900, parseProviderMessage_of_parses (by decide +kernel)⟩
    · trivial
  have hreading :
      (replay officeCalls).reading 2000 = { context := officeContext, ageMs := 1040 } := by
    decide +kernel
  have h := (association_backed officeCalls hyielded none 2000).1
  rw [hreading] at h ⊢
  exact ⟨rfl, h (.inl rfl)⟩

end CydMonitor.Metrics
