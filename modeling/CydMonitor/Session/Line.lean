import CydMonitor.Session.Agreement

/-!
# What the Host puts on the line

A session has one Pair, and the snapshots that the Host sends in it have rising sequences.
-/

namespace CydMonitor.Session

open Transport Device Trace Codec HostLink

/-- The frame belongs to the session. -/
def names (session : Identity) (f : List UInt8) : Bool :=
  match Cpp.decode f with
  | .ok d => d.envelope.session = session
  | .error _ => false

def sequenceOf (f : List UInt8) : UInt32 :=
  match Cpp.decode f with
  | .ok d => d.envelope.sequence
  | .error _ => 0

/-- The frame is a Pair for the session. -/
def isPair (session : Identity) (f : List UInt8) : Bool :=
  match Cpp.decode f with
  | .ok d => d.envelope.type = .kPair ∧ d.envelope.session = session
  | .error _ => false

def isSnapshot (f : List UInt8) : Bool :=
  match Cpp.decode f with
  | .ok d => d.envelope.type = .kSnapshot
  | .error _ => false

/-- The frame in which the Host sends a snapshot here. -/
def sentAt (m : Moment Joint Event) : Option (List UInt8) :=
  match m.action with
  | .snapshot s utcMs => (m.before.client.snapshot s utcMs).1
  | _ => none

/-- The snapshots that the Host sent in a session, as frames. -/
def sentIn (session : Identity) (ms : List (Moment Joint Event)) : List (List UInt8) :=
  (ms.filterMap sentAt).filter (names session)

/-- The Pair for the session reaches the device here. -/
def pairsAt (session : Identity) (m : Moment Joint Event) : Bool :=
  match m.action with
  | .deviceReads _ frame => isPair session frame
  | _ => false

theorem sentIn_concat (session : Identity) (past : List (Moment Joint Event))
    (m : Moment Joint Event) :
    sentIn session (past ++ [m]) =
      sentIn session past ++ (sentAt m).toList.filter (names session) := by
  rw [sentIn, List.filterMap_append, List.filter_append, sentIn, List.filterMap_cons]
  cases sentAt m with
  | none => rfl
  | some f => rfl

/-- A snapshot is sent by a live client, under its next sequence. -/
theorem sentAt_eq_some {j j' : Joint} {e : Event} {f : List UInt8} (h : j.Allowed e)
    (hf : sentAt ⟨j, e, j'⟩ = some f) :
    ∃ s utcMs, e = .snapshot s utcMs ∧ j.client.phase = .live ∧
      Cpp.decode f = .ok (image (.snapshot (nextEnvelope j.client utcMs) s)) := by
  cases e with
  | snapshot s utcMs =>
    change (j.client.snapshot s utcMs).1 = some f at hf
    rw [HostClient.snapshot] at hf
    split_ifs at hf with hphase
    obtain ⟨g, hg, rfl⟩ :
        ∃ g, Rust.encodeGroups (nextEnvelope j.client utcMs) s = .ok g ∧ g = f := by
      change (Rust.encodeGroups (nextEnvelope j.client utcMs) s).toOption = some f at hf
      cases hencoded : Rust.encodeGroups (nextEnvelope j.client utcMs) s with
      | error error =>
        rw [hencoded] at hf
        cases hf
      | ok g =>
        rw [hencoded] at hf
        exact ⟨g, rfl, Option.some.inj hf⟩
    exact ⟨s, utcMs, rfl, not_not.mp hphase, decode_image (decode_of_encodeGroups rfl rfl h hg)⟩
  | _ => cases hf

/-- What the Host's snapshots keep. -/
structure Numbers (past : List (Moment Joint Event)) (j : Joint) : Prop where
  known : j.client.session ∈ j.sessions
  unsent : ∀ session, (session ∈ j.sessions → session = j.client.session ∧
    j.client.phase ≠ .live) → sentIn session past = []
  counted : ∀ f ∈ sentIn j.client.session past, sequenceOf f ≤ j.client.sequence
  rising : ∀ session, (sentIn session past).Pairwise (sequenceOf · < sequenceOf ·)
  bounded : j.client.sequence.toNat ≤ past.length

theorem sentIn_silent {past : List (Moment Joint Event)} {m : Moment Joint Event}
    (h : sentAt m = none) (session : Identity) :
    sentIn session (past ++ [m]) = sentIn session past := by
  rw [sentIn_concat, h]
  exact List.append_nil _

/-- The next number is above the last one. -/
theorem Numbers.next {past : List (Moment Joint Event)} {j : Joint} (h : Numbers past j)
    (hlength : past.length + 1 < 2 ^ 32) :
    (j.client.sequence + 1).toNat = j.client.sequence.toNat + 1 ∧
      j.client.sequence < j.client.sequence + 1 := by
  have hbounded := h.bounded
  have hnext : (j.client.sequence + 1).toNat = j.client.sequence.toNat + 1 := by
    rw [UInt32.toNat_add]
    exact Nat.mod_eq_of_lt (by change _ + 1 < _; omega)
  refine ⟨hnext, ?_⟩
  rw [UInt32.lt_iff_toNat_lt]
  omega

/-- An event that sends no snapshot and leaves the client its session and its number. -/
theorem Numbers.silent {past : List (Moment Joint Event)} {j j' : Joint} {e : Event}
    (h : Numbers past j) (hsilent : sentAt ⟨j, e, j'⟩ = none)
    (hsessions : j'.sessions = j.sessions) (hsession : j'.client.session = j.client.session)
    (hphase : j.client.phase = .live → j'.client.phase = .live)
    (hsequence : j.client.sequence ≤ j'.client.sequence ∧
        j'.client.sequence.toNat ≤ j.client.sequence.toNat + 1 ∨
      j.client.phase ≠ .live ∧ j'.client.sequence = 0) :
    Numbers (past ++ [⟨j, e, j'⟩]) j' := by
  refine ⟨?_, fun session hfresh => ?_, fun f hf => ?_, fun session => ?_, ?_⟩
  · rw [hsession, hsessions]
    exact h.known
  · rw [sentIn_silent hsilent]
    refine h.unsent session fun hmem => ?_
    obtain ⟨hsame, hnot⟩ := hfresh (hsessions ▸ hmem)
    exact ⟨hsame.trans hsession, fun hlive => hnot (hphase hlive)⟩
  · rw [sentIn_silent hsilent, hsession] at hf
    rcases hsequence with ⟨hle, -⟩ | ⟨hnot, -⟩
    · exact UInt32.le_trans (h.counted f hf) hle
    · rw [h.unsent _ fun _ => ⟨rfl, hnot⟩] at hf
      cases hf
  · rw [sentIn_silent hsilent]
    exact h.rising session
  · rw [List.length_append]
    have hbounded := h.bounded
    rcases hsequence with ⟨-, hnext⟩ | ⟨-, hzero⟩
    · exact hnext.trans (Nat.add_le_add_right hbounded 1)
    · rw [hzero]
      simp

/-- A snapshot takes the next number. -/
theorem Numbers.sends {past : List (Moment Joint Event)} {j j' : Joint} {e : Event}
    (h : Numbers past j) (hlength : past.length + 1 < 2 ^ 32) {f : List UInt8}
    (hsent : sentAt ⟨j, e, j'⟩ = some f) (hlive : j.client.phase = .live)
    (hnames : ∀ session, names session f = decide (j.client.session = session))
    (hnumber : sequenceOf f = j.client.sequence + 1) (hsessions : j'.sessions = j.sessions)
    (hsession : j'.client.session = j.client.session)
    (hphase : j'.client.phase = j.client.phase)
    (hsequence : j'.client.sequence = j.client.sequence + 1) :
    Numbers (past ++ [⟨j, e, j'⟩]) j' := by
  have hbounded := h.bounded
  obtain ⟨hnext, hlt⟩ := h.next hlength
  have hsame (session : Identity) (hother : session ≠ j.client.session) :
      sentIn session (past ++ [⟨j, e, j'⟩]) = sentIn session past := by
    rw [sentIn_concat, hsent]
    simp [hnames, Ne.symm hother]
  have hown : sentIn j.client.session (past ++ [⟨j, e, j'⟩]) =
      sentIn j.client.session past ++ [f] := by
    rw [sentIn_concat, hsent]
    simp [hnames]
  refine ⟨?_, fun session hfresh => ?_, fun g hg => ?_, fun session => ?_, ?_⟩
  · rw [hsession, hsessions]
    exact h.known
  · by_cases hother : session = j.client.session
    · subst hother
      have hnot := (hfresh (hsessions ▸ h.known)).2
      exact absurd (hphase.trans hlive) hnot
    · rw [hsame session hother]
      refine h.unsent session fun hmem => ?_
      exact absurd ((hfresh (hsessions ▸ hmem)).1.trans hsession) hother
  · rw [hsession, hown] at hg
    rw [hsequence]
    rcases List.mem_append.mp hg with hg | hg
    · exact UInt32.le_trans (h.counted g hg) (UInt32.le_of_lt hlt)
    · rw [List.mem_singleton.mp hg, hnumber]
      exact UInt32.le_refl _
  · by_cases hother : session = j.client.session
    · subst hother
      rw [hown, List.pairwise_append]
      refine ⟨h.rising _, List.pairwise_singleton _ _, fun g hg f' hf' => ?_⟩
      rw [List.mem_singleton.mp hf', hnumber]
      exact UInt32.lt_of_le_of_lt (h.counted g hg) hlt
    · rw [hsame session hother]
      exact h.rising session
  · rw [hsequence, hnext, List.length_append]
    exact Nat.add_le_add_right hbounded 1

theorem numbers_step {past : List (Moment Joint Event)} {j : Joint} {e : Event}
    (hagrees : Agrees past j) (h : Numbers past j) (hallowed : j.Allowed e)
    (hlength : past.length + 1 < 2 ^ 32) : Numbers (past ++ [⟨j, e, j.step e⟩]) (j.step e) := by
  have hsessions (hconnect : ∀ knownDevice code session, e ≠ .connect knownDevice code session) :
      (j.step e).sessions = j.sessions := by
    cases e with
    | connect knownDevice code session => exact absurd rfl (hconnect _ _ _)
    | _ => rfl
  rcases step_client j e with hsteady | ⟨knownDevice, code, session, rfl⟩ | ⟨_, rfl⟩ | ⟨frame, rfl⟩
  · have hsame : (j.step e).sessions = j.sessions := hsessions fun knownDevice code session he => by
      subst he
      have hold : session = j.client.session := hsteady.session
      exact hallowed (hold.symm ▸ h.known)
    cases hsent : sentAt ⟨j, e, j.step e⟩ with
    | none =>
      refine h.silent hsent hsame hsteady.session (fun hlive => hsteady.phase.trans hlive)
        (Or.inl ?_)
      rcases hsteady.sequence with hsequence | ⟨-, hsequence⟩
      · rw [hsequence]
        exact ⟨UInt32.le_refl _, Nat.le_succ _⟩
      · obtain ⟨hnext, hlt⟩ := h.next hlength
        rw [hsequence]
        exact ⟨UInt32.le_of_lt hlt, hnext.le⟩
    | some f =>
      obtain ⟨s, utcMs, rfl, hlive, hdecode⟩ := sentAt_eq_some hallowed hsent
      refine h.sends hlength hsent hlive (fun session => ?_) ?_ hsame hsteady.session
        hsteady.phase ?_
      · rw [names, hdecode]
        rfl
      · rw [sequenceOf, hdecode]
        rfl
      · change (j.client.snapshot s utcMs).2.sequence = _
        rw [HostClient.snapshot, if_neg (not_not.mpr hlive)]
        rfl
  · have hnew (σ : Identity) : sentIn σ (past ++ [⟨j, .connect knownDevice code session,
        j.step (.connect knownDevice code session)⟩]) = sentIn σ past := sentIn_silent rfl σ
    have hnone : sentIn session past = [] := h.unsent session fun hmem => absurd hmem hallowed
    refine ⟨List.mem_cons_self, fun σ hfresh => ?_, fun f hf => ?_, fun σ => ?_, Nat.zero_le _⟩
    · rw [hnew]
      by_cases hsame : σ = session
      · rw [hsame, hnone]
      · exact h.unsent σ fun hmem => absurd (hfresh (List.mem_cons_of_mem _ hmem)).1 hsame
    · rw [hnew] at hf
      change f ∈ sentIn session past at hf
      rw [hnone] at hf
      cases hf
    · rw [hnew]
      exact h.rising σ
  · exact h.silent rfl rfl rfl (fun hlive => by
      rcases hallowed with hidle | hsent
      · rw [hidle] at hlive
        cases hlive
      · rw [hsent] at hlive
        cases hlive) (Or.inl ⟨UInt32.le_refl _, Nat.le_succ _⟩)
  · obtain ⟨m, frames, hhandled⟩ := hagrees.handles hallowed
    refine h.silent rfl rfl hhandled.identity.1 (fun hlive => ?_) ?_
    · exact hhandled.live hlive
    · exact hhandled.sequence

end CydMonitor.Session
