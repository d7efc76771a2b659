import CydMonitor.Session.Line
import CydMonitor.Session.Receiving
import Mathlib.Data.List.Sort

/-!
# What the device applies

In every run the snapshots that the device applies in a session are among those that the Host
sent in it, each once and in the order they were sent.
-/

namespace CydMonitor.Session

open Transport Device Trace Codec HostLink

theorem pair_of_isPair {f : List UInt8} {m : Rust.Message} (h : Rust.decode f = .ok m)
    {session : Identity} (hpair : isPair session f = true) :
    ∃ e p, m = .control e (.pair p) ∧ e.session = session := by
  rw [isPair, decode_image h] at hpair
  obtain ⟨htype, hsession⟩ := of_decide_eq_true hpair
  cases m with
  | snapshot e s =>
    change typeOf e.kind = typeOf .pair at htype
    rw [snapshot_kind h] at htype
    cases typeOf_injective htype
  | control e b =>
    cases b with
    | pair p => exact ⟨e, p, rfl, hsession⟩
    | _ =>
      change typeOf e.kind = typeOf .pair at htype
      rw [control_kind h] at htype
      cases typeOf_injective htype

theorem snapshot_of_isSnapshot {f : List UInt8} {m : Rust.Message} (h : Rust.decode f = .ok m)
    (hsnapshot : isSnapshot f = true) : ∃ e s, m = .snapshot e s := by
  rw [isSnapshot, decode_image h] at hsnapshot
  have htype := of_decide_eq_true hsnapshot
  cases m with
  | snapshot e s => exact ⟨e, s, rfl⟩
  | control e b =>
    have hkind : typeOf e.kind = typeOf .snapshot := by
      cases b <;> exact htype
    rw [control_kind h] at hkind
    cases b <;> cases typeOf_injective hkind

/-- The Pairs of a session, on the line and at the device. -/
def pairs (session : Identity) (past : List (Moment Joint Event)) (line : List (List UInt8)) : ℕ :=
  line.countP (isPair session) + past.countP (pairsAt session)

/-- What the Pairs on the line keep. -/
structure Tokens (past : List (Moment Joint Event)) (j : Joint) : Prop where
  once : ∀ session, pairs session past j.toDevice ≤ 1
  fresh : ∀ session, (session ∈ j.sessions → session = j.client.session ∧
    (j.client.phase = .idle ∨ j.client.phase = .helloSent)) → pairs session past j.toDevice = 0

/-- What the device takes from the line has reached it. -/
theorem pairs_left {past : List (Moment Joint Event)} {j : Joint} {e : Event} (h : j.Allowed e)
    (session : Identity) :
    pairs session (past ++ [⟨j, e, j.step e⟩]) (j.left e) = pairs session past j.toDevice := by
  rw [pairs, pairs, List.countP_append]
  cases e with
  | deviceReads now frame =>
    have hperm := (List.perm_cons_erase h).countP_eq (isPair session)
    rw [List.countP_cons] at hperm
    change (j.toDevice.erase frame).countP _ + _ = _
    rw [hperm, List.countP_cons, List.countP_nil]
    change _ + (_ + (0 + if isPair session frame then 1 else 0)) = _
    omega
  | _ => rfl

theorem pairs_append (session : Identity) (past : List (Moment Joint Event))
    (line frames : List (List UInt8)) :
    pairs session past (line ++ frames) =
      pairs session past line + frames.countP (isPair session) := by
  rw [pairs, pairs, List.countP_append]
  omega

theorem Agrees.written {past : List (Moment Joint Event)} {j : Joint} (h : Agrees past j)
    {e : Event} (hallowed : j.Allowed e) :
    ∃ frames : List (List UInt8), (j.step e).toDevice = j.left e ++ frames ∧ frames.length ≤ 1 ∧
      ∀ f ∈ frames, ∃ m, Rust.decode f = .ok m ∧ Writes j e m :=
  exists_written hallowed h.hostIdle fun f hf => by
    obtain ⟨env, b, hb, -⟩ := h.toHost f (List.mem_append_left _ hf)
    exact ⟨_, hb⟩

/-- A Pair is written for the client's session, and only as an answer to its Hello. -/
theorem Writes.isPair {j : Joint} {e : Event} {m : Rust.Message} {f : List UInt8}
    (h : Writes j e m) (hf : Rust.decode f = .ok m) {session : Identity}
    (hpair : isPair session f = true) : session = j.client.session ∧
      j.client.phase = .helloSent ∧ (j.step e).client.phase = .pairSent := by
  obtain ⟨env, p, hm, hsession⟩ := pair_of_isPair hf hpair
  cases h with
  | pair frame env' p' hphase hafter hsession' =>
    cases hm
    exact ⟨hsession.symm.trans hsession', hphase, hafter⟩
  | _ => cases hm

theorem sessions_subset (j : Joint) (e : Event) {session : Identity} (h : session ∈ j.sessions) :
    session ∈ (j.step e).sessions := by
  cases e with
  | connect knownDevice code new => exact List.mem_cons_of_mem _ h
  | _ => exact h

/-- A session that has no Pair after an event had none before it. -/
theorem fresh_before {past : List (Moment Joint Event)} {j : Joint} {e : Event}
    (hagrees : Agrees past j) (hallowed : j.Allowed e) {session : Identity}
    (hknown : session ∈ j.sessions) (hsession : session = (j.step e).client.session)
    (hphase : (j.step e).client.phase = .idle ∨ (j.step e).client.phase = .helloSent) :
    session = j.client.session ∧ (j.client.phase = .idle ∨ j.client.phase = .helloSent) := by
  rcases step_client j e with hsteady | ⟨knownDevice, code, new, rfl⟩ | ⟨_, rfl⟩ | ⟨frame, rfl⟩
  · rw [hsteady.session] at hsession
    rw [hsteady.phase] at hphase
    exact ⟨hsession, hphase⟩
  · change session = new at hsession
    exact absurd (hsession ▸ hknown) hallowed
  · exact ⟨hsession, hallowed⟩
  · obtain ⟨m, frames, hhandled⟩ := hagrees.handles hallowed
    rw [hhandled.identity.1] at hsession
    rw [hhandled.unpaired_phase hphase] at hphase
    exact ⟨hsession, hphase⟩

theorem tokens_step {past : List (Moment Joint Event)} {j : Joint} {e : Event}
    (hagrees : Agrees past j) (h : Tokens past j) (hknown : j.client.session ∈ j.sessions)
    (hallowed : j.Allowed e) : Tokens (past ++ [⟨j, e, j.step e⟩]) (j.step e) := by
  obtain ⟨frames, hframes, hlength, hwrites⟩ := hagrees.written hallowed
  have hpairs (session : Identity) :
      pairs session (past ++ [⟨j, e, j.step e⟩]) (j.step e).toDevice =
        pairs session past j.toDevice + frames.countP (isPair session) := by
    rw [hframes, pairs_append, pairs_left hallowed]
  have hnew (session : Identity) (hsome : frames.countP (isPair session) ≠ 0) :
      session = j.client.session ∧ j.client.phase = .helloSent ∧
        (j.step e).client.phase = .pairSent := by
    obtain ⟨f, hf, hpair⟩ := List.countP_pos_iff.mp (Nat.pos_of_ne_zero hsome)
    obtain ⟨m, hm, hm'⟩ := hwrites f hf
    exact hm'.isPair hm hpair
  refine ⟨fun session => ?_, fun session hfresh => ?_⟩
  · rw [hpairs]
    by_cases hnone : frames.countP (isPair session) = 0
    · rw [hnone]
      exact h.once session
    · obtain ⟨hsession, hphase, -⟩ := hnew session hnone
      rw [h.fresh session fun _ => ⟨hsession, Or.inr hphase⟩, Nat.zero_add]
      exact List.countP_le_length.trans hlength
  · have hold : pairs session past j.toDevice = 0 := by
      refine h.fresh session fun hmem => ?_
      obtain ⟨hsession, hphase⟩ := hfresh (sessions_subset j e hmem)
      exact fresh_before hagrees hallowed hmem hsession hphase
    rw [hpairs, hold, Nat.zero_add]
    by_contra hnone
    obtain ⟨hsession, -, hsent⟩ := hnew session hnone
    obtain ⟨-, hphase⟩ := hfresh (sessions_subset j e (hsession ▸ hknown))
    rw [hsent] at hphase
    rcases hphase with hphase | hphase <;> cases hphase

/-- A snapshot on the line was sent. -/
def Carries (past : List (Moment Joint Event)) (j : Joint) : Prop :=
  ∀ f ∈ j.toDevice, isSnapshot f = true → f ∈ past.filterMap sentAt

theorem left_subset (j : Joint) (e : Event) {f : List UInt8} (hf : f ∈ j.left e) :
    f ∈ j.toDevice := by
  cases e with
  | deviceReads now frame => exact List.mem_of_mem_erase hf
  | _ => exact hf

theorem carries_step {past : List (Moment Joint Event)} {j : Joint} {e : Event}
    (hagrees : Agrees past j) (h : Carries past j) (hallowed : j.Allowed e) :
    Carries (past ++ [⟨j, e, j.step e⟩]) (j.step e) := by
  intro f hf hsnapshot
  rw [List.filterMap_append]
  obtain ⟨frames, hframes, -, hwrites⟩ := hagrees.written hallowed
  have hmem := hf
  rw [hframes] at hmem
  rcases List.mem_append.mp hmem with hold | hnew
  · exact List.mem_append_left _ (h f (left_subset j e hold) hsnapshot)
  obtain ⟨m, hm, hwrites'⟩ := hwrites f hnew
  obtain ⟨env, s, rfl⟩ := snapshot_of_isSnapshot hm hsnapshot
  cases hwrites' with
  | snapshot s utcMs hlive =>
    have hline : f ∈ j.toDevice ++ (j.client.snapshot s utcMs).1.toList := hf
    rcases List.mem_append.mp hline with hold | hsent
    · exact List.mem_append_left _ (h f hold hsnapshot)
    · refine List.mem_append_right _ (List.mem_filterMap.mpr ⟨_, List.mem_singleton_self _, ?_⟩)
      exact Option.mem_toList.mp hsent

/-- The snapshots that the device applied in a session, as frames. -/
def appliedIn (session : Identity) (ms : List (Moment Joint Event)) : List (List UInt8) :=
  (ms.filterMap appliedAt).filter (names session)

theorem appliedIn_concat (session : Identity) (past : List (Moment Joint Event))
    (m : Moment Joint Event) :
    appliedIn session (past ++ [m]) =
      appliedIn session past ++ (appliedAt m).toList.filter (names session) := by
  rw [appliedIn, List.filterMap_append, List.filter_append, appliedIn, List.filterMap_cons]
  cases appliedAt m with
  | none => rfl
  | some f => rfl

theorem appliedIn_silent {past : List (Moment Joint Event)} {m : Moment Joint Event}
    (h : appliedAt m = none) (session : Identity) :
    appliedIn session (past ++ [m]) = appliedIn session past := by
  rw [appliedIn_concat, h]
  exact List.append_nil _

/-- What the device's gate keeps. -/
structure Gate (past : List (Moment Joint Event)) (j : Joint) : Prop where
  kept : ∃ ms, Keeps ms j.device
  spent : ∀ session, appliedIn session past ≠ [] → past.countP (pairsAt session) ≠ 0
  opened : j.device.phase = .kSessionOpen →
    past.countP (pairsAt j.device.feed.session.session) ≠ 0
  pending : j.device.phase = .kAwaitingConfirmation →
    past.countP (pairsAt j.device.pendingSession) ≠ 0 ∧
      appliedIn j.device.pendingSession past = []
  below : j.device.phase = .kSessionOpen →
    ∀ f ∈ appliedIn j.device.feed.session.session past,
      sequenceOf f ≤ j.device.feed.session.lastSequence
  rising : ∀ session, (appliedIn session past).Pairwise (sequenceOf · < sequenceOf ·)

theorem countP_concat {session : Identity} {past : List (Moment Joint Event)}
    (h : past.countP (pairsAt session) ≠ 0) (m : Moment Joint Event) :
    (past ++ [m]).countP (pairsAt session) ≠ 0 := by
  rw [List.countP_append]
  omega

/-- A session whose Pair is still on the line is new to the device. -/
theorem Gate.new_session {past : List (Moment Joint Event)} {j : Joint} (h : Gate past j)
    (htokens : Tokens past j) {now : UInt64} {frame : List UInt8} {d : Cpp.Decoded}
    (hallowed : j.Allowed (.deviceReads now frame)) (hd : Cpp.decode frame = .ok d)
    (htype : d.envelope.type = .kPair) :
    appliedIn d.envelope.session past = [] ∧ ∀ j', List.countP (pairsAt d.envelope.session)
      (past ++ [⟨j, .deviceReads now frame, j'⟩]) ≠ 0 := by
  have hpair : isPair d.envelope.session frame = true := by
    rw [isPair, hd]
    exact decide_eq_true ⟨htype, rfl⟩
  have honce := htokens.once d.envelope.session
  have hline : 0 < j.toDevice.countP (isPair d.envelope.session) :=
    List.countP_pos_iff.mpr ⟨frame, hallowed, hpair⟩
  rw [pairs] at honce
  refine ⟨?_, fun j' => ?_⟩
  · by_contra hsome
    have hspent := h.spent _ hsome
    omega
  · rw [List.countP_append, List.countP_singleton]
    have hat : pairsAt d.envelope.session ⟨j, .deviceReads now frame, j'⟩ = true := hpair
    rw [if_pos hat]
    omega

theorem gate_step {past : List (Moment Joint Event)} {j : Joint} {e : Event}
    (hagrees : Agrees past j) (htokens : Tokens past j) (h : Gate past j)
    (hallowed : j.Allowed e) : Gate (past ++ [⟨j, e, j.step e⟩]) (j.step e) := by
  have hdoes := hagrees.does hallowed
  have hkept := keeps_event hdoes h.kept
  rcases turns_step hdoes h.kept with ⟨session, hsource, hphase, hreceiver, hsilent⟩ |
    ⟨now, frame, d, rfl, hd, htype, hphase, hpending, hsilent⟩ |
    ⟨now, frame, d, rfl, hd, htype, hsession, hnewer, hopen, hphase, hreceiver⟩ |
    ⟨hopen, hpending, hsilent⟩
  · have hsame (σ : Identity) : appliedIn σ (past ++ [⟨j, e, j.step e⟩]) = appliedIn σ past :=
      appliedIn_silent hsilent σ
    have hnew : appliedIn session past = [] ∧
        List.countP (pairsAt session) (past ++ [⟨j, e, j.step e⟩]) ≠ 0 := by
      rcases hsource with ⟨now, frame, d, rfl, hd, htype, rfl⟩ | ⟨rfl, hawaits, rfl⟩
      · obtain ⟨hnone, hcount⟩ := h.new_session htokens hallowed hd htype
        exact ⟨hnone, hcount _⟩
      · obtain ⟨hcount, hnone⟩ := h.pending hawaits
        exact ⟨hnone, countP_concat hcount _⟩
    refine ⟨hkept, fun σ hσ => ?_, fun _ => ?_, fun hawaits => ?_, fun _ f hf => ?_, fun σ => ?_⟩
    · rw [hsame] at hσ
      exact countP_concat (h.spent σ hσ) _
    · rw [hreceiver]
      exact hnew.2
    · rw [hphase] at hawaits
      cases hawaits
    · rw [hsame, hreceiver] at hf
      change f ∈ appliedIn session past at hf
      rw [hnew.1] at hf
      cases hf
    · rw [hsame]
      exact h.rising σ
  · have hsame (σ : Identity) : appliedIn σ (past ++
        [⟨j, .deviceReads now frame, j.step (.deviceReads now frame)⟩]) = appliedIn σ past :=
      appliedIn_silent hsilent σ
    obtain ⟨hnone, hcount⟩ := h.new_session htokens hallowed hd htype
    have hclosed : (j.step (.deviceReads now frame)).device.phase ≠ .kSessionOpen := by
      rw [hphase]
      decide
    refine ⟨hkept, fun σ hσ => ?_, fun hopen => absurd hopen hclosed, fun _ => ?_,
      fun hopen => absurd hopen hclosed, fun σ => ?_⟩
    · rw [hsame] at hσ
      exact countP_concat (h.spent σ hσ) _
    · rw [hpending, hsame]
      exact ⟨hcount _, hnone⟩
    · rw [hsame]
      exact h.rising σ
  · have hat : appliedAt ⟨j, .deviceReads now frame, j.step (.deviceReads now frame)⟩ = none ∨
        appliedAt ⟨j, .deviceReads now frame, j.step (.deviceReads now frame)⟩ = some frame := by
      rw [appliedAt]
      split_ifs
      · exact Or.inr rfl
      · exact Or.inl rfl
    have hcount := countP_concat (h.opened hopen)
      ⟨j, .deviceReads now frame, j.step (.deviceReads now frame)⟩
    have hafter : (j.step (.deviceReads now frame)).device.feed.session.session =
        j.device.feed.session.session := by rw [hreceiver]
    have hlast : (j.step (.deviceReads now frame)).device.feed.session.lastSequence =
        d.envelope.sequence := by rw [hreceiver]
    have hnumber : sequenceOf frame = d.envelope.sequence := by rw [sequenceOf, hd]
    have hnames (σ : Identity) : names σ frame = decide (d.envelope.session = σ) := by
      rw [names, hd]
    have hclosed : (j.step (.deviceReads now frame)).device.phase ≠ .kAwaitingConfirmation := by
      rw [hphase]
      decide
    have hmember (σ : Identity) {f : List UInt8} (hf : f ∈ appliedIn σ
        (past ++ [⟨j, .deviceReads now frame, j.step (.deviceReads now frame)⟩])) :
        f ∈ appliedIn σ past ∨ f = frame ∧ j.device.feed.session.session = σ := by
      rw [appliedIn_concat] at hf
      refine (List.mem_append.mp hf).imp_right fun hlast => ?_
      rcases hat with hat | hat
      · rw [hat] at hlast
        cases hlast
      · rw [hat] at hlast
        obtain ⟨hframe, hname⟩ := List.mem_filter.mp hlast
        rw [List.mem_singleton.mp hframe, hnames] at hname
        exact ⟨List.mem_singleton.mp hframe, hsession.symm.trans (of_decide_eq_true hname)⟩
    refine ⟨hkept, fun σ hσ => ?_, fun _ => ?_, fun hawaits => absurd hawaits hclosed,
      fun _ f hf => ?_, fun σ => ?_⟩
    · obtain ⟨f, hf⟩ := List.exists_mem_of_ne_nil _ hσ
      rcases hmember σ hf with hold | ⟨-, rfl⟩
      · exact countP_concat (h.spent σ (List.ne_nil_of_mem hold)) _
      · exact hcount
    · rw [hafter]
      exact hcount
    · rw [hafter] at hf
      rw [hlast]
      rcases hmember _ hf with hold | ⟨rfl, -⟩
      · exact UInt32.le_trans (h.below hopen f hold) (UInt32.le_of_lt hnewer)
      · rw [hnumber]
        exact UInt32.le_refl _
    · rw [appliedIn_concat, List.pairwise_append]
      refine ⟨h.rising σ, ?_, fun f hf g hg => ?_⟩
      · rcases hat with hat | hat
        · rw [hat]
          exact List.Pairwise.nil
        · rw [hat]
          exact (List.pairwise_singleton _ _).filter _
      · have hlast : g ∈ appliedIn σ
            (past ++ [⟨j, .deviceReads now frame, j.step (.deviceReads now frame)⟩]) := by
          rw [appliedIn_concat]
          exact List.mem_append_right _ hg
        rcases hat with hat | hat
        · rw [hat] at hg
          cases hg
        · rw [hat] at hg
          obtain ⟨hframe, hname⟩ := List.mem_filter.mp hg
          obtain rfl := List.mem_singleton.mp hframe
          rw [hnames] at hname
          obtain rfl : j.device.feed.session.session = σ :=
            hsession.symm.trans (of_decide_eq_true hname)
          rw [hnumber]
          exact UInt32.lt_of_le_of_lt (h.below hopen f hf) hnewer
  · have hsame (σ : Identity) : appliedIn σ (past ++ [⟨j, e, j.step e⟩]) = appliedIn σ past :=
      appliedIn_silent hsilent σ
    refine ⟨hkept, fun σ hσ => ?_, fun hafter => ?_, fun hafter => ?_, fun hafter f hf => ?_,
      fun σ => ?_⟩
    · rw [hsame] at hσ
      exact countP_concat (h.spent σ hσ) _
    · obtain ⟨hbefore, hreceiver⟩ := hopen hafter
      rw [hreceiver]
      exact countP_concat (h.opened hbefore) _
    · obtain ⟨hbefore, hsession⟩ := hpending hafter
      rw [hsession, hsame]
      obtain ⟨hcount, hnone⟩ := h.pending hbefore
      exact ⟨countP_concat hcount _, hnone⟩
    · obtain ⟨hbefore, hreceiver⟩ := hopen hafter
      rw [hsame, hreceiver] at hf
      rw [hreceiver]
      exact h.below hbefore f hf
    · rw [hsame]
      exact h.rising σ

/-- What a run keeps of the snapshots. -/
structure Delivers (past : List (Moment Joint Event)) (j : Joint) : Prop where
  agrees : Agrees past j
  numbers : Numbers past j
  tokens : Tokens past j
  carries : Carries past j
  gate : Gate past j
  arrived : ∀ f ∈ past.filterMap appliedAt, f ∈ past.filterMap sentAt

/-- What is applied is a snapshot from the line. -/
theorem applied_line {past : List (Moment Joint Event)} {j : Joint} {e : Event}
    (hagrees : Agrees past j) (h : Gate past j) (hallowed : j.Allowed e) {f : List UInt8}
    (hf : appliedAt ⟨j, e, j.step e⟩ = some f) : f ∈ j.toDevice ∧ isSnapshot f = true := by
  rcases turns_step (hagrees.does hallowed) h.kept with ⟨_, _, _, _, hsilent⟩ |
    ⟨_, _, _, _, _, _, _, _, hsilent⟩ | ⟨now, frame, d, rfl, hd, htype, -⟩ | ⟨_, _, hsilent⟩
  · rw [hf] at hsilent
    cases hsilent
  · rw [hf] at hsilent
    cases hsilent
  · rw [appliedAt] at hf
    split_ifs at hf
    obtain rfl := Option.some.inj hf
    refine ⟨hallowed, ?_⟩
    rw [isSnapshot, hd]
    exact decide_eq_true htype
  · rw [hf] at hsilent
    cases hsilent

theorem delivers_step {past : List (Moment Joint Event)} {j : Joint} {e : Event}
    (h : Delivers past j) (hallowed : j.Allowed e) (hlength : past.length + 1 < 2 ^ 32) :
    Delivers (past ++ [⟨j, e, j.step e⟩]) (j.step e) := by
  refine ⟨agrees_step h.agrees hallowed, numbers_step h.agrees h.numbers hallowed hlength,
    tokens_step h.agrees h.tokens h.numbers.known hallowed,
    carries_step h.agrees h.carries hallowed, gate_step h.agrees h.tokens h.gate hallowed,
    fun f hf => ?_⟩
  rw [List.filterMap_append] at hf ⊢
  refine List.mem_append_left _ ?_
  rcases List.mem_append.mp hf with hold | hnew
  · exact h.arrived f hold
  · obtain ⟨m, hm, hat⟩ := List.mem_filterMap.mp hnew
    obtain rfl := List.mem_singleton.mp hm
    obtain ⟨hline, hsnapshot⟩ := applied_line h.agrees h.gate hallowed hat
    exact h.carries f hline hsnapshot

theorem delivers_boot (host : Identity) (knownDevice : Option Identity) (code : UInt32)
    (session : Identity) (store : PairingStore) (bootIdentity : UInt32) :
    Delivers [] (.boot (.new host knownDevice code session) store bootIdentity) where
  agrees := agrees_boot host knownDevice code session store bootIdentity
  numbers := ⟨List.mem_singleton_self _, fun _ _ => rfl, fun _ hf => absurd hf List.not_mem_nil,
    fun _ => List.Pairwise.nil, Nat.le_refl 0⟩
  tokens := ⟨fun _ => Nat.zero_le 1, fun _ _ => rfl⟩
  carries := fun _ hf => absurd hf List.not_mem_nil
  gate := ⟨⟨[], keeps_new store bootIdentity⟩, fun _ hσ => absurd rfl hσ,
    fun hopen => LinkPhase.noConfusion hopen, fun hawaits => LinkPhase.noConfusion hawaits,
    fun hopen => LinkPhase.noConfusion hopen, fun _ => List.Pairwise.nil⟩
  arrived := fun _ hf => absurd hf List.not_mem_nil

/-- **Delivery.** Whatever the line loses, delays or reorders, and whenever either end starts
again, the snapshots that the device applies in a session are some of those that the Host sent in
it, byte for byte, each once and in the order they were sent. -/
theorem applied_sublist_sent (host : Identity) (knownDevice : Option Identity) (code : UInt32)
    (session : Identity) (store : PairingStore) (bootIdentity : UInt32) (events : List Event)
    (h : (Joint.boot (.new host knownDevice code session) store bootIdentity).Lawful events)
    (hlength : events.length < 2 ^ 32) (σ : Identity) :
    let ms := (Joint.boot (.new host knownDevice code session) store bootIdentity).run events
    (appliedIn σ ms).Sublist (sentIn σ ms) := by
  intro ms
  have hdelivers : Delivers ms _ := h.history
    (fun past j e hpast hallowed hshort => delivers_step hpast hallowed (by omega))
    (delivers_boot host knownDevice code session store bootIdentity)
  have hsubset : appliedIn σ ms ⊆ sentIn σ ms := by
    intro f hf
    obtain ⟨hmem, hname⟩ := List.mem_filter.mp hf
    exact List.mem_filter.mpr ⟨hdelivers.arrived f hmem, hname⟩
  have hnodup : (appliedIn σ ms).Nodup := by
    refine List.Pairwise.imp ?_ (hdelivers.gate.rising σ)
    rintro f g hlt rfl
    exact UInt32.lt_irrefl _ hlt
  have hasymm : Std.Antisymm fun f g : List UInt8 => sequenceOf f < sequenceOf g :=
    ⟨fun f g hlt hgt => absurd hgt (UInt32.lt_asymm hlt)⟩
  exact List.sublist_of_subperm_of_pairwise (hnodup.subperm hsubset)
    (hdelivers.gate.rising σ) (hdelivers.numbers.rising σ)

section Sample

def sampleSnapshot (share : UInt16) : Rust.Snapshot :=
  { cpu := { availability := .available, utilizationPerMille := share, sourceAgeMs := 0,
             freshness := .fresh, configurationRevision := 0 }
    ram := none, storage := none, battery := none, agents := none, network := none }

/-- The second snapshot overtakes the first one. -/
def overtaking : List (Joint → Event) :=
  handshake ++ [fun _ => .snapshot (sampleSnapshot 100) none,
    fun _ => .snapshot (sampleSnapshot 200) none, fun j => .deviceReads 30 (j.toDevice.getLastD []),
    fun j => .deviceReads 40 (j.toDevice.headD [])]

theorem applied_sublist_sent_overtaking :
    let ms := sampleJoint.run (scripted overtaking sampleJoint)
    ((appliedIn sampleSession ms).length = 1 ∧ (sentIn sampleSession ms).length = 2) ∧
      (appliedIn sampleSession ms).Sublist (sentIn sampleSession ms) := by
  have hlawful : sampleJoint.Lawful (scripted overtaking sampleJoint) := by decide +kernel
  have hshort : (scripted overtaking sampleJoint).length < 2 ^ 32 := by decide +kernel
  refine ⟨by decide +kernel, ?_⟩
  generalize scripted overtaking sampleJoint = events at *
  exact applied_sublist_sent sampleHost none 123456 sampleSession sampleStore 7 events hlawful
    hshort sampleSession

end Sample

end CydMonitor.Session
