import CydMonitor.Transport.Client

/-!
# Refusals of the device

An `Error` of the device ends the session on the Host exactly where the client is not live: there
it is one event, and nothing is sent until the next start. A live client passes over it.
-/

namespace CydMonitor.Transport

open Rust Trace

namespace HostClient

/-- Nothing is sent, whatever is called, until the next start. -/
def Silent (c : HostClient) : Prop :=
  ∀ calls : List Call, (∀ a ∈ calls, a.isStart = false) →
    let c' := calls.foldl call c
    (∀ snapshot utcMs, (c'.snapshot snapshot utcMs).1 = none) ∧
      (∀ operation, (c'.command operation).1 = none) ∧
      ∀ identity operation, (c'.retryCommand identity operation).1 = none

/-- What a refusal does in a read: one event and no frame, the phase that says so, silence after
the read, and an end of `Link::serve`. -/
def EndsSession (c : HostClient) (bytes : List UInt8)
    (m : Moment (HostClient × Output) Message) : Prop :=
  ∃ refusal, m.after.1.phase = .refused refusal ∧ m.after.2.frames = m.before.2.frames ∧
    m.after.2.events = m.before.2.events ++ [.refused refusal] ∧
    (c.receive bytes).1.phase = .refused refusal ∧ (c.receive bytes).1.Silent ∧
    ∃ reason, serveRead bytes c = .error reason

theorem handle_error {c : HostClient} {body : List UInt8} (out : Output) (envelope : Envelope)
    (h : c.phase = .helloSent ∨ c.phase = .pairSent) :
    handle (c, out) (.control envelope (.error body)) =
      ({ c with phase := .refused (.fromBody body) },
        { out with events := out.events ++ [.refused (.fromBody body)] }) := by
  rcases h with h | h
  · simp only [handle, h]
  · simp only [handle, h]

/-- A live client stays live, and reports no refusal. -/
theorem handle_live {c : HostClient} (h : c.phase = .live) (out : Output) (message : Message) :
    (handle (c, out) message).1.phase = .live ∧
      ∀ refusal, .refused refusal ∈ (handle (c, out) message).2.events →
        .refused refusal ∈ out.events := by
  cases message with
  | snapshot envelope snapshot => exact ⟨h, fun _ hr => hr⟩
  | control envelope body =>
    cases body with
    | commandReply reply =>
      simp only [handle, h]
      split_ifs
      · refine ⟨h, fun refusal hr => ?_⟩
        rcases List.mem_append.mp hr with hr | hr
        · exact hr
        · cases List.mem_singleton.mp hr
      · exact ⟨h, fun _ hr => hr⟩
    | hello body => simp only [handle, h]; exact ⟨trivial, fun _ hr => hr⟩
    | helloReply body => simp only [handle, h]; exact ⟨trivial, fun _ hr => hr⟩
    | pair body => simp only [handle, h]; exact ⟨trivial, fun _ hr => hr⟩
    | command body => simp only [handle, h]; exact ⟨trivial, fun _ hr => hr⟩
    | error body => simp only [handle, h]; exact ⟨trivial, fun _ hr => hr⟩

theorem handle_refused {c : HostClient} {refusal : Refusal} (h : c.phase = .refused refusal)
    (out : Output) (message : Message) : handle (c, out) message = (c, out) := by
  cases message with
  | snapshot envelope snapshot => rfl
  | control envelope body => cases body <;> simp only [handle, h]

/-- A message adds events, and does not take a client back to before its start. -/
theorem handle_grows (c : HostClient) (out : Output) (message : Message) :
    (∃ more, (handle (c, out) message).2.events = out.events ++ more) ∧
      (c.phase ≠ .idle → (handle (c, out) message).1.phase ≠ .idle) := by
  have hsame : (∃ more, out.events = out.events ++ more) ∧ (c.phase ≠ .idle → c.phase ≠ .idle) :=
    ⟨⟨[], (List.append_nil _).symm⟩, id⟩
  cases message with
  | snapshot envelope snapshot => exact hsame
  | control envelope body =>
    unfold handle
    dsimp only
    split
    · split
      · exact ⟨⟨_, rfl⟩, fun _ => nofun⟩
      · exact ⟨⟨_, rfl⟩, id⟩
    · split_ifs
      · exact ⟨⟨_, rfl⟩, fun _ => nofun⟩
      · exact hsame
    · exact ⟨⟨_, rfl⟩, fun _ => nofun⟩
    · exact ⟨⟨_, rfl⟩, fun _ => nofun⟩
    · split_ifs
      · exact ⟨⟨_, rfl⟩, id⟩
      · exact hsame
    · exact hsame

theorem foldl_refused {c : HostClient} {refusal : Refusal} (h : c.phase = .refused refusal)
    (out : Output) (messages : List Message) : messages.foldl handle (c, out) = (c, out) := by
  induction messages with
  | nil => rfl
  | cons message messages ih => rw [List.foldl_cons, handle_refused h, ih]

theorem foldl_ne_idle {c : HostClient} (h : c.phase ≠ .idle) (out : Output)
    (messages : List Message) : (messages.foldl handle (c, out)).1.phase ≠ .idle := by
  induction messages generalizing c out with
  | nil => exact h
  | cons message messages ih => exact ih ((handle_grows c out message).2 h) _

theorem call_refused {c : HostClient} {refusal : Refusal} (h : c.phase = .refused refusal)
    {a : Call} (ha : a.isStart = false) : (c.call a).phase = .refused refusal := by
  have hlive : c.phase ≠ .live := by rw [h]; exact nofun
  cases a with
  | start utcMs => cases ha
  | receive bytes =>
    have hread : ({ c with stream := (c.messages bytes).2 } : HostClient).phase =
        .refused refusal := h
    exact (congrArg (fun r => r.1.phase) (foldl_refused hread {} (c.messages bytes).1)).trans h
  | snapshot snapshot utcMs => rw [call, HostClient.snapshot, if_pos hlive]; exact h
  | command operation => rw [call, command, retryCommand, if_pos hlive]; exact h
  | retryCommand identity operation => rw [call, retryCommand, if_pos hlive]; exact h
  | setLocalOffsetMinutes offset => exact h

theorem run_refused {c : HostClient} {refusal : Refusal} (h : c.phase = .refused refusal)
    {calls : List Call} (hcalls : ∀ a ∈ calls, a.isStart = false) :
    (calls.foldl call c).phase = .refused refusal := by
  induction calls generalizing c with
  | nil => exact h
  | cons a calls ih =>
    have hfirst := call_refused h (hcalls a List.mem_cons_self)
    exact ih hfirst fun b hb => hcalls b (List.mem_cons_of_mem a hb)

theorem silent_of_refused {c : HostClient} {refusal : Refusal} (h : c.phase = .refused refusal) :
    c.Silent := by
  intro calls hcalls c'
  have hlive : c'.phase ≠ .live := by
    rw [run_refused h hcalls]
    exact nofun
  refine ⟨fun snapshot utcMs => ?_, fun operation => ?_, fun identity operation => ?_⟩
  · rw [HostClient.snapshot, if_pos hlive]
  · rw [command, retryCommand, if_pos hlive]
    rfl
  · rw [retryCommand, if_pos hlive]

theorem call_ne_idle {c : HostClient} (h : c.phase ≠ .idle) (a : Call) :
    (c.call a).phase ≠ .idle := by
  cases a with
  | start utcMs => exact nofun
  | receive bytes =>
    have hread : ({ c with stream := (c.messages bytes).2 } : HostClient).phase ≠ .idle := h
    exact foldl_ne_idle hread {} (c.messages bytes).1
  | snapshot snapshot utcMs =>
    rw [call, HostClient.snapshot]
    split_ifs
    · exact h
    · exact h
  | command operation =>
    rw [call, command, retryCommand]
    split_ifs
    · exact h
    · exact h
  | retryCommand identity operation =>
    rw [call, retryCommand]
    split_ifs
    · exact h
    · exact h
  | setLocalOffsetMinutes offset => exact h

theorem run_ne_idle {calls : List Call} (h : ∃ utcMs, .start utcMs ∈ calls) (c : HostClient) :
    (calls.foldl call c).phase ≠ .idle := by
  obtain ⟨utcMs, h⟩ := h
  obtain ⟨before, after, rfl⟩ := List.append_of_mem h
  rw [List.foldl_append, List.foldl_cons]
  have hstart : ((before.foldl call c).call (.start utcMs)).phase ≠ .idle := nofun
  exact invariant (I := fun c : HostClient => c.phase ≠ .idle) (fun _ a hc => call_ne_idle hc a)
    hstart after

/-- A refusal among the events of a read ends `Link::serve`. -/
theorem serveRead_error {bytes : List UInt8} {c : HostClient} {refusal : Refusal}
    (h : .refused refusal ∈ (c.receive bytes).2.events) :
    ∃ reason, serveRead bytes c = .error reason := by
  rw [serveRead]
  dsimp only
  split
  case h_1 reason hfound => exact ⟨reason, rfl⟩
  case h_2 hfound =>
    have hnone := List.findSome?_eq_none_iff.mp hfound _ h
    cases hnone

end HostClient

open HostClient

/-- In every run after a start, an `Error` that a client not yet refused handles ends the session
if and only if the client is not live. -/
theorem refusal_ends_session_iff (host : Rust.Identity) (knownDevice : Option Rust.Identity)
    (code : UInt32)
    (session : Rust.Identity) (calls : List Call) (hstart : ∃ utcMs, .start utcMs ∈ calls)
    (bytes : List UInt8) (m : Moment (HostClient × Output) Message)
    (hm : m ∈ (calls.foldl call (.new host knownDevice code session)).handling bytes)
    (envelope : Envelope) (body : List UInt8) (herror : m.action = .control envelope (.error body))
    (hphase : ∀ refusal, m.before.1.phase ≠ .refused refusal) :
    EndsSession (calls.foldl call (.new host knownDevice code session)) bytes m ↔
      m.before.1.phase ≠ .live := by
  have hidle := run_ne_idle hstart (.new host knownDevice code session)
  generalize calls.foldl call (.new host knownDevice code session) = c at *
  obtain ⟨past, rest, hsplit⟩ := List.append_of_mem hm
  obtain ⟨x, hx, hreceive⟩ : ∃ x : HostClient, x.phase ≠ .idle ∧
      (c.receive bytes = (c.messages bytes).1.foldl handle (x, {}) ∧
        moments handle (x, {}) (c.messages bytes).1 = past ++ m :: rest) :=
    ⟨{ c with stream := (c.messages bytes).2 }, hidle, rfl, hsplit⟩
  obtain ⟨earlier, later, hmessages, -, hbefore, hafter, -⟩ := split_moments hreceive.2
  have hread : c.receive bytes = later.foldl handle m.after := by
    rw [hreceive.1, hmessages, List.foldl_append, List.foldl_cons, ← hbefore, hafter]
  obtain ⟨⟨before, out⟩, action, after⟩ := m
  dsimp only at *
  subst herror
  constructor
  · rintro ⟨refusal, hrefused, -⟩ hlive
    have hstill := (handle_live hlive out (.control envelope (.error body))).1
    rw [hafter, hstill] at hrefused
    cases hrefused
  · intro hlive
    have hstarted : before.phase ≠ .idle := by
      have h := foldl_ne_idle hx {} earlier
      rw [← hbefore] at h
      exact h
    have hwaiting : before.phase = .helloSent ∨ before.phase = .pairSent := by
      cases hp : before.phase with
      | idle => exact absurd hp hstarted
      | helloSent => exact .inl rfl
      | pairSent => exact .inr rfl
      | live => exact absurd hp hlive
      | refused refusal => exact absurd hp (hphase refusal)
    rw [handle_error out envelope hwaiting] at hafter
    subst hafter
    have hrefused : ({ before with phase := .refused (.fromBody body) } : HostClient).phase =
        .refused (.fromBody body) := rfl
    have hlast := hread.trans (foldl_refused hrefused _ later)
    have hphase' : (c.receive bytes).1.phase = .refused (.fromBody body) := by rw [hlast]
    refine ⟨.fromBody body, rfl, rfl, rfl, hphase', silent_of_refused hphase', ?_⟩
    have hevent : .refused (.fromBody body) ∈ (c.receive bytes).2.events := by
      rw [hlast]
      exact List.mem_append_right _ (List.mem_singleton_self _)
    exact serveRead_error hevent

/-- A control message of the device, on the wire. -/
def wire (kind : MessageType) (body : ControlBody) : List UInt8 :=
  (encodeControl { major := 1, minor := 0, kind, session := zero, sequence := 1, utcMs := none,
                   utcUncertaintyMs := none, localOffsetMinutes := none } body).toOption.getD []

theorem refusal_ends_session_iff_declined :
    let c := [Call.start none].foldl call (.new zero none 123456 zero)
    ∃ m ∈ c.handling (wire .error (.error [3])),
      (EndsSession c (wire .error (.error [3])) m ↔ m.before.1.phase ≠ .live) ∧
        m.before.1.phase = .helloSent := by
  intro c
  have hmessages : (c.messages (wire .error (.error [3]))).1 =
      [.control { major := 1, minor := 0, kind := .error, session := zero, sequence := 1,
                  utcMs := none, utcUncertaintyMs := none, localOffsetMinutes := none }
        (.error [3])] := by
    decide +kernel
  have hmem : ∃ m ∈ c.handling (wire .error (.error [3])),
      (m.action = .control { major := 1, minor := 0, kind := .error, session := zero, sequence := 1,
                             utcMs := none, utcUncertaintyMs := none, localOffsetMinutes := none }
        (.error [3])) ∧ m.before.1.phase = .helloSent := by
    rw [handling]
    dsimp only
    rw [hmessages]
    exact ⟨_, List.mem_singleton_self _, rfl, rfl⟩
  obtain ⟨m, hm, haction, hphase⟩ := hmem
  refine ⟨m, hm, ?_, hphase⟩
  exact refusal_ends_session_iff zero none 123456 zero [.start none]
    ⟨none, List.mem_singleton_self _⟩ _ m hm _ _ haction fun refusal => by rw [hphase]; exact nofun

/-- A paired client passes over a refusal: it stays live and sends the next snapshot. -/
theorem live_client_passes_over :
    let c := [Call.start none, .receive (wire .helloReply (.helloReply
        { supportedMajor := 1, supportedMinor := 0, capabilities := 0, configurationRevision := 0,
          utcMs := none, utcUncertaintyMs := none })),
      .receive (wire .pair (.pair
        { pairingIdentity := zero, intendedPeerIdentity := zero, matchingCode := 123456 }))].foldl
      call (.new zero none 123456 zero)
    (∃ envelope, (c.messages (wire .error (.error [1]))).1 = [.control envelope (.error [1])]) ∧
      (c.receive (wire .error (.error [1]))).1.phase = .live ∧
      (c.receive (wire .error (.error [1]))).2.events = [] ∧
      ((c.receive (wire .error (.error [1]))).1.snapshot
        { cpu := { availability := .available, utilizationPerMille := 0, sourceAgeMs := 0,
                   freshness := .fresh, configurationRevision := 0 }
          ram := none, storage := none, battery := none, agents := none, network := none }
        none).1.isSome = true ∧
      ¬∀ m ∈ c.handling (wire .error (.error [1])), EndsSession c (wire .error (.error [1])) m := by
  intro c
  have hmessages : (c.messages (wire .error (.error [1]))).1 =
      [.control { major := 1, minor := 0, kind := .error, session := zero, sequence := 1,
                  utcMs := none, utcUncertaintyMs := none, localOffsetMinutes := none }
        (.error [1])] := by
    decide +kernel
  have hlive : (c.receive (wire .error (.error [1]))).1.phase = .live := by decide +kernel
  refine ⟨⟨_, hmessages⟩, hlive, by decide +kernel, by decide +kernel, fun h => ?_⟩
  have hmem : ∃ m, m ∈ c.handling (wire .error (.error [1])) := by
    rw [handling]
    dsimp only
    rw [hmessages]
    exact ⟨_, List.mem_singleton_self _⟩
  obtain ⟨m, hm⟩ := hmem
  obtain ⟨refusal, -, -, -, hrefused, -⟩ := h m hm
  rw [hlive] at hrefused
  cases hrefused

end CydMonitor.Transport
