import CydMonitor.Device.Authorization

/-!
# Commands within a session

The link keeps the outcome of the last command only. Along a run of commands the cache
holds the last identity, so a command is applied once unless another one comes between.
-/

namespace CydMonitor.Device

open Trace HostLink Codec

/-- The command that an action brings for a session. -/
def asked (session : Identity) : Action → Option Cpp.CommandBody
  | .frame _ (.ok d) =>
    if d.envelope.type = .kCommand ∧ d.envelope.session = session then d.envelope.command else none
  | _ => none

/-- The calibration-reset handler was called, or the pairing cleared. -/
def CarriesOut (m : LinkMoment) : Prop :=
  m.after.resets ≠ m.before.resets ∨ m.after.store.operations ≠ m.before.store.operations

/-- The command was answered with a result. -/
def Answers (m : LinkMoment) (c : Cpp.CommandBody) (r : Rust.CommandResult) : Prop :=
  m.after.txSequence = m.before.txSequence + 1 ∧ ∃ b : Rust.CommandBody, c = ofCommand b ∧
    Sends m.before m.after (sent .commandReply m.before.session (m.before.txSequence + 1))
      (.commandReply ⟨b.commandIdentity, b.operation, r⟩)

/-- The recorded outcome of a command. -/
def again : Rust.CommandResult → Rust.CommandResult
  | .applied => .alreadyApplied
  | r => r

/-- A later command with the identity of one that was carried out. -/
def AnsweredAgain (session : Identity) (m n : LinkMoment) : Prop :=
  ∀ c c', asked session m.action = some c → asked session n.action = some c' →
    c'.commandIdentity = c.commandIdentity → CarriesOut m →
    ¬CarriesOut n ∧ ∃ r, Answers m c r ∧ Answers n c' (again r)

/-- The session's commands, in order. -/
def askedCommands (session : Identity) (as : List Action) : List Cpp.CommandBody :=
  as.filterMap (asked session)

def lastIdentity (cs : List Cpp.CommandBody) : Option UInt32 :=
  cs.getLast?.map (·.commandIdentity)

/-- An unpair came that does not repeat the command before it. The first one closes the session. -/
def Closed (cs : List Cpp.CommandBody) : Prop :=
  ∃ before c after, cs = before ++ c :: after ∧
    (c.operation = 1 ∧ lastIdentity before ≠ some c.commandIdentity)

/-- After a command with this identity came one with another, the session still open. -/
def Overtaken (identity : UInt32) (cs : List Cpp.CommandBody) : Prop :=
  ∃ before c after, cs = before ++ c :: after ∧
    (¬Closed before ∧ c.commandIdentity ≠ identity ∧ ∃ x ∈ before, x.commandIdentity = identity)

/-- No identity comes again after another one came in the open session. -/
def NoReturn (cs : List Cpp.CommandBody) : Prop :=
  ∀ before c after, cs = before ++ c :: after → ¬Overtaken c.commandIdentity before

section Order

variable {l : List Cpp.CommandBody} {c : Cpp.CommandBody} {identity : UInt32}

theorem lastIdentity_concat : lastIdentity (l ++ [c]) = some c.commandIdentity := by
  rw [lastIdentity, List.getLast?_concat]
  rfl

theorem mem_of_lastIdentity (h : lastIdentity l = some identity) :
    ∃ x ∈ l, x.commandIdentity = identity := by
  obtain ⟨x, hx, hidentity⟩ := Option.map_eq_some_iff.mp h
  exact ⟨x, List.mem_of_getLast? hx, hidentity⟩

theorem closed_concat : Closed (l ++ [c]) ↔
    Closed l ∨ (c.operation = 1 ∧ lastIdentity l ≠ some c.commandIdentity) :=
  exists_split_concat

theorem overtaken_concat : Overtaken identity (l ++ [c]) ↔ Overtaken identity l ∨
    (¬Closed l ∧ c.commandIdentity ≠ identity ∧ ∃ x ∈ l, x.commandIdentity = identity) :=
  exists_split_concat

theorem noReturn_concat :
    NoReturn (l ++ [c]) ↔ NoReturn l ∧ ¬Overtaken c.commandIdentity l :=
  forall_split_concat

theorem closed_nil : ¬Closed [] := fun ⟨_, _, _, h, _⟩ => absurd h.symm (by simp)

theorem overtaken_nil : ¬Overtaken identity [] := fun ⟨_, _, _, h, _⟩ => absurd h.symm (by simp)

theorem noReturn_nil : NoReturn [] := fun _ _ _ h => absurd h.symm (by simp)

/-- In an open session an identity that came is the last one or was overtaken. -/
theorem came_iff (hopen : ¬Closed l) : (∃ x ∈ l, x.commandIdentity = identity) ↔
    lastIdentity l = some identity ∨ Overtaken identity l := by
  constructor
  · rintro ⟨x, hx, rfl⟩
    obtain ⟨front, last, rfl⟩ := (List.eq_nil_or_concat' l).resolve_left (List.ne_nil_of_mem hx)
    rw [lastIdentity_concat, overtaken_concat]
    by_cases hlast : last.commandIdentity = x.commandIdentity
    · exact Or.inl (congrArg some hlast)
    have hfront : x ∈ front := by
      rcases List.mem_append.mp hx with hx | hx
      · exact hx
      · exact absurd (congrArg _ (List.mem_singleton.mp hx).symm) hlast
    have hstill : ¬Closed front := fun h => hopen (closed_concat.mpr (Or.inl h))
    exact Or.inr (Or.inr ⟨hstill, hlast, x, hfront, rfl⟩)
  · rintro (hlast | ⟨before, c, after, rfl, -, -, x, hx, hidentity⟩)
    · exact mem_of_lastIdentity hlast
    · exact ⟨x, List.mem_append_left _ hx, hidentity⟩

end Order

/-- What is delivered of a session: frames with commands, and what handles no frame. -/
def CommandsOnly (a : Action) : Prop :=
  match a with
  | .frame _ (.ok d) => d.envelope.type = .kCommand
  | .buffer .. | .advance _ | .expire _ | .takeOutgoing => True
  | _ => False

theorem asked_eq_some {session : Identity} {a : Action} {c : Cpp.CommandBody}
    (h : asked session a = some c) : ∃ now d, a = .frame now (.ok d) ∧
      d.envelope.type = .kCommand ∧ d.envelope.session = session ∧ d.envelope.command = some c := by
  cases a with
  | frame now result =>
    cases result with
    | error e => cases h
    | ok d =>
      rw [asked] at h
      split_ifs at h with hd
      exact ⟨now, d, rfl, hd.1, hd.2, h⟩
  | _ => cases h

/-- A decoded command is one of the Host's. -/
theorem exists_command {f : List UInt8} {d : Cpp.Decoded} {c : Cpp.CommandBody}
    (h : Cpp.decode f = .ok d) (htype : d.envelope.type = .kCommand)
    (hc : d.envelope.command = some c) : ∃ b, c = ofCommand b := by
  obtain ⟨m, hm, rfl⟩ := exists_image h
  cases m with
  | snapshot e s => cases hc
  | control e b =>
    have hkind := control_kind hm
    have htype' : typeOf e.kind = .kCommand := by cases b <;> exact htype
    rw [hkind] at htype'
    cases b with
    | command b =>
      cases hc
      exact ⟨b, rfl⟩
    | commandReply b => cases htype'
    | _ => cases hc

/-- What does not ask for a command leaves the session's commands alone. -/
structure Idle (l l' : HostLink) : Prop where
  phase : l'.phase = l.phase
  session : l'.session = l.session
  cachedCommand : l'.cachedCommand = l.cachedCommand
  cachedResult : l'.cachedResult = l.cachedResult
  calibrationReset : l'.calibrationReset = l.calibrationReset

theorem step_idle {l : HostLink} {a : Action} (ha : CommandsOnly a)
    (hphase : l.phase ≠ .kAwaitingConfirmation) (hnone : asked l.session a = none) :
    Idle l (l.step a) := by
  cases a with
  | frame now result =>
    cases result with
    | error e => exact ha.elim
    | ok d =>
      have htype : d.envelope.type = .kCommand := ha
      rw [asked] at hnone
      have hsame : l.step (.frame now (.ok d)) = l := by
        rw [step, onFrame, if_pos (by rw [htype]; decide), onResult, if_neg (by rw [htype]; decide),
          if_neg (by rw [htype]; decide), if_pos htype, onCommand]
        cases hcommand : d.envelope.command with
        | none => rfl
        | some c =>
          dsimp only
          rw [if_pos]
          intro hsession
          rw [if_pos ⟨htype, hsession⟩, hcommand] at hnone
          cases hnone
      rw [hsame]
      exact ⟨rfl, rfl, rfl, rfl, rfl⟩
  | buffer stream lastPushMs => exact ⟨rfl, rfl, rfl, rfl, rfl⟩
  | advance now => exact ⟨rfl, rfl, rfl, rfl, rfl⟩
  | expire now =>
    rw [step, expire, if_neg fun h => hphase h.1]
    exact ⟨rfl, rfl, rfl, rfl, rfl⟩
  | takeOutgoing => exact ⟨rfl, rfl, rfl, rfl, rfl⟩
  | _ => exact ha.elim

/-- The step of a frame with a command of the session. -/
theorem step_asked {l : HostLink} {a : Action} {c : Cpp.CommandBody}
    (hasked : asked l.session a = some c) : ∃ e, e.type = .kCommand ∧ e.session = l.session ∧
      e.command = some c ∧ l.step a = l.onCommand e := by
  obtain ⟨now, d, rfl, htype, hsession, hcommand⟩ := asked_eq_some hasked
  refine ⟨d.envelope, htype, hsession, hcommand, ?_⟩
  rw [step, onFrame, if_pos (by rw [htype]; decide), onResult, if_neg (by rw [htype]; decide),
    if_neg (by rw [htype]; decide), if_pos htype]

/-- A retry is answered with the recorded result. -/
theorem step_retry {l : HostLink} {a : Action} {b : Rust.CommandBody} {r : Rust.CommandResult}
    (hasked : asked l.session a = some (ofCommand b))
    (hcached : l.cachedCommand = some (ofCommand b).commandIdentity)
    (hresult : l.cachedResult = UInt8.ofNat r.code) :
    Idle l (l.step a) ∧ ¬CarriesOut ⟨l, a, l.step a⟩ ∧
      Answers ⟨l, a, l.step a⟩ (ofCommand b) r := by
  obtain ⟨e, -, hsession, hcommand, hstep⟩ := step_asked hasked
  have hreply : l.step a = l.reply (ofCommand b) (UInt8.ofNat r.code) := by
    rw [hstep, onCommand, hcommand]
    dsimp only
    rw [if_neg (not_not.mpr hsession), if_pos hcached, hresult]
  rw [hreply]
  refine ⟨⟨?_, ?_, ?_, ?_, ?_⟩, ?_, send_txSequence _ _, b, rfl, reply_sends l b r⟩
  · exact send_phase _ _
  · exact send_session _ _
  · exact send_cachedCommand _ _
  · exact send_cachedResult _ _
  · exact send_calibrationReset _ _
  · rintro (h | h)
    · exact h (send_resets _ _)
    · exact h (congrArg _ (send_store _ _))

/-- What a new command does. -/
structure Carried (l : HostLink) (a : Action) (b : Rust.CommandBody) (r : Rust.CommandResult) :
    Prop where
  session : (l.step a).session = l.session
  calibrationReset : (l.step a).calibrationReset = l.calibrationReset
  cachedCommand : (l.step a).cachedCommand = some b.commandIdentity
  cachedResult : (l.step a).cachedResult = UInt8.ofNat (again r).code
  answers : Answers ⟨l, a, l.step a⟩ (ofCommand b) r
  carriesOut : CarriesOut ⟨l, a, l.step a⟩ ↔
    (ofCommand b).operation = 1 ∨ l.calibrationReset.isSome = true
  phase : (l.step a).phase = if (ofCommand b).operation = 1 then .kNegotiated else .kSessionOpen

/-- The link after the reply to a new command. -/
private def replied (l : HostLink) (resets : ℕ) (b : Rust.CommandBody) (r : Rust.CommandResult) :
    HostLink :=
  reply (ofCommand b) (UInt8.ofNat r.code)
    (cache (ofCommand b) (UInt8.ofNat r.code) { l with resets })

private theorem replied_cached (l : HostLink) (resets : ℕ) (b : Rust.CommandBody)
    (r : Rust.CommandResult) :
    (replied l resets b r).cachedCommand = some b.commandIdentity ∧
      (replied l resets b r).cachedResult = UInt8.ofNat (again r).code := by
  refine ⟨send_cachedCommand _ _, (send_cachedResult _ _).trans ?_⟩
  cases r <;> rfl

private theorem replied_sends (l : HostLink) (resets : ℕ) (b : Rust.CommandBody)
    (r : Rust.CommandResult) : Sends l (replied l resets b r)
      (sent .commandReply l.session (l.txSequence + 1))
      (.commandReply ⟨b.commandIdentity, b.operation, r⟩) :=
  reply_sends (cache (ofCommand b) (UInt8.ofNat r.code) { l with resets }) b r

private theorem closeSession_phase {l : HostLink} (hopen : l.phase = .kSessionOpen) :
    l.closeSession.phase = .kNegotiated := by
  rw [closeSession]
  exact if_pos (Or.inl hopen)

private theorem step_unpair {l : HostLink} {a : Action} {b : Rust.CommandBody}
    (hopen : l.phase = .kSessionOpen) (hunpair : (ofCommand b).operation = 1)
    {r : Rust.CommandResult} (hstep : l.step a = closeSession
      { replied l l.resets b r with store := l.store.clearPairedHost }) : Carried l a b r := by
  obtain ⟨hcached, hresult⟩ := replied_cached l l.resets b r
  refine ⟨?_, ?_, ?_, ?_, ⟨?_, b, rfl, ?_⟩, ⟨fun _ => Or.inl hunpair, fun _ => Or.inr ?_⟩, ?_⟩
  · rw [hstep]
    exact send_session _ _
  · rw [hstep]
    exact send_calibrationReset _ _
  · rw [hstep]
    exact hcached
  · rw [hstep]
    exact hresult
  · rw [hstep]
    exact send_txSequence _ _
  · rw [hstep]
    exact replied_sends l l.resets b r
  · change (l.step a).store.operations ≠ l.store.operations
    rw [hstep]
    exact Nat.succ_ne_self _
  · rw [hstep, if_pos hunpair]
    exact closeSession_phase ((send_phase _ _).trans hopen)

private theorem step_reset {l : HostLink} {a : Action} {b : Rust.CommandBody}
    (hopen : l.phase = .kSessionOpen) (hother : (ofCommand b).operation ≠ 1) {resets : ℕ}
    {r : Rust.CommandResult} (hresets : resets ≠ l.resets ↔ l.calibrationReset.isSome = true)
    (hstep : l.step a = replied l resets b r) : Carried l a b r := by
  obtain ⟨hcached, hresult⟩ := replied_cached l resets b r
  refine ⟨?_, ?_, ?_, ?_, ⟨?_, b, rfl, ?_⟩, ?_, ?_⟩
  · rw [hstep]
    exact send_session _ _
  · rw [hstep]
    exact send_calibrationReset _ _
  · rw [hstep]
    exact hcached
  · rw [hstep]
    exact hresult
  · rw [hstep]
    exact send_txSequence _ _
  · rw [hstep]
    exact replied_sends l resets b r
  · have hstore : (l.step a).store = l.store := by
      rw [hstep]
      exact send_store _ _
    have hcount : (l.step a).resets = resets := by
      rw [hstep]
      exact send_resets _ _
    simp only [CarriesOut, hstore, hcount, ne_eq, not_true, or_false, hother, false_or]
    exact hresets
  · rw [hstep, if_neg hother]
    exact (send_phase _ _).trans hopen

/-- A new command in an open session. -/
theorem step_new {l : HostLink} {a : Action} {b : Rust.CommandBody}
    (hopen : l.phase = .kSessionOpen) (hasked : asked l.session a = some (ofCommand b))
    (hcached : l.cachedCommand ≠ some b.commandIdentity) : ∃ r, Carried l a b r := by
  obtain ⟨e, htype, hsession, hcommand, hstep⟩ := step_asked hasked
  have hexecutes : Executes l e (ofCommand b) := ⟨htype, hcommand, hsession, hcached, hopen⟩
  rw [onCommand_of_executes hexecutes] at hstep
  cases hoperation : b.operation with
  | unpair =>
    have hone : (ofCommand b).operation = 1 := by
      rw [ofCommand, hoperation]
      rfl
    rw [if_pos hone, execute_unpair hone] at hstep
    by_cases hpaired : l.store.pairedHost.isSome = true
    · rw [if_pos hpaired] at hstep
      exact ⟨.applied, step_unpair hopen hone hstep⟩
    · rw [if_neg hpaired] at hstep
      exact ⟨.alreadyApplied, step_unpair hopen hone hstep⟩
  | calibrationReset =>
    have htwo : (ofCommand b).operation = 2 := by
      rw [ofCommand, hoperation]
      rfl
    have hother : (ofCommand b).operation ≠ 1 := by
      rw [htwo]
      decide
    rw [if_neg hother, execute_reset htwo] at hstep
    rcases Option.eq_none_or_eq_some l.calibrationReset with hnone | ⟨handler, hsome⟩
    · rw [resetCalibration_none hnone] at hstep
      exact ⟨.rejected, step_reset hopen hother (by simp [hnone]) hstep⟩
    · rw [resetCalibration_some hsome] at hstep
      have hresets : l.resets + 1 ≠ l.resets ↔ l.calibrationReset.isSome = true := by
        simp [hsome]
      cases happlied : handler l.resets with
      | true =>
        rw [happlied] at hstep
        exact ⟨.applied, step_reset hopen hother hresets hstep⟩
      | false =>
        rw [happlied] at hstep
        exact ⟨.rejected, step_reset hopen hother hresets hstep⟩

/-- A new command once the session is closed is dropped. -/
theorem step_dropped {l : HostLink} {a : Action} {c : Cpp.CommandBody}
    (hclosed : l.phase ≠ .kSessionOpen) (hasked : asked l.session a = some c)
    (hcached : l.cachedCommand ≠ some c.commandIdentity) : l.step a = l := by
  obtain ⟨e, -, hsession, hcommand, hstep⟩ := step_asked hasked
  rw [hstep, onCommand, hcommand]
  dsimp only
  rw [if_neg (not_not.mpr hsession), if_neg hcached, if_pos hclosed]

/-- A command with this identity was carried out. -/
def CarriedOut (session : Identity) (past : List LinkMoment) (identity : UInt32) : Prop :=
  ∃ m ∈ past, ∃ c, asked session m.action = some c ∧ c.commandIdentity = identity ∧ CarriesOut m

/-- What a run of commands keeps: in the open session the cache holds the last identity, after
the unpair that of the unpair, always with its outcome. -/
structure Recorded (session : Identity) (handler : Option (ℕ → Bool)) (past : List LinkMoment)
    (cs : List Cpp.CommandBody) (l : HostLink) : Prop where
  inSession : l.session = session
  handled : l.calibrationReset = handler
  phase : (¬Closed cs ∧ l.phase = .kSessionOpen) ∨ (Closed cs ∧ l.phase = .kNegotiated)
  cached : ¬Closed cs → l.cachedCommand = lastIdentity cs
  coded : l.cachedCommand ≠ none → ∃ r : Rust.CommandResult, l.cachedResult = UInt8.ofNat r.code
  outcome : past.Pairwise (AnsweredAgain session) → ∀ m ∈ past, ∀ c,
    asked session m.action = some c → CarriesOut m → l.cachedCommand = some c.commandIdentity →
      ∃ r, Answers m c r ∧ l.cachedResult = UInt8.ofNat (again r).code
  carried : handler.isSome = true → ∀ identity, CarriedOut session past identity ↔
    l.cachedCommand = some identity ∨ Overtaken identity cs
  quiet : handler = none → ∀ identity, CarriedOut session past identity →
    Closed cs ∧ l.cachedCommand = some identity
  free : NoReturn cs → ∀ identity, l.cachedCommand = some identity → ¬Overtaken identity cs
  once : past.Pairwise (AnsweredAgain session) ↔ handler = none ∨ NoReturn cs

theorem pairwise_concat {α : Type} {R : α → α → Prop} {l : List α} {x : α} :
    (l ++ [x]).Pairwise R ↔ l.Pairwise R ∧ ∀ m ∈ l, R m x := by
  simp [List.pairwise_append]

theorem carriedOut_concat {session : Identity} {past : List LinkMoment} {m : LinkMoment}
    {identity : UInt32} : CarriedOut session (past ++ [m]) identity ↔
      CarriedOut session past identity ∨
        ∃ c, asked session m.action = some c ∧ c.commandIdentity = identity ∧ CarriesOut m := by
  simp only [CarriedOut, List.mem_append, List.mem_singleton, or_and_right, exists_or,
    exists_eq_left]

section Step

variable {session : Identity} {handler : Option (ℕ → Bool)} {past : List LinkMoment}
  {cs : List Cpp.CommandBody} {l : HostLink} {a : Action} {n : LinkMoment} {c : Cpp.CommandBody}

theorem answeredAgain_fresh (hc : asked session n.action = some c)
    (hfresh : ¬CarriedOut session past c.commandIdentity) :
    ∀ m ∈ past, AnsweredAgain session m n := by
  intro m hm c₀ c' hc₀ hc' hsame hout
  obtain rfl : c = c' := Option.some.inj (hc.symm.trans hc')
  exact absurd ⟨m, hm, c₀, hc₀, hsame.symm, hout⟩ hfresh

theorem answered_of_carriedOut (hc : asked session n.action = some c)
    (hcarried : CarriedOut session past c.commandIdentity)
    (h : ∀ m ∈ past, AnsweredAgain session m n) : ¬CarriesOut n ∧ ∃ r, Answers n c r := by
  obtain ⟨m, hm, c₀, hc₀, hsame, hout⟩ := hcarried
  obtain ⟨hnot, r, -, hanswer⟩ := h m hm c₀ c hc₀ hc hsame.symm hout
  exact ⟨hnot, again r, hanswer⟩

/-- A command whose identity is not the recorded one is carried out again, or not answered. -/
private theorem once_new (h : Recorded session handler past cs l)
    (hc : asked session n.action = some c) (hcached : l.cachedCommand ≠ some c.commandIdentity)
    (hagain : handler.isSome = true → ¬CarriesOut n → ¬∃ r, Answers n c r) :
    (past ++ [n]).Pairwise (AnsweredAgain session) ↔ handler = none ∨ NoReturn (cs ++ [c]) := by
  rw [pairwise_concat, noReturn_concat]
  rcases Option.eq_none_or_eq_some handler with hnone | ⟨answer, hsome⟩
  · have hfresh : ¬CarriedOut session past c.commandIdentity := fun hcarried =>
      hcached (h.quiet hnone _ hcarried).2
    exact iff_of_true ⟨h.once.mpr (Or.inl hnone), answeredAgain_fresh hc hfresh⟩ (Or.inl hnone)
  have hisSome : handler.isSome = true := by
    rw [hsome]
    rfl
  have hcarried : CarriedOut session past c.commandIdentity ↔ Overtaken c.commandIdentity cs :=
    (h.carried hisSome _).trans (or_iff_right hcached)
  have hnone : handler ≠ none := by
    rw [hsome]
    nofun
  rw [h.once, or_iff_right hnone, or_iff_right hnone, ← hcarried]
  refine and_congr_right fun _ => ⟨fun hall hout => ?_, answeredAgain_fresh hc⟩
  obtain ⟨hnot, hanswers⟩ := answered_of_carriedOut hc hout hall
  exact hagain hisSome hnot hanswers

private theorem recorded_idle (h : Recorded session handler past cs l)
    (hidle : Idle l (l.step a)) (hnone : asked session a = none) :
    Recorded session handler (past ++ [⟨l, a, l.step a⟩]) cs (l.step a) := by
  have hsilent (m : LinkMoment) : AnsweredAgain session m ⟨l, a, l.step a⟩ := fun c c' _ hc' =>
    absurd (hnone.symm.trans hc') nofun
  have hcarried {identity : UInt32} :
      CarriedOut session (past ++ [⟨l, a, l.step a⟩]) identity ↔
        CarriedOut session past identity := by
    rw [carriedOut_concat]
    exact or_iff_left fun ⟨c, hc, _⟩ => absurd (hnone.symm.trans hc) nofun
  refine ⟨hidle.session.trans h.inSession, hidle.calibrationReset.trans h.handled, ?_, ?_, ?_, ?_,
    ?_, ?_, ?_, ?_⟩
  · rw [hidle.phase]
    exact h.phase
  · rw [hidle.cachedCommand]
    exact h.cached
  · rw [hidle.cachedCommand, hidle.cachedResult]
    exact h.coded
  · intro hpair m hm c hc
    rw [hidle.cachedCommand, hidle.cachedResult]
    rcases List.mem_append.mp hm with hm | hm
    · exact h.outcome (pairwise_concat.mp hpair).1 m hm c hc
    · rw [List.mem_singleton.mp hm] at hc
      exact absurd (hnone.symm.trans hc) nofun
  · simp only [hcarried, hidle.cachedCommand]
    exact h.carried
  · simp only [hcarried, hidle.cachedCommand]
    exact h.quiet
  · rw [hidle.cachedCommand]
    exact h.free
  · rw [pairwise_concat, and_iff_left fun m _ => hsilent m]
    exact h.once

private theorem recorded_retry (h : Recorded session handler past cs l) {b : Rust.CommandBody}
    (hasked : asked session a = some (ofCommand b))
    (hcached : l.cachedCommand = some b.commandIdentity) :
    Recorded session handler (past ++ [⟨l, a, l.step a⟩]) (cs ++ [ofCommand b]) (l.step a) := by
  obtain ⟨r₀, hr₀⟩ := h.coded (by rw [hcached]; nofun)
  have hasked' : asked l.session a = some (ofCommand b) := h.inSession.symm ▸ hasked
  obtain ⟨hidle, hnot, -⟩ := step_retry hasked' hcached hr₀
  have hclosed : Closed (cs ++ [ofCommand b]) ↔ Closed cs := by
    rw [closed_concat]
    refine or_iff_left_of_imp fun ⟨_, hlast⟩ => by_contra fun hopen => hlast ?_
    rw [← h.cached hopen]
    exact hcached
  have hcarried {identity : UInt32} :
      CarriedOut session (past ++ [⟨l, a, l.step a⟩]) identity ↔
        CarriedOut session past identity := by
    rw [carriedOut_concat]
    exact or_iff_left fun ⟨_, _, _, hout⟩ => hnot hout
  have hovertaken {identity : UInt32} :
      l.cachedCommand = some identity ∨ Overtaken identity (cs ++ [ofCommand b]) ↔
        l.cachedCommand = some identity ∨ Overtaken identity cs := by
    rw [overtaken_concat]
    refine ⟨?_, Or.imp_right Or.inl⟩
    rintro (hlast | hold | ⟨hopen, -, hcame⟩)
    · exact Or.inl hlast
    · exact Or.inr hold
    · rw [h.cached hopen]
      exact (came_iff hopen).mp hcame
  refine ⟨hidle.session.trans h.inSession, hidle.calibrationReset.trans h.handled, ?_, ?_, ?_, ?_,
    ?_, ?_, ?_, ?_⟩
  · rw [hidle.phase, hclosed]
    exact h.phase
  · rw [hidle.cachedCommand, hcached, lastIdentity_concat]
    exact fun _ => rfl
  · rw [hidle.cachedCommand, hidle.cachedResult]
    exact h.coded
  · intro hpair m hm c hc hout
    rw [hidle.cachedCommand, hidle.cachedResult]
    rcases List.mem_append.mp hm with hm | hm
    · exact h.outcome (pairwise_concat.mp hpair).1 m hm c hc hout
    · rw [List.mem_singleton.mp hm] at hout
      exact absurd hout hnot
  · simp only [hcarried, hidle.cachedCommand, hovertaken]
    exact h.carried
  · simp only [hcarried, hidle.cachedCommand, hclosed]
    exact h.quiet
  · intro hreturn identity hlast hovertaken'
    rw [hidle.cachedCommand] at hlast
    have hsame : b.commandIdentity = identity := Option.some.inj (hcached.symm.trans hlast)
    rcases overtaken_concat.mp hovertaken' with hold | ⟨-, hother, -⟩
    · exact h.free (noReturn_concat.mp hreturn).1 identity hlast hold
    · exact hother hsame
  · rw [pairwise_concat, noReturn_concat, h.once]
    refine ⟨fun ⟨hcases, _⟩ => hcases.imp_right fun hreturn =>
      ⟨hreturn, h.free hreturn _ hcached⟩, fun hcases => ?_⟩
    have hbefore := hcases.imp_right And.left
    refine ⟨hbefore, fun m hm c c' hc hc' hsame hout => ⟨hnot, ?_⟩⟩
    obtain rfl : ofCommand b = c' := Option.some.inj (hasked.symm.trans hc')
    obtain ⟨r, hanswer, hresult⟩ := h.outcome (h.once.mpr hbefore) m hm c hc hout
      (hcached.trans (congrArg some hsame))
    exact ⟨r, hanswer, (step_retry hasked' hcached hresult).2.2⟩

private theorem recorded_new (h : Recorded session handler past cs l)
    (hopen : ¬Closed cs) (hphase : l.phase = .kSessionOpen) {b : Rust.CommandBody}
    (hasked : asked session a = some (ofCommand b))
    (hcached : l.cachedCommand ≠ some b.commandIdentity) :
    Recorded session handler (past ++ [⟨l, a, l.step a⟩]) (cs ++ [ofCommand b]) (l.step a) := by
  have hasked' : asked l.session a = some (ofCommand b) := h.inSession.symm ▸ hasked
  obtain ⟨r, hnew⟩ := step_new hphase hasked' hcached
  have hcarries := hnew.carriesOut
  rw [h.handled] at hcarries
  have hlast : lastIdentity cs ≠ some (ofCommand b).commandIdentity := by
    rw [← h.cached hopen]
    exact hcached
  have hclosed : Closed (cs ++ [ofCommand b]) ↔ (ofCommand b).operation = 1 := by
    rw [closed_concat, or_iff_right hopen, and_iff_left hlast]
  have hunquiet (hnone : handler = none) {identity : UInt32} : ¬CarriedOut session past identity :=
    fun hcarried => hopen (h.quiet hnone identity hcarried).1
  have hsame {c : Cpp.CommandBody} (hc : asked session a = some c) : ofCommand b = c :=
    Option.some.inj (hasked.symm.trans hc)
  refine ⟨hnew.session.trans h.inSession, hnew.calibrationReset.trans h.handled, ?_, ?_, ?_, ?_,
    ?_, ?_, ?_, once_new h hasked hcached fun hsome hnot =>
      absurd (hcarries.mpr (Or.inr hsome)) hnot⟩
  · rw [hclosed, hnew.phase]
    by_cases hunpair : (ofCommand b).operation = 1
    · exact Or.inr ⟨hunpair, if_pos hunpair⟩
    · exact Or.inl ⟨hunpair, if_neg hunpair⟩
  · rw [hnew.cachedCommand, lastIdentity_concat]
    exact fun _ => rfl
  · exact fun _ => ⟨again r, hnew.cachedResult⟩
  · intro hpair m hm c hc hout hlast'
    rw [hnew.cachedCommand] at hlast'
    rcases List.mem_append.mp hm with hm | hm
    · have hcarried : CarriedOut session past b.commandIdentity :=
        ⟨m, hm, c, hc, (Option.some.inj hlast').symm, hout⟩
      have hnot := (answered_of_carriedOut hasked hcarried (pairwise_concat.mp hpair).2).1
      cases hhandler : handler with
      | none => exact absurd hcarried (hunquiet hhandler)
      | some answer =>
        rw [hhandler] at hcarries
        exact absurd (hcarries.mpr (Or.inr rfl)) hnot
    · rw [List.mem_singleton.mp hm] at hc ⊢
      obtain rfl := hsame hc
      exact ⟨r, hnew.answers, hnew.cachedResult⟩
  · intro hsome identity
    have hout : CarriesOut ⟨l, a, l.step a⟩ := hcarries.mpr (Or.inr hsome)
    rw [carriedOut_concat, h.carried hsome, h.cached hopen, ← came_iff hopen, hnew.cachedCommand,
      overtaken_concat]
    constructor
    · rintro (hcame | ⟨c, hc, rfl, -⟩)
      · by_cases hthis : b.commandIdentity = identity
        · exact Or.inl (congrArg some hthis)
        · exact Or.inr (Or.inr ⟨hopen, hthis, hcame⟩)
      · obtain rfl := hsame hc
        exact Or.inl rfl
    · rintro (hthis | hold | ⟨-, -, hcame⟩)
      · exact Or.inr ⟨ofCommand b, hasked, Option.some.inj hthis, hout⟩
      · exact Or.inl ((came_iff hopen).mpr (Or.inr hold))
      · exact Or.inl hcame
  · intro hnone identity hcarried
    rcases carriedOut_concat.mp hcarried with hold | ⟨c, hc, rfl, hout⟩
    · exact absurd hold (hunquiet hnone)
    · obtain rfl := hsame hc
      refine ⟨hclosed.mpr ((hcarries.mp hout).resolve_right ?_), hnew.cachedCommand⟩
      rw [hnone]
      nofun
  · intro hreturn identity hthis hovertaken
    rw [hnew.cachedCommand] at hthis
    obtain rfl := Option.some.inj hthis
    rcases overtaken_concat.mp hovertaken with hold | ⟨-, hother, -⟩
    · exact (noReturn_concat.mp hreturn).2 hold
    · exact hother rfl

private theorem recorded_dropped (h : Recorded session handler past cs l) (hclosed : Closed cs)
    (hphase : l.phase = .kNegotiated) (hasked : asked session a = some c)
    (hcached : l.cachedCommand ≠ some c.commandIdentity) :
    Recorded session handler (past ++ [⟨l, a, l.step a⟩]) (cs ++ [c]) (l.step a) := by
  have hstep : l.step a = l :=
    step_dropped (by rw [hphase]; decide) (h.inSession.symm ▸ hasked) hcached
  rw [hstep]
  have hnot : ¬CarriesOut ⟨l, a, l⟩ := fun h => h.elim (absurd rfl) (absurd rfl)
  have hstill : Closed (cs ++ [c]) := closed_concat.mpr (Or.inl hclosed)
  have hcarried {identity : UInt32} : CarriedOut session (past ++ [⟨l, a, l⟩]) identity ↔
      CarriedOut session past identity := by
    rw [carriedOut_concat]
    exact or_iff_left fun ⟨_, _, _, hout⟩ => hnot hout
  have hovertaken {identity : UInt32} :
      Overtaken identity (cs ++ [c]) ↔ Overtaken identity cs := by
    rw [overtaken_concat]
    exact or_iff_left fun ⟨hopen, _⟩ => hopen hclosed
  refine ⟨h.inSession, h.handled, Or.inr ⟨hstill, hphase⟩, fun hopen => absurd hstill hopen,
    h.coded, ?_, ?_, ?_, ?_, once_new h hasked hcached fun _ _ ⟨r, hanswer⟩ => ?_⟩
  · intro hpair m hm c' hc' hout
    rcases List.mem_append.mp hm with hm | hm
    · exact h.outcome (pairwise_concat.mp hpair).1 m hm c' hc' hout
    · rw [List.mem_singleton.mp hm] at hout
      exact absurd hout hnot
  · simp only [hcarried, hovertaken]
    exact h.carried
  · simp only [hcarried]
    exact fun hnone identity hout => ⟨hstill, (h.quiet hnone identity hout).2⟩
  · simp only [hovertaken]
    exact fun hreturn => h.free (noReturn_concat.mp hreturn).1
  · exact absurd hanswer.1.symm (by simp)

end Step

theorem recorded_step {session : Identity} {handler : Option (ℕ → Bool)} {past : List LinkMoment}
    {cs : List Cpp.CommandBody} {l : HostLink} {a : Action}
    (h : Recorded session handler past cs l) (ha : CommandsOnly a)
    (hdecoded : ∀ c, asked session a = some c → ∃ b, c = ofCommand b) :
    Recorded session handler (past ++ [⟨l, a, l.step a⟩]) (cs ++ (asked session a).toList)
      (l.step a) := by
  cases hasked : asked session a with
  | none =>
    have hphase : l.phase ≠ .kAwaitingConfirmation := by
      rcases h.phase with ⟨-, hphase⟩ | ⟨-, hphase⟩ <;> simp [hphase]
    have hnone : asked l.session a = none := by rw [h.inSession, hasked]
    rw [Option.toList_none, List.append_nil]
    exact recorded_idle h (step_idle ha hphase hnone) hasked
  | some c =>
    obtain ⟨b, rfl⟩ := hdecoded c hasked
    by_cases hcached : l.cachedCommand = some b.commandIdentity
    · exact recorded_retry h hasked hcached
    rcases h.phase with ⟨hopen, hphase⟩ | ⟨hclosed, hphase⟩
    · exact recorded_new h hopen hphase hasked hcached
    · exact recorded_dropped h hclosed hphase hasked hcached

/-- `Recorded` of a run's own commands. -/
private def RecordedRun (session : Identity) (handler : Option (ℕ → Bool))
    (past : List LinkMoment) (l : HostLink) : Prop :=
  Recorded session handler past (askedCommands session (past.map Moment.action)) l

theorem askedCommands_concat (session : Identity) (past : List LinkMoment) (m : LinkMoment) :
    askedCommands session ((past ++ [m]).map Moment.action) =
      askedCommands session (past.map Moment.action) ++ (asked session m.action).toList := by
  simp only [askedCommands, List.map_append, List.filterMap_append, List.map_cons, List.map_nil]
  cases h : asked session m.action with
  | none => simp [h]
  | some c => simp [h]

theorem recorded_run {l : HostLink} {calls : List Call} (hopen : l.phase = .kSessionOpen)
    (hnew : l.cachedCommand = none) (hcommands : ∀ a ∈ l.runActions calls, CommandsOnly a) :
    Recorded l.session l.calibrationReset (l.run calls)
      (askedCommands l.session (l.runActions calls)) ((l.runActions calls).foldl step l) := by
  have hstep : ∀ past l' a, RecordedRun l.session l.calibrationReset past l' →
      (CommandsOnly a ∧ ∀ c, asked l.session a = some c → ∃ b, c = ofCommand b) →
      RecordedRun l.session l.calibrationReset (past ++ [⟨l', a, l'.step a⟩]) (l'.step a) := by
    intro past l' a h ha
    rw [RecordedRun, askedCommands_concat]
    exact recorded_step h ha.1 ha.2
  have hcarried {identity : UInt32} : ¬CarriedOut l.session [] identity := fun ⟨_, hm, _⟩ =>
    absurd hm List.not_mem_nil
  have hstart : RecordedRun l.session l.calibrationReset [] l :=
    ⟨rfl, rfl, Or.inl ⟨closed_nil, hopen⟩, fun _ => hnew, fun h => absurd hnew h,
      fun _ _ hm => absurd hm List.not_mem_nil,
      fun _ _ => iff_of_false hcarried (by rw [hnew]; exact fun h => h.elim nofun overtaken_nil),
      fun _ _ h => absurd h hcarried, fun _ _ _ => overtaken_nil,
      iff_of_true List.Pairwise.nil (Or.inr noReturn_nil)⟩
  have hrun := history_of hstep hstart (l.runActions calls) fun past m rest h => ?_
  · rw [RecordedRun, map_action_moments] at hrun
    exact hrun
  have haction : m.action ∈ l.runActions calls := by
    rw [← map_action_run, run, h]
    simp
  refine ⟨hcommands _ haction, fun c hc => ?_⟩
  obtain ⟨now, d, ha, htype, -, hcommand⟩ := asked_eq_some hc
  rw [ha] at haction
  obtain ⟨f, hf⟩ := frame_decoded haction
  exact exists_command hf htype hcommand

/-- **Commands at most once.** Of the commands delivered within one session each is carried
out at most once, and its repetitions answered with its recorded outcome, exactly when no
identity comes again after another one came in the open session, or no handler is set. -/
theorem commands_once_iff (l : HostLink) (calls : List Call) (hopen : l.phase = .kSessionOpen)
    (hnew : l.cachedCommand = none) (hcommands : ∀ a ∈ l.runActions calls, CommandsOnly a) :
    (l.run calls).Pairwise (AnsweredAgain l.session) ↔ l.calibrationReset = none ∨
      NoReturn (askedCommands l.session (l.runActions calls)) :=
  (recorded_run hopen hnew hcommands).once

/-- A link with an open session and a calibration-reset handler. -/
def openLink : HostLink :=
  { HostLink.new ⟨kZeroIdentity, some kZeroIdentity, fun _ => true, 0⟩ 0 with
    phase := .kSessionOpen, calibrationReset := some fun _ => true }

private def commandFrame (b : Rust.CommandBody) : Cpp.Decoded :=
  image (.control (sent .command kZeroIdentity 1) (.command b))

private theorem command_frames (bs : List Rust.CommandBody) :
    ∃ fs : List (List UInt8), fs.map Cpp.decode = (bs.map commandFrame).map .ok := by
  induction bs with
  | nil => exact ⟨[], rfl⟩
  | cons b bs ih =>
    obtain ⟨fs, hfs⟩ := ih
    obtain ⟨f, hhost, -⟩ := exists_controlFrame (e := sent .command kZeroIdentity 1)
      (b := .command b) rfl trivial nofun
    refine ⟨f :: fs, ?_⟩
    rw [List.map_cons, hfs, decode_image (decode_of_encodeControl rfl hhost)]
    rfl

private theorem asked_commands (stream : Cpp.FrameStream) (bs : List Rust.CommandBody) :
    askedCommands kZeroIdentity ((bs.map commandFrame).flatMap fun d =>
      [.buffer stream 0, .frame 0 (.ok d)]) = bs.map ofCommand := by
  induction bs with
  | nil => rfl
  | cons b bs ih => exact congrArg (ofCommand b :: ·) ih

private theorem commands_run (bs : List Rust.CommandBody) :
    ∃ calls, (∀ a ∈ openLink.runActions calls, CommandsOnly a) ∧
      askedCommands openLink.session (openLink.runActions calls) = bs.map ofCommand := by
  obtain ⟨fs, hfs⟩ := command_frames bs
  have hactions : openLink.runActions (fs.map (.push 0)) =
      (bs.map commandFrame).flatMap fun d =>
        [.buffer openLink.feed.stream 0, .frame 0 (.ok d)] := by
    rw [← map_action_run, run_messages (l := openLink) rfl 0 hfs, map_action_moments]
  refine ⟨fs.map (.push 0), ?_, ?_⟩
  · rw [hactions]
    intro a ha
    obtain ⟨d, hd, ha⟩ := List.mem_flatMap.mp ha
    obtain ⟨identity, -, rfl⟩ := List.mem_map.mp hd
    rcases List.mem_pair.mp ha with rfl | rfl
    · trivial
    · exact rfl
  · rw [hactions]
    exact asked_commands _ bs

/-- Three calibration resets, the third with the identity of the first. -/
theorem commands_once_fails : ¬∀ (l : HostLink) (calls : List Call), l.phase = .kSessionOpen →
    l.cachedCommand = none → (∀ a ∈ l.runActions calls, CommandsOnly a) →
      (l.run calls).Pairwise (AnsweredAgain l.session) := by
  intro h
  obtain ⟨calls, hcommands, hasked⟩ := commands_run
    [⟨7, .calibrationReset⟩, ⟨8, .calibrationReset⟩, ⟨7, .calibrationReset⟩]
  have hcases := (recorded_run rfl rfl hcommands).once.mp (h openLink calls rfl rfl hcommands)
  rw [hasked] at hcases
  have hreturn := hcases.resolve_left nofun
  have hopen : ¬Closed [ofCommand ⟨7, .calibrationReset⟩] := fun hclosed =>
    (closed_concat (l := []).mp hclosed).elim closed_nil fun h => absurd h.1 (by decide)
  exact (noReturn_concat (l := [_, _]).mp hreturn).2 (overtaken_concat (l := [_]).mpr
    (Or.inr ⟨hopen, by decide, _, List.mem_singleton_self _, rfl⟩))

/-- An unpair, a command after it, and the retry of the unpair. -/
theorem commands_once_iff_retry : ∃ calls,
    askedCommands openLink.session (openLink.runActions calls) =
      [⟨7, .unpair⟩, ⟨8, .calibrationReset⟩, ⟨7, .unpair⟩].map ofCommand ∧
    (openLink.run calls).Pairwise (AnsweredAgain openLink.session) := by
  obtain ⟨calls, hcommands, hasked⟩ := commands_run
    [⟨7, .unpair⟩, ⟨8, .calibrationReset⟩, ⟨7, .unpair⟩]
  refine ⟨calls, hasked, (commands_once_iff openLink calls rfl rfl hcommands).mpr (Or.inr ?_)⟩
  rw [hasked]
  have hclosed : Closed [ofCommand ⟨7, .unpair⟩] := closed_concat (l := []).mpr
    (Or.inr ⟨rfl, nofun⟩)
  have hone (identity : UInt32) : ¬Overtaken identity [ofCommand ⟨7, .unpair⟩] := fun h =>
    (overtaken_concat (l := []).mp h).elim overtaken_nil fun h =>
      h.2.2.elim fun _ h => absurd h.1 List.not_mem_nil
  have htwo (identity : UInt32) : ¬Overtaken identity
      [ofCommand ⟨7, .unpair⟩, ofCommand ⟨8, .calibrationReset⟩] := fun h =>
    (overtaken_concat (l := [_]).mp h).elim (hone identity) fun h => h.1 hclosed
  exact noReturn_concat (l := [_, _]).mpr ⟨noReturn_concat (l := [_]).mpr
    ⟨noReturn_concat (l := []).mpr ⟨noReturn_nil, overtaken_nil⟩, hone _⟩, htwo _⟩

end CydMonitor.Device
