import CydMonitor.Lib.GuardedRun
import CydMonitor.Wifi.Messages
import Mathlib.Data.UInt

/-!
# A provider session against the daemon's reader

A history of ticks with the lines sent so far. Every line the session emits reads back as what
it means, and the daemon's order checks let all of them pass.
-/

namespace CydMonitor.Wifi

open GuardedRun ProviderMessageBuilder
open Text (utf8 lit)

/-- A session with what it has sent, what the lines mean, and the time of its last tick. -/
structure Exchange where
  session : ProviderSession
  sent : List (List Char)
  meant : List ProviderMessage
  clock : UInt64
  deriving DecidableEq

/-- What the lines of a tick mean. -/
def meantMessages (same : WifiReadResult → WifiReadResult → Bool) (s : ProviderSession)
    (t : Tick) : List ProviderMessage :=
  let availability := contextAvailability t.permission t.read
  let context := meantContext availability t.read.sample?
  let tMs := min t.tMs.toNat (2 ^ 53)
  let seq := s.builder.seq
  let sends := s.sends same t = some true
  if some t.permission ≠ s.lastPermission then
    .permissionStatus seq t.permission :: if sends then [.context (seq + 1) tMs 0 context] else []
  else if sends then [.context seq tMs 0 context] else []

namespace Exchange

def start (provider version : Text) (pollMs : UInt64) : Exchange :=
  { session := .init provider version pollMs, sent := [], meant := [], clock := 0 }

/-- A tick; its time is not before the last one's. -/
def step (same : WifiReadResult → WifiReadResult → Bool) (w : Exchange) (t : Tick) :
    Option Exchange :=
  if t.tMs < w.clock then none
  else (w.session.tick same t).map fun r =>
    { session := r.2, sent := w.sent ++ r.1, meant := w.meant ++ meantMessages same w.session t,
      clock := t.tMs }

end Exchange

/-- The hardware address that a tick's context carries. -/
def Tick.keptBssid (t : Tick) : Option Text :=
  if t.permission = .granted then
    (t.read.sample?.bind (·.bssid)).filter fun b => (sanitizedBssid b).isSome
  else none

/-- A tick whose context the reader's own bounds let in. -/
def Tick.Readable (t : Tick) : Prop :=
  t.tMs.toNat < 10 ^ 15 ∧ ∀ b ∈ t.keptBssid, Ascii b

instance (t : Tick) : Decidable t.Readable :=
  inferInstanceAs (Decidable (_ ∧ ∀ b ∈ t.keptBssid, Ascii b))

/-- A line within the bound that the daemon reads as the message. -/
structure Delivered (line : List Char) (m : ProviderMessage) : Prop where
  short : (utf8 line).length ≤ kMaxLineBytes
  read : parseProviderMessage (utf8 line) = .ok m

/-- A network name or hardware address exactly when they are available. -/
def ProviderMessage.Identified : ProviderMessage → Prop
  | .context _ _ _ c => (c.ssid.isSome ∨ c.bssid.isSome) ↔ c.availability = .available
  | .hello .. | .permissionStatus .. => True

section Lines

private theorem read_render {line : List Char} {fields : Fields} {m : ProviderMessage}
    (htext : utf8 line = render fields) (hfields : ∀ f ∈ fields, FitsMember f)
    {keys : List String} (hkeys : fields.map Prod.fst = keys.map lit)
    (hdistinct : keys ≠ [] ∧ (keys.map lit).Nodup ∧ keys.length ≤ kMaxFields)
    (hlength : (render fields).length ≤ 512) (hm : parseFields fields = .ok m) :
    Delivered line m := by
  have hutf8 : fromUtf8 (render fields) = true := htext ▸ fromUtf8_utf8 line
  have hcount : fields.length = keys.length := by
    rw [← List.length_map Prod.fst, hkeys, List.length_map]
  have hne : fields ≠ [] := by
    rw [← List.length_pos_iff, hcount]
    exact List.length_pos_iff.mpr hdistinct.1
  refine ⟨htext ▸ hlength, ?_⟩
  rw [parseProviderMessage, htext, parseFlatObject_render hne hfields (hkeys ▸ hdistinct.2.1)
    (hcount ▸ hdistinct.2.2) hlength hutf8]
  exact hm

theorem delivered_hello {provider version : Text} (hp : PlainLabel provider)
    (hv : PlainLabel version) : Delivered (helloText provider version)
      (.hello (utf8 (cleanLabel provider).flatten) (utf8 (cleanLabel version).flatten)) := by
  have hkeys : (helloFields provider version).map Prod.fst =
      ["v", "type", "provider", "provider_version"].map lit := rfl
  exact read_render (utf8_helloText provider version) (fits_helloFields hp hv) hkeys
    (by decide +kernel) (length_helloFields hp hv) (parseFields_hello hp hv)

theorem delivered_permission {seq : ℕ} (hseq : seq < 2 ^ 32) (status : PermissionStatus) :
    Delivered (permissionText seq status) (.permissionStatus seq status) := by
  have hkeys : (permissionFields seq status).map Prod.fst =
      ["v", "type", "seq", "status"].map lit := rfl
  exact read_render (utf8_permissionText seq status) (fits_permissionFields hseq status) hkeys
    (by decide +kernel) (length_permissionFields hseq status) (parseFields_permission hseq status)

theorem delivered_context {seq : ℕ} (hseq : seq < 2 ^ 32) {tMs : UInt64}
    (htMs : tMs.toNat < 10 ^ 15) (ageMs : UInt32) {availability : ContextAvailability}
    {sample : Option WifiSample} (hplain : PlainSample availability sample) :
    Delivered (contextText seq tMs ageMs availability sample)
      (.context seq (min tMs.toNat (2 ^ 53)) ageMs (meantContext availability sample)) := by
  have hkeys : (contextFields seq tMs ageMs availability sample).map Prod.fst =
      ["v", "type", "seq", "t_ms", "age_ms", "availability", "band", "channel", "ssid_hex",
        "bssid"].map lit := rfl
  exact read_render (utf8_contextText seq tMs ageMs availability sample)
    (fits_contextFields hseq htMs ageMs hplain) hkeys (by decide +kernel)
    (length_contextFields hseq tMs ageMs hplain) (parseFields_context hseq tMs ageMs hplain)

end Lines

section Availability

private theorem available_iff (permission : PermissionStatus) (read : WifiReadResult) :
    contextAvailability permission read = .available ↔ permission = .granted ∧
      ∃ s, read = .sample s ∧ (sanitizedIdentity s).isEmpty = false := by
  cases permission with
  | granted =>
    cases read with
    | noInterface => simp [contextAvailability]
    | failed => simp [contextAvailability]
    | sample s =>
      cases h : (sanitizedIdentity s).isEmpty <;> simp [contextAvailability, h]
  | notRequested | denied | restricted | unsupported | error => simp [contextAvailability]

theorem plainSample_of_readable {t : Tick} (h : t.Readable) :
    PlainSample (contextAvailability t.permission t.read) t.read.sample? := by
  intro ha b hb hkept
  have hpermission := ((available_iff _ _).mp ha).1
  refine h.2 b ?_
  rw [Tick.keptBssid, if_pos hpermission, Option.mem_def, Option.filter_eq_some_iff]
  exact ⟨hb, hkept⟩

theorem identified_context (t : Tick) (seq tMs : ℕ) (ageMs : UInt32)
    (hplain : PlainSample (contextAvailability t.permission t.read) t.read.sample?) :
    (ProviderMessage.context seq tMs ageMs
      (meantContext (contextAvailability t.permission t.read) t.read.sample?)).Identified := by
  refine ⟨fun hsome => ?_, fun ha => ?_⟩
  · by_contra ha
    simp only [meantContext] at ha
    simp [meantContext, ha] at hsome
  · obtain ⟨-, s, hs, hkept⟩ := (available_iff _ _).mp ha
    simp only [meantContext] at ha
    rw [WifiIdentity.isEmpty, Bool.and_eq_false_iff] at hkept
    rcases hkept with hssid | hbssid
    · refine .inl ?_
      have hs' : t.read.sample?.bind (·.ssid) = s.ssid := by
        rw [hs]
        rfl
      simp only [meantContext, if_pos ha, hs']
      simpa [sanitizedIdentity] using hssid
    · refine .inr ?_
      obtain ⟨u, hu⟩ := Option.isSome_iff_exists.mp (by simpa using hbssid)
      obtain ⟨b, hb, hu⟩ := Option.bind_eq_some_iff.mp hu
      have hb' : t.read.sample?.bind (·.bssid) = some b := by
        rw [hs]
        exact hb
      obtain ⟨octets, hoctets, -⟩ := parseMac_bssid hu (hplain ha b hb' (by simp [hu]))
      simp only [meantContext, if_pos ha, hb', Option.bind_some, hu, hoctets]
      rfl

end Availability

namespace Connection

/-- The connection takes messages from the sequence number and the time on. -/
structure Ready (conn : Connection) (seq : ℕ) (clock : ℕ) : Prop where
  hello : conn.helloSeen = true
  seq : ∀ last ∈ conn.lastSeq, last < seq
  clock : conn.lastTMs ≤ min clock (2 ^ 53)

theorem receiveAll_append (conn : Connection) (ms more : List ProviderMessage) :
    conn.receiveAll (ms ++ more) = (conn.receiveAll ms).bind fun c => c.receiveAll more := by
  induction ms generalizing conn with
  | nil => rfl
  | cons m ms ih =>
    rw [List.cons_append, receiveAll, receiveAll]
    cases conn.receive m with
    | none => rfl
    | some c => exact ih c

variable {conn : Connection} {seq clock : ℕ}

private theorem Ready.follows (h : conn.Ready seq clock) : conn.follows seq = true := by
  rw [Connection.follows]
  cases hlast : conn.lastSeq with
  | none => rfl
  | some last => exact decide_eq_true (h.seq last hlast)

theorem Ready.permission (h : conn.Ready seq clock) (status : PermissionStatus) :
    ∃ c, conn.receive (.permissionStatus seq status) = some c ∧ c.Ready (seq + 1) clock := by
  refine ⟨{ conn with lastSeq := some seq }, ?_, h.hello, fun last hlast => ?_, h.clock⟩
  · rw [receive, h.hello, h.follows]
    rfl
  · obtain rfl := Option.some.inj hlast
    exact Nat.lt_succ_self _

theorem Ready.context (h : conn.Ready seq clock) {now : ℕ} (hnow : clock ≤ now) (ageMs : UInt32)
    (context : AssociationContext) :
    ∃ c, conn.receive (.context seq (min now (2 ^ 53)) ageMs context) = some c ∧
      c.Ready (seq + 1) now := by
  have hclock := h.clock
  have hle : conn.lastTMs ≤ min now (2 ^ 53) := by omega
  refine ⟨{ conn with lastSeq := some seq, lastTMs := min now (2 ^ 53) }, ?_, h.hello,
    fun last hlast => ?_, le_rfl⟩
  · rw [receive, h.hello, h.follows, decide_eq_true hle]
    rfl
  · obtain rfl := Option.some.inj hlast
    exact Nat.lt_succ_self _

theorem Ready.later (h : conn.Ready seq clock) {now : ℕ} (hnow : clock ≤ now) :
    conn.Ready seq now := by
  have := h.clock
  exact ⟨h.hello, h.seq, by omega⟩

end Connection

section Tick

variable {same : WifiReadResult → WifiReadResult → Bool} {s s' : ProviderSession} {t : Tick}
  {lines : List (List Char)}

private theorem next_eq {b b' : ProviderMessageBuilder} (h : b.next = some b') :
    b'.seq = b.seq + 1 := by
  rw [next] at h
  split_ifs at h
  obtain rfl := Option.some.inj h
  rfl

private theorem line_eq {json l : List Char} (h : line json = some l) : l = json := by
  rw [line] at h
  split_ifs at h
  exact (Option.some.inj h).symm

/-- The permission line, when the permission is news. -/
private theorem sendPermission_cases (h : s.sendPermission t = some (lines, s')) :
    (some t.permission ≠ s.lastPermission ∧ s'.builder.seq = s.builder.seq + 1 ∧
      lines = [permissionText s.builder.seq t.permission]) ∨
    (some t.permission = s.lastPermission ∧ lines = [] ∧ s' = s) := by
  rw [ProviderSession.sendPermission] at h
  split_ifs at h with hp
  · obtain ⟨⟨l, b⟩, hsend, hrest⟩ := Option.bind_eq_some_iff.mp h
    obtain ⟨l', hl, hrest'⟩ := Option.bind_eq_some_iff.mp hsend
    obtain ⟨b', hb, hpair⟩ := Option.bind_eq_some_iff.mp hrest'
    obtain ⟨rfl, rfl⟩ := Prod.mk.inj (Option.some.inj hpair)
    obtain ⟨rfl, rfl⟩ := Prod.mk.inj (Option.some.inj hrest)
    exact .inl ⟨hp, next_eq hb, by rw [line_eq hl]⟩
  · obtain ⟨rfl, rfl⟩ := Prod.mk.inj (Option.some.inj h)
    exact .inr ⟨not_not.mp hp, rfl, rfl⟩

private theorem sendContext_cases (h : s.sendContext t = some (lines, s')) :
    s'.builder.seq = s.builder.seq + 1 ∧ lines = [contextText s.builder.seq t.tMs 0
      (contextAvailability t.permission t.read) t.read.sample?] := by
  rw [ProviderSession.sendContext] at h
  obtain ⟨⟨l, b⟩, hsend, hrest⟩ := Option.bind_eq_some_iff.mp h
  obtain ⟨l', hl, hrest'⟩ := Option.bind_eq_some_iff.mp hsend
  obtain ⟨b', hb, hpair⟩ := Option.bind_eq_some_iff.mp hrest'
  obtain ⟨rfl, rfl⟩ := Prod.mk.inj (Option.some.inj hpair)
  obtain ⟨rfl, rfl⟩ := Prod.mk.inj (Option.some.inj hrest)
  exact ⟨next_eq hb, by rw [line_eq hl]⟩

/-- A tick is its permission line and its context line. -/
theorem tick_cases (h : s.tick same t = some (lines, s')) :
    ∃ first sp, s.sendPermission t = some (first, sp) ∧
      ((s.sends same t = some true ∧ ∃ more, sp.sendContext t = some (more, s') ∧
        lines = first ++ more) ∨
      (s.sends same t = some false ∧ lines = first ∧ s' = sp)) := by
  rw [ProviderSession.tick] at h
  obtain ⟨⟨first, sp⟩, hfirst, hrest⟩ := Option.bind_eq_some_iff.mp h
  obtain ⟨b, hb, hsend⟩ := Option.bind_eq_some_iff.mp hrest
  refine ⟨first, sp, hfirst, ?_⟩
  cases b with
  | true =>
    obtain ⟨⟨more, sc⟩, hmore, hpair⟩ := Option.bind_eq_some_iff.mp hsend
    obtain ⟨rfl, rfl⟩ := Prod.mk.inj (Option.some.inj hpair)
    exact .inl ⟨hb, more, hmore, rfl⟩
  | false =>
    obtain ⟨rfl, rfl⟩ := Prod.mk.inj (Option.some.inj hsend)
    exact .inr ⟨hb, rfl, rfl⟩

/-- A message that is delivered, admitted and identified. -/
private structure Passed (conn : Connection) (lines : List (List Char))
    (ms : List ProviderMessage) (seq clock : ℕ) : Prop where
  admitted : ∃ c, conn.receiveAll ms = some c ∧ c.Ready seq clock
  delivered : List.Forall₂ Delivered lines ms
  identified : ∀ m ∈ ms, m.Identified

private theorem Passed.append {conn c : Connection} {lines more : List (List Char)}
    {ms ms' : List ProviderMessage} {seq clock : ℕ} (hms : conn.receiveAll ms = some c)
    (hdelivered : List.Forall₂ Delivered lines ms) (hidentified : ∀ m ∈ ms, m.Identified)
    (h : Passed c more ms' seq clock) : Passed conn (lines ++ more) (ms ++ ms') seq clock := by
  obtain ⟨c', hc', hready⟩ := h.admitted
  refine ⟨⟨c', ?_, hready⟩, List.rel_append hdelivered h.delivered, ?_⟩
  · rw [Connection.receiveAll_append, hms]
    exact hc'
  · intro m hm
    rcases List.mem_append.mp hm with hm | hm
    · exact hidentified m hm
    · exact h.identified m hm

private theorem context_passed {conn : Connection} {seq clock : ℕ} (h : conn.Ready seq clock)
    (hseq : seq < 2 ^ 32) (hclock : clock ≤ t.tMs.toNat) (hread : t.Readable) :
    Passed conn [contextText seq t.tMs 0 (contextAvailability t.permission t.read) t.read.sample?]
      [.context seq (min t.tMs.toNat (2 ^ 53)) 0
        (meantContext (contextAvailability t.permission t.read) t.read.sample?)]
      (seq + 1) t.tMs.toNat := by
  have hplain := plainSample_of_readable hread
  obtain ⟨c, hc, hready⟩ := h.context hclock 0
    (meantContext (contextAvailability t.permission t.read) t.read.sample?)
  refine ⟨⟨c, ?_, hready⟩, .cons (delivered_context hseq hread.1 0 hplain) .nil, ?_⟩
  · rw [Connection.receiveAll, hc]
    rfl
  · intro m hm
    obtain rfl := List.mem_singleton.mp hm
    exact identified_context t seq _ 0 hplain

private theorem tick_passed (h : s.tick same t = some (lines, s')) {conn : Connection} {clock : ℕ}
    (hready : conn.Ready s.builder.seq clock) (hclock : clock ≤ t.tMs.toNat)
    (hread : s.sends same t = some true → t.Readable) (hseq : s'.builder.seq ≤ 2 ^ 32) :
    Passed conn lines (meantMessages same s t) s'.builder.seq t.tMs.toNat := by
  obtain ⟨first, sp, hfirst, hrest⟩ := tick_cases h
  rw [meantMessages]
  obtain ⟨hp, hspSeq, rfl⟩ | ⟨hp, rfl, rfl⟩ := sendPermission_cases hfirst
  · rw [if_pos hp]
    have hbound : s.builder.seq < 2 ^ 32 := by
      rcases hrest with ⟨-, more, hmore, -⟩ | ⟨-, -, rfl⟩
      · have := (sendContext_cases hmore).1
        omega
      · omega
    obtain ⟨c, hc, hcready⟩ := hready.permission t.permission
    have hms : conn.receiveAll [.permissionStatus s.builder.seq t.permission] = some c := by
      rw [Connection.receiveAll, hc]
      rfl
    have hdelivered : List.Forall₂ Delivered [permissionText s.builder.seq t.permission]
        [.permissionStatus s.builder.seq t.permission] :=
      .cons (delivered_permission hbound t.permission) .nil
    have hidentified : ∀ m ∈ [ProviderMessage.permissionStatus s.builder.seq t.permission],
        m.Identified := by
      simp [ProviderMessage.Identified]
    rcases hrest with ⟨hsends, more, hmore, rfl⟩ | ⟨hsends, rfl, rfl⟩
    · obtain ⟨hseq', rfl⟩ := sendContext_cases hmore
      rw [hspSeq] at hseq' ⊢
      rw [if_pos hsends, hseq']
      exact .append hms hdelivered hidentified
        (context_passed hcready (by omega) hclock (hread hsends))
    · rw [if_neg (by simp [hsends]), hspSeq]
      exact ⟨⟨c, hms, hcready.later hclock⟩, hdelivered, hidentified⟩
  · rw [if_neg (not_not.mpr hp)]
    rcases hrest with ⟨hsends, more, hmore, rfl⟩ | ⟨hsends, rfl, rfl⟩
    · obtain ⟨hseq', rfl⟩ := sendContext_cases hmore
      rw [if_pos hsends, hseq']
      exact context_passed hready (by omega) hclock (hread hsends)
    · rw [if_neg (by simp [hsends])]
      exact ⟨⟨conn, rfl, hready.later hclock⟩, .nil, by simp⟩

private theorem tick_seq_le (h : s.tick same t = some (lines, s')) :
    s.builder.seq ≤ s'.builder.seq := by
  obtain ⟨first, sp, hfirst, hrest⟩ := tick_cases h
  have hsp : s.builder.seq ≤ sp.builder.seq := by
    rcases sendPermission_cases hfirst with ⟨-, hseq, -⟩ | ⟨-, -, rfl⟩
    · omega
    · exact le_rfl
  rcases hrest with ⟨-, more, hmore, -⟩ | ⟨-, -, rfl⟩
  · have := (sendContext_cases hmore).1
    omega
  · exact hsp

private theorem permissionStatus_eq {b : ProviderMessageBuilder} {status : PermissionStatus}
    (hlength : (utf8 (permissionText b.seq status)).length ≤ 512) (hseq : b.seq < 2 ^ 32) :
    b.permissionStatus status = some (permissionText b.seq status, { seq := b.seq + 1 }) := by
  have hline : line (permissionText b.seq status) = some (permissionText b.seq status) :=
    if_pos hlength
  have hnext : b.next = some { seq := b.seq + 1 } := if_pos (by omega)
  rw [permissionStatus, hline, hnext]
  rfl

private theorem context_eq {b : ProviderMessageBuilder} {tMs : UInt64} {ageMs : UInt32}
    {availability : ContextAvailability} {sample : Option WifiSample}
    (hlength : (utf8 (contextText b.seq tMs ageMs availability sample)).length ≤ 512)
    (hseq : b.seq < 2 ^ 32) : b.context tMs ageMs availability sample =
      some (contextText b.seq tMs ageMs availability sample, { seq := b.seq + 1 }) := by
  have hline : line (contextText b.seq tMs ageMs availability sample) =
      some (contextText b.seq tMs ageMs availability sample) := if_pos hlength
  have hnext : b.next = some { seq := b.seq + 1 } := if_pos (by omega)
  rw [context, hline, hnext]
  rfl

/-- Short lines within the counter's range do not trap. -/
private theorem tick_isSome (hread : s.sends same t = some true → t.Readable)
    (hseq : s.builder.seq + 2 ≤ 2 ^ 32) (hsends : (s.sends same t).isSome) :
    (s.tick same t).isSome := by
  obtain ⟨first, sp, hfirst, hsp⟩ : ∃ first sp, s.sendPermission t = some (first, sp) ∧
      sp.builder.seq ≤ s.builder.seq + 1 := by
    rw [ProviderSession.sendPermission]
    split_ifs with hp
    · rw [permissionStatus_eq (delivered_permission (by omega) t.permission).short (by omega)]
      exact ⟨_, _, rfl, le_rfl⟩
    · exact ⟨_, _, rfl, Nat.le_succ _⟩
  obtain ⟨b, hb⟩ := Option.isSome_iff_exists.mp hsends
  rw [ProviderSession.tick, hfirst, Option.bind_eq_bind, Option.bind_some, hb]
  cases b with
  | false => rfl
  | true =>
    have hread := hread hb
    have hshort := (@delivered_context sp.builder.seq (by omega) _ hread.1 0 _ _
      (plainSample_of_readable hread)).short
    have hsend : (sp.sendContext t).isSome := by
      rw [ProviderSession.sendContext, context_eq hshort (by omega)]
      exact Option.isSome_some
    obtain ⟨⟨more, sc⟩, hmore⟩ := Option.isSome_iff_exists.mp hsend
    simp only [Option.bind_some, hmore]
    exact Option.isSome_some

end Tick

/-- The daemon's connection once it has read a hello. -/
private def greeted : Connection := { Connection.accepted with helloSeen := true }

private theorem step_passed {same : WifiReadResult → WifiReadResult → Bool} {v w : Exchange}
    {t : Tick} (h : Exchange.step same v t = some w)
    (hread : v.session.sends same t = some true → t.Readable)
    (hv : v.session.builder.seq ≤ 2 ^ 32 →
      Passed greeted v.sent v.meant v.session.builder.seq v.clock.toNat)
    (hseq : w.session.builder.seq ≤ 2 ^ 32) :
    Passed greeted w.sent w.meant w.session.builder.seq w.clock.toNat := by
  rw [Exchange.step] at h
  split_ifs at h with hclock
  obtain ⟨⟨lines, s'⟩, htick, rfl⟩ := Option.map_eq_some_iff.mp h
  have hle := tick_seq_le htick
  have hpassed := hv (hle.trans hseq)
  obtain ⟨c, hc, hready⟩ := hpassed.admitted
  have hnow : v.clock.toNat ≤ t.tMs.toNat := UInt64.le_iff_toNat_le.mp (UInt64.not_lt.mp hclock)
  exact .append hc hpassed.delivered hpassed.identified
    (tick_passed htick hready hnow hread hseq)

/-- Every line of a session whose contexts are readable is short, says what is meant, passes the
order checks, and carries an identity exactly when that is available; a readable tick traps only
on an overflow. -/
theorem session_round_trip (same : WifiReadResult → WifiReadResult → Bool) {provider version : Text}
    (hp : PlainLabel provider) (hv : PlainLabel version) (pollMs : UInt64) {ticks : List Tick}
    {w : Exchange} (hrun : run (Exchange.step same) (.start provider version pollMs) ticks = some w)
    (hread : Always (Exchange.step same)
      (fun v t => v.session.sends same t = some true → t.Readable)
      (.start provider version pollMs) ticks)
    (hseq : w.session.builder.seq ≤ 2 ^ 32) :
    (∃ line, (ProviderSession.init provider version pollMs).helloLine = some line ∧
      List.Forall₂ Delivered (line :: w.sent)
        (.hello (utf8 (cleanLabel provider).flatten) (utf8 (cleanLabel version).flatten) ::
          w.meant)) ∧
    (Connection.accepted.receiveAll
      (.hello (utf8 (cleanLabel provider).flatten) (utf8 (cleanLabel version).flatten) ::
        w.meant)).isSome ∧
    (∀ m ∈ w.meant, m.Identified) ∧
    ∀ t, t.Readable → w.session.builder.seq + 2 ≤ 2 ^ 32 → (w.session.sends same t).isSome →
      (w.session.tick same t).isSome := by
  have hpassed := invariant_of (I := fun v => v.session.builder.seq ≤ 2 ^ 32 →
      Passed greeted v.sent v.meant v.session.builder.seq v.clock.toNat)
    (fun v t w h hQ hv => step_passed h hQ hv)
    (fun _ => ⟨⟨greeted, rfl, rfl, by simp [greeted, Connection.accepted], Nat.zero_le _⟩,
      .nil, by simp [Exchange.start]⟩) hread hrun hseq
  have hhello := delivered_hello hp hv
  refine ⟨⟨helloText provider version, if_pos hhello.short, .cons hhello hpassed.delivered⟩, ?_,
    hpassed.identified, fun t ht hnext hsends => tick_isSome (fun _ => ht) hnext hsends⟩
  obtain ⟨c, hc, -⟩ := hpassed.admitted
  rw [Connection.receiveAll]
  show (greeted.receiveAll w.meant).isSome = true
  rw [hc]
  rfl

section Samples

private def office : WifiSample :=
  { band := some .ghz5, channel := some 44, ssid := some [0x43, 0xFF],
    bssid := some (text "0A:1b:2C:3d:4E:5f") }

private def officeTicks : List Tick :=
  [{ tMs := 5, permission := .granted, read := .sample office },
    { tMs := 10, permission := .granted, read := .noInterface },
    { tMs := 2000, permission := .denied, read := .sample office }]

/-- A granted and then refused permission, with a network in reach. -/
theorem session_round_trip_office :
    ∃ w, run (Exchange.step (· == ·)) (.start (text "setup app") (text "1.0") 250) officeTicks =
        some w ∧
      w.meant.length = 5 ∧
      (∃ line, (ProviderSession.init (text "setup app") (text "1.0") 250).helloLine = some line ∧
        List.Forall₂ Delivered (line :: w.sent)
          (.hello (utf8 (cleanLabel (text "setup app")).flatten)
            (utf8 (cleanLabel (text "1.0")).flatten) :: w.meant)) ∧
      ∀ m ∈ w.meant, m.Identified := by
  have hrun : ((run (Exchange.step (· == ·)) (.start (text "setup app") (text "1.0") 250)
      officeTicks).map fun w => (w.session.builder.seq, w.meant.length)) = some (5, 5) := by
    decide +kernel
  obtain ⟨w, hw, hcounts⟩ := Option.map_eq_some_iff.mp hrun
  obtain ⟨hseq, hmeant⟩ := Prod.mk.inj hcounts
  have hread : ∀ t ∈ officeTicks, t.Readable := List.all_iff_forall_prop.mp (by decide +kernel)
  have hname : PlainLabel (text "setup app") := by decide +kernel
  have hversion : PlainLabel (text "1.0") := by decide +kernel
  have hround := session_round_trip (· == ·) hname hversion 250 hw
    (fun before t rest v hticks _ _ => hread t (by simp [hticks])) (by omega)
  exact ⟨w, hw, hmeant, hround.1, hround.2.2.1⟩

private def wideSample : WifiSample :=
  { band := none, channel := none, ssid := none,
    bssid := some ([[Char.ofNat 0xFF10]] ++ text "0:1b:2c:3d:4e:5f") }

private def refuses (e : MessageError) (line : List Char) : Bool :=
  decide ((utf8 line).length ≤ kMaxLineBytes) &&
    match object (utf8 line) with
    | none => e == .notJson
    | some (fields, rest) =>
      match parseFields fields with
      | .error e' => e == e' && skipWs rest == []
      | .ok _ => false

private theorem refuses_error {e : MessageError} {line : List Char} (h : refuses e line = true) :
    parseProviderMessage (utf8 line) = .error e := by
  rw [refuses, Bool.and_eq_true, decide_eq_true_eq] at h
  obtain ⟨hlength, hmatch⟩ := h
  have hutf8 := fromUtf8_utf8 line
  rw [parseProviderMessage, parseFlatObject, if_neg (Nat.not_lt.mpr hlength), hutf8]
  cases hobject : object (utf8 line) with
  | none =>
    rw [hobject, beq_iff_eq] at hmatch
    rw [hmatch]
    rfl
  | some r =>
    obtain ⟨fields, rest⟩ := r
    rw [hobject] at hmatch
    cases hfields : parseFields fields with
    | ok m => simp [hfields] at hmatch
    | error e' =>
      simp only [hfields, Bool.and_eq_true, beq_iff_eq] at hmatch
      simp only [Bool.not_true, Bool.false_eq_true, if_false, hmatch.2, if_true, hfields,
        hmatch.1]

private theorem exists_refused {e : MessageError} {o : Option Exchange}
    (h : (o.any fun w => w.sent.any (refuses e)) = true) :
    ∃ w, o = some w ∧ ∃ line ∈ w.sent, parseProviderMessage (utf8 line) = .error e := by
  obtain ⟨w, hw, hsent⟩ := (Option.any_eq_true _ _).mp h
  obtain ⟨line, hline, hrefused⟩ := List.any_eq_true.mp hsent
  exact ⟨w, hw, line, hline, refuses_error hrefused⟩

/-- The time is bounded by 15 digits, a hardware address may keep full-width digits, and a label
a Kelvin sign. -/
theorem session_lines_refused :
    (∃ w, run (Exchange.step (· == ·)) (.start (text "app") (text "1") 250)
        [{ tMs := 10 ^ 15, permission := .denied, read := .failed }] = some w ∧
      ∃ line ∈ w.sent, parseProviderMessage (utf8 line) = .error .notJson) ∧
    (∃ w, run (Exchange.step (· == ·)) (.start (text "app") (text "1") 250)
        [{ tMs := 0, permission := .granted, read := .sample wideSample }] = some w ∧
      ∃ line ∈ w.sent, parseProviderMessage (utf8 line) = .error .badField) ∧
    ∃ line, (ProviderSession.init [[Char.ofNat 0x212A]] (text "1") 250).helloLine = some line ∧
      parseProviderMessage (utf8 line) = .error .badField := by
  have hlength : (utf8 (helloText [[Char.ofNat 0x212A]] (text "1"))).length ≤ maxLineBytes := by
    decide +kernel
  have hhello : line (helloText [[Char.ofNat 0x212A]] (text "1")) =
      some (helloText [[Char.ofNat 0x212A]] (text "1")) := if_pos hlength
  exact ⟨exists_refused (by decide +kernel), exists_refused (by decide +kernel), _, hhello,
    refuses_error (by decide +kernel)⟩

end Samples

end CydMonitor.Wifi
