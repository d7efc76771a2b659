import CydMonitor.Wifi.Session

/-!
# The provider's serve loop (`ProviderRunner.swift`) and its heartbeat

The loop looks, sends what is due, and waits. The clock counts nanoseconds and is read in whole
milliseconds; a look takes some time, and the wake-up after a wait may be late.
-/

namespace CydMonitor.Wifi

namespace HeartbeatSchedule

/-- How long to wait before looking again. -/
def waitMs (schedule : HeartbeatSchedule) (nowMs : UInt64) : Option UInt64 → Option ℕ
  | none => some schedule.pollMs.toNat
  | some last =>
    if nowMs < last then some schedule.pollMs.toNat
    else (schedule.deadline last).map fun deadline =>
      min schedule.pollMs.toNat (if nowMs.toNat < deadline then deadline - nowMs.toNat else 0)

end HeartbeatSchedule

def ProviderSession.nextWaitMs (s : ProviderSession) (tMs : UInt64) : Option ℕ :=
  s.schedule.waitMs tMs s.lastContextAt

def nsPerMs : ℕ := 1000000

/-- The 64-bit clock, counted from the runner's origin. -/
def monotonicMs (ns : ℕ) : Option UInt64 :=
  if ns < 2 ^ 64 then some (UInt64.ofNat (ns / nsPerMs)) else none

/-- What a look finds, how long it takes to the end of its last write, and how late the wake-up
after its wait is. -/
structure Look where
  permission : PermissionStatus
  read : WifiReadResult
  durationNs : ℕ
  lateNs : ℕ

/-- The state of one connection after its acknowledgement. -/
structure Serving where
  session : ProviderSession
  nowNs : ℕ
  lastTMs : UInt64

namespace Serving

def start (session : ProviderSession) (nowNs : ℕ) : Serving := { session, nowNs, lastTMs := 0 }

def tick (v : Serving) (nowMs : UInt64) (l : Look) : Tick :=
  { tMs := max nowMs v.lastTMs, permission := l.permission, read := l.read }

/-- One pass of the loop: the `tMs` of the context line, if one goes out. -/
def look (same : WifiReadResult → WifiReadResult → Bool) (v : Serving) (l : Look) :
    Option (Option UInt64 × Serving) := do
  let nowMs ← monotonicMs v.nowNs
  let tick := v.tick nowMs l
  let sent ← v.session.sends same tick
  let (_, session) ← v.session.tick same tick
  let afterMs ← monotonicMs (v.nowNs + l.durationNs)
  let waitMs ← session.nextWaitMs afterMs
  if waitMs < 2 ^ 63 then
    pure (if sent then some tick.tMs else none,
      { session, nowNs := v.nowNs + l.durationNs + waitMs * nsPerMs + l.lateNs,
        lastTMs := tick.tMs })
  else none

/-- The `tMs` of the context lines of a connection, in order; a trap ends it. -/
def serve (same : WifiReadResult → WifiReadResult → Bool) (v : Serving) : List Look → List UInt64
  | [] => []
  | l :: ls =>
    match v.look same l with
    | none => []
    | some (sent, v) => sent.toList ++ serve same v ls

end Serving

section Frames

variable {same : WifiReadResult → WifiReadResult → Bool} {s s' : ProviderSession} {t : Tick}
  {lines : List (List Char)}

private theorem sendPermission_frame (h : s.sendPermission t = some (lines, s')) :
    s'.schedule = s.schedule ∧ s'.lastContextAt = s.lastContextAt := by
  rw [ProviderSession.sendPermission] at h
  split_ifs at h with hp
  · obtain ⟨⟨l, b⟩, -, hpair⟩ := Option.bind_eq_some_iff.mp h
    obtain ⟨-, rfl⟩ := Prod.mk.inj (Option.some.inj hpair)
    exact ⟨rfl, rfl⟩
  · obtain ⟨-, rfl⟩ := Prod.mk.inj (Option.some.inj h)
    exact ⟨rfl, rfl⟩

private theorem sendContext_frame (h : s.sendContext t = some (lines, s')) :
    s'.schedule = s.schedule ∧ s'.lastContextAt = some t.tMs := by
  rw [ProviderSession.sendContext] at h
  obtain ⟨⟨l, b⟩, -, hpair⟩ := Option.bind_eq_some_iff.mp h
  obtain ⟨-, rfl⟩ := Prod.mk.inj (Option.some.inj hpair)
  exact ⟨rfl, rfl⟩

/-- A tick notes when it sends a context. -/
theorem tick_frame (h : s.tick same t = some (lines, s')) :
    s'.schedule = s.schedule ∧
      (s.sends same t = some true ∧ s'.lastContextAt = some t.tMs ∨
        s.sends same t = some false ∧ s'.lastContextAt = s.lastContextAt) := by
  obtain ⟨first, sp, hfirst, hcase⟩ := tick_cases h
  obtain ⟨hschedule, hlast⟩ := sendPermission_frame hfirst
  rcases hcase with ⟨hsends, more, hmore, -⟩ | ⟨hsends, -, rfl⟩
  · obtain ⟨hschedule', hlast'⟩ := sendContext_frame hmore
    exact ⟨hschedule'.trans hschedule, .inl ⟨hsends, hlast'⟩⟩
  · exact ⟨hschedule, .inr ⟨hsends, hlast⟩⟩

end Frames

/-- A wait that ends at the deadline or sooner, and a late wake-up, stay within the lead. -/
private theorem next_look_le {now duration late wait lead bound deadline : ℕ}
    (hwait : wait ≤ deadline - (now + duration) / nsPerMs)
    (hlate : duration + late ≤ lead * nsPerMs) (hdeadline : deadline + lead = bound)
    (hnow : now / nsPerMs ≤ deadline) :
    (now + duration + wait * nsPerMs + late) / nsPerMs ≤ bound := by
  rw [nsPerMs] at *
  omega

section Run

variable {same : WifiReadResult → WifiReadResult → Bool} {schedule : HeartbeatSchedule}
  {v v' : Serving} {l : Look} {sent : Option UInt64}

/-- The next look comes before the last context is older than the heartbeat. -/
structure Paced (schedule : HeartbeatSchedule) (v : Serving) : Prop where
  sameSchedule : v.session.schedule = schedule
  clock : v.lastTMs.toNat ≤ v.nowNs / nsPerMs
  last : ∀ last ∈ v.session.lastContextAt, last ≤ v.lastTMs ∧
    v.nowNs / nsPerMs ≤ last.toNat + schedule.heartbeatMs.toNat

/-- Look and wake-up together take no longer than the lead. -/
def Look.Prompt (schedule : HeartbeatSchedule) (l : Look) : Prop :=
  l.durationNs + l.lateNs ≤ schedule.leadMs.toNat * nsPerMs

/-- What a pass of the loop does. -/
theorem look_cases (h : v.look same l = some (sent, v')) :
    ∃ nowMs afterMs lines waitMs, monotonicMs v.nowNs = some nowMs ∧
      monotonicMs (v.nowNs + l.durationNs) = some afterMs ∧
      v.session.tick same (v.tick nowMs l) = some (lines, v'.session) ∧
      (v.session.sends same (v.tick nowMs l) = some true ∧ sent = some (v.tick nowMs l).tMs ∨
        v.session.sends same (v.tick nowMs l) = some false ∧ sent = none) ∧
      v'.session.nextWaitMs afterMs = some waitMs ∧
      v'.nowNs = v.nowNs + l.durationNs + waitMs * nsPerMs + l.lateNs ∧
      v'.lastTMs = (v.tick nowMs l).tMs := by
  rw [Serving.look] at h
  obtain ⟨nowMs, hnow, h⟩ := Option.bind_eq_some_iff.mp h
  obtain ⟨sends, hsends, h⟩ := Option.bind_eq_some_iff.mp h
  obtain ⟨⟨lines, session⟩, htick, h⟩ := Option.bind_eq_some_iff.mp h
  obtain ⟨afterMs, hafter, h⟩ := Option.bind_eq_some_iff.mp h
  obtain ⟨waitMs, hwait, h⟩ := Option.bind_eq_some_iff.mp h
  by_cases hint : waitMs < 2 ^ 63
  · rw [if_pos hint] at h
    obtain ⟨rfl, rfl⟩ := Prod.mk.inj (Option.some.inj h)
    refine ⟨nowMs, afterMs, lines, waitMs, hnow, hafter, htick, ?_, hwait, rfl, rfl⟩
    cases sends with
    | true => exact .inl ⟨hsends, rfl⟩
    | false => exact .inr ⟨hsends, rfl⟩
  · rw [if_neg hint] at h
    cases h

theorem toNat_monotonicMs {ns : ℕ} {ms : UInt64} (h : monotonicMs ns = some ms) :
    ms.toNat = ns / nsPerMs := by
  rw [monotonicMs] at h
  split_ifs at h with hlt
  obtain rfl := Option.some.inj h
  exact UInt64.toNat_ofNat_of_lt' (Nat.lt_of_le_of_lt (Nat.div_le_self _ _) hlt)

/-- The wait ends no later than the deadline of the last context. -/
theorem wait_le {s : ProviderSession} {last afterMs : UInt64} {waitMs : ℕ}
    (hlast : s.lastContextAt = some last) (hle : last ≤ afterMs)
    (h : s.nextWaitMs afterMs = some waitMs) :
    waitMs ≤ last.toNat + s.schedule.heartbeatMs.toNat - s.schedule.leadMs.toNat -
      afterMs.toNat := by
  rw [ProviderSession.nextWaitMs, hlast, HeartbeatSchedule.waitMs, if_neg (UInt64.not_lt.mpr hle)]
    at h
  obtain ⟨deadline, hdeadline, rfl⟩ := Option.map_eq_some_iff.mp h
  rw [HeartbeatSchedule.deadline] at hdeadline
  split_ifs at hdeadline
  obtain rfl := Option.some.inj hdeadline
  refine (Nat.min_le_right _ _).trans ?_
  split <;> omega

/-- A look that sends nothing comes before the deadline. -/
theorem lt_of_silent {s : ProviderSession} {t : Tick} (h : s.sends same t = some false) :
    ∃ last, s.lastContextAt = some last ∧ last ≤ t.tMs ∧
      t.tMs.toNat < last.toNat + s.schedule.heartbeatMs.toNat - s.schedule.leadMs.toNat := by
  rw [ProviderSession.sends] at h
  obtain ⟨due, hdue, h⟩ := Option.bind_eq_some_iff.mp h
  have hfalse : due = false := (Bool.or_eq_false_iff.mp (Option.some.inj h)).2
  subst hfalse
  cases hlast : s.lastContextAt with
  | none =>
    rw [hlast] at hdue
    cases hdue
  | some last =>
    have hbefore : ¬t.tMs < last := fun hbefore => by
      rw [hlast, HeartbeatSchedule.due, if_pos hbefore] at hdue
      cases hdue
    rw [hlast, HeartbeatSchedule.due, if_neg hbefore] at hdue
    obtain ⟨deadline, hdeadline, hlate⟩ := Option.map_eq_some_iff.mp hdue
    rw [HeartbeatSchedule.deadline] at hdeadline
    split_ifs at hdeadline
    obtain rfl := Option.some.inj hdeadline
    exact ⟨last, rfl, UInt64.not_lt.mp hbefore, Nat.lt_of_not_le (of_decide_eq_false hlate)⟩

/-- One pass keeps the pace, and a context comes within the heartbeat of the last. -/
theorem Paced.look (h : Paced schedule v) (hlead : schedule.leadMs < schedule.heartbeatMs)
    (hprompt : l.Prompt schedule) (hlook : v.look same l = some (sent, v')) :
    Paced schedule v' ∧ v'.session.lastContextAt = sent.or v.session.lastContextAt ∧
      ∀ t ∈ sent, ∀ last ∈ v.session.lastContextAt,
        last ≤ t ∧ t.toNat ≤ last.toNat + schedule.heartbeatMs.toNat := by
  obtain ⟨nowMs, afterMs, lines, waitMs, hnow, hafter, htick, hsent, hwait, hnext, hlastTMs⟩ :=
    look_cases hlook
  obtain ⟨hschedule, hframe⟩ := tick_frame htick
  have hnowNat := toNat_monotonicMs hnow
  have hafterNat := toNat_monotonicMs hafter
  have hmax : (v.tick nowMs l).tMs = nowMs := by
    have hclock : v.lastTMs ≤ nowMs := UInt64.le_iff_toNat_le.mpr (hnowNat ▸ h.clock)
    show (if nowMs ≤ v.lastTMs then v.lastTMs else nowMs) = nowMs
    by_cases hle : nowMs ≤ v.lastTMs
    · rw [if_pos hle, UInt64.le_antisymm hclock hle]
    · exact if_neg hle
  have hlt := UInt64.lt_iff_toNat_lt.mp hlead
  rw [hmax] at hsent hframe hlastTMs
  have hgrow : nowMs ≤ afterMs := by
    rw [UInt64.le_iff_toNat_le, hnowNat, hafterNat]
    exact Nat.div_le_div_right (Nat.le_add_right _ _)
  have hnextMs {last : UInt64} (hlast : v'.session.lastContextAt = some last)
      (hpast : last ≤ nowMs) (hdeadline : nowMs.toNat ≤
        last.toNat + schedule.heartbeatMs.toNat - schedule.leadMs.toNat) :
      v'.nowNs / nsPerMs ≤ last.toNat + schedule.heartbeatMs.toNat := by
    have hle := wait_le hlast (UInt64.le_trans hpast hgrow) hwait
    rw [hschedule, h.sameSchedule, hafterNat] at hle
    rw [hnext]
    exact next_look_le hle hprompt (by omega) (by omega)
  have hclock : v'.lastTMs.toNat ≤ v'.nowNs / nsPerMs := by
    rw [hlastTMs, hnext, hnowNat]
    exact Nat.div_le_div_right (by omega)
  rcases hframe with ⟨hsends, hlast⟩ | ⟨hsends, hlast⟩
  · obtain ⟨-, rfl⟩ := hsent.resolve_right fun hsilent => by
      rw [hsilent.1] at hsends
      cases hsends
    refine ⟨⟨hschedule.trans h.sameSchedule, hclock, fun last hmem => ?_⟩, hlast, ?_⟩
    · obtain rfl := Option.some.inj (hlast.symm.trans hmem)
      rw [hlastTMs]
      exact ⟨UInt64.le_refl _, hnextMs hlast (UInt64.le_refl _) (by omega)⟩
    · intro t ht last hmem
      obtain rfl := Option.some.inj ht
      obtain ⟨hpast, hpace⟩ := h.last last hmem
      refine ⟨?_, hnowNat ▸ hpace⟩
      exact UInt64.le_trans hpast (UInt64.le_iff_toNat_le.mpr (hnowNat ▸ h.clock))
  · obtain ⟨-, rfl⟩ := hsent.resolve_left fun hspoken => by
      rw [hspoken.1] at hsends
      cases hsends
    refine ⟨⟨hschedule.trans h.sameSchedule, hclock, fun last hmem => ?_⟩, hlast, nofun⟩
    obtain ⟨last', hlast', hpast, hbefore⟩ := lt_of_silent hsends
    obtain rfl := Option.some.inj ((hlast.trans hlast').symm.trans hmem)
    rw [hmax] at hpast hbefore
    rw [h.sameSchedule] at hbefore
    rw [hlastTMs]
    exact ⟨hpast, hnextMs hmem hpast (by omega)⟩

/-- Two contexts of one connection in a row. -/
def WithinHeartbeat (schedule : HeartbeatSchedule) (t u : UInt64) : Prop :=
  t ≤ u ∧ u.toNat ≤ t.toNat + schedule.heartbeatMs.toNat

theorem Paced.serve (hlead : schedule.leadMs < schedule.heartbeatMs) {looks : List Look}
    (hprompt : ∀ l ∈ looks, l.Prompt schedule) (h : Paced schedule v) :
    (v.session.lastContextAt.toList ++ v.serve same looks).IsChain (WithinHeartbeat schedule) := by
  induction looks generalizing v with
  | nil => cases v.session.lastContextAt <;> simp [Serving.serve]
  | cons l looks ih =>
    obtain ⟨hl, hlooks⟩ := List.forall_mem_cons.mp hprompt
    rw [Serving.serve]
    cases hlook : v.look same l with
    | none => cases v.session.lastContextAt <;> simp
    | some out =>
      obtain ⟨sent, v'⟩ := out
      obtain ⟨hpaced, hlast, hwithin⟩ := h.look hlead hl hlook
      have hrest := ih hlooks hpaced
      cases sent with
      | none =>
        rw [hlast] at hrest
        exact hrest
      | some t =>
        rw [hlast] at hrest
        cases hbefore : v.session.lastContextAt with
        | none => exact hrest
        | some last => exact List.isChain_cons_cons.mpr ⟨hwithin t rfl last hbefore, hrest⟩

end Run

/-- The `tMs` of two contexts of one connection in a row are never more than a heartbeat apart. -/
theorem heartbeat_bound (same : WifiReadResult → WifiReadResult → Bool)
    (schedule : HeartbeatSchedule) (provider version : Text) (startNs : ℕ) (looks : List Look)
    (hlead : schedule.leadMs < schedule.heartbeatMs)
    (hprompt : ∀ l ∈ looks, l.durationNs + l.lateNs ≤ schedule.leadMs.toNat * nsPerMs) :
    ((Serving.start { ProviderSession.init provider version schedule.pollMs with schedule }
      startNs).serve same looks).IsChain fun t u =>
        t ≤ u ∧ u.toNat ≤ t.toNat + schedule.heartbeatMs.toNat := by
  have hstart : Paced schedule (.start
      { ProviderSession.init provider version schedule.pollMs with schedule } startNs) :=
    ⟨rfl, Nat.zero_le _, nofun⟩
  exact hstart.serve hlead hprompt

/-- A provider whose looks take 40 ms and whose wake-ups are 50 ms late. -/
def slowLooks : List Look :=
  List.replicate 5
    { permission := .denied, read := .noInterface, durationNs := 40000000, lateNs := 50000000 }

theorem heartbeat_bound_slow :
    let contexts := (Serving.start (ProviderSession.init (text "App") (text "1") 250) 0).serve
      (fun read read' => decide (read = read')) slowLooks
    contexts = [0, 950] ∧ contexts.IsChain fun t u => t ≤ u ∧ u.toNat ≤ t.toNat + 1000 :=
  ⟨by decide +kernel, heartbeat_bound (fun read read' => decide (read = read')) (.init 1000 250)
    (text "App") (text "1") 0 slowLooks (by decide) (by decide)⟩

end CydMonitor.Wifi
